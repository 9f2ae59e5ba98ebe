import Moonlight.Channel
import Moonlight.Auth

namespace Moonlight
open Foundations

variable {Digest : Type}

inductive BuilderPanic
  | utxoInSpendList
  | spendConflict
  | utxoInCreateList
  | createConflict
  | utxoNotInSpendList
  | spendSigned
  | ed25519Signed
  | providerSigned
  | spendUnsigned
  | providerUnsigned
  | depositIncluded
  | depositConflict
  | depositMismatch
  | depositWithdrawConflict
  | withdrawIncluded
  | withdrawConflict
  | withdrawMismatch
  | withdrawDepositConflict
  | addressNotListed
  | depositorSigned
  | depositorNotListed
  | depositorUnsigned
deriving DecidableEq

def BuilderPanic.message : BuilderPanic → String
  | utxoInSpendList => "UTXO already included in spend list"
  | spendConflict => "Conflicting conditions with existing spend UTXO"
  | utxoInCreateList => "UTXO already included in create list"
  | createConflict => "Create condition conflicts with existing spend UTXO"
  | utxoNotInSpendList => "UTXO not found in spend list"
  | spendSigned => "Signature for this UTXO already added"
  | ed25519Signed => "Signature for this Ed25519 key already added"
  | providerSigned => "Provider signature already included"
  | spendUnsigned => "Not all required spend signatures have been added"
  | providerUnsigned => "Provider signature is required but not included"
  | depositIncluded => "Deposit already included for address"
  | depositConflict => "New deposit conditions conflict with existing deposit conditions"
  | depositMismatch => "Conditions don't match conditions for this address in the withdraw list"
  | depositWithdrawConflict => "New deposit conditions conflict with existing withdraw conditions"
  | withdrawIncluded => "Withdraw already included for address"
  | withdrawConflict => "New withdraw conditions conflict with existing withdraw conditions"
  | withdrawMismatch => "Conditions don't match conditions for this address in the deposit list"
  | withdrawDepositConflict => "New withdraw conditions conflict with existing deposit conditions"
  | addressNotListed => "Address not found in deposit or withdraw list"
  | depositorSigned => "Signature for this depositor address already added"
  | depositorNotListed => "Depositor address not found in deposit list"
  | depositorUnsigned => "No signature found for this depositor address"

inductive BuilderFailure
  | panic (p : BuilderPanic)
  | contract (e : MoonlightError)
deriving DecidableEq

def demand (p : Prop) [Decidable p] (e : BuilderPanic) : Except BuilderFailure Unit :=
  if p then .ok () else .error (.panic e)

/-- `address_to_ed25519_pk_bytes`, on the two payloads an address can have. -/
def addressToEd25519PkBytes : Address → Except BuilderFailure (BytesN 32)
  | .account pk => .ok pk
  | .contract _ => .error (.contract .notEd25519AccountAddress)

structure UTXOOperation where
  spend : List (BytesN 65 × List Condition)
  create : List (BytesN 65 × I128)
deriving DecidableEq

structure UtxoOperationBuilder where
  channelContract : Address
  authContract : Address
  spend : List (BytesN 65 × List Condition)
  create : List (BytesN 65 × I128)
  signMap : Signatures

/-- The root of an authorization tree: the call that is authorized, and the
transfers below it. -/
structure AuthorizedInvocation where
  contract : Address
  functionName : String
  args : List Val
  transfers : List (Address × Transfer)
deriving DecidableEq

/-- `SorobanAuthorizationEntry`, with the credentials of one address. -/
structure AuthorizationEntry (Sig : Type) where
  address : Address
  nonce : ℤ
  signatureExpirationLedger : U32
  signature : Sig
  rootInvocation : AuthorizedInvocation

/-- The XDR of `HashIdPreimage::SorobanAuthorization` and its digest, for one
network. -/
abbrev EntryHash (Digest : Type) := ℤ → U32 → AuthorizedInvocation → Digest

namespace UtxoOperationBuilder

variable (b : UtxoOperationBuilder)

def generate (channelContract authContract : Address) : UtxoOperationBuilder :=
  ⟨channelContract, authContract, [], [], ∅⟩

def getOperationBundle : UTXOOperation := ⟨b.spend, b.create⟩

def addSpend (utxo : BytesN 65) (conditions : List Condition) :
    Except BuilderFailure UtxoOperationBuilder := do
  b.spend.forM fun e => do
    demand (¬ e.1 = utxo) .utxoInSpendList
    demand (hasNoConflictingConditionsInSets conditions e.2 = true) .spendConflict
  pure { b with spend := b.spend ++ [(utxo, conditions)] }

def addCreate (utxo : BytesN 65) (amount : I128) : Except BuilderFailure UtxoOperationBuilder := do
  b.create.forM fun e => demand (¬ e.1 = utxo) .utxoInCreateList
  let condition := Condition.create utxo amount
  b.spend.forM fun e =>
    demand (conditionDoesNotConflictWithSet condition e.2 = true) .createConflict
  pure { b with create := b.create ++ [(utxo, amount)] }

def getAuthPayloadForSpend (utxo : BytesN 65) (liveUntilLedger : U32) :
    Except BuilderFailure AuthPayload :=
  match b.spend.find? fun e => e.1 = utxo with
  | some e => .ok ⟨e.2, liveUntilLedger⟩
  | none => .error (.panic .utxoNotInSpendList)

def getAuthHashForSpend (H : Host Digest) (utxo : BytesN 65) (liveUntilLedger : U32) :
    Except BuilderFailure Digest := do
  let payload ← b.getAuthPayloadForSpend utxo liveUntilLedger
  pure (hashPayload H payload (H.addressToString b.channelContract))

def hasSignatureForEd25519 (publicKey : BytesN 32) : Bool := SignerKey.ed25519 publicKey ∈ b.signMap

def hasSignatureForSpendUtxo (spendUtxo : BytesN 65) : Bool := SignerKey.p256 spendUtxo ∈ b.signMap

def hasSignatureForProvider : Bool := (sortedKeys b.signMap).any SignerKey.isProvider

def hasAllRequiredSpendSignatures : Bool := b.spend.all fun e => b.hasSignatureForSpendUtxo e.1

def addSpendSignature (spendUtxo : BytesN 65) (signature : BytesN 64) (liveUntilLedger : U32) :
    Except BuilderFailure UtxoOperationBuilder := do
  demand (¬ b.hasSignatureForSpendUtxo spendUtxo = true) .spendSigned
  pure { b with
    signMap := b.signMap.insert (.p256 spendUtxo) (.p256 signature, liveUntilLedger) }

def addEd25519Signature (publicKey : BytesN 32) (signature : BytesN 64) (liveUntilLedger : U32) :
    Except BuilderFailure UtxoOperationBuilder := do
  demand (¬ b.hasSignatureForEd25519 publicKey = true) .ed25519Signed
  pure { b with
    signMap := b.signMap.insert (.ed25519 publicKey) (.ed25519 signature, liveUntilLedger) }

def addProviderSignature (providerAddress : Address) (signature : BytesN 64)
    (liveUntilLedger : U32) : Except BuilderFailure UtxoOperationBuilder := do
  demand (¬ b.hasSignatureForProvider = true) .providerSigned
  let providerBytes ← addressToEd25519PkBytes providerAddress
  pure { b with
    signMap := b.signMap.insert (.provider providerBytes) (.ed25519 signature, liveUntilLedger) }

def buildSignatures : Except BuilderFailure Signatures := do
  demand (b.hasAllRequiredSpendSignatures = true) .spendUnsigned
  demand (b.hasSignatureForProvider = true) .providerUnsigned
  pure b.signMap

def getContractAuthArgs : List Val :=
  let authReq := calculateAuthRequirements b.spend
  if authReq = ∅ then [] else [.requirements authReq]

def getRootInvocation : AuthorizedInvocation :=
  ⟨b.channelContract, "transact", b.getContractAuthArgs, []⟩

def getAuthEntryPayloadHashForBundle (hash : EntryHash Digest) (nonce : ℤ)
    (signatureExpirationLedger : U32) : Digest :=
  hash nonce signatureExpirationLedger b.getRootInvocation

def getAuthEntry (nonce : ℤ) (signatureExpirationLedger : U32) :
    Except BuilderFailure (AuthorizationEntry Signatures) := do
  let signature ← b.buildSignatures
  pure ⟨b.authContract, nonce, signatureExpirationLedger, signature, b.getRootInvocation⟩

end UtxoOperationBuilder

structure AccountEd25519Signature where
  publicKey : BytesN 32
  signature : BytesN 64
deriving DecidableEq

structure ChannelOperationBuilder where
  utxoBuilder : UtxoOperationBuilder
  deposit : List (Address × I128 × List Condition)
  withdraw : List (Address × I128 × List Condition)
  asset : Address
  depositSignMap : Finmap fun _ : Address => AccountEd25519Signature

namespace ChannelOperationBuilder

variable (b : ChannelOperationBuilder)

def generate (channelContract authContract asset : Address) : ChannelOperationBuilder :=
  ⟨.generate channelContract authContract, [], [], asset, ∅⟩

structure ExternalPanics where
  included : BuilderPanic
  conflict : BuilderPanic
  mismatch : BuilderPanic
  crossConflict : BuilderPanic

/-- The two loops of `add_deposit` and `add_withdraw`: over the list that is added
to, and over the other one. -/
def checkExternal (H : Host Digest) (e : ExternalPanics)
    (same other : List (Address × I128 × List Condition)) (address : Address)
    (conditions : List Condition) : Except BuilderFailure Unit := do
  same.forM fun x => do
    demand (¬ x.1 = address) e.included
    demand (hasNoConflictingConditionsInSets conditions x.2.2 = true) e.conflict
  other.forM fun x => do
    demand (x.1 = address → equalConditionSequence H x.2.2 conditions = true) e.mismatch
    demand (hasNoConflictingConditionsInSets conditions x.2.2 = true) e.crossConflict

def depositPanics : ExternalPanics :=
  ⟨.depositIncluded, .depositConflict, .depositMismatch, .depositWithdrawConflict⟩

def withdrawPanics : ExternalPanics :=
  ⟨.withdrawIncluded, .withdrawConflict, .withdrawMismatch, .withdrawDepositConflict⟩

def addDeposit (H : Host Digest) (address : Address) (amount : I128)
    (conditions : List Condition) : Except BuilderFailure ChannelOperationBuilder := do
  checkExternal H depositPanics b.deposit b.withdraw address conditions
  pure { b with deposit := b.deposit ++ [(address, amount, conditions)] }

def addWithdraw (H : Host Digest) (address : Address) (amount : I128)
    (conditions : List Condition) : Except BuilderFailure ChannelOperationBuilder := do
  checkExternal H withdrawPanics b.withdraw b.deposit address conditions
  pure { b with withdraw := b.withdraw ++ [(address, amount, conditions)] }

def getOperationBundle : ChannelOperation :=
  ⟨b.utxoBuilder.spend, b.utxoBuilder.create, b.deposit, b.withdraw⟩

/-- The first deposit of the address, or else its first withdraw. -/
def getAuthPayloadForAddress (address : Address) (liveUntilLedger : U32) :
    Except BuilderFailure AuthPayload :=
  match (b.deposit ++ b.withdraw).find? fun e => e.1 = address with
  | some e => .ok ⟨e.2.2, liveUntilLedger⟩
  | none => .error (.panic .addressNotListed)

def getAuthHashForAddress (H : Host Digest) (address : Address) (liveUntilLedger : U32) :
    Except BuilderFailure Digest := do
  let payload ← b.getAuthPayloadForAddress address liveUntilLedger
  pure (hashPayload H payload (H.addressToString b.utxoBuilder.channelContract))

def hasDepositSignatureForAddress (publicKey : Address) : Bool := publicKey ∈ b.depositSignMap

def addDepositSignature (publicKey : Address) (signature : AccountEd25519Signature) :
    Except BuilderFailure ChannelOperationBuilder := do
  demand (¬ b.hasDepositSignatureForAddress publicKey = true) .depositorSigned
  pure { b with depositSignMap := b.depositSignMap.insert publicKey signature }

def getContractDepositAuthArgs (depositor : Address) :
    Except BuilderFailure (List Val × Transfer) :=
  match b.deposit.find? fun e => e.1 = depositor with
  | some e =>
    let rootArgs := if e.2.2 = [] then [] else [.conditions e.2.2]
    .ok (rootArgs, ⟨depositor, b.utxoBuilder.channelContract, e.2.1⟩)
  | none => .error (.panic .depositorNotListed)

def getDepositRootInvocation (depositor : Address) :
    Except BuilderFailure AuthorizedInvocation := do
  let args ← b.getContractDepositAuthArgs depositor
  pure ⟨b.utxoBuilder.channelContract, "transact", args.1, [(b.asset, args.2)]⟩

def getAuthEntryPayloadHashForDeposit (hash : EntryHash Digest) (depositor : Address)
    (nonce : ℤ) (signatureExpirationLedger : U32) : Except BuilderFailure Digest := do
  let invocation ← b.getDepositRootInvocation depositor
  pure (hash nonce signatureExpirationLedger invocation)

def getDepositSignature (publicKey : Address) : Except BuilderFailure AccountEd25519Signature :=
  match b.depositSignMap.lookup publicKey with
  | some signature => .ok signature
  | none => .error (.panic .depositorUnsigned)

def getAuthEntryForDeposit (depositor : Address) (nonce : ℤ)
    (signatureExpirationLedger : U32) :
    Except BuilderFailure (AuthorizationEntry (List AccountEd25519Signature)) := do
  let signature ← b.getDepositSignature depositor
  let rootInvocation ← b.getDepositRootInvocation depositor
  pure ⟨depositor, nonce, signatureExpirationLedger, [signature], rootInvocation⟩

end ChannelOperationBuilder

/-- The calls that change a builder; the first five are its `utxo_builder`'s. -/
inductive BuilderCall
  | addSpend (utxo : BytesN 65) (conditions : List Condition)
  | addCreate (utxo : BytesN 65) (amount : I128)
  | addSpendSignature (spendUtxo : BytesN 65) (signature : BytesN 64) (liveUntilLedger : U32)
  | addEd25519Signature (publicKey : BytesN 32) (signature : BytesN 64) (liveUntilLedger : U32)
  | addProviderSignature (providerAddress : Address) (signature : BytesN 64)
      (liveUntilLedger : U32)
  | addDeposit (address : Address) (amount : I128) (conditions : List Condition)
  | addWithdraw (address : Address) (amount : I128) (conditions : List Condition)
  | addDepositSignature (publicKey : Address) (signature : AccountEd25519Signature)

/-- A call through `Deref`: it reaches the builder inside. -/
def ChannelOperationBuilder.onUtxos (b : ChannelOperationBuilder)
    (u : Except BuilderFailure UtxoOperationBuilder) :
    Except BuilderFailure ChannelOperationBuilder := do
  let u ← u
  pure { b with utxoBuilder := u }

def BuilderCall.exec (H : Host Digest) (b : ChannelOperationBuilder) :
    BuilderCall → Except BuilderFailure ChannelOperationBuilder
  | addSpend utxo conditions => b.onUtxos (b.utxoBuilder.addSpend utxo conditions)
  | addCreate utxo amount => b.onUtxos (b.utxoBuilder.addCreate utxo amount)
  | addSpendSignature spendUtxo signature liveUntilLedger =>
    b.onUtxos (b.utxoBuilder.addSpendSignature spendUtxo signature liveUntilLedger)
  | addEd25519Signature publicKey signature liveUntilLedger =>
    b.onUtxos (b.utxoBuilder.addEd25519Signature publicKey signature liveUntilLedger)
  | addProviderSignature providerAddress signature liveUntilLedger =>
    b.onUtxos (b.utxoBuilder.addProviderSignature providerAddress signature liveUntilLedger)
  | addDeposit address amount conditions => b.addDeposit H address amount conditions
  | addWithdraw address amount conditions => b.addWithdraw H address amount conditions
  | addDepositSignature publicKey signature => b.addDepositSignature publicKey signature

end Moonlight
