import Moonlight.UtxoCore
import Moonlight.Foundations.Runs

namespace Moonlight
open Foundations

variable {Digest W : Type} [DecidableEq Digest]

structure ChannelOperation where
  spend : List (BytesN 65 × List Condition)
  create : List (BytesN 65 × I128)
  deposit : List (Address × I128 × List Condition)
  withdraw : List (Address × I128 × List Condition)
deriving DecidableEq

/-- Storage of the channel. `utxo` holds the persistent entries and the
`UTXO_AUTH` key, `guard` is the temporary `RGUARD` flag, the rest is instance
storage. -/
structure Channel (Digest : Type) where
  utxo : UtxoState Digest
  owner : Option Address
  asset : Option Address
  supply : Option I128
  liveUntil : ℕ
  guard : Bool

structure Transfer where
  payer : Address
  payee : Address
  amount : I128
deriving DecidableEq

/-- The channel at its address, the state of the asset contract, and the
transfers the channel has asked the asset for. -/
structure World (Digest W : Type) where
  self : Address
  channel : Channel Digest
  assetState : W
  transfers : List Transfer

/-- A call of the asset contract at the given address. Acting on the whole
world, it may stand for an asset that calls back. -/
abbrev AssetTransfer (Digest W : Type) :=
  Address → Transfer → World Digest W → Except Failure (World Digest W)

def Channel.readSupply (c : Channel Digest) : I128 := c.supply.getD 0

def increaseSupply (c : Channel Digest) (amount : I128) : Except Failure (Channel Digest) := do
  let newSupply ← okOr (c.readSupply.checkedAdd amount) (.contract .amountOverflow)
  pure { c with supply := some newSupply }

def decreaseSupply (c : Channel Digest) (amount : I128) : Except Failure (Channel Digest) := do
  let newSupply ← okOr (c.readSupply.checkedSub amount) (.contract .amountUnderflow)
  pure { c with supply := some newSupply }

/-- The loop of `op_has_no_conflicting_conditions`. -/
def noConflicts (verified : List Condition) : List Condition → Bool
  | [] => true
  | c :: cs =>
    if conditionDoesNotConflictWithSet c verified then noConflicts (verified ++ [c]) cs else false

def opHasNoConflictingConditions (op : ChannelOperation) : Bool :=
  noConflicts [] (op.spend.flatMap (·.2) ++ op.deposit.flatMap (·.2.2) ++
    op.withdraw.flatMap (·.2.2))

/-- The body of the two loops that add up deposits and withdraws. -/
def totalStep (total : I128) (entry : Address × I128 × List Condition) : Except Failure I128 := do
  assertWithError (0 < entry.2.1.toInt) .invalidExternalAmount
  okOr (total.checkedAdd entry.2.1) (.contract .amountOverflow)

def verifyExternalOperations (H : Host Digest)
    (deposit withdraw : List (Address × I128 × List Condition)) : Except Failure Unit := do
  assertWithError (noDuplicateAddresses deposit Prod.fst = true) .repeatedAccountForDeposit
  assertWithError (noDuplicateAddresses withdraw Prod.fst = true) .repeatedAccountForWithdraw
  deposit.forM fun d => withdraw.forM fun w =>
    assertWithError (d.1 = w.1 → equalConditionSequence H d.2.2 w.2.2 = true)
      .conflictingConditionsForAccount

def isExecutionBound : Condition → Bool
  | .create _ _ => true
  | .extWithdraw _ _ => true
  | _ => false

/-- The inner loop of both `collect_authorized_effects` functions. -/
def collectBound (H : Host Digest) (set : Finset Bytes) (conditions : List Condition) :
    Finset Bytes :=
  conditions.foldl
    (fun set cond => if isExecutionBound cond then insert (H.conditionToXdr cond) set else set) set

def collectAuthorizedEffects (H : Host Digest) (set : Finset Bytes)
    (spend : List (BytesN 65 × List Condition)) : Finset Bytes :=
  spend.foldl (fun set entry => collectBound H set entry.2) set

def collectAuthorizedEffectsFromExternal (H : Host Digest) (set : Finset Bytes)
    (external : List (Address × I128 × List Condition)) : Finset Bytes :=
  external.foldl (fun set entry => collectBound H set entry.2.2) set

def assertSignedEffectsAreExecuted (H : Host Digest) (op : ChannelOperation) :
    Except Failure Unit :=
  let authorized := collectAuthorizedEffectsFromExternal H
    (collectAuthorizedEffects H ∅ op.spend) op.deposit
  let created := op.create.foldl
    (fun set entry => insert (H.conditionToXdr (.create entry.1 entry.2)) set) (∅ : Finset Bytes)
  let executed := op.withdraw.foldl
    (fun set entry => insert (H.conditionToXdr (.extWithdraw entry.1 entry.2.1)) set) created
  assertWithError (∀ key ∈ authorized, key ∈ executed) .unauthorizedOperation

def preProcessChannelOperation (H : Host Digest) (op : ChannelOperation) :
    Except Failure (InternalBundle × I128 × I128) := do
  assertWithError (opHasNoConflictingConditions op = true) .bundleHasConflictingConditions
  let totalDeposit ← op.deposit.foldlM totalStep 0
  let totalWithdraw ← op.withdraw.foldlM totalStep 0
  verifyExternalOperations H op.deposit op.withdraw
  assertSignedEffectsAreExecuted H op
  pure (⟨op.spend.map Prod.fst, op.create, calculateAuthRequirements op.spend⟩,
    totalDeposit, totalWithdraw)

/-- A call of the asset, recorded once it has returned. -/
def callTransfer (asset : Transfer → World Digest W → Except Failure (World Digest W))
    (t : Transfer) (w : World Digest W) : Except Failure (World Digest W) := do
  let w ← asset t w
  pure { w with transfers := w.transfers ++ [t] }

def depositStep (requireAuth : RequireAuth)
    (asset : Transfer → World Digest W → Except Failure (World Digest W)) (w : World Digest W)
    (entry : Address × I128 × List Condition) : Except Failure (World Digest W) := do
  ensure (requireAuth entry.1 [.conditions entry.2.2] = true) .unauthorized
  let w ← callTransfer asset ⟨entry.1, w.self, entry.2.1⟩ w
  let channel ← increaseSupply w.channel entry.2.1
  pure { w with channel := channel }

/-- The withdraw loop body. The channel authorizes the transfer itself. -/
def withdrawStep (asset : Transfer → World Digest W → Except Failure (World Digest W))
    (w : World Digest W) (entry : Address × I128 × List Condition) :
    Except Failure (World Digest W) := do
  let w ← callTransfer asset ⟨w.self, entry.1, entry.2.1⟩ w
  let channel ← decreaseSupply w.channel entry.2.1
  pure { w with channel := channel }

def executeExternalOperations (requireAuth : RequireAuth) (asset : AssetTransfer Digest W)
    (w : World Digest W) (deposit withdraw : List (Address × I128 × List Condition)) :
    Except Failure (World Digest W) := do
  let address ← okOr w.channel.asset .unwrapNone
  let w ← deposit.foldlM (depositStep requireAuth (asset address)) w
  withdraw.foldlM (withdrawStep (asset address)) w

def enterReentrancyGuard (c : Channel Digest) : Except Failure (Channel Digest) := do
  assertWithError (c.guard = false) .reentrantCall
  pure { c with guard := true }

def exitReentrancyGuard (c : Channel Digest) : Channel Digest := { c with guard := false }

/-- The channel links `utxo-core` with both event features off. -/
def channelFeatures : Features := ⟨true, true⟩

/-- `transact` up to and including `process_bundle`. -/
def processOperation (H : Host Digest) (now : U32) (requireAuth : RequireAuth)
    (c : Channel Digest) (op : ChannelOperation) : Except Failure (Channel Digest) := do
  let c ← enterReentrancyGuard { c with liveUntil := bumpInstanceTtl now c.liveUntil }
  let pre ← preProcessChannelOperation H op
  let result ← processBundle H channelFeatures now requireAuth c.utxo pre.1 pre.2.1 pre.2.2
  pure { c with utxo := result.2 }

/-- `transact`, with the asset contract as a parameter. -/
def transactWith (H : Host Digest) (now : U32) (requireAuth : RequireAuth)
    (asset : AssetTransfer Digest W) (w : World Digest W) (op : ChannelOperation) :
    Except Failure (World Digest W) := do
  let c ← processOperation H now requireAuth w.channel op
  let w ← executeExternalOperations requireAuth asset { w with channel := c } op.deposit op.withdraw
  pure { w with channel := exitReentrancyGuard w.channel }

/-- `__constructor`; `adminAuth` is the verdict of `enforce_owner_auth`. A new
instance starts with the network's minimum life. -/
def construct (H : Host Digest) (now : U32) (adminAuth : Bool)
    (admin authContract asset : Address) : Except Failure (Channel Digest) := do
  ensure (adminAuth = true) .unauthorized
  pure {
    utxo := ⟨∅, some authContract, []⟩
    owner := some admin
    asset := some asset
    supply := none
    liveUntil := bumpInstanceTtl now (now.val + H.newPersistentLife)
    guard := false }

/-- What the host decides in one invocation: the ledger, who has authorized
what, and how the asset answers. The host lets no contract call back. -/
structure Invocation (W : Type) where
  sequence : U32
  requireAuth : RequireAuth
  transfer : Address → Transfer → W → Except Failure W

def Invocation.asset (inv : Invocation W) : AssetTransfer Digest W := fun address t w => do
  let state ← inv.transfer address t w.assetState
  pure { w with assetState := state }

def transact (H : Host Digest) (inv : Invocation W) (w : World Digest W) (op : ChannelOperation) :
    Except Failure (World Digest W) :=
  transactWith H inv.sequence inv.requireAuth inv.asset w op

structure Call (W : Type) where
  inv : Invocation W
  op : ChannelOperation

def Call.exec (H : Host Digest) (w : World Digest W) (c : Call W) :
    Except Failure (World Digest W) := transact H c.inv w c.op

/-- A freshly constructed channel; the asset contract may be in any state. -/
def Deployed (H : Host Digest) (w : World Digest W) : Prop :=
  w.transfers = [] ∧
    ∃ now admin authContract asset, construct H now true admin authContract asset = .ok w.channel

/-- States reached from a deployment by any calls, failed ones rolled back. -/
def Reachable (H : Host Digest) (w : World Digest W) : Prop :=
  ∃ w₀ : World Digest W, Deployed H w₀ ∧ ∃ calls : List (Call W), w = run (Call.exec H) w₀ calls

end Moonlight
