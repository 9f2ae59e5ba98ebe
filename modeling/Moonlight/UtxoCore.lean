import Moonlight.Storage

namespace Moonlight
open Foundations

variable {Digest : Type} [DecidableEq Digest]

inductive UtxoAction
  | spend
  | create
deriving DecidableEq

/-- `UtxoEvent` and `BundleEvent`. -/
inductive Event
  | utxo (key : BytesN 65) (action : UtxoAction) (amount : I128)
  | bundle (spend : List (BytesN 65)) (create : List (BytesN 65 × I128))
      (deposited withdrawn : I128)
deriving DecidableEq

/-- Cargo features of `utxo-core`. -/
structure Features where
  noUtxoEvents : Bool
  noBundleEvents : Bool

structure InternalBundle where
  spend : List (BytesN 65)
  create : List (BytesN 65 × I128)
  req : AuthRequirements

/-- What `UtxoHandlerTrait` reads and writes: the UTXO entries, the
`UTXO_AUTH` address and the events published so far. -/
structure UtxoState (Digest : Type) where
  store : Store Digest
  auth : Option Address
  events : List Event

/-- `address.require_auth_for_args(args)`: whether the host accepts it. -/
abbrev RequireAuth := Address → List Val → Bool

def UtxoState.publishUtxo (F : Features) (s : UtxoState Digest) (key : BytesN 65)
    (action : UtxoAction) (amount : I128) : UtxoState Digest :=
  if F.noUtxoEvents then s else { s with events := s.events ++ [.utxo key action amount] }

def UtxoState.publishBundle (F : Features) (s : UtxoState Digest) (bundle : InternalBundle)
    (incomingAmount expectedOutgoing : I128) : UtxoState Digest :=
  if F.noBundleEvents then s
  else { s with
    events := s.events ++ [.bundle bundle.spend bundle.create incomingAmount expectedOutgoing] }

/-- The three-way match on a balance in `process_bundle` and
`verify_utxo_unspent`. -/
def unspentAmount (balance : I128) : Except Failure I128 :=
  if 0 < balance.toInt then
    .ok balance
  else if balance = 0 then
    .error (.contract .utxoAlreadySpent)
  else
    .error (.contract .utxoDoesNotExist)

/-- One pass of the spend loop; the pair holds the state and
`total_available_balance`. -/
def spendStep (H : Host Digest) (F : Features) (now : U32) (acc : UtxoState Digest × I128)
    (spendUtxo : BytesN 65) : Except Failure (UtxoState Digest × I128) := do
  let read := acc.1.store.balance H now spendUtxo
  let amount ← unspentAmount read.1
  let spent ← read.2.spend H now spendUtxo
  let total ← acc.2.add amount
  pure (UtxoState.publishUtxo F { acc.1 with store := spent.2 } spendUtxo .spend amount, total)

def createStep (H : Host Digest) (F : Features) (now : U32) (acc : UtxoState Digest × I128)
    (entry : BytesN 65 × I128) : Except Failure (UtxoState Digest × I128) := do
  let read := acc.1.store.balance H now entry.1
  assertWithError (read.1 = .negOne) .utxoAlreadyExists
  assertWithError (0 < entry.2.toInt) .invalidCreateAmount
  let store ← read.2.create H now entry.1 entry.2
  let total ← acc.2.sub entry.2
  pure (UtxoState.publishUtxo F { acc.1 with store := store } entry.1 .create entry.2, total)

/-- The arguments handed to the auth contract: empty when nothing is spent. -/
def authArgs (req : AuthRequirements) : List Val :=
  if req = ∅ then [] else [.requirements req]

def processBundle (H : Host Digest) (F : Features) (now : U32) (requireAuth : RequireAuth)
    (s : UtxoState Digest) (bundle : InternalBundle) (incomingAmount expectedOutgoing : I128) :
    Except Failure (I128 × UtxoState Digest) := do
  assertWithError (noDuplicateKeys bundle.spend id = true) .repeatedSpendUtxo
  assertWithError (noDuplicateKeys bundle.create Prod.fst = true) .repeatedCreateUtxo
  let auth ← okOr s.auth (.contract .authContractNotSet)
  ensure (requireAuth auth (authArgs bundle.req) = true) .unauthorized
  let spent ← bundle.spend.foldlM (spendStep H F now) (s, incomingAmount)
  let created ← bundle.create.foldlM (createStep H F now) spent
  assertWithError (created.2 = expectedOutgoing) .unbalancedBundle
  pure (created.2, created.1.publishBundle F bundle incomingAmount expectedOutgoing)

def utxoBalance (H : Host Digest) (now : U32) (s : UtxoState Digest) (utxo : BytesN 65) :
    I128 × UtxoState Digest :=
  let read := s.store.balance H now utxo
  (read.1, { s with store := read.2 })

/-- `utxo_balances`. Every read may refresh the life of its entry. -/
def utxoBalances (H : Host Digest) (now : U32) (s : UtxoState Digest) (utxos : List (BytesN 65)) :
    List I128 × UtxoState Digest :=
  utxos.foldl (fun acc u =>
    let read := utxoBalance H now acc.2 u
    (acc.1 ++ [read.1], read.2)) ([], s)

namespace UtxoState

def verifyUtxoNotExists (H : Host Digest) (now : U32) (s : UtxoState Digest) (utxo : BytesN 65) :
    Except Failure (UtxoState Digest) := do
  let read := s.store.balance H now utxo
  assertWithError (read.1 = .negOne) .utxoAlreadyExists
  pure { s with store := read.2 }

def verifyUtxoUnspent (H : Host Digest) (now : U32) (s : UtxoState Digest) (utxo : BytesN 65) :
    Except Failure (I128 × UtxoState Digest) := do
  let read := s.store.balance H now utxo
  let amount ← unspentAmount read.1
  pure (amount, { s with store := read.2 })

def uncheckedCreate (H : Host Digest) (F : Features) (now : U32) (s : UtxoState Digest)
    (amount : I128) (utxo : BytesN 65) : Except Failure (UtxoState Digest) := do
  let store ← s.store.create H now utxo amount
  pure (publishUtxo F { s with store := store } utxo .create amount)

/-- The event reports the amount the caller hands in. -/
def uncheckedSpend (H : Host Digest) (F : Features) (now : U32) (s : UtxoState Digest)
    (utxo : BytesN 65) (amount : I128) : Except Failure (UtxoState Digest) := do
  let spent ← s.store.spend H now utxo
  pure (publishUtxo F { s with store := spent.2 } utxo .spend amount)

def create (H : Host Digest) (F : Features) (now : U32) (s : UtxoState Digest) (amount : I128)
    (utxo : BytesN 65) : Except Failure (UtxoState Digest) := do
  let s ← s.verifyUtxoNotExists H now utxo
  assertWithError (0 < amount.toInt) .invalidCreateAmount
  s.uncheckedCreate H F now amount utxo

def spend (H : Host Digest) (F : Features) (now : U32) (s : UtxoState Digest) (utxo : BytesN 65) :
    Except Failure (I128 × UtxoState Digest) := do
  let unspent ← s.verifyUtxoUnspent H now utxo
  let s ← unspent.2.uncheckedSpend H F now utxo unspent.1
  pure (unspent.1, s)

end UtxoState

/-- `calculate_auth_requirements`. A later entry of the same key overwrites an
earlier one. -/
def calculateAuthRequirements (p256 : List (BytesN 65 × List Condition)) : AuthRequirements :=
  p256.foldl (fun req entry => req.insert (.p256 entry.1) entry.2) ∅

end Moonlight
