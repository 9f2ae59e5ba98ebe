import Moonlight.Token
import Moonlight.Storage

namespace Moonlight
open Foundations

/-- How many ledgers beyond the current one a new entry lives, and the most that
any entry may. The network counts the current ledger too, so each is one less
than its setting. -/
structure EntryLimits where
  newPersistentLife : ℕ
  newTemporaryLife : ℕ
  longestLife : ℕ

/-- How a call of the token ends without committing. The host refuses to extend
a temporary entry past the network's maximum. -/
inductive TokenTrap
  | failure (f : Failure)
  | pastMaxLiveUntil
deriving DecidableEq

/-- A step that can only fail as the balance-level model does. -/
def hosted {α : Type} : Except Failure α → Except TokenTrap α
  | .ok a => .ok a
  | .error f => .error (.failure f)

section Hosted

variable {α β : Type} {x : Except Failure α} {a : α} {p : Prop} [Decidable p] {f : Failure}

@[simp] theorem hosted_eq_ok : hosted x = .ok a ↔ x = .ok a := by
  cases x <;> simp [hosted]

theorem hosted_ne_pastMax : hosted x ≠ .error .pastMaxLiveUntil := by
  cases x <;> simp [hosted]

theorem hosted_bind (x : Except Failure α) (f : α → Except Failure β) :
    hosted (x >>= f) = hosted x >>= fun a => hosted (f a) := by
  cases x <;> rfl

end Hosted

structure AllowanceEntry where
  value : AllowanceValue
  liveUntil : ℕ
deriving DecidableEq

structure MuxedAddress where
  address : Address
  id : Option (Fin (2 ^ 64))
deriving DecidableEq

/-- `SetAdmin` and the standard token events. `mint` publishes none. -/
inductive TokenEvent
  | setAdmin (admin newAdmin : Address)
  | approve (owner spender : Address) (amount : I128) (expirationLedger : U32)
  | transfer (payer payee : Address) (payeeMuxedId : Option (Fin (2 ^ 64))) (amount : I128)
  | burn (owner : Address) (amount : I128)
deriving DecidableEq

structure TokenStorage where
  admin : Option Address
  metadata : TokenMetadata
  liveUntil : ℕ
  balances : Finmap fun _ : Address => Entry
  allowances : Finmap fun _ : Address × Address => AllowanceEntry
  events : List TokenEvent

def balanceBumpAmount : ℕ := 30 * dayInLedgers

def balanceLifetimeThreshold : ℕ := balanceBumpAmount - dayInLedgers

namespace TokenStorage

variable (N : EntryLimits) (now : U32) (st : TokenStorage)

/-- The instance `extend_ttl` of every entrypoint. -/
def bumpInstance : TokenStorage :=
  let life := extendTtlUpTo N.longestLife now.val instanceLifetimeThreshold instanceBumpAmount
    st.liveUntil
  { st with liveUntil := life }

def publish (e : TokenEvent) : TokenStorage := { st with events := st.events ++ [e] }

/-- `persistent().set`. -/
def setBalance (addr : Address) (amount : I128) : TokenStorage :=
  let life := ((st.balances.lookup addr).map Entry.liveUntil).getD (now.val + N.newPersistentLife)
  { st with balances := st.balances.insert addr ⟨amount, life⟩ }

/-- `persistent().extend_ttl`. -/
def bumpBalance (addr : Address) : TokenStorage :=
  match st.balances.lookup addr with
  | some e =>
    let life := extendTtlUpTo N.longestLife now.val balanceLifetimeThreshold balanceBumpAmount
      e.liveUntil
    { st with balances := st.balances.insert addr ⟨e.amount, life⟩ }
  | none => st

def readBalance (addr : Address) : I128 × TokenStorage :=
  match st.balances.lookup addr with
  | some e => (e.amount, st.bumpBalance N now addr)
  | none => (0, st)

def writeBalance (addr : Address) (amount : I128) : TokenStorage :=
  (st.setBalance N now addr amount).bumpBalance N now addr

def receiveBalance (addr : Address) (amount : I128) : Except TokenTrap TokenStorage := do
  let read := st.readBalance N now addr
  let balance ← hosted (read.1.add amount)
  pure (read.2.writeBalance N now addr balance)

def spendBalance (addr : Address) (amount : I128) : Except TokenTrap TokenStorage := do
  let read := st.readBalance N now addr
  hosted (ensure (¬ read.1.toInt < amount.toInt) (.token .insufficientBalance))
  let balance ← hosted (read.1.sub amount)
  pure (read.2.writeBalance N now addr balance)

/-- `temporary().get`: an entry past its life is gone. -/
def getAllowance (k : Address × Address) : Option AllowanceValue :=
  match st.allowances.lookup k with
  | some e => if e.liveUntil < now.val then none else some e.value
  | none => none

/-- The life a value written now starts from: what is left of a live entry, or
the network's minimum. -/
def allowanceLife (k : Address × Address) : ℕ :=
  match st.allowances.lookup k with
  | some e => if e.liveUntil < now.val then now.val + N.newTemporaryLife else e.liveUntil
  | none => now.val + N.newTemporaryLife

def setAllowance (k : Address × Address) (v : AllowanceValue) : TokenStorage :=
  { st with allowances := st.allowances.insert k ⟨v, st.allowanceLife N now k⟩ }

/-- `temporary().extend_ttl(key, live_for, live_for)`. -/
def extendAllowance (k : Address × Address) (liveFor : ℕ) : Except TokenTrap TokenStorage :=
  if N.longestLife < liveFor then
    .error .pastMaxLiveUntil
  else
    match st.allowances.lookup k with
    | some e =>
      let life := extendTtl now.val liveFor liveFor e.liveUntil
      .ok { st with allowances := st.allowances.insert k ⟨e.value, life⟩ }
    | none => .ok st

def readAllowance (owner spender : Address) : AllowanceValue :=
  match st.getAllowance now (owner, spender) with
  | some allowance =>
    if allowance.expirationLedger < now then ⟨0, allowance.expirationLedger⟩ else allowance
  | none => ⟨0, 0⟩

def writeAllowance (owner spender : Address) (amount : I128) (expirationLedger : U32) :
    Except TokenTrap TokenStorage := do
  hosted (ensure (¬ (0 < amount.toInt ∧ expirationLedger < now)) (.token .expirationBeforeLedger))
  let st := st.setAllowance N now (owner, spender) ⟨amount, expirationLedger⟩
  if 0 < amount.toInt then
    -- `checked_sub` cannot fail: the first check has seen a ledger not in the past
    st.extendAllowance N now (owner, spender) (expirationLedger.val - now.val)
  else
    pure st

def spendAllowance (owner spender : Address) (amount : I128) : Except TokenTrap TokenStorage := do
  let allowance := st.readAllowance now owner spender
  hosted (ensure (¬ allowance.amount.toInt < amount.toInt) (.token .insufficientAllowance))
  if 0 < amount.toInt then
    let rest ← hosted (allowance.amount.sub amount)
    st.writeAllowance N now owner spender rest allowance.expirationLedger
  else
    pure st

def construct (admin : Address) (decimal : U32) (name symbol : String) :
    Except TokenTrap TokenStorage := do
  hosted (ensure (¬ 18 < decimal.val) (.token .decimalTooLarge))
  pure ⟨some admin, ⟨decimal, name, symbol⟩, now.val + N.newPersistentLife, ∅, ∅, []⟩

variable (auth : Address → Bool)

def mint (payee : Address) (amount : I128) : Except TokenTrap TokenStorage := do
  hosted (Token.checkNonnegativeAmount amount)
  let admin ← hosted (okOr st.admin .unwrapNone)
  hosted (ensure (auth admin = true) .unauthorized)
  (st.bumpInstance N now).receiveBalance N now payee amount

def setAdmin (newAdmin : Address) : Except TokenTrap TokenStorage := do
  let admin ← hosted (okOr st.admin .unwrapNone)
  hosted (ensure (auth admin = true) .unauthorized)
  pure ({ st.bumpInstance N now with admin := some newAdmin }.publish (.setAdmin admin newAdmin))

def approve (owner spender : Address) (amount : I128) (expirationLedger : U32) :
    Except TokenTrap TokenStorage := do
  hosted (ensure (auth owner = true) .unauthorized)
  hosted (Token.checkNonnegativeAmount amount)
  let st ← (st.bumpInstance N now).writeAllowance N now owner spender amount expirationLedger
  pure (st.publish (.approve owner spender amount expirationLedger))

def transfer (payer : Address) (payee : MuxedAddress) (amount : I128) :
    Except TokenTrap TokenStorage := do
  hosted (ensure (auth payer = true) .unauthorized)
  hosted (Token.checkNonnegativeAmount amount)
  let st ← (st.bumpInstance N now).spendBalance N now payer amount
  let st ← st.receiveBalance N now payee.address amount
  pure (st.publish (.transfer payer payee.address payee.id amount))

def transferFrom (spender payer payee : Address) (amount : I128) :
    Except TokenTrap TokenStorage := do
  hosted (ensure (auth spender = true) .unauthorized)
  hosted (Token.checkNonnegativeAmount amount)
  let st ← (st.bumpInstance N now).spendAllowance N now payer spender amount
  let st ← st.spendBalance N now payer amount
  let st ← st.receiveBalance N now payee amount
  pure (st.publish (.transfer payer payee none amount))

def burn (owner : Address) (amount : I128) : Except TokenTrap TokenStorage := do
  hosted (ensure (auth owner = true) .unauthorized)
  hosted (Token.checkNonnegativeAmount amount)
  let st ← (st.bumpInstance N now).spendBalance N now owner amount
  pure (st.publish (.burn owner amount))

def burnFrom (spender owner : Address) (amount : I128) : Except TokenTrap TokenStorage := do
  hosted (ensure (auth spender = true) .unauthorized)
  hosted (Token.checkNonnegativeAmount amount)
  let st ← (st.bumpInstance N now).spendAllowance N now owner spender amount
  let st ← st.spendBalance N now owner amount
  pure (st.publish (.burn owner amount))

def allowance (owner spender : Address) : I128 × TokenStorage :=
  let st := st.bumpInstance N now
  ((st.readAllowance now owner spender).amount, st)

def balance (id : Address) : I128 × TokenStorage := (st.bumpInstance N now).readBalance N now id

end TokenStorage

inductive TokenEntrypoint
  | mint (payee : Address) (amount : I128)
  | setAdmin (newAdmin : Address)
  | allowance (owner spender : Address)
  | approve (owner spender : Address) (amount : I128) (expirationLedger : U32)
  | balance (id : Address)
  | transfer (payer : Address) (payee : MuxedAddress) (amount : I128)
  | transferFrom (spender payer payee : Address) (amount : I128)
  | burn (owner : Address) (amount : I128)
  | burnFrom (spender owner : Address) (amount : I128)
  | decimals
  | name
  | symbol

inductive TokenReply
  | unit
  | amount (a : I128)
  | decimals (d : U32)
  | text (s : String)
deriving DecidableEq

structure TokenInvocation where
  sequence : U32
  auth : Address → Bool
  entrypoint : TokenEntrypoint

def TokenInvocation.invoke (N : EntryLimits) (st : TokenStorage) (c : TokenInvocation) :
    Except TokenTrap (TokenReply × TokenStorage) :=
  match c.entrypoint with
  | .mint payee amount => do
    let st ← st.mint N c.sequence c.auth payee amount
    pure (.unit, st)
  | .setAdmin newAdmin => do
    let st ← st.setAdmin N c.sequence c.auth newAdmin
    pure (.unit, st)
  | .allowance owner spender =>
    let read := st.allowance N c.sequence owner spender
    pure (.amount read.1, read.2)
  | .approve owner spender amount expirationLedger => do
    let st ← st.approve N c.sequence c.auth owner spender amount expirationLedger
    pure (.unit, st)
  | .balance id =>
    let read := st.balance N c.sequence id
    pure (.amount read.1, read.2)
  | .transfer payer payee amount => do
    let st ← st.transfer N c.sequence c.auth payer payee amount
    pure (.unit, st)
  | .transferFrom spender payer payee amount => do
    let st ← st.transferFrom N c.sequence c.auth spender payer payee amount
    pure (.unit, st)
  | .burn owner amount => do
    let st ← st.burn N c.sequence c.auth owner amount
    pure (.unit, st)
  | .burnFrom spender owner amount => do
    let st ← st.burnFrom N c.sequence c.auth spender owner amount
    pure (.unit, st)
  | .decimals => pure (.decimals st.metadata.decimal, st)
  | .name => pure (.text st.metadata.name, st)
  | .symbol => pure (.text st.metadata.symbol, st)

/-- The storage a call commits. -/
def TokenInvocation.exec (N : EntryLimits) (st : TokenStorage) (c : TokenInvocation) :
    Except TokenTrap TokenStorage := do
  let result ← c.invoke N st
  pure result.2

end Moonlight
