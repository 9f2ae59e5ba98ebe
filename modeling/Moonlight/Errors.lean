import Moonlight.Foundations.Loops

namespace Moonlight
open Foundations

/-- `MoonlightError`, in the order and with the codes of `modules/errors`. -/
inductive MoonlightError
  | badArg
  | unexpectedVariant
  | missingSignature
  | extraSignature
  | invalidSignatureFormat
  | unsupportedSignatureFormat
  | mismatchedContract
  | unsupportedSigner
  | noConditions
  | unexpectedContext
  | signatureExpired
  | providerThresholdNotMet
  | providerAlreadyRegistered
  | providerNotRegistered
  | utxoAlreadyExists
  | utxoDoesNotExist
  | utxoAlreadySpent
  | unbalancedBundle
  | invalidCreateAmount
  | repeatedCreateUtxo
  | repeatedSpendUtxo
  | utxoNotFound
  | authContractNotSet
  | repeatedAccountForDeposit
  | repeatedAccountForWithdraw
  | conflictingConditionsForAccount
  | amountOverflow
  | bundleHasConflictingConditions
  | amountUnderflow
  | unauthorizedOperation
  | invalidExternalAmount
  | reentrantCall
  | notEd25519AccountAddress
  | unsupportedAddressPayload
deriving DecidableEq

def MoonlightError.code : MoonlightError → ℕ
  | badArg => 1000
  | unexpectedVariant => 1001
  | missingSignature => 1002
  | extraSignature => 1003
  | invalidSignatureFormat => 1004
  | unsupportedSignatureFormat => 1005
  | mismatchedContract => 1006
  | unsupportedSigner => 1007
  | noConditions => 1008
  | unexpectedContext => 1009
  | signatureExpired => 1010
  | providerThresholdNotMet => 1011
  | providerAlreadyRegistered => 1012
  | providerNotRegistered => 1013
  | utxoAlreadyExists => 2000
  | utxoDoesNotExist => 2001
  | utxoAlreadySpent => 2002
  | unbalancedBundle => 2003
  | invalidCreateAmount => 2004
  | repeatedCreateUtxo => 2005
  | repeatedSpendUtxo => 2006
  | utxoNotFound => 2007
  | authContractNotSet => 2008
  | repeatedAccountForDeposit => 3000
  | repeatedAccountForWithdraw => 3001
  | conflictingConditionsForAccount => 3002
  | amountOverflow => 3003
  | bundleHasConflictingConditions => 3004
  | amountUnderflow => 3005
  | unauthorizedOperation => 3006
  | invalidExternalAmount => 3007
  | reentrantCall => 3008
  | notEd25519AccountAddress => 4000
  | unsupportedAddressPayload => 4001

inductive TokenPanic
  | decimalTooLarge
  | negativeAmount (amount : ℤ)
  | insufficientBalance
  | insufficientAllowance
  | expirationBeforeLedger
deriving DecidableEq

def TokenPanic.message : TokenPanic → String
  | decimalTooLarge => "Decimal must not be greater than 18"
  | negativeAmount amount => "negative amount is not allowed: " ++ toString amount
  | insufficientBalance => "insufficient balance"
  | insufficientAllowance => "insufficient allowance"
  | expirationBeforeLedger => "expiration_ledger is less than ledger seq when amount > 0"

/-- Why an invocation did not commit. Only `contract` carries a declared code;
the others are traps of the host or of another contract. -/
inductive Failure
  | contract (e : MoonlightError)
  | overflow
  | unwrapNone
  | unauthorized
  | badSignature
  | token (p : TokenPanic)
deriving DecidableEq

def ensure (p : Prop) [Decidable p] (f : Failure) : Except Failure Unit :=
  if p then .ok () else .error f

/-- `assert_with_error!`. -/
def assertWithError (p : Prop) [Decidable p] (e : MoonlightError) : Except Failure Unit :=
  ensure p (.contract e)

/-- `x.unwrap_or_else(|| panic_with_error!(..))` and `x.ok_or(..)?`. -/
def okOr {α : Type*} (x : Option α) (e : Failure) : Except Failure α :=
  match x with
  | some a => .ok a
  | none => .error e

section

variable {p : Prop} [Decidable p] {e : MoonlightError}

@[simp] theorem ensure_eq_ok {f : Failure} {u : Unit} : ensure p f = .ok u ↔ p := by
  by_cases h : p <;> simp [ensure, h]

@[simp] theorem assertWithError_eq_ok {u : Unit} : assertWithError p e = .ok u ↔ p := ensure_eq_ok

@[simp] theorem okOr_eq_ok {α : Type*} {x : Option α} {f : Failure} {a : α} :
    okOr x f = .ok a ↔ x = some a := by
  cases x <;> simp [okOr]

theorem ensure_eq_error {f g : Failure} : ensure p f = .error g ↔ ¬ p ∧ f = g := by
  by_cases h : p <;> simp [ensure, h]

theorem assertWithError_eq_error {g : Failure} :
    assertWithError p e = .error g ↔ ¬ p ∧ .contract e = g := ensure_eq_error

theorem okOr_eq_error {α : Type*} {x : Option α} {f g : Failure} :
    okOr x f = .error g ↔ x = none ∧ f = g := by
  cases x <;> simp [okOr]

end

end Moonlight
