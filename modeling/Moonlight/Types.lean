import Moonlight.Errors
import Moonlight.Foundations.FixedWidth

namespace Moonlight
open Foundations

abbrev Byte := Fin 256
abbrev Bytes := List Byte

instance Byte.neZero : NeZero 256 := ⟨by decide⟩

abbrev BytesN (n : ℕ) := { b : Bytes // b.length = n }

abbrev U32 := Fin (2 ^ 32)

instance U32.neZero : NeZero (2 ^ 32) := ⟨by decide⟩

/-- `i128`, as the integers it holds. -/
structure I128 where
  toInt : ℤ
  lower : -2 ^ 127 ≤ toInt
  upper : toInt < 2 ^ 127
deriving DecidableEq

namespace I128

instance : Zero I128 := ⟨⟨0, by norm_num, by norm_num⟩⟩

@[simp] theorem toInt_zero : (0 : I128).toInt = 0 := rfl

theorem toInt_injective : Function.Injective toInt := by
  rintro ⟨x, _, _⟩ ⟨y, _, _⟩ h
  simpa using h

/-- The value `-1` that `Store::balance` returns for a missing record. -/
def negOne : I128 := ⟨-1, by norm_num, by norm_num⟩

def ofInt? (x : ℤ) : Option I128 :=
  if h : -2 ^ 127 ≤ x ∧ x < 2 ^ 127 then some ⟨x, h.1, h.2⟩ else none

theorem ofInt?_eq_some {x : ℤ} {a : I128} : ofInt? x = some a ↔ a.toInt = x := by
  unfold ofInt?
  split_ifs with h
  · constructor
    · intro ha
      rw [← Option.some.inj ha]
    · intro ha
      simp only [Option.some.injEq]
      exact toInt_injective ha.symm
  · simp only [false_iff]
    rintro rfl
    exact h ⟨a.lower, a.upper⟩

theorem ofInt?_eq_none {x : ℤ} : ofInt? x = none ↔ x < -2 ^ 127 ∨ 2 ^ 127 ≤ x := by
  unfold ofInt?
  split_ifs with h
  · simp only [false_iff]
    omega
  · simp only [true_iff]
    omega

def checkedAdd (a b : I128) : Option I128 := ofInt? (a.toInt + b.toInt)

def checkedSub (a b : I128) : Option I128 := ofInt? (a.toInt - b.toInt)

/-- `a + b` with `overflow-checks = true`: overflow traps. -/
def add (a b : I128) : Except Failure I128 := okOr (a.checkedAdd b) .overflow

def sub (a b : I128) : Except Failure I128 := okOr (a.checkedSub b) .overflow

theorem checkedAdd_eq_some {a b c : I128} :
    a.checkedAdd b = some c ↔ c.toInt = a.toInt + b.toInt := ofInt?_eq_some

theorem checkedSub_eq_some {a b c : I128} :
    a.checkedSub b = some c ↔ c.toInt = a.toInt - b.toInt := ofInt?_eq_some

theorem add_eq_ok {a b c : I128} : a.add b = .ok c ↔ c.toInt = a.toInt + b.toInt := by
  rw [add, okOr_eq_ok, checkedAdd_eq_some]

theorem sub_eq_ok {a b c : I128} : a.sub b = .ok c ↔ c.toInt = a.toInt - b.toInt := by
  rw [sub, okOr_eq_ok, checkedSub_eq_some]

theorem add_eq_error {a b : I128} {f : Failure} :
    a.add b = .error f ↔
      (a.toInt + b.toInt < -2 ^ 127 ∨ 2 ^ 127 ≤ a.toInt + b.toInt) ∧ .overflow = f := by
  rw [add, okOr_eq_error, checkedAdd, ofInt?_eq_none]

theorem sub_eq_error {a b : I128} {f : Failure} :
    a.sub b = .error f ↔
      (a.toInt - b.toInt < -2 ^ 127 ∨ 2 ^ 127 ≤ a.toInt - b.toInt) ∧ .overflow = f := by
  rw [sub, okOr_eq_error, checkedSub, ofInt?_eq_none]

def toLeBytes (a : I128) : Bytes := digitsLE 256 16 (a.toInt % 2 ^ 128).toNat

@[simp] theorem toLeBytes_length (a : I128) : a.toLeBytes.length = 16 := digitsLE_length _ _

theorem toLeBytes_injective : Function.Injective toLeBytes := by
  intro a b h
  have hlt (x : ℤ) : (x % 2 ^ 128).toNat < 256 ^ 16 := by
    have := Int.emod_lt_of_pos x (by norm_num : (0 : ℤ) < 2 ^ 128)
    norm_num at this ⊢
    omega
  have hnat := digitsLE_injective (hlt a.toInt) (hlt b.toInt) h
  have ha := a.lower
  have hb := b.lower
  have ha' := a.upper
  have hb' := b.upper
  apply toInt_injective
  omega

end I128

def U32.toLeBytes (x : U32) : Bytes := digitsLE 256 4 x.val

@[simp] theorem U32.toLeBytes_length (x : U32) : (U32.toLeBytes x).length = 4 := digitsLE_length _ _

theorem U32.toLeBytes_injective : Function.Injective U32.toLeBytes := by
  intro x y h
  have hlt (z : U32) : z.val < 256 ^ 4 := by
    have := z.isLt
    norm_num at this ⊢
    exact this
  exact Fin.ext (digitsLE_injective (hlt x) (hlt y) h)

/-- An address by its payload, `AddressPayload::AccountIdPublicKeyEd25519` or
`AddressPayload::ContractIdHash`. -/
inductive Address
  | account (pk : BytesN 32)
  | contract (id : BytesN 32)
deriving DecidableEq

def addressFromEd25519PkBytes (pk : BytesN 32) : Address := .account pk

inductive Condition
  | create (utxo : BytesN 65) (amount : I128)
  | extDeposit (addr : Address) (amount : I128)
  | extWithdraw (addr : Address) (amount : I128)
  | extIntegration (adapter : Address) (utxos : List (BytesN 65)) (amount : I128)
deriving DecidableEq

inductive SignerKey
  | p256 (pk : BytesN 65)
  | ed25519 (pk : BytesN 32)
  | provider (pk : BytesN 32)
deriving DecidableEq

inductive Signature
  | p256 (sig : BytesN 64)
  | ed25519 (sig : BytesN 64)
  | secp256k1 (sig : BytesN 65)
  | bls12381 (sig : BytesN 96)
deriving DecidableEq

/-- The host orders the keys of a map by variant name, then by bytes. -/
def SignerKey.rank : SignerKey → ℕ ×ₗ Bytes
  | ed25519 pk => toLex (0, pk.val)
  | p256 pk => toLex (1, pk.val)
  | provider pk => toLex (2, pk.val)

theorem SignerKey.rank_injective : Function.Injective SignerKey.rank := by
  intro a b h
  cases a <;> cases b <;> simp_all [SignerKey.rank, Subtype.ext_iff]

instance : LinearOrder SignerKey := LinearOrder.lift' SignerKey.rank SignerKey.rank_injective

abbrev AuthRequirements := Finmap fun _ : SignerKey => List Condition

/-- `Map<SignerKey, (Signature, u32)>`, each signature with its
`valid_until_ledger`. -/
abbrev Signatures := Finmap fun _ : SignerKey => Signature × U32

/-- The values that reach `require_auth_for_args`; `other` stands for any value
that does not decode to one of the first two. -/
inductive Val
  | requirements (r : AuthRequirements)
  | conditions (c : List Condition)
  | other (bytes : Bytes)
deriving DecidableEq

end Moonlight
