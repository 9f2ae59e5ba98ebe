import Moonlight.Primitives

namespace Moonlight
open Foundations

variable {Digest : Type} [DecidableEq Digest]

/-- A persistent entry: the stored amount and the ledger it lives until. -/
structure Entry where
  amount : I128
  liveUntil : ℕ
deriving DecidableEq

/-- Persistent storage, keyed by `UTXOCoreDataKey::UTXO(hash(utxo65))`. -/
abbrev Store (Digest : Type) := Finmap fun _ : Digest => Entry

namespace Store

def persistentBumpAmount : ℕ := 30 * dayInLedgers

def persistentLifetimeThreshold : ℕ := persistentBumpAmount - dayInLedgers

def utxoKey (H : Host Digest) (utxo65 : BytesN 65) : Digest := H.sha256 utxo65.val

def get (st : Store Digest) (k : Digest) : Option I128 := (st.lookup k).map Entry.amount

/-- `persistent().set`: a new entry gets the network's minimum life, an
existing one keeps its own. -/
def set (H : Host Digest) (now : U32) (st : Store Digest) (k : Digest) (amount : I128) :
    Store Digest :=
  st.insert k
    ⟨amount, ((st.lookup k).map Entry.liveUntil).getD (now.val + H.newPersistentLife)⟩

def bumpTtl (now : U32) (st : Store Digest) (k : Digest) : Store Digest :=
  match st.lookup k with
  | some e =>
    st.insert k
      ⟨e.amount, extendTtl now.val persistentLifetimeThreshold persistentBumpAmount e.liveUntil⟩
  | none => st

/-- `Store::balance`. Reading an existing entry refreshes its life. -/
def balance (H : Host Digest) (now : U32) (st : Store Digest) (utxo65 : BytesN 65) :
    I128 × Store Digest :=
  match st.get (utxoKey H utxo65) with
  | some amount => (amount, st.bumpTtl now (utxoKey H utxo65))
  | none => (.negOne, st)

def create (H : Host Digest) (now : U32) (st : Store Digest) (utxo65 : BytesN 65)
    (amount : I128) : Except Failure (Store Digest) := do
  assertWithError (¬ amount.toInt ≤ 0) .invalidCreateAmount
  assertWithError (st.get (utxoKey H utxo65) = none) .utxoAlreadyExists
  pure ((st.set H now (utxoKey H utxo65) amount).bumpTtl now (utxoKey H utxo65))

/-- `Store::spend`. The record is kept with amount `0`. -/
def spend (H : Host Digest) (now : U32) (st : Store Digest) (utxo65 : BytesN 65) :
    Except Failure (I128 × Store Digest) :=
  match st.get (utxoKey H utxo65) with
  | some amount =>
    if 0 < amount.toInt then
      .ok (amount, (st.set H now (utxoKey H utxo65) 0).bumpTtl now (utxoKey H utxo65))
    else
      .error (.contract .utxoAlreadySpent)
  | none => .error (.contract .utxoDoesNotExist)

def total (st : Store Digest) : ℤ := Foundations.total (fun e => e.amount.toInt) st

variable {H : Host Digest} {now : U32} {st st' : Store Digest} {k : Digest} {utxo : BytesN 65}
  {amount : I128}

@[simp] theorem get_set (j : Digest) :
    (st.set H now k amount).get j = if j = k then some amount else st.get j := by
  by_cases hj : j = k
  · subst hj
    simp [get, set]
  · simp [get, set, hj, Finmap.lookup_insert_of_ne]

@[simp] theorem get_bumpTtl (j : Digest) : (st.bumpTtl now k).get j = st.get j := by
  unfold bumpTtl
  cases h : st.lookup k with
  | none => rfl
  | some e =>
    by_cases hj : j = k
    · subst hj
      simp [get, h]
    · simp [get, hj, Finmap.lookup_insert_of_ne]

theorem lookup_of_get (h : st.get k = some amount) :
    ∃ e, st.lookup k = some e ∧ e.amount = amount := by
  simpa [get] using h

@[simp] theorem total_bumpTtl : (st.bumpTtl now k).total = st.total := by
  unfold bumpTtl
  cases h : st.lookup k with
  | none => rfl
  | some e => simp [total, total_insert_of_lookup h]

theorem total_set_new (h : st.get k = none) :
    (st.set H now k amount).total = st.total + amount.toInt :=
  total_insert_new (by simpa [get] using h)

theorem total_set_of_get {old : I128} (h : st.get k = some old) :
    (st.set H now k amount).total = st.total - old.toInt + amount.toInt := by
  obtain ⟨e, he, rfl⟩ := lookup_of_get h
  exact total_insert_of_lookup he

@[simp] theorem get_balance (j : Digest) : (st.balance H now utxo).2.get j = st.get j := by
  unfold balance
  cases st.get (utxoKey H utxo) <;> simp

@[simp] theorem total_balance : (st.balance H now utxo).2.total = st.total := by
  unfold balance
  cases st.get (utxoKey H utxo) <;> simp

theorem balance_fst : (st.balance H now utxo).1 = (st.get (utxoKey H utxo)).getD .negOne := by
  unfold balance
  cases st.get (utxoKey H utxo) <;> rfl

theorem create_ok (h : st.create H now utxo amount = .ok st') :
    0 < amount.toInt ∧ st.get (utxoKey H utxo) = none ∧
      (∀ j, st'.get j = if j = utxoKey H utxo then some amount else st.get j) ∧
      st'.total = st.total + amount.toInt := by
  simp only [create, bind_eq_ok, assertWithError_eq_ok, pure_eq_ok] at h
  obtain ⟨-, hpos, -, hnone, rfl⟩ := h
  refine ⟨by omega, hnone, ?_, ?_⟩
  · intro j
    rw [get_bumpTtl, get_set]
  · rw [total_bumpTtl, total_set_new hnone]

theorem spend_ok {a : I128} (h : st.spend H now utxo = .ok (a, st')) :
    0 < a.toInt ∧ st.get (utxoKey H utxo) = some a ∧
      (∀ j, st'.get j = if j = utxoKey H utxo then some 0 else st.get j) ∧
      st'.total = st.total - a.toInt := by
  unfold spend at h
  cases hget : st.get (utxoKey H utxo) with
  | none => simp [hget] at h
  | some b =>
    simp only [hget] at h
    split_ifs at h with hb
    simp only [Except.ok.injEq, Prod.mk.injEq] at h
    obtain ⟨rfl, rfl⟩ := h
    refine ⟨hb, rfl, ?_, ?_⟩
    · intro j
      rw [get_bumpTtl, get_set]
    · rw [total_bumpTtl, total_set_of_get hget, I128.toInt_zero, add_zero]

theorem create_exists (hpos : 0 < amount.toInt) (hnone : st.get (utxoKey H utxo) = none) :
    ∃ st', st.create H now utxo amount = .ok st' := by
  refine ⟨_, bind_eq_ok.mpr ⟨(), ?_, bind_eq_ok.mpr ⟨(), ?_, rfl⟩⟩⟩
  · rw [assertWithError_eq_ok]
    omega
  · rw [assertWithError_eq_ok]
    exact hnone

theorem spend_exists {a : I128} (hpos : 0 < a.toInt) (hget : st.get (utxoKey H utxo) = some a) :
    ∃ st', st.spend H now utxo = .ok (a, st') := by
  simp only [spend, hget, hpos, ↓reduceIte]
  exact ⟨_, rfl⟩

end Store

end Moonlight
