import Mathlib

namespace Foundations

def digitsLE (b : ℕ) [NeZero b] : ℕ → ℕ → List (Fin b)
  | 0, _ => []
  | n + 1, x => Fin.ofNat b x :: digitsLE b n (x / b)

variable {b : ℕ} [NeZero b]

@[simp] theorem digitsLE_length (n x : ℕ) : (digitsLE b n x).length = n := by
  induction n generalizing x with
  | zero => rfl
  | succ n ih => simp [digitsLE, ih]

theorem digitsLE_injective {n x y : ℕ} (hx : x < b ^ n) (hy : y < b ^ n)
    (h : digitsLE b n x = digitsLE b n y) : x = y := by
  induction n generalizing x y with
  | zero => simp_all
  | succ n ih =>
    simp only [digitsLE, List.cons.injEq] at h
    have hmod : x % b = y % b := congrArg Fin.val h.1
    have hb : 0 < b := Nat.pos_of_neZero b
    have hdiv : x / b = y / b := by
      apply ih _ _ h.2
      · exact Nat.div_lt_of_lt_mul (by rwa [← pow_succ'])
      · exact Nat.div_lt_of_lt_mul (by rwa [← pow_succ'])
    rw [← Nat.div_add_mod x b, ← Nat.div_add_mod y b, hdiv, hmod]

section Records

variable {α β ι : Type*} {f : α → List β} {w : α → ι}

/-- A stream of records splits in only one way once the shape `w` of every
record is known: the shape fixes a record's length, and at a given shape the
record's bytes fix its contents. -/
theorem records_append_inj (hlen : ∀ x y, w x = w y → (f x).length = (f y).length)
    (hinj : ∀ x y, w x = w y → f x = f y → x = y) {xs ys : List α} {r r' : List β}
    (hw : xs.map w = ys.map w) (h : xs.flatMap f ++ r = ys.flatMap f ++ r') :
    xs = ys ∧ r = r' := by
  induction xs generalizing ys with
  | nil =>
    have hys : ys = [] := by simpa using hw.symm
    subst hys
    exact ⟨rfl, by simpa using h⟩
  | cons x xs ih =>
    cases ys with
    | nil => simp at hw
    | cons y ys =>
      simp only [List.map_cons, List.cons.injEq] at hw
      simp only [List.flatMap_cons, List.append_assoc] at h
      obtain ⟨hhead, htail⟩ := List.append_inj h (hlen x y hw.1)
      obtain ⟨rfl, hr⟩ := ih hw.2 htail
      exact ⟨by rw [hinj x y hw.1 hhead], hr⟩

theorem records_inj (hlen : ∀ x y, w x = w y → (f x).length = (f y).length)
    (hinj : ∀ x y, w x = w y → f x = f y → x = y) {xs ys : List α} (hw : xs.map w = ys.map w)
    (h : xs.flatMap f = ys.flatMap f) : xs = ys := by
  have hnil : xs.flatMap f ++ [] = ys.flatMap f ++ [] := by rw [h]
  exact (records_append_inj hlen hinj hw hnil).1

theorem fixed_records_append_inj {n : ℕ} (hlen : ∀ x, (f x).length = n)
    (hinj : Function.Injective f) {xs ys : List α} {r r' : List β}
    (hw : xs.length = ys.length) (h : xs.flatMap f ++ r = ys.flatMap f ++ r') :
    xs = ys ∧ r = r' := by
  apply records_append_inj (w := fun _ => ()) _ _ _ h
  · intro x y _
    rw [hlen, hlen]
  · intro x y _ hxy
    exact hinj hxy
  · simp [hw]

theorem fixed_records_inj {n : ℕ} (hlen : ∀ x, (f x).length = n) (hinj : Function.Injective f)
    {xs ys : List α} (hw : xs.length = ys.length) (h : xs.flatMap f = ys.flatMap f) : xs = ys := by
  have hnil : xs.flatMap f ++ [] = ys.flatMap f ++ [] := by rw [h]
  exact (fixed_records_append_inj hlen hinj hw hnil).1

end Records

end Foundations
