import Mathlib

namespace Foundations

variable {K V : Type*}

section Totals

variable {M : Type*} [AddCommGroup M] (f : V → M)

/-- The sum of `f` over the values of a finite map. -/
def total (m : Finmap fun _ : K => V) : M := (m.entries.map fun e => f e.2).sum

variable [DecidableEq K] {f} {m : Finmap fun _ : K => V} {k : K} {v : V}

theorem total_insert_new (h : m.lookup k = none) : total f (m.insert k v) = total f m + f v := by
  rw [total, Finmap.entries_insert_of_notMem (Finmap.lookup_eq_none.mp h), Multiset.map_cons,
    Multiset.sum_cons, add_comm]
  rfl

theorem total_insert_of_lookup {v₀ : V} (h : m.lookup k = some v₀) :
    total f (m.insert k v) = total f m - f v₀ + f v := by
  have herase : (m.erase k).lookup k = none := Finmap.lookup_erase k m
  have hrestore : (m.erase k).insert k v₀ = m := by
    apply Finmap.ext_lookup
    intro j
    by_cases hj : j = k
    · rw [hj, Finmap.lookup_insert, h]
    · rw [Finmap.lookup_insert_of_ne _ hj, Finmap.lookup_erase_ne hj]
  have hinsert : (m.erase k).insert k v = m.insert k v := by
    apply Finmap.ext_lookup
    intro j
    by_cases hj : j = k
    · rw [hj, Finmap.lookup_insert, Finmap.lookup_insert]
    · rw [Finmap.lookup_insert_of_ne _ hj, Finmap.lookup_erase_ne hj,
        Finmap.lookup_insert_of_ne _ hj]
  have hold := total_insert_new (f := f) (v := v₀) herase
  have hnew := total_insert_new (f := f) (v := v) herase
  rw [hrestore] at hold
  rw [← hinsert, hnew, hold, add_sub_cancel_right]

theorem value_nonneg {g : V → ℤ} (h : ∀ j v, m.lookup j = some v → 0 ≤ g v) :
    ∀ x ∈ m.entries.map fun e => g e.2, 0 ≤ x := by
  intro x hx
  obtain ⟨⟨j, v⟩, he, rfl⟩ := Multiset.mem_map.mp hx
  exact h j v (Finmap.lookup_eq_some_iff.mpr he)

theorem total_nonneg {g : V → ℤ} (h : ∀ j v, m.lookup j = some v → 0 ≤ g v) : 0 ≤ total g m :=
  Multiset.sum_nonneg (value_nonneg h)

theorem le_total {g : V → ℤ} (h : ∀ j v, m.lookup j = some v → 0 ≤ g v)
    (hk : m.lookup k = some v) : g v ≤ total g m := by
  apply Multiset.single_le_sum (value_nonneg h)
  exact Multiset.mem_map_of_mem (fun e : Sigma fun _ : K => V => g e.2)
    (Finmap.lookup_eq_some_iff.mp hk)

end Totals

section Lookup

variable [DecidableEq K] {m : Finmap fun _ : K => V} {k j : K} {v w : V}

theorem lookup_insert_new (h : k ∉ m) :
    (m.insert k v).lookup j = some w ↔ m.lookup j = some w ∨ (j, w) = (k, v) := by
  by_cases hj : j = k
  · rw [hj, Finmap.lookup_insert, Finmap.lookup_eq_none.mpr h]
    simp [eq_comm]
  · rw [Finmap.lookup_insert_of_ne _ hj]
    simp [hj]

end Lookup

section Keys

variable [LinearOrder K]

/-- The keys in ascending order, as a host map is iterated. -/
def sortedKeys (m : Finmap fun _ : K => V) : List K :=
  Quot.liftOn m.keys.val (List.insertionSort (· ≤ ·)) fun _ _ h =>
    List.Perm.eq_of_pairwise' (List.pairwise_insertionSort _ _) (List.pairwise_insertionSort _ _)
      (((List.perm_insertionSort _ _).trans h).trans (List.perm_insertionSort _ _).symm)

@[simp] theorem mem_sortedKeys {m : Finmap fun _ : K => V} {k : K} : k ∈ sortedKeys m ↔ k ∈ m := by
  rw [← Finmap.mem_keys]
  induction m using Finmap.induction_on with
  | H a => exact List.mem_insertionSort _

end Keys

end Foundations
