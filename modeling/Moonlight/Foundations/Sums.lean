import Mathlib

namespace Foundations

theorem nodup_map_of_keys {α β κ : Type*} {f : α → β} {key : α → κ} {l : List α}
    (hkey : ∀ x y, f x = f y → key x = key y) (hl : (l.map key).Nodup) : (l.map f).Nodup := by
  rw [List.Nodup, List.pairwise_map] at hl ⊢
  exact hl.imp fun hne he => hne (hkey _ _ he)

theorem sum_nonneg_of_pos {α : Type*} {f : α → ℤ} {l : List α} (hl : ∀ x ∈ l, 0 < f x) :
    0 ≤ (l.map f).sum := by
  apply List.sum_nonneg
  simp only [List.forall_mem_map]
  intro x hx
  exact (hl x hx).le

variable {α : Type*} [DecidableEq α] {f : α → ℤ}

theorem sum_eq_sum_add_rest {l : List α} (hl : l.Nodup) {S : Finset α} (hS : ∀ c ∈ S, c ∈ l) :
    (l.map f).sum = ∑ c ∈ S, f c + ((l.filter (· ∉ S)).map f).sum := by
  have hin : (l.filter (· ∈ S)).toFinset = S := by
    ext c
    simp only [List.mem_toFinset, List.mem_filter, decide_eq_true_eq]
    exact ⟨fun h => h.2, fun h => ⟨hS c h, h⟩⟩
  have hsplit := List.sum_map_filter_add_sum_map_filter_not (· ∈ S) f l
  rw [← List.sum_toFinset f (hl.filter _), hin] at hsplit
  rw [← hsplit]

omit [DecidableEq α] in
theorem sum_eq_zero_iff_nil {l : List α} (hl : ∀ c ∈ l, 0 < f c) : (l.map f).sum = 0 ↔ l = [] := by
  cases l with
  | nil => simp
  | cons c l =>
    have hc := hl c List.mem_cons_self
    have hrest : 0 ≤ (l.map f).sum :=
      sum_nonneg_of_pos fun d hd => hl d (List.mem_cons_of_mem _ hd)
    simp only [List.map_cons, List.sum_cons, reduceCtorEq, iff_false]
    omega

omit [DecidableEq α] in
theorem sum_sum_map {β : Type*} (S : Finset α) (g : α → β → ℤ) (l : List β) :
    ∑ a ∈ S, (l.map (g a)).sum = (l.map fun b => ∑ a ∈ S, g a b).sum := by
  induction l with
  | nil => simp
  | cons b l ih => simp only [List.map_cons, List.sum_cons, Finset.sum_add_distrib, ih]

/-- The union of a list of sets. -/
def unionAll (L : List (Finset α)) : Finset α := L.foldr (· ∪ ·) ∅

@[simp] theorem mem_unionAll {L : List (Finset α)} {c : α} : c ∈ unionAll L ↔ ∃ s ∈ L, c ∈ s := by
  induction L with
  | nil => simp [unionAll]
  | cons s L ih =>
    rw [unionAll, List.foldr_cons, Finset.mem_union, ← unionAll, ih]
    simp

theorem sum_unionAll_cons (s : Finset α) (L : List (Finset α)) :
    ∑ c ∈ unionAll (s :: L), f c + ∑ c ∈ s ∩ unionAll L, f c =
      ∑ c ∈ s, f c + ∑ c ∈ unionAll L, f c :=
  Finset.sum_union_inter

theorem sum_unionAll_le {L : List (Finset α)} (hf : ∀ s ∈ L, ∀ c ∈ s, 0 < f c) :
    ∑ c ∈ unionAll L, f c ≤ (L.map fun s => ∑ c ∈ s, f c).sum := by
  induction L with
  | nil => simp [unionAll]
  | cons s L ih =>
    have hcons := sum_unionAll_cons (f := f) s L
    have hrest := ih fun t ht => hf t (List.mem_cons_of_mem _ ht)
    have hinter : 0 ≤ ∑ c ∈ s ∩ unionAll L, f c := by
      apply Finset.sum_nonneg
      intro c hc
      exact (hf s List.mem_cons_self c (Finset.mem_inter.mp hc).1).le
    rw [List.map_cons, List.sum_cons]
    omega

/-- Positive weights add up over a list of sets as over their union exactly
when no two of the sets overlap. -/
theorem sum_unionAll_eq_iff {L : List (Finset α)} (hf : ∀ s ∈ L, ∀ c ∈ s, 0 < f c) :
    ∑ c ∈ unionAll L, f c = (L.map fun s => ∑ c ∈ s, f c).sum ↔ L.Pairwise Disjoint := by
  induction L with
  | nil => simp [unionAll]
  | cons s L ih =>
    have hfL : ∀ t ∈ L, ∀ c ∈ t, 0 < f c := fun t ht => hf t (List.mem_cons_of_mem _ ht)
    have hcons := sum_unionAll_cons (f := f) s L
    have hle := sum_unionAll_le hfL
    have hpos : ∀ c ∈ s ∩ unionAll L, 0 < f c := by
      intro c hc
      exact hf s List.mem_cons_self c (Finset.mem_inter.mp hc).1
    have hnonneg : 0 ≤ ∑ c ∈ s ∩ unionAll L, f c := Finset.sum_nonneg fun c hc => (hpos c hc).le
    have hzero : ∑ c ∈ s ∩ unionAll L, f c = 0 ↔ ∀ t ∈ L, Disjoint s t := by
      rw [Finset.sum_eq_zero_iff_of_nonneg fun c hc => (hpos c hc).le]
      constructor
      · intro h t ht
        rw [Finset.disjoint_left]
        intro c hs hc
        have hmem : c ∈ s ∩ unionAll L := Finset.mem_inter.mpr ⟨hs, mem_unionAll.mpr ⟨t, ht, hc⟩⟩
        have := hpos c hmem
        have := h c hmem
        omega
      · intro h c hc
        obtain ⟨hs, hU⟩ := Finset.mem_inter.mp hc
        obtain ⟨t, ht, hct⟩ := mem_unionAll.mp hU
        exact absurd hct (Finset.disjoint_left.mp (h t ht) hs)
    rw [List.pairwise_cons, ← hzero, ← ih hfL, List.map_cons, List.sum_cons]
    omega

end Foundations
