import Moonlight.Foundations.Runs

namespace Moonlight

/-- `none`: no record. `some a` with `0 < a`: unspent. `some 0`: spent. -/
abbrev Ledger (K : Type*) := K → Option ℤ

structure Bundle (K : Type*) where
  spend : List K
  create : List (K × ℤ)

/-- `b` takes ledger `l` to ledger `l'`. -/
structure Bundle.Applies {K : Type*} (b : Bundle K) (l l' : Ledger K) : Prop where
  spend_nodup : b.spend.Nodup
  create_nodup : (b.create.map Prod.fst).Nodup
  unspent : ∀ k ∈ b.spend, ∃ a, 0 < a ∧ l k = some a
  fresh : ∀ p ∈ b.create, l p.1 = none
  positive : ∀ p ∈ b.create, 0 < p.2
  spent : ∀ k ∈ b.spend, l' k = some 0
  created : ∀ p ∈ b.create, l' p.1 = some p.2
  frame : ∀ k, k ∉ b.spend → k ∉ b.create.map Prod.fst → l' k = l k

/-- What `b` asks of the ledger it is applied to. -/
structure Bundle.Enabled {K : Type*} (b : Bundle K) (l : Ledger K) : Prop where
  spend_nodup : b.spend.Nodup
  create_nodup : (b.create.map Prod.fst).Nodup
  unspent : ∀ k ∈ b.spend, ∃ a, 0 < a ∧ l k = some a
  fresh : ∀ p ∈ b.create, l p.1 = none
  positive : ∀ p ∈ b.create, 0 < p.2

namespace Bundle

variable {K : Type*} {l m l' : Ledger K}

theorem Applies.enabled {b : Bundle K} (h : b.Applies l l') : b.Enabled l :=
  ⟨h.spend_nodup, h.create_nodup, h.unspent, h.fresh, h.positive⟩

theorem Enabled.spends {b : Bundle K} (h : b.Enabled l) : (⟨b.spend, []⟩ : Bundle K).Enabled l :=
  ⟨h.spend_nodup, List.nodup_nil, h.unspent, by simp, by simp⟩

theorem Enabled.spend_tail {k : K} {ks : List K} (h : (⟨k :: ks, []⟩ : Bundle K).Enabled l)
    (hm : ∀ j, j ≠ k → m j = l j) : (⟨ks, []⟩ : Bundle K).Enabled m := by
  obtain ⟨hnot, hnodup⟩ := List.nodup_cons.mp h.spend_nodup
  refine ⟨hnodup, List.nodup_nil, ?_, by simp, by simp⟩
  intro j hj
  rw [hm j (fun he => hnot (he ▸ hj))]
  exact h.unspent j (List.mem_cons_of_mem _ hj)

theorem Enabled.create_tail {p : K × ℤ} {cs : List (K × ℤ)}
    (h : (⟨[], p :: cs⟩ : Bundle K).Enabled l) (hm : ∀ j, j ≠ p.1 → m j = l j) :
    (⟨[], cs⟩ : Bundle K).Enabled m := by
  obtain ⟨hnot, hnodup⟩ := List.nodup_cons.mp h.create_nodup
  refine ⟨List.nodup_nil, hnodup, by simp, ?_, fun q hq => h.positive q (List.mem_cons_of_mem _ hq)⟩
  intro q hq
  rw [hm q.1 (fun he => hnot (he ▸ List.mem_map_of_mem hq))]
  exact h.fresh q (List.mem_cons_of_mem _ hq)

theorem Enabled.creates {b : Bundle K} (h : b.Enabled l)
    (hm : (⟨b.spend, []⟩ : Bundle K).Applies l m) : (⟨[], b.create⟩ : Bundle K).Enabled m := by
  refine ⟨List.nodup_nil, h.create_nodup, by simp, ?_, h.positive⟩
  intro p hp
  have hfresh := h.fresh p hp
  rw [hm.frame p.1 _ (by simp), hfresh]
  intro hmem
  obtain ⟨a, -, ha⟩ := h.unspent p.1 hmem
  rw [hfresh] at ha
  cases ha

theorem applies_nil (h : ∀ k, l' k = l k) : (⟨[], []⟩ : Bundle K).Applies l l' where
  spend_nodup := List.nodup_nil
  create_nodup := List.nodup_nil
  unspent := by simp
  fresh := by simp
  positive := by simp
  spent := by simp
  created := by simp
  frame k _ _ := h k

section Cons

variable [DecidableEq K]

/-- Spending `k` and then `ks` is spending `k :: ks`: the tombstone of `k`
keeps it out of `ks`. -/
theorem applies_spend_cons {k : K} {ks : List K} {a : ℤ} (ha : 0 < a) (hk : l k = some a)
    (hm : ∀ j, m j = if j = k then some 0 else l j)
    (h : (⟨ks, []⟩ : Bundle K).Applies m l') : (⟨k :: ks, []⟩ : Bundle K).Applies l l' := by
  have hmk : m k = some 0 := by rw [hm, if_pos rfl]
  have hnot : k ∉ ks := by
    intro hmem
    obtain ⟨b, hb, hmb⟩ := h.unspent k hmem
    rw [hmk, Option.some.injEq] at hmb
    omega
  have hne : ∀ j ∈ ks, j ≠ k := fun j hj he => hnot (he ▸ hj)
  refine ⟨List.nodup_cons.mpr ⟨hnot, h.spend_nodup⟩, h.create_nodup, ?_, by simp, by simp, ?_,
    by simp, ?_⟩
  · intro j hj
    rcases List.mem_cons.mp hj with rfl | hj
    · exact ⟨a, ha, hk⟩
    · obtain ⟨b, hb, hmb⟩ := h.unspent j hj
      rw [hm, if_neg (hne j hj)] at hmb
      exact ⟨b, hb, hmb⟩
  · intro j hj
    rcases List.mem_cons.mp hj with rfl | hj
    · rw [h.frame j hnot (by simp), hmk]
    · exact h.spent j hj
  · intro j hj hc
    rw [List.mem_cons, not_or] at hj
    rw [h.frame j hj.2 hc, hm, if_neg hj.1]

theorem applies_create_cons {k : K} {cs : List (K × ℤ)} {a : ℤ} (ha : 0 < a) (hk : l k = none)
    (hm : ∀ j, m j = if j = k then some a else l j)
    (h : (⟨[], cs⟩ : Bundle K).Applies m l') : (⟨[], (k, a) :: cs⟩ : Bundle K).Applies l l' := by
  have hmk : m k = some a := by rw [hm, if_pos rfl]
  have hnot : k ∉ cs.map Prod.fst := by
    intro hmem
    obtain ⟨p, hp, rfl⟩ := List.mem_map.mp hmem
    rw [h.fresh p hp] at hmk
    cases hmk
  have hne : ∀ p ∈ cs, p.1 ≠ k := fun p hp he => hnot (he ▸ List.mem_map_of_mem hp)
  refine ⟨List.nodup_nil, ?_, by simp, ?_, ?_, by simp, ?_, ?_⟩
  · rw [List.map_cons]
    exact List.nodup_cons.mpr ⟨hnot, h.create_nodup⟩
  · intro p hp
    rcases List.mem_cons.mp hp with rfl | hp
    · exact hk
    · have hmp := h.fresh p hp
      rwa [hm, if_neg (hne p hp)] at hmp
  · intro p hp
    rcases List.mem_cons.mp hp with rfl | hp
    · exact ha
    · exact h.positive p hp
  · intro p hp
    rcases List.mem_cons.mp hp with rfl | hp
    · rw [h.frame k (by simp) hnot, hmk]
    · exact h.created p hp
  · intro j hj hc
    rw [List.map_cons, List.mem_cons, not_or] at hc
    rw [h.frame j hj hc.2, hm, if_neg hc.1]

end Cons

theorem applies_spend_create {ks : List K} {cs : List (K × ℤ)}
    (hs : (⟨ks, []⟩ : Bundle K).Applies l m) (hc : (⟨[], cs⟩ : Bundle K).Applies m l') :
    (⟨ks, cs⟩ : Bundle K).Applies l l' := by
  have hdisj : ∀ p ∈ cs, p.1 ∉ ks := by
    intro p hp hk
    have := hs.spent p.1 hk
    rw [hc.fresh p hp] at this
    cases this
  have hkeys : ∀ k ∈ ks, k ∉ cs.map Prod.fst := by
    intro k hk hmem
    obtain ⟨p, hp, rfl⟩ := List.mem_map.mp hmem
    exact hdisj p hp hk
  refine ⟨hs.spend_nodup, hc.create_nodup, hs.unspent, ?_, hc.positive, ?_, hc.created, ?_⟩
  · intro p hp
    rw [← hs.frame p.1 (hdisj p hp) (by simp)]
    exact hc.fresh p hp
  · intro k hk
    rw [hc.frame k (by simp) (hkeys k hk), hs.spent k hk]
  · intro k hk hkc
    rw [hc.frame k (by simp) hkc, hs.frame k hk (by simp)]

theorem Enabled.after_spends {ks : List K} {cs : List (K × ℤ)}
    (hs : (⟨ks, []⟩ : Bundle K).Applies l m) (hc : (⟨[], cs⟩ : Bundle K).Enabled m) :
    (⟨ks, cs⟩ : Bundle K).Enabled l := by
  refine ⟨hs.spend_nodup, hc.create_nodup, hs.unspent, ?_, hc.positive⟩
  intro p hp
  have hfresh := hc.fresh p hp
  have hnot : p.1 ∉ ks := by
    intro hmem
    rw [hs.spent p.1 hmem] at hfresh
    cases hfresh
  rwa [hs.frame p.1 hnot (by simp)] at hfresh

theorem Applies.spend_next {ks : List K} {k : K} {x : ℤ} (h : (⟨ks, []⟩ : Bundle K).Applies l m)
    (hx : 0 < x) (hk : m k = some x) : (⟨ks ++ [k], []⟩ : Bundle K).Enabled l ∧ l k = some x := by
  have hnot : k ∉ ks := by
    intro hmem
    rw [h.spent k hmem, Option.some.injEq] at hk
    omega
  have hl : l k = some x := by rwa [h.frame k hnot (by simp)] at hk
  refine ⟨⟨?_, List.nodup_nil, ?_, by simp, by simp⟩, hl⟩
  · exact List.Nodup.append h.spend_nodup (List.nodup_singleton k) (by simpa using hnot)
  · intro j hj
    rcases List.mem_append.mp hj with hj | hj
    · exact h.unspent j hj
    · exact ⟨x, hx, List.mem_singleton.mp hj ▸ hl⟩

theorem Enabled.next_spend {ks ks' : List K} {k : K}
    (h : (⟨ks ++ k :: ks', []⟩ : Bundle K).Enabled l) (hm : (⟨ks, []⟩ : Bundle K).Applies l m) :
    ∃ x, 0 < x ∧ m k = some x := by
  have hnot : k ∉ ks := by
    intro hmem
    exact (List.nodup_append.mp h.spend_nodup).2.2 k hmem k List.mem_cons_self rfl
  obtain ⟨x, hx, hk⟩ := h.unspent k (by simp)
  exact ⟨x, hx, by rw [hm.frame k hnot (by simp), hk]⟩

theorem Applies.create_next {cs : List (K × ℤ)} {p : K × ℤ}
    (h : (⟨[], cs⟩ : Bundle K).Applies l m) (hp : 0 < p.2) (hk : m p.1 = none) :
    (⟨[], cs ++ [p]⟩ : Bundle K).Enabled l := by
  have hnot : p.1 ∉ cs.map Prod.fst := by
    intro hmem
    obtain ⟨q, hq, he⟩ := List.mem_map.mp hmem
    rw [← he, h.created q hq] at hk
    cases hk
  have hl : l p.1 = none := by rwa [h.frame p.1 (by simp) hnot] at hk
  refine ⟨List.nodup_nil, ?_, by simp, ?_, ?_⟩
  · rw [List.map_append]
    exact List.Nodup.append h.create_nodup (List.nodup_singleton _) (by simpa using hnot)
  · intro q hq
    rcases List.mem_append.mp hq with hq | hq
    · exact h.fresh q hq
    · exact List.mem_singleton.mp hq ▸ hl
  · intro q hq
    rcases List.mem_append.mp hq with hq | hq
    · exact h.positive q hq
    · exact List.mem_singleton.mp hq ▸ hp

theorem Enabled.next_create {cs cs' : List (K × ℤ)} {p : K × ℤ}
    (h : (⟨[], cs ++ p :: cs'⟩ : Bundle K).Enabled l)
    (hm : (⟨[], cs⟩ : Bundle K).Applies l m) : 0 < p.2 ∧ m p.1 = none := by
  have hnodup := h.create_nodup
  rw [List.map_append, List.map_cons] at hnodup
  have hnot : p.1 ∉ cs.map Prod.fst := by
    intro hmem
    exact (List.nodup_append.mp hnodup).2.2 p.1 hmem p.1 List.mem_cons_self rfl
  refine ⟨h.positive p (by simp), ?_⟩
  rw [hm.frame p.1 (by simp) hnot]
  exact h.fresh p (by simp)

theorem Applies.disjoint {b : Bundle K} (h : b.Applies l l') {k : K} (hk : k ∈ b.spend) :
    k ∉ b.create.map Prod.fst := by
  intro hmem
  obtain ⟨p, hp, rfl⟩ := List.mem_map.mp hmem
  obtain ⟨a, -, ha⟩ := h.unspent p.1 hk
  rw [h.fresh p hp] at ha
  cases ha

theorem Applies.nonneg {b : Bundle K} (h : b.Applies l l') (hl : ∀ k a, l k = some a → 0 ≤ a)
    (k : K) (a : ℤ) (ha : l' k = some a) : 0 ≤ a := by
  by_cases hs : k ∈ b.spend
  · rw [h.spent k hs, Option.some.injEq] at ha
    omega
  by_cases hc : k ∈ b.create.map Prod.fst
  · obtain ⟨p, hp, rfl⟩ := List.mem_map.mp hc
    rw [h.created p hp, Option.some.injEq] at ha
    have := h.positive p hp
    omega
  · rw [h.frame k hs hc] at ha
    exact hl k a ha

theorem Applies.create_unique {b : Bundle K} (h : b.Applies l l') {k : K} {a a' : ℤ}
    (ha : (k, a) ∈ b.create) (ha' : (k, a') ∈ b.create) : a' = a := by
  have h₁ := h.created (k, a) ha
  have h₂ := h.created (k, a') ha'
  simp_all

theorem Enabled.perm {b b' : Bundle K} (hs : b.spend.Perm b'.spend) (hc : b.create.Perm b'.create)
    (h : b.Enabled l) : b'.Enabled l where
  spend_nodup := hs.nodup_iff.mp h.spend_nodup
  create_nodup := (hc.map Prod.fst).nodup_iff.mp h.create_nodup
  unspent k hk := h.unspent k (hs.mem_iff.mpr hk)
  fresh p hp := h.fresh p (hc.mem_iff.mpr hp)
  positive p hp := h.positive p (hc.mem_iff.mpr hp)

theorem Applies.perm {b b' : Bundle K} (hs : b.spend.Perm b'.spend) (hc : b.create.Perm b'.create)
    (h : b.Applies l l') : b'.Applies l l' := by
  obtain ⟨hsn, hcn, hunspent, hfresh, hpos⟩ := h.enabled.perm hs hc
  refine ⟨hsn, hcn, hunspent, hfresh, hpos, ?_, ?_, ?_⟩
  · intro k hk
    exact h.spent k (hs.mem_iff.mpr hk)
  · intro p hp
    exact h.created p (hc.mem_iff.mpr hp)
  · intro k hk hkc
    apply h.frame k
    · rwa [hs.mem_iff]
    · rwa [(hc.map Prod.fst).mem_iff]

/-- The keys a bundle spends or creates. -/
def touched (b : Bundle K) : List K := b.spend ++ b.create.map Prod.fst

theorem Applies.eq_of_not_touched {b : Bundle K} (h : b.Applies l l') {k : K}
    (hk : k ∉ b.touched) : l' k = l k := by
  rw [touched, List.mem_append, not_or] at hk
  exact h.frame k hk.1 hk.2

/-- What a bundle writes does not depend on the ledger it is applied to. -/
theorem Applies.eq_of_touched {b : Bundle K} {l₁ l₂ m₁ m₂ : Ledger K} (h₁ : b.Applies l₁ m₁)
    (h₂ : b.Applies l₂ m₂) {k : K} (hk : k ∈ b.touched) : m₁ k = m₂ k := by
  rcases List.mem_append.mp hk with hs | hc
  · rw [h₁.spent k hs, h₂.spent k hs]
  · obtain ⟨p, hp, rfl⟩ := List.mem_map.mp hc
    rw [h₁.created p hp, h₂.created p hp]

theorem Applies.unique {b : Bundle K} {l₁ l₂ : Ledger K} (h₁ : b.Applies l l₁)
    (h₂ : b.Applies l l₂) : l₁ = l₂ := by
  funext k
  by_cases hk : k ∈ b.touched
  · exact h₁.eq_of_touched h₂ hk
  · rw [h₁.eq_of_not_touched hk, h₂.eq_of_not_touched hk]

theorem Applies.not_created_after {b c : Bundle K} (hb : b.Applies l m) (hc : c.Applies m l')
    {k : K} (hk : k ∈ b.touched) : k ∉ c.create.map Prod.fst := by
  intro hmem
  obtain ⟨p, hp, rfl⟩ := List.mem_map.mp hmem
  have hnone := hc.fresh p hp
  rcases List.mem_append.mp hk with hs | hcr
  · rw [hb.spent _ hs] at hnone
    cases hnone
  · obtain ⟨q, hq, he⟩ := List.mem_map.mp hcr
    rw [← he, hb.created q hq] at hnone
    cases hnone

/-- Two bundles that go in both orders have no key in common: neither creates
what the other touches, and both cannot spend it. -/
theorem Applies.disjoint_of_both_orders {b c : Bundle K} {m m' n n' : Ledger K}
    (hb : b.Applies l m) (hc : c.Applies m n) (hc' : c.Applies l m') (hb' : b.Applies m' n') {k : K}
    (hkb : k ∈ b.touched) : k ∉ c.touched := by
  intro hkc
  -- run second, either bundle finds what the first has touched, so it can only spend it
  have hb_spend := (List.mem_append.mp hkb).resolve_right (hc'.not_created_after hb' hkc)
  have hc_spend := (List.mem_append.mp hkc).resolve_right (hb.not_created_after hc hkb)
  obtain ⟨a, hpos, ha⟩ := hc.unspent k hc_spend
  rw [hb.spent k hb_spend, Option.some.injEq] at ha
  omega

/-- Two bundles that go in both orders lead to one ledger. -/
theorem Applies.confluent {b c : Bundle K} {m m' n n' : Ledger K} (hb : b.Applies l m)
    (hc : c.Applies m n) (hc' : c.Applies l m') (hb' : b.Applies m' n') : n = n' := by
  funext k
  by_cases hkb : k ∈ b.touched
  · have hkc := hb.disjoint_of_both_orders hc hc' hb' hkb
    rw [hc.eq_of_not_touched hkc, hb.eq_of_touched hb' hkb]
  · rw [hb'.eq_of_not_touched hkb]
    by_cases hkc : k ∈ c.touched
    · exact hc.eq_of_touched hc' hkc
    · rw [hc.eq_of_not_touched hkc, hb.eq_of_not_touched hkb, hc'.eq_of_not_touched hkc]

end Bundle

/-- One call seen from one key whose reported value goes from `v` to `v'`:
untouched, created, or spent. -/
inductive KeyStep (v v' : ℤ) (creates : ℤ → Prop) (spends : Prop) : Prop
  | untouched (hv : v' = v) (hc : ∀ a, ¬ creates a) (hs : ¬ spends)
  | create (a : ℤ) (ha : 0 < a) (hv : v = -1) (hv' : v' = a) (hc : ∀ a', creates a' ↔ a' = a)
      (hs : ¬ spends)
  | spend (hv : 0 < v) (hv' : v' = 0) (hc : ∀ a, ¬ creates a) (hs : spends)

theorem Bundle.Applies.keyStep {K : Type*} {b : Bundle K} {l l' : Ledger K} (h : b.Applies l l')
    (k : K) :
    KeyStep ((l k).getD (-1)) ((l' k).getD (-1)) (fun a => (k, a) ∈ b.create) (k ∈ b.spend) := by
  by_cases hs : k ∈ b.spend
  · obtain ⟨a, ha, hk⟩ := h.unspent k hs
    refine .spend ?_ ?_ ?_ hs
    · rw [hk]
      exact ha
    · rw [h.spent k hs]
      rfl
    · intro a hc
      exact h.disjoint hs (List.mem_map_of_mem hc)
  by_cases hc : k ∈ b.create.map Prod.fst
  · obtain ⟨⟨j, a⟩, hp, rfl⟩ := List.mem_map.mp hc
    refine .create a (h.positive _ hp) ?_ ?_ ?_ hs
    · rw [h.fresh _ hp]
      rfl
    · rw [h.created _ hp]
      rfl
    · intro a'
      exact ⟨fun ha' => h.create_unique hp ha', fun he => he ▸ hp⟩
  · refine .untouched ?_ ?_ hs
    · rw [h.frame k hs hc]
    · intro a ha
      exact hc (List.mem_map_of_mem ha)

/-- The reported values `v 0, …, v n` of a key over `n` calls: `-1`, then one
amount from its only creation on, then `0` from its only spend on; the later
phases may be missing. -/
inductive Lifecycle (v : ℕ → ℤ) (creates : ℕ → ℤ → Prop) (spends : ℕ → Prop) (n : ℕ) : Prop
  | absent (hv : ∀ i ≤ n, v i = -1) (hc : ∀ i < n, ∀ a, ¬ creates i a) (hs : ∀ i < n, ¬ spends i)
  | unspent (c : ℕ) (a : ℤ) (hcn : c < n) (ha : 0 < a) (hca : creates c a)
      (hbefore : ∀ i ≤ c, v i = -1) (hafter : ∀ i, c < i → i ≤ n → v i = a)
      (honce : ∀ i < n, ∀ a', creates i a' → i = c ∧ a' = a) (hs : ∀ i < n, ¬ spends i)
  | spent (c d : ℕ) (a : ℤ) (hcd : c < d) (hdn : d < n) (ha : 0 < a) (hca : creates c a)
      (hsd : spends d) (hbefore : ∀ i ≤ c, v i = -1) (hmiddle : ∀ i, c < i → i ≤ d → v i = a)
      (hafter : ∀ i, d < i → i ≤ n → v i = 0)
      (honce : ∀ i < n, ∀ a', creates i a' → i = c ∧ a' = a) (hone : ∀ i < n, spends i → i = d)

theorem forall_after_succ {P : ℕ → Prop} {c n : ℕ} (h : ∀ i, c < i → i ≤ n → P i)
    (hlast : P (n + 1)) (i : ℕ) (hc : c < i) (hi : i ≤ n + 1) : P i := by
  rcases Nat.le_succ_iff.mp hi with hi | rfl
  · exact h i hc hi
  · exact hlast

theorem forall_after_self {P : ℕ → Prop} {n : ℕ} (hlast : P (n + 1)) (i : ℕ) (hn : n < i)
    (hi : i ≤ n + 1) : P i := by
  obtain rfl : i = n + 1 := by omega
  exact hlast

theorem Lifecycle.succ {v : ℕ → ℤ} {creates : ℕ → ℤ → Prop} {spends : ℕ → Prop} {n : ℕ}
    (h : Lifecycle v creates spends n)
    (hlast : KeyStep (v n) (v (n + 1)) (creates n) (spends n)) :
    Lifecycle v creates spends (n + 1) := by
  cases h with
  | absent hv hc hs =>
    have hn : v n = -1 := hv n le_rfl
    cases hlast with
    | untouched hv' hc' hs' =>
      refine .absent ?_ (Nat.forall_lt_succ_right.mpr ⟨hc, hc'⟩)
        (Nat.forall_lt_succ_right.mpr ⟨hs, hs'⟩)
      intro i hi
      rcases Nat.le_succ_iff.mp hi with hi | rfl
      · exact hv i hi
      · rw [hv', hn]
    | create a ha _ hv' hc' hs' =>
      refine .unspent n a (by omega) ha ((hc' a).mpr rfl) hv (forall_after_self hv')
        (Nat.forall_lt_succ_right.mpr ⟨?_, ?_⟩) (Nat.forall_lt_succ_right.mpr ⟨hs, hs'⟩)
      · intro i hi a' ha'
        exact absurd ha' (hc i hi a')
      · intro a' ha'
        exact ⟨rfl, (hc' a').mp ha'⟩
    | spend hv' _ _ _ => omega
  | unspent c a hcn ha hca hbefore hafter honce hs =>
    have hn : v n = a := hafter n hcn le_rfl
    cases hlast with
    | untouched hv' hc' hs' =>
      refine .unspent c a (by omega) ha hca hbefore (forall_after_succ hafter (hv'.trans hn))
        (Nat.forall_lt_succ_right.mpr ⟨honce, ?_⟩) (Nat.forall_lt_succ_right.mpr ⟨hs, hs'⟩)
      intro a' ha'
      exact absurd ha' (hc' a')
    | create b _ hv' _ _ _ => omega
    | spend _ hv' hc' hs' =>
      refine .spent c n a hcn (by omega) ha hca hs' hbefore hafter (forall_after_self hv')
        (Nat.forall_lt_succ_right.mpr ⟨honce, ?_⟩) (Nat.forall_lt_succ_right.mpr ⟨?_, ?_⟩)
      · intro a' ha'
        exact absurd ha' (hc' a')
      · intro i hi hsi
        exact absurd hsi (hs i hi)
      · intro _
        rfl
  | spent c d a hcd hdn ha hca hsd hbefore hmiddle hafter honce hone =>
    have hn : v n = 0 := hafter n hdn le_rfl
    cases hlast with
    | untouched hv' hc' hs' =>
      refine .spent c d a hcd (by omega) ha hca hsd hbefore hmiddle
        (forall_after_succ hafter (hv'.trans hn)) (Nat.forall_lt_succ_right.mpr ⟨honce, ?_⟩)
        (Nat.forall_lt_succ_right.mpr ⟨hone, ?_⟩)
      · intro a' ha'
        exact absurd ha' (hc' a')
      · intro hsi
        exact absurd hsi hs'
    | create b _ hv' _ _ _ => omega
    | spend hv' _ _ _ => omega

theorem lifecycle_of_steps {v : ℕ → ℤ} {creates : ℕ → ℤ → Prop} {spends : ℕ → Prop} (h0 : v 0 = -1)
    {n : ℕ} (hstep : ∀ i < n, KeyStep (v i) (v (i + 1)) (creates i) (spends i)) :
    Lifecycle v creates spends n := by
  induction n with
  | zero => exact .absent (by simpa using h0) (by simp) (by simp)
  | succ n ih => exact (ih fun i hi => hstep i (by omega)).succ (hstep n (by omega))

namespace Lifecycle

variable {v : ℕ → ℤ} {creates : ℕ → ℤ → Prop} {spends : ℕ → Prop} {n i j : ℕ} {a a' : ℤ}

theorem create_once (h : Lifecycle v creates spends n) (hi : i < n) (hj : j < n)
    (hci : creates i a) (hcj : creates j a') : i = j := by
  cases h with
  | absent _ hc _ => exact absurd hci (hc i hi a)
  | unspent c b _ _ _ _ _ honce _ => rw [(honce i hi a hci).1, (honce j hj a' hcj).1]
  | spent c d b _ _ _ _ _ _ _ _ honce _ => rw [(honce i hi a hci).1, (honce j hj a' hcj).1]

theorem spend_once (h : Lifecycle v creates spends n) (hi : i < n) (hj : j < n)
    (hsi : spends i) (hsj : spends j) : i = j := by
  cases h with
  | absent _ _ hs => exact absurd hsi (hs i hi)
  | unspent c b _ _ _ _ _ _ hs => exact absurd hsi (hs i hi)
  | spent c d b _ _ _ _ _ _ _ _ _ hone => rw [hone i hi hsi, hone j hj hsj]

end Lifecycle

end Moonlight
