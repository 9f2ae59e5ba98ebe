import Moonlight.Stellar

namespace Moonlight
open Foundations

namespace Condition

variable {x y : Address} {us vs : List (BytesN 65)} {a b : I128}

theorem conflictsWith_same_adapter :
    (extIntegration x us a).conflictsWith (extIntegration x vs b) = true ↔
      a ≠ b ∨ us.length ≠ vs.length ∨ (∃ u ∈ us, u ∉ vs) ∨ ∃ v ∈ vs, v ∉ us := by
  simp only [conflictsWith, ne_eq, not_true_eq_false, ↓reduceIte, ite_not]
  split_ifs with ha hl hu
  · simp only [List.any_eq_true, decide_eq_true_eq] at hu
    simp only [hu, true_or, or_true]
  · simp only [List.any_eq_true, decide_eq_true_eq] at hu ⊢
    simp only [ha, hl, hu, not_true_eq_false, false_or]
  · simp only [hl, not_false_eq_true, true_or, or_true]
  · simp only [ha, not_false_eq_true, true_or]

theorem conflictsWith_other_adapter (h : x ≠ y) :
    (extIntegration x us a).conflictsWith (extIntegration y vs b) = true ↔ ∃ u ∈ us, u ∈ vs := by
  simp [conflictsWith, h]

theorem conflictsWith_comm (c d : Condition) : c.conflictsWith d = d.conflictsWith c := by
  cases c <;> cases d
  case create.create u a v b => simp only [conflictsWith, eq_comm, ne_comm]
  case extDeposit.extDeposit x a y b => simp only [conflictsWith, eq_comm, ne_comm]
  case extWithdraw.extWithdraw x a y b => simp only [conflictsWith, eq_comm, ne_comm]
  -- the only kind whose comparison is not symmetric as written
  case extIntegration.extIntegration x us a y vs b =>
    rw [Bool.eq_iff_iff]
    by_cases h : x = y
    · subst h
      rw [conflictsWith_same_adapter, conflictsWith_same_adapter, ne_comm, ne_comm (a := us.length),
        or_comm (a := ∃ u ∈ us, u ∉ vs)]
    · rw [conflictsWith_other_adapter h, conflictsWith_other_adapter (Ne.symm h)]
      constructor
      · rintro ⟨u, hu, hv⟩
        exact ⟨u, hv, hu⟩
      · rintro ⟨v, hv, hu⟩
        exact ⟨v, hu, hv⟩
  all_goals rfl

theorem conflictsWith_self (c : Condition) : c.conflictsWith c = false := by
  cases c with
  | create u a | extDeposit u a | extWithdraw u a => simp [conflictsWith]
  | extIntegration x us a => simp [conflictsWith]

/-- Two key vectors that `conflicts_with` cannot tell apart: as many keys, and
the same ones, with no regard to how often each occurs. -/
def SameKeys (us vs : List (BytesN 65)) : Prop :=
  us.length = vs.length ∧ ∀ u, u ∈ us ↔ u ∈ vs

theorem conflictsWith_eq_false_iff :
    (extIntegration x us a).conflictsWith (extIntegration x vs b) = false ↔
      a = b ∧ SameKeys us vs := by
  rw [← Bool.not_eq_true, conflictsWith_same_adapter, SameKeys]
  push Not
  constructor
  · intro h
    obtain ⟨ha, hlen, hus, hvs⟩ := h
    exact ⟨ha, hlen, fun u => ⟨hus u, hvs u⟩⟩
  · intro h
    obtain ⟨ha, hlen, hmem⟩ := h
    exact ⟨ha, hlen, fun u => (hmem u).mp, fun v => (hmem v).mpr⟩

theorem sameKeys_of_perm (h : us.Perm vs) : SameKeys us vs :=
  ⟨h.length_eq, fun _ => h.mem_iff⟩

theorem SameKeys.symm (h : SameKeys us vs) : SameKeys vs us := ⟨h.1.symm, fun u => (h.2 u).symm⟩

theorem SameKeys.perm (h : SameKeys us vs) (hus : us.Nodup) : us.Perm vs := by
  have hsub : us ⊆ vs := fun u hu => (h.2 u).mp hu
  exact (hus.subperm hsub).perm_of_length_le h.1.ge

theorem not_perm_iff_count : ¬ us.Perm vs ↔ ∃ u, us.count u ≠ vs.count u := by
  rw [List.perm_iff_count, not_forall]

/-- The comparison of two integrations with one adapter is exact unless the
amounts agree and equally many keys, the same ones, are repeated differently;
so it is exact for a vector without repetitions. -/
theorem conflictsWith_exact_iff (adapter : Address) (a₁ a₂ : I128) (v₁ v₂ : List (BytesN 65)) :
    (((extIntegration adapter v₁ a₁).conflictsWith (extIntegration adapter v₂ a₂) = false ↔
        a₁ = a₂ ∧ v₁.Perm v₂) ↔
      ¬ (a₁ = a₂ ∧ v₁.length = v₂.length ∧ (∀ u, u ∈ v₁ ↔ u ∈ v₂) ∧
          ∃ u, v₁.count u ≠ v₂.count u)) ∧
    (v₁.Nodup ∨ v₂.Nodup →
      ((extIntegration adapter v₁ a₁).conflictsWith (extIntegration adapter v₂ a₂) = false ↔
        a₁ = a₂ ∧ v₁.Perm v₂)) := by
  rw [conflictsWith_eq_false_iff, ← not_perm_iff_count]
  -- a permutation has the same keys, so only the other direction can fail
  have hperm : v₁.Perm v₂ → SameKeys v₁ v₂ := sameKeys_of_perm
  constructor
  · have hkeys : SameKeys v₁ v₂ ↔ v₁.length = v₂.length ∧ ∀ u, u ∈ v₁ ↔ u ∈ v₂ := Iff.rfl
    tauto
  · intro hnodup
    have hexact : SameKeys v₁ v₂ → v₁.Perm v₂ := by
      intro h
      rcases hnodup with h₁ | h₂
      · exact h.perm h₁
      · exact (h.symm.perm h₂).symm
    tauto

/-- One key twice and another once, against the other way round. -/
theorem conflictsWith_misses_repetition :
    ¬ ((extIntegration (sampleContract 3) [sampleKey 1, sampleKey 1, sampleKey 2]
            (.ofByte 5)).conflictsWith
          (extIntegration (sampleContract 3) [sampleKey 1, sampleKey 2, sampleKey 2]
            (.ofByte 5)) = false ↔
        I128.ofByte 5 = I128.ofByte 5 ∧
          [sampleKey 1, sampleKey 1, sampleKey 2].Perm
            [sampleKey 1, sampleKey 2, sampleKey 2]) := by
  decide +kernel

end Condition

def Compatible (c d : Condition) : Prop := c.conflictsWith d = false

theorem Compatible.symm {c d : Condition} (h : Compatible c d) : Compatible d c := by
  rw [Compatible, Condition.conflictsWith_comm]
  exact h

theorem conditionDoesNotConflictWithSet_iff {c : Condition} {set : List Condition} :
    conditionDoesNotConflictWithSet c set = true ↔ ∀ d ∈ set, Compatible d c := by
  simp [conditionDoesNotConflictWithSet, Compatible]

theorem noConflicts_iff {verified cs : List Condition} :
    noConflicts verified cs = true ↔
      cs.Pairwise Compatible ∧ ∀ v ∈ verified, ∀ c ∈ cs, Compatible v c := by
  induction cs generalizing verified with
  | nil => simp [noConflicts]
  | cons c cs ih =>
    by_cases hc : conditionDoesNotConflictWithSet c verified = true
    · rw [noConflicts, if_pos hc, ih, List.pairwise_cons]
      rw [conditionDoesNotConflictWithSet_iff] at hc
      simp only [List.mem_append, List.mem_singleton, List.forall_mem_cons, or_imp, forall_and,
        forall_eq]
      tauto
    · rw [noConflicts, if_neg hc]
      rw [conditionDoesNotConflictWithSet_iff] at hc
      simp only [Bool.false_eq_true, false_iff, not_and]
      intro _ hall
      exact hc fun d hd => hall d hd c List.mem_cons_self

theorem noConflicts_nil_iff {cs : List Condition} :
    noConflicts [] cs = true ↔ cs.Pairwise Compatible := by
  rw [noConflicts_iff]
  simp only [List.not_mem_nil, false_implies, implies_true, and_true]

def ChannelOperation.conditions (op : ChannelOperation) : List Condition :=
  op.spend.flatMap (·.2) ++ op.deposit.flatMap (·.2.2) ++ op.withdraw.flatMap (·.2.2)

theorem opHasNoConflictingConditions_iff {op : ChannelOperation} :
    opHasNoConflictingConditions op = true ↔ op.conditions.Pairwise Compatible :=
  noConflicts_nil_iff

theorem pairwise_compatible_iff {cs : List Condition} :
    cs.Pairwise Compatible ↔
      ∀ (i j : ℕ) c d, i ≠ j → cs[i]? = some c → cs[j]? = some d → Compatible c d := by
  rw [List.pairwise_iff_getElem]
  constructor
  · intro h i j c d hij hi hj
    obtain ⟨hi', rfl⟩ := List.getElem?_eq_some_iff.mp hi
    obtain ⟨hj', rfl⟩ := List.getElem?_eq_some_iff.mp hj
    rcases Nat.lt_or_gt_of_ne hij with hlt | hlt
    · exact h i j hi' hj' hlt
    · exact (h j i hj' hi' hlt).symm
  · intro h i j hi hj hij
    exact h i j _ _ (by omega) (List.getElem?_eq_getElem hi) (List.getElem?_eq_getElem hj)

theorem Compatible.refl (c : Condition) : Compatible c c := Condition.conflictsWith_self c

theorem pairwise_compatible_iff_mem {cs : List Condition} :
    cs.Pairwise Compatible ↔ ∀ c ∈ cs, ∀ d ∈ cs, Compatible c d := by
  constructor
  · intro h c hc d hd
    have hflip : cs.Pairwise (flip Compatible) := h.imp Compatible.symm
    exact h.forall_of_forall_of_flip (fun x _ => Compatible.refl x) hflip hc hd
  · exact List.pairwise_of_forall_mem_list

theorem opHasNoConflictingConditions_iff_mem {op : ChannelOperation} :
    opHasNoConflictingConditions op = true ↔
      ∀ c ∈ op.conditions, ∀ d ∈ op.conditions, Compatible c d := by
  rw [opHasNoConflictingConditions_iff, pairwise_compatible_iff_mem]

theorem opHasNoConflictingConditions_congr {op op' : ChannelOperation}
    (h : ∀ c, c ∈ op'.conditions ↔ c ∈ op.conditions) :
    opHasNoConflictingConditions op' = opHasNoConflictingConditions op := by
  rw [Bool.eq_iff_iff, opHasNoConflictingConditions_iff_mem, opHasNoConflictingConditions_iff_mem]
  simp only [h]

theorem hasNoConflictingConditionsInSets_iff {a b : List Condition} :
    hasNoConflictingConditionsInSets a b = true ↔ ∀ c ∈ a, ∀ d ∈ b, Compatible c d := by
  rw [hasNoConflictingConditionsInSets, List.all_eq_true]
  -- the helper asks each element of `b` about `c`, the check asks `c`
  have hswap (c : Condition) :
      conditionDoesNotConflictWithSet c b = true ↔ ∀ d ∈ b, Compatible c d := by
    rw [conditionDoesNotConflictWithSet_iff]
    exact forall₂_congr fun d _ => ⟨Compatible.symm, Compatible.symm⟩
  simp only [hswap]

theorem hasNoConflictingConditionsInSets_comm (a b : List Condition) :
    hasNoConflictingConditionsInSets a b = hasNoConflictingConditionsInSets b a := by
  rw [Bool.eq_iff_iff, hasNoConflictingConditionsInSets_iff, hasNoConflictingConditionsInSets_iff]
  constructor
  · exact fun h d hd c hc => (h c hc d hd).symm
  · exact fun h c hc d hd => (h d hd c hc).symm

theorem pairwise_compatible_parts {parts : List (List Condition)} {cs : List Condition}
    (h : parts.flatten.Perm cs) :
    cs.Pairwise Compatible ↔
      (∀ p ∈ parts, noConflicts [] p = true) ∧
        parts.Pairwise fun p q => hasNoConflictingConditionsInSets p q = true := by
  rw [← h.pairwise_iff Compatible.symm, List.pairwise_flatten]
  simp only [noConflicts_nil_iff, hasNoConflictingConditionsInSets_iff]

/-- `conflicts_with` is symmetric and irreflexive, and the incremental check is
the check of all pairs: blind to order and repetition, and computed from any
division of the conditions. -/
theorem opHasNoConflictingConditions_order_free :
    (∀ c d : Condition, c.conflictsWith d = d.conflictsWith c) ∧
    (∀ c : Condition, c.conflictsWith c = false) ∧
    ∀ op : ChannelOperation,
      (opHasNoConflictingConditions op = true ↔
        ∀ c ∈ op.conditions, ∀ d ∈ op.conditions, c.conflictsWith d = false) ∧
      (∀ op' : ChannelOperation, op'.conditions.Perm op.conditions →
        opHasNoConflictingConditions op' = opHasNoConflictingConditions op) ∧
      (∀ (op' : ChannelOperation) (c : Condition), c ∈ op.conditions →
        op'.conditions.Perm (c :: op.conditions) →
        opHasNoConflictingConditions op' = opHasNoConflictingConditions op) ∧
      (∀ p q : List Condition,
        hasNoConflictingConditionsInSets p q = hasNoConflictingConditionsInSets q p) ∧
      ∀ parts : List (List Condition), parts.flatten.Perm op.conditions →
        (opHasNoConflictingConditions op = true ↔
          (∀ p ∈ parts, noConflicts [] p = true) ∧
            parts.Pairwise fun p q => hasNoConflictingConditionsInSets p q = true) := by
  refine ⟨Condition.conflictsWith_comm, Condition.conflictsWith_self, fun op => ?_⟩
  refine ⟨opHasNoConflictingConditions_iff_mem, ?_, ?_, hasNoConflictingConditionsInSets_comm, ?_⟩
  · intro op' hperm
    exact opHasNoConflictingConditions_congr fun _ => hperm.mem_iff
  · intro op' c hc hperm
    apply opHasNoConflictingConditions_congr
    intro d
    rw [hperm.mem_iff, List.mem_cons]
    exact or_iff_right_of_imp fun hd => hd ▸ hc
  · intro parts hperm
    rw [opHasNoConflictingConditions_iff]
    exact pairwise_compatible_parts hperm

theorem sampleSpend_order_free :
    opHasNoConflictingConditions sampleSpend = true ↔
      (∀ p ∈ sampleConditions.map fun c => [c], noConflicts [] p = true) ∧
        (sampleConditions.map fun c => [c]).Pairwise fun p q =>
          hasNoConflictingConditionsInSets p q = true := by
  apply (opHasNoConflictingConditions_order_free.2.2 sampleSpend).2.2.2.2
  decide +kernel

end Moonlight
