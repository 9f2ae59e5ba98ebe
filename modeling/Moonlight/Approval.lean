import Moonlight.OwnerAuth

namespace Moonlight
open Foundations

variable {Digest : Type}

theorem authArgs_injective : Function.Injective authArgs := by
  intro r r' h
  unfold authArgs at h
  split_ifs at h with hr hr'
  · rw [hr, hr']
  · exact Val.requirements.inj (List.cons.inj h).1

theorem calculateAuthRequirements_eq {l l' : List (BytesN 65 × List Condition)}
    (hl : (l.map Prod.fst).Nodup) (hl' : (l'.map Prod.fst).Nodup)
    (h : calculateAuthRequirements l = calculateAuthRequirements l') : l.Perm l' := by
  rw [List.perm_ext_iff_of_nodup hl.of_map hl'.of_map]
  intro e
  -- without repeated keys an entry can be read back from the map
  have hmem {l : List (BytesN 65 × List Condition)} (hl : (l.map Prod.fst).Nodup) :
      e ∈ l ↔ (calculateAuthRequirements l).lookup (.p256 e.1) = some e.2 := by
    rw [calculateAuthRequirements_lookup hl]
    constructor
    · intro he
      exact ⟨e.1, rfl, he⟩
    · rintro ⟨pk, hpk, he⟩
      rwa [← SignerKey.p256.inj hpk] at he
  rw [hmem hl, hmem hl', h]

variable {H : Host Digest} {op₁ op₂ : ChannelOperation} {r₁ r₂ : InternalBundle × I128 × I128}

/-- Two operations with the same authorization arguments spend the same keys
under the same conditions, up to order, and both execute every effect that
these conditions list. -/
theorem approval_determines_spends (hxdr : Function.Injective H.conditionToXdr)
    (h₁ : preProcessChannelOperation H op₁ = .ok r₁)
    (h₂ : preProcessChannelOperation H op₂ = .ok r₂)
    (hk₁ : noDuplicateKeys r₁.1.spend id = true) (hk₂ : noDuplicateKeys r₂.1.spend id = true)
    (hargs : authArgs r₁.1.req = authArgs r₂.1.req) :
    op₁.spend.Perm op₂.spend ∧
      (∀ e ∈ op₁.spend, ∀ u a, .create u a ∈ e.2 → (u, a) ∈ op₁.create ∧ (u, a) ∈ op₂.create) ∧
      ∀ e ∈ op₁.spend, ∀ x a, .extWithdraw x a ∈ e.2 →
        (∃ ds, (x, a, ds) ∈ op₁.withdraw) ∧ ∃ ds, (x, a, ds) ∈ op₂.withdraw := by
  obtain ⟨hpre₁, hint₁, -, -⟩ := preProcess_ok h₁
  obtain ⟨hpre₂, hint₂, -, -⟩ := preProcess_ok h₂
  rw [hint₁, hint₂] at hargs
  rw [hint₁, noDuplicateKeys_iff, List.map_id] at hk₁
  rw [hint₂, noDuplicateKeys_iff, List.map_id] at hk₂
  have hperm := calculateAuthRequirements_eq hk₁ hk₂ (authArgs_injective hargs)
  have hlisted {e : BytesN 65 × List Condition} {c : Condition} (he : e ∈ op₁.spend) (hc : c ∈ e.2)
      (hb : isExecutionBound c = true) : c ∈ op₁.executed ∧ c ∈ op₂.executed :=
    ⟨hpre₁.spend_executed hxdr he hc hb, hpre₂.spend_executed hxdr (hperm.mem_iff.mp he) hc hb⟩
  refine ⟨hperm, ?_, ?_⟩
  · intro e he u a hc
    rw [← ChannelOperation.create_mem_executed, ← ChannelOperation.create_mem_executed]
    exact hlisted he hc rfl
  · intro e he x a hc
    rw [← ChannelOperation.extWithdraw_mem_executed, ← ChannelOperation.extWithdraw_mem_executed]
    exact hlisted he hc rfl

def sampleSpendExtra : ChannelOperation :=
  ⟨sampleSigned, [(sampleKey 2, .ofByte 60), (sampleKey 3, .ofByte 10)],
    [(sampleAccount 5, .ofByte 10, [])], [(sampleAccount 6, .ofByte 40, [])]⟩

theorem approval_determines_spends_sampleSpend :
    let H := sampleHost sampleSigned
    ∃ r₁ r₂, preProcessChannelOperation H sampleSpend = .ok r₁ ∧
      preProcessChannelOperation H sampleSpendExtra = .ok r₂ ∧
      authArgs r₁.1.req = authArgs r₂.1.req ∧ sampleSpend.spend.Perm sampleSpendExtra.spend := by
  intro H
  obtain ⟨r₁, h₁⟩ := exists_ok (x := preProcessChannelOperation H sampleSpend) (by decide +kernel)
  obtain ⟨r₂, h₂⟩ := exists_ok (x := preProcessChannelOperation H sampleSpendExtra)
    (by decide +kernel)
  have hr₁ := (preProcess_ok h₁).2.1
  have hr₂ := (preProcess_ok h₂).2.1
  have hargs : authArgs r₁.1.req = authArgs r₂.1.req := by
    rw [hr₁, hr₂]
    rfl
  have hk₁ : noDuplicateKeys r₁.1.spend id = true := by
    rw [hr₁]
    decide +kernel
  have hk₂ : noDuplicateKeys r₂.1.spend id = true := by
    rw [hr₂]
    decide +kernel
  exact ⟨r₁, r₂, h₁, h₂, hargs,
    (approval_determines_spends Condition.toXdr_injective h₁ h₂ hk₁ hk₂ hargs).1⟩

def otherDeposit : ChannelOperation :=
  ⟨[], [(sampleKey 3, .ofByte 10)], [(sampleAccount 7, .ofByte 10, [])], []⟩

/-- Without spends the arguments are empty, so one approval fits two unrelated
deposits. -/
theorem approval_fits_two_deposits :
    let H := sampleHost []
    ∃ r₁ r₂, preProcessChannelOperation H sampleDeposit = .ok r₁ ∧
      preProcessChannelOperation H otherDeposit = .ok r₂ ∧
      authArgs r₁.1.req = authArgs r₂.1.req ∧
      ¬ sampleDeposit.create.Perm otherDeposit.create ∧
      ¬ (sampleDeposit.deposit.map fun e => (e.1, e.2.1)).Perm
        (otherDeposit.deposit.map fun e => (e.1, e.2.1)) := by
  intro H
  obtain ⟨r₁, h₁⟩ := exists_ok (x := preProcessChannelOperation H sampleDeposit) (by decide +kernel)
  obtain ⟨r₂, h₂⟩ := exists_ok (x := preProcessChannelOperation H otherDeposit) (by decide +kernel)
  refine ⟨r₁, r₂, h₁, h₂, ?_, by decide +kernel, by decide +kernel⟩
  rw [(preProcess_ok h₁).2.1, (preProcess_ok h₂).2.1]
  rfl

end Moonlight
