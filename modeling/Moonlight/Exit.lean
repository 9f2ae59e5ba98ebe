import Moonlight.Settlement

namespace Moonlight
open Foundations

def exitConditions (withdraws : List (Address × I128)) (creates : List (BytesN 65 × I128)) :
    List Condition :=
  withdraws.map (fun e => .extWithdraw e.1 e.2) ++ creates.map fun e => .create e.1 e.2

/-- The operation that pays out `spend` to `withdraws` and `creates`, with no
conditions on the withdraws. -/
def exitOperation (spend : List (BytesN 65 × List Condition)) (withdraws : List (Address × I128))
    (creates : List (BytesN 65 × I128)) : ChannelOperation :=
  ⟨spend, creates, [], withdraws.map fun e => (e.1, e.2, [])⟩

section Conditions

variable {spend : List (BytesN 65 × List Condition)} {withdraws : List (Address × I128)}
  {creates : List (BytesN 65 × I128)}

theorem exitOperation_withdrawTotal : (exitOperation spend withdraws creates).withdrawTotal =
    (withdraws.map fun e => e.2.toInt).sum := by
  rw [ChannelOperation.withdrawTotal, exitOperation, List.map_map]
  rfl

theorem exitOperation_withdraw_fst :
    (exitOperation spend withdraws creates).withdraw.map Prod.fst = withdraws.map Prod.fst := by
  rw [exitOperation, List.map_map]
  rfl

theorem exitConditions_compatible (hw : (withdraws.map Prod.fst).Nodup)
    (hc : (creates.map Prod.fst).Nodup) {c d : Condition}
    (hcm : c ∈ exitConditions withdraws creates) (hdm : d ∈ exitConditions withdraws creates) :
    Compatible c d := by
  rcases List.mem_append.mp hcm with hcm | hcm <;> rcases List.mem_append.mp hdm with hdm | hdm <;>
    obtain ⟨e, he, rfl⟩ := List.mem_map.mp hcm <;> obtain ⟨f, hf, rfl⟩ := List.mem_map.mp hdm
  -- two conditions of one kind that agree on their subject are the same one
  · by_cases hef : e.1 = f.1
    · rw [List.inj_on_of_nodup_map hw he hf hef]
      simp [Compatible, Condition.conflictsWith]
    · simp [Compatible, Condition.conflictsWith, hef]
  · rfl
  · rfl
  · by_cases hef : e.1 = f.1
    · rw [List.inj_on_of_nodup_map hc he hf hef]
      simp [Compatible, Condition.conflictsWith]
    · simp [Compatible, Condition.conflictsWith, hef]

theorem exitOperation_preProcessed {Digest : Type} {H : Host Digest}
    (hfull : ∀ e ∈ spend, e.2.Perm (exitConditions withdraws creates))
    (hw : (withdraws.map Prod.fst).Nodup) (hc : (creates.map Prod.fst).Nodup)
    (hpos : ∀ e ∈ withdraws, 0 < e.2.toInt) :
    PreProcessed H (exitOperation spend withdraws creates) where
  conflictFree := by
    rw [opHasNoConflictingConditions_iff]
    have hmem : ∀ c ∈ (exitOperation spend withdraws creates).conditions,
        c ∈ exitConditions withdraws creates := by
      intro c hcm
      have hspent : c ∈ spend.flatMap (·.2) := by
        simpa [ChannelOperation.conditions, exitOperation, List.flatMap_map] using hcm
      obtain ⟨e, he, hce⟩ := List.mem_flatMap.mp hspent
      exact (hfull e he).mem_iff.mp hce
    apply List.pairwise_of_forall_mem_list
    intro c hcm d hdm
    exact exitConditions_compatible hw hc (hmem c hcm) (hmem d hdm)
  deposit_pos := by simp [exitOperation]
  withdraw_pos := by
    simp only [exitOperation, List.forall_mem_map]
    exact hpos
  deposit_nodup := List.nodup_nil
  withdraw_nodup := by
    rw [exitOperation_withdraw_fst]
    exact hw
  bound := by
    intro c hcm
    apply List.mem_map_of_mem
    have hspent : c ∈ spend.flatMap (·.2) := by
      simpa [exitOperation] using (List.mem_filter.mp hcm).1
    obtain ⟨e, he, hce⟩ := List.mem_flatMap.mp hspent
    have hexit := (hfull e he).mem_iff.mp hce
    -- the conditions name the withdraws first, the executed effects the creates
    rw [exitConditions, List.mem_append, or_comm, ← List.mem_append] at hexit
    simpa [ChannelOperation.executed, exitOperation, Function.comp_def] using hexit

end Conditions

variable {Digest : Type} [DecidableEq Digest] {H : Host Digest}

/-- In every reachable state of the channel and the token, any unspent keys can
be spent at once to any split of what they hold, whenever the auth contract
accepts. -/
theorem funds_can_leave (hsep : H.SeparatesKeys) (w₀ : World Digest Token) (h₀ : Deployed H w₀)
    (ht : TokenBefore w₀.self w₀.assetState) (calls : List SystemCall)
    (hcalls : ∀ c ∈ calls, c.RefusesSelf w₀.self) (sequence : U32) (requireAuth : RequireAuth)
    (auth : Transfer → Address → Bool) (spend : List (BytesN 65 × List Condition))
    (withdraws : List (Address × I128)) (creates : List (BytesN 65 × I128))
    (hauth : ∀ e ∈ withdraws, auth ⟨w₀.self, e.1, e.2⟩ w₀.self = true)
    (hfull : ∀ e ∈ spend, e.2.Perm (exitConditions withdraws creates))
    (hkeys : (spend.map Prod.fst).Nodup)
    (hw : (withdraws.map Prod.fst).Nodup) (hwpos : ∀ e ∈ withdraws, 0 < e.2.toInt)
    (hc : (creates.map Prod.fst).Nodup) (hcpos : ∀ p ∈ creates, 0 < p.2.toInt) :
    let w := run (SystemCall.exec H) w₀ calls
    (∀ e ∈ spend, 0 < w.channel.utxo.store.value H e.1) →
    (∀ p ∈ creates, w.channel.utxo.store.get (Store.utxoKey H p.1) = none) →
    (spend.map fun e => w.channel.utxo.store.value H e.1).sum =
      (withdraws.map fun e => e.2.toInt).sum + (creates.map fun p => p.2.toInt).sum →
    (∀ e ∈ withdraws, e.1 ≠ w.self → w.assetState.balance e.1 + e.2.toInt < 2 ^ 127) →
    (∀ a, w.channel.utxo.auth = some a →
      requireAuth a (authArgs (calculateAuthRequirements spend)) = true) →
    ∃ w', transact H (tokenInvocation sequence requireAuth auth) w
      (exitOperation spend withdraws creates) = .ok w' := by
  intro w hunspent hfresh hsum hroom haccept
  have hrest : AtRest w₀.self w := AtRest.of_run h₀ ht hcalls
  have hpre : PreProcessed H (exitOperation spend withdraws creates) :=
    exitOperation_preProcessed hfull hw hc hwpos
  have henabled : (digestBundle H (spend.map Prod.fst) creates).Enabled
      w.channel.utxo.store.ledger :=
    (enabled_iff hsep).mpr ⟨hkeys, hc, List.forall_mem_map.mpr hunspent, hfresh, hcpos⟩
  have hvalues : ((spend.map Prod.fst).map (w.channel.utxo.store.value H)).sum =
      (spend.map fun e => w.channel.utxo.store.value H e.1).sum := by
    rw [List.map_map]
    rfl
  -- what is paid out is part of `supply`, and the channel's tokens cover `supply`
  have hspent := hrest.solvent.backed.spent_le_supply henabled
  have hcreated := sum_nonneg_of_pos hcpos
  have hsupply := w.channel.readSupply.upper
  have hcovered := hrest.solvent.covered.supply
  have htotal : (exitOperation spend withdraws creates).withdrawTotal = _ :=
    exitOperation_withdrawTotal
  obtain ⟨a, ha⟩ := hrest.auth
  obtain ⟨asset, hasset⟩ := hrest.asset
  rw [transact_exists_iff hrest.solvent.backed hrest.guard]
  have hdeposit : (exitOperation spend withdraws creates).depositTotal = 0 := rfl
  refine ⟨hpre, by omega, by omega, by simp [exitOperation], henabled, ?_, by omega,
    ⟨a, ha, haccept a ha⟩, by simp [exitOperation], asset, hasset, ?_⟩
  · show _ + ((spend.map Prod.fst).map (w.channel.utxo.store.value H)).sum =
      (creates.map fun p => p.2.toInt).sum + _
    omega
  · rw [transferAll_exists_iff hpre (by simp [exitOperation]) (by omega)]
    refine ⟨by simp [exitOperation], ?_, ?_⟩
    · rw [hdeposit, add_zero]
      exact (w.assetState.readBalance w.self).upper
    · simp only [exitOperation, List.forall_mem_map]
      intro e he
      refine ⟨?_, ?_⟩
      · rw [hrest.address]
        exact hauth e he
      · intro hne
        have hnone : listed [] e.1 = 0 := rfl
        rw [hnone, sub_zero]
        exact hroom e he hne

def exitSigned : List (BytesN 65 × List Condition) :=
  [(sampleKey 1, exitConditions [(sampleAccount 6, .ofByte 40)] [(sampleKey 2, .ofByte 60)])]

theorem funds_can_leave_exitSigned :
    ∃ w', transact (sampleHost exitSigned) (tokenCall exitSigned sampleDeposit)
      (tokenFunded exitSigned) (exitOperation exitSigned [(sampleAccount 6, .ofByte 40)]
        [(sampleKey 2, .ofByte 60)]) = .ok w' := by
  apply funds_can_leave (idealHost_separatesKeys _ _)
    (sampleWorld (sampleHost exitSigned) sampleToken) (sampleWorld_deployed _ _)
    sampleToken_before (tokenCalls exitSigned) (tokenCalls_refuseSelf exitSigned)
  · intro e _
    rfl
  · intro e he
    rw [List.mem_singleton.mp he]
  · decide
  · decide
  · decide
  · decide
  · decide
  · decide +kernel
  · decide +kernel
  · decide +kernel
  · intro e he _
    rw [List.mem_singleton.mp he]
    decide +kernel
  · intro a ha
    have hsome : (tokenFunded exitSigned).channel.utxo.auth = some (sampleContract 2) := by
      decide +kernel
    rw [← Option.some.inj (hsome.symm.trans ha)]
    decide +kernel

end Moonlight
