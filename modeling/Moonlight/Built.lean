import Moonlight.OperationBuilder
import Moonlight.Acceptance
import Moonlight.AuthVerdict

namespace Moonlight
open Foundations

variable {Digest : Type}

section Demand

variable {p : Prop} [Decidable p] {e : BuilderPanic} {u : Unit}

@[simp] theorem demand_eq_ok : demand p e = .ok u ↔ p := by
  by_cases h : p
  · simp [demand, h]
  · simp [demand, h]

end Demand

theorem equalConditionSequence_iff_map {H : Host Digest} {a b : List Condition} :
    equalConditionSequence H a b = true ↔ a.map H.conditionToXdr = b.map H.conditionToXdr := by
  have hwalk (a b : List Condition) (hlen : a.length = b.length) :
      equalXdr H a b = true ↔ a.map H.conditionToXdr = b.map H.conditionToXdr := by
    induction a generalizing b with
    | nil => simp [equalXdr, List.length_eq_zero_iff.mp hlen.symm]
    | cons c cs ih =>
      cases b with
      | nil => simp at hlen
      | cons d ds =>
        have hrest := ih ds (by simpa using hlen)
        by_cases hcd : H.conditionToXdr c = H.conditionToXdr d
        · simp [equalXdr, hcd, hrest]
        · simp [equalXdr, hcd]
  unfold equalConditionSequence
  by_cases hlen : a.length = b.length
  · rw [if_neg (not_not.mpr hlen)]
    exact hwalk a b hlen
  · rw [if_pos hlen]
    simp only [Bool.false_eq_true, false_iff]
    intro h
    exact hlen (by simpa using congrArg List.length h)

theorem equalConditionSequence_comm {H : Host Digest} (a b : List Condition) :
    equalConditionSequence H a b = equalConditionSequence H b a := by
  rw [Bool.eq_iff_iff, equalConditionSequence_iff_map, equalConditionSequence_iff_map, eq_comm]

/-- No condition of one list conflicts with one of the other. -/
def Apart (cs ds : List Condition) : Prop := hasNoConflictingConditionsInSets cs ds = true

theorem Apart.symm {cs ds : List Condition} (h : Apart cs ds) : Apart ds cs := by
  rw [Apart, hasNoConflictingConditionsInSets_comm]
  exact h

/-- What every builder has checked. -/
structure WellBuilt (H : Host Digest) (b : ChannelOperationBuilder) : Prop where
  spend_nodup : (b.utxoBuilder.spend.map Prod.fst).Nodup
  create_nodup : (b.utxoBuilder.create.map Prod.fst).Nodup
  deposit_nodup : (b.deposit.map Prod.fst).Nodup
  withdraw_nodup : (b.withdraw.map Prod.fst).Nodup
  spend_apart : b.utxoBuilder.spend.Pairwise fun e f => Apart e.2 f.2
  deposit_apart : b.deposit.Pairwise fun e f => Apart e.2.2 f.2.2
  withdraw_apart : b.withdraw.Pairwise fun e f => Apart e.2.2 f.2.2
  external_apart : ∀ d ∈ b.deposit, ∀ e ∈ b.withdraw, Apart d.2.2 e.2.2
  sequences : ∀ d ∈ b.deposit, ∀ e ∈ b.withdraw, d.1 = e.1 →
    equalConditionSequence H d.2.2 e.2.2 = true

section Step

variable {H : Host Digest} {b b' : ChannelOperationBuilder}

theorem nodup_append_new {K α : Type*} {l : List (K × α)} {k : K} {a : α}
    (hl : (l.map Prod.fst).Nodup) (hnew : ∀ e ∈ l, ¬ e.1 = k) :
    ((l ++ [(k, a)]).map Prod.fst).Nodup := by
  rw [List.map_append, List.nodup_append]
  refine ⟨hl, List.nodup_singleton k, fun x hx y hy => ?_⟩
  obtain ⟨e, he, rfl⟩ := List.mem_map.mp hx
  rw [List.mem_singleton.mp hy]
  exact hnew e he

theorem find_of_mem {K α : Type*} [DecidableEq K] {f : α → K} {l : List α} {a : α} (ha : a ∈ l) :
    ∃ x ∈ l, (l.find? fun x => decide (f x = f a)) = some x ∧ f x = f a := by
  have hsome : (l.find? fun x => decide (f x = f a)).isSome = true := by
    rw [List.find?_isSome]
    exact ⟨a, ha, decide_eq_true rfl⟩
  obtain ⟨x, hx⟩ := Option.isSome_iff_exists.mp hsome
  have hkey : f x = f a := by simpa using List.find?_some hx
  exact ⟨x, List.mem_of_find?_eq_some hx, hx, hkey⟩

theorem find_of_nodup {K α : Type*} [DecidableEq K] {f : α → K} {l : List α} {a : α}
    (hl : (l.map f).Nodup) (ha : a ∈ l) : (l.find? fun x => decide (f x = f a)) = some a := by
  obtain ⟨x, hmem, hx, hkey⟩ := find_of_mem (f := f) ha
  rw [hx, List.inj_on_of_nodup_map hl hmem ha hkey]

theorem pairwise_append_new {α : Type*} {R : α → α → Prop} {l : List α} {a : α}
    (hl : l.Pairwise R) (hnew : ∀ e ∈ l, R e a) : (l ++ [a]).Pairwise R := by
  rw [List.pairwise_append]
  refine ⟨hl, List.pairwise_singleton R a, fun e he x hx => ?_⟩
  rw [List.mem_singleton.mp hx]
  exact hnew e he

theorem hasSignatureForProvider_iff {b : UtxoOperationBuilder} :
    b.hasSignatureForProvider = true ↔ ∃ pk, .provider pk ∈ b.signMap := by
  simp only [UtxoOperationBuilder.hasSignatureForProvider, List.any_eq_true, mem_sortedKeys]
  constructor
  · intro h
    obtain ⟨k, hk, hp⟩ := h
    cases k with
    | provider pk => exact ⟨pk, hk⟩
    | p256 pk => cases hp
    | ed25519 pk => cases hp
  · intro h
    obtain ⟨pk, hpk⟩ := h
    exact ⟨_, hpk, rfl⟩

theorem addressToEd25519PkBytes_ok {a : Address} {pk : BytesN 32} :
    addressToEd25519PkBytes a = .ok pk ↔ a = .account pk := by
  cases a <;> simp [addressToEd25519PkBytes]

theorem checkExternal_ok {e : ChannelOperationBuilder.ExternalPanics}
    {same other : List (Address × I128 × List Condition)} {address : Address}
    {conditions : List Condition} {u : Unit} :
    ChannelOperationBuilder.checkExternal H e same other address conditions = .ok u ↔
      (∀ x ∈ same, ¬ x.1 = address ∧ Apart conditions x.2.2) ∧
        ∀ x ∈ other, (x.1 = address → equalConditionSequence H x.2.2 conditions = true) ∧
          Apart conditions x.2.2 := by
  simp only [ChannelOperationBuilder.checkExternal, bind_eq_ok, forM_eq_ok, demand_eq_ok,
    exists_const, Apart]

/-- What a call has checked, and the builder that it leaves. -/
def BuilderCall.Effect (H : Host Digest) (b b' : ChannelOperationBuilder) : BuilderCall → Prop
  | addSpend utxo conditions =>
    (∀ e ∈ b.utxoBuilder.spend, ¬ e.1 = utxo ∧ Apart conditions e.2) ∧
      { b with utxoBuilder.spend := b.utxoBuilder.spend ++ [(utxo, conditions)] } = b'
  | addCreate utxo amount =>
    (∀ e ∈ b.utxoBuilder.create, ¬ e.1 = utxo) ∧
      (∀ e ∈ b.utxoBuilder.spend,
        conditionDoesNotConflictWithSet (.create utxo amount) e.2 = true) ∧
      { b with utxoBuilder.create := b.utxoBuilder.create ++ [(utxo, amount)] } = b'
  | addSpendSignature utxo sig v =>
    .p256 utxo ∉ b.utxoBuilder.signMap ∧
      { b with
        utxoBuilder.signMap := b.utxoBuilder.signMap.insert (.p256 utxo) (.p256 sig, v) } = b'
  | addEd25519Signature pk sig v =>
    .ed25519 pk ∉ b.utxoBuilder.signMap ∧
      { b with
        utxoBuilder.signMap := b.utxoBuilder.signMap.insert (.ed25519 pk) (.ed25519 sig, v) } = b'
  | addProviderSignature a sig v =>
    (∀ pk, .provider pk ∉ b.utxoBuilder.signMap) ∧ ∃ pk, a = .account pk ∧
      { b with
        utxoBuilder.signMap := b.utxoBuilder.signMap.insert (.provider pk) (.ed25519 sig, v) } = b'
  | addDeposit address amount conditions =>
    (∀ x ∈ b.deposit, ¬ x.1 = address ∧ Apart conditions x.2.2) ∧
      (∀ x ∈ b.withdraw, (x.1 = address → equalConditionSequence H x.2.2 conditions = true) ∧
        Apart conditions x.2.2) ∧
      { b with deposit := b.deposit ++ [(address, amount, conditions)] } = b'
  | addWithdraw address amount conditions =>
    (∀ x ∈ b.withdraw, ¬ x.1 = address ∧ Apart conditions x.2.2) ∧
      (∀ x ∈ b.deposit, (x.1 = address → equalConditionSequence H x.2.2 conditions = true) ∧
        Apart conditions x.2.2) ∧
      { b with withdraw := b.withdraw ++ [(address, amount, conditions)] } = b'
  | addDepositSignature a sig =>
    a ∉ b.depositSignMap ∧ { b with depositSignMap := b.depositSignMap.insert a sig } = b'

theorem BuilderCall.exec_ok {c : BuilderCall} : c.exec H b = .ok b' ↔ c.Effect H b b' := by
  cases c with
  | addSpend utxo conditions =>
    simp only [BuilderCall.exec, ChannelOperationBuilder.onUtxos, UtxoOperationBuilder.addSpend,
      bind_eq_ok, pure_eq_ok, forM_eq_ok, demand_eq_ok, exists_const, Effect, Apart, and_assoc,
      exists_and_left, exists_eq_left']
  | addCreate utxo amount =>
    simp only [BuilderCall.exec, ChannelOperationBuilder.onUtxos, UtxoOperationBuilder.addCreate,
      bind_eq_ok, pure_eq_ok, forM_eq_ok, demand_eq_ok, exists_const, Effect, and_assoc,
      exists_and_left, exists_eq_left']
  | addSpendSignature utxo sig v =>
    simp only [BuilderCall.exec, ChannelOperationBuilder.onUtxos,
      UtxoOperationBuilder.addSpendSignature, UtxoOperationBuilder.hasSignatureForSpendUtxo,
      bind_eq_ok, pure_eq_ok, demand_eq_ok, exists_const, Effect, and_assoc, exists_and_left,
      exists_eq_left', decide_eq_true_eq]
  | addEd25519Signature pk sig v =>
    simp only [BuilderCall.exec, ChannelOperationBuilder.onUtxos,
      UtxoOperationBuilder.addEd25519Signature, UtxoOperationBuilder.hasSignatureForEd25519,
      bind_eq_ok, pure_eq_ok, demand_eq_ok, exists_const, Effect, and_assoc, exists_and_left,
      exists_eq_left', decide_eq_true_eq]
  | addProviderSignature a sig v =>
    simp only [BuilderCall.exec, ChannelOperationBuilder.onUtxos,
      UtxoOperationBuilder.addProviderSignature, hasSignatureForProvider_iff, not_exists,
      addressToEd25519PkBytes_ok, bind_eq_ok, pure_eq_ok, demand_eq_ok, exists_const, Effect,
      and_assoc, exists_and_left]
    constructor
    · intro h
      obtain ⟨hnone, u, ⟨pk, ha, rfl⟩, hb⟩ := h
      exact ⟨hnone, pk, ha, hb⟩
    · intro h
      obtain ⟨hnone, pk, ha, hb⟩ := h
      exact ⟨hnone, _, ⟨pk, ha, rfl⟩, hb⟩
  | addDeposit address amount conditions =>
    simp only [BuilderCall.exec, ChannelOperationBuilder.addDeposit, bind_eq_ok, pure_eq_ok,
      checkExternal_ok, exists_const, Effect, and_assoc]
  | addWithdraw address amount conditions =>
    simp only [BuilderCall.exec, ChannelOperationBuilder.addWithdraw, bind_eq_ok, pure_eq_ok,
      checkExternal_ok, exists_const, Effect, and_assoc]
  | addDepositSignature a sig =>
    simp only [BuilderCall.exec, ChannelOperationBuilder.addDepositSignature,
      ChannelOperationBuilder.hasDepositSignatureForAddress, bind_eq_ok, pure_eq_ok, demand_eq_ok,
      exists_const, Effect, decide_eq_true_eq]

theorem WellBuilt.generate (channelContract authContract asset : Address) :
    WellBuilt H (.generate channelContract authContract asset) := by
  constructor <;> simp [ChannelOperationBuilder.generate, UtxoOperationBuilder.generate]

theorem WellBuilt.exec (hb : WellBuilt H b) {c : BuilderCall} (h : c.exec H b = .ok b') :
    WellBuilt H b' := by
  have h := BuilderCall.exec_ok.mp h
  cases c with
  | addSpendSignature utxo sig v =>
    obtain ⟨-, rfl⟩ := h
    exact { hb with }
  | addEd25519Signature pk sig v =>
    obtain ⟨-, rfl⟩ := h
    exact { hb with }
  | addProviderSignature a sig v =>
    obtain ⟨-, pk, -, rfl⟩ := h
    exact { hb with }
  | addDepositSignature a sig =>
    obtain ⟨-, rfl⟩ := h
    exact { hb with }
  | addSpend utxo conditions =>
    obtain ⟨hall, rfl⟩ := h
    have hnew : ∀ e ∈ b.utxoBuilder.spend, ¬ e.1 = utxo := fun e he => (hall e he).1
    have hapart : ∀ e ∈ b.utxoBuilder.spend, Apart e.2 conditions := fun e he =>
      Apart.symm (hall e he).2
    exact { hb with
      spend_nodup := nodup_append_new hb.spend_nodup hnew
      spend_apart := pairwise_append_new hb.spend_apart hapart }
  | addCreate utxo amount =>
    obtain ⟨hnew, -, rfl⟩ := h
    exact { hb with create_nodup := nodup_append_new hb.create_nodup hnew }
  | addDeposit address amount conditions =>
    obtain ⟨hsame, hother, rfl⟩ := h
    refine { hb with
      deposit_nodup := nodup_append_new hb.deposit_nodup fun e he => (hsame e he).1
      deposit_apart := pairwise_append_new hb.deposit_apart fun e he => (hsame e he).2.symm
      external_apart := fun d hd e he => ?_
      sequences := fun d hd e he hde => ?_ }
    · rcases List.mem_append.mp hd with hd | hd
      · exact hb.external_apart d hd e he
      · rw [List.mem_singleton.mp hd]
        exact (hother e he).2
    · rcases List.mem_append.mp hd with hd | hd
      · exact hb.sequences d hd e he hde
      · rw [List.mem_singleton.mp hd] at hde ⊢
        rw [equalConditionSequence_comm]
        exact (hother e he).1 hde.symm
  | addWithdraw address amount conditions =>
    obtain ⟨hsame, hother, rfl⟩ := h
    refine { hb with
      withdraw_nodup := nodup_append_new hb.withdraw_nodup fun e he => (hsame e he).1
      withdraw_apart := pairwise_append_new hb.withdraw_apart fun e he => (hsame e he).2.symm
      external_apart := fun d hd e he => ?_
      sequences := fun d hd e he hde => ?_ }
    · rcases List.mem_append.mp he with he | he
      · exact hb.external_apart d hd e he
      · rw [List.mem_singleton.mp he]
        exact (hother d hd).2.symm
    · rcases List.mem_append.mp he with he | he
      · exact hb.sequences d hd e he hde
      · rw [List.mem_singleton.mp he] at hde ⊢
        exact (hother d hd).1 hde

theorem BuilderCall.exec_contracts {c : BuilderCall} (h : c.exec H b = .ok b') :
    b'.utxoBuilder.channelContract = b.utxoBuilder.channelContract ∧
      b'.utxoBuilder.authContract = b.utxoBuilder.authContract ∧ b'.asset = b.asset := by
  have h := BuilderCall.exec_ok.mp h
  cases c with
  | addCreate utxo amount =>
    obtain ⟨-, -, rfl⟩ := h
    exact ⟨rfl, rfl, rfl⟩
  | addDeposit address amount conditions =>
    obtain ⟨-, -, rfl⟩ := h
    exact ⟨rfl, rfl, rfl⟩
  | addWithdraw address amount conditions =>
    obtain ⟨-, -, rfl⟩ := h
    exact ⟨rfl, rfl, rfl⟩
  | addProviderSignature a sig v =>
    obtain ⟨-, pk, -, rfl⟩ := h
    exact ⟨rfl, rfl, rfl⟩
  | _ =>
    obtain ⟨-, rfl⟩ := h
    exact ⟨rfl, rfl, rfl⟩

end Step

/-- A builder after some calls; the calls that panic change nothing. -/
def ChannelOperationBuilder.after (H : Host Digest) (channelContract authContract asset : Address)
    (calls : List BuilderCall) : ChannelOperationBuilder :=
  run (BuilderCall.exec H) (.generate channelContract authContract asset) calls

/-- The calls among them that did not panic. -/
def BuilderCall.accepted (H : Host Digest) (channelContract authContract asset : Address)
    (calls : List BuilderCall) : List BuilderCall :=
  succeeded (BuilderCall.exec H) (.generate channelContract authContract asset) calls

theorem ChannelOperationBuilder.wellBuilt_after (H : Host Digest)
    (channelContract authContract asset : Address) (calls : List BuilderCall) :
    WellBuilt H (.after H channelContract authContract asset calls) :=
  run_invariant (fun _ _ _ _ hb h => hb.exec h) (.generate channelContract authContract asset)

theorem ChannelOperationBuilder.after_contracts (H : Host Digest)
    (channelContract authContract asset : Address) (calls : List BuilderCall) :
    let b := ChannelOperationBuilder.after H channelContract authContract asset calls
    b.utxoBuilder.channelContract = channelContract ∧ b.utxoBuilder.authContract = authContract ∧
      b.asset = asset := by
  apply run_invariant (I := fun b : ChannelOperationBuilder =>
    b.utxoBuilder.channelContract = channelContract ∧ b.utxoBuilder.authContract = authContract ∧
      b.asset = asset)
  · intro b b' c _ hb h
    obtain ⟨hchannel, hauth, hasset⟩ := c.exec_contracts h
    rwa [hchannel, hauth, hasset]
  · exact ⟨rfl, rfl, rfl⟩

def ChannelOperation.conditionLists (op : ChannelOperation) : List (List Condition) :=
  op.spend.map Prod.snd ++ op.deposit.map (·.2.2) ++ op.withdraw.map (·.2.2)

/-- What no call of a builder looks at: each list of conditions by itself, the
spends against the deposits and withdraws, the amounts, and the signed effects. -/
structure LeftToCheck (H : Host Digest) (op : ChannelOperation) : Prop where
  within : ∀ cs ∈ op.conditionLists, noConflicts [] cs = true
  spend_deposit : ∀ s ∈ op.spend, ∀ d ∈ op.deposit, Apart s.2 d.2.2
  spend_withdraw : ∀ s ∈ op.spend, ∀ e ∈ op.withdraw, Apart s.2 e.2.2
  deposit_pos : ∀ e ∈ op.deposit, 0 < e.2.1.toInt
  withdraw_pos : ∀ e ∈ op.withdraw, 0 < e.2.1.toInt
  deposit_fits : op.depositTotal < 2 ^ 127
  withdraw_fits : op.withdrawTotal < 2 ^ 127
  bound : ∀ c ∈ op.bound, H.conditionToXdr c ∈ op.executed.map H.conditionToXdr

section Left

variable {H : Host Digest} {b : ChannelOperationBuilder}

theorem WellBuilt.conflictFree_iff (hb : WellBuilt H b) :
    opHasNoConflictingConditions b.getOperationBundle = true ↔
      (∀ cs ∈ b.getOperationBundle.conditionLists, noConflicts [] cs = true) ∧
        (∀ s ∈ b.utxoBuilder.spend, ∀ d ∈ b.deposit, Apart s.2 d.2.2) ∧
        ∀ s ∈ b.utxoBuilder.spend, ∀ e ∈ b.withdraw, Apart s.2 e.2.2 := by
  have hflat : b.getOperationBundle.conditionLists.flatten.Perm
      b.getOperationBundle.conditions := by
    simp only [ChannelOperation.conditionLists, ChannelOperation.conditions, List.flatten_append,
      List.flatMap_def, List.Perm.refl]
  rw [opHasNoConflictingConditions_iff, pairwise_compatible_parts hflat]
  apply and_congr_right
  intro _
  simp only [ChannelOperation.conditionLists, ChannelOperationBuilder.getOperationBundle,
    List.pairwise_append, List.pairwise_map, List.mem_append, List.mem_map, or_imp, forall_and,
    forall_exists_index, and_imp, forall_apply_eq_imp_iff₂]
  constructor
  · intro h
    exact ⟨h.1.2.2, h.2.2.1⟩
  · intro h
    -- the pairs on one side of the bundle the builder has compared
    exact ⟨⟨hb.spend_apart, hb.deposit_apart, h.1⟩, hb.withdraw_apart, h.2, hb.external_apart⟩

theorem WellBuilt.preProcess_iff (hb : WellBuilt H b) :
    (∃ r, preProcessChannelOperation H b.getOperationBundle = .ok r) ↔
      LeftToCheck H b.getOperationBundle := by
  constructor
  · intro h
    obtain ⟨r, hr⟩ := h
    obtain ⟨hpre, -, hd, hw⟩ := preProcess_ok hr
    obtain ⟨hwithin, hdeposit, hwithdraw⟩ := hb.conflictFree_iff.mp hpre.conflictFree
    have hdfits := r.2.1.upper
    have hwfits := r.2.2.upper
    rw [hd] at hdfits
    rw [hw] at hwfits
    exact ⟨hwithin, hdeposit, hwithdraw, hpre.deposit_pos, hpre.withdraw_pos, hdfits, hwfits,
      hpre.bound⟩
  · intro h
    have hconflict := hb.conflictFree_iff.mpr ⟨h.within, h.spend_deposit, h.spend_withdraw⟩
    have hpre : PreProcessed H b.getOperationBundle :=
      ⟨hconflict, h.deposit_pos, h.withdraw_pos, hb.deposit_nodup, hb.withdraw_nodup, h.bound⟩
    exact preProcess_exists hpre h.deposit_fits h.withdraw_fits hb.sequences

/-- Whatever calls were made on a builder, in whatever order: its keys and its
addresses do not repeat, and the channel's first phase takes its bundle exactly
if the rest is in order. -/
theorem built_preProcess_iff (H : Host Digest) (channelContract authContract asset : Address)
    (calls : List BuilderCall) :
    let op := (ChannelOperationBuilder.after H channelContract authContract asset
      calls).getOperationBundle
    (op.spend.map Prod.fst).Nodup ∧ (op.create.map Prod.fst).Nodup ∧
      (op.deposit.map Prod.fst).Nodup ∧ (op.withdraw.map Prod.fst).Nodup ∧
      ((∃ r, preProcessChannelOperation H op = .ok r) ↔ LeftToCheck H op) := by
  intro op
  have hb := ChannelOperationBuilder.wellBuilt_after H channelContract authContract asset calls
  exact ⟨hb.spend_nodup, hb.create_nodup, hb.deposit_nodup, hb.withdraw_nodup, hb.preProcess_iff⟩

/-- An address that deposits and withdraws has one list of conditions to sign, and
the builder gives it for either entry. -/
theorem WellBuilt.getAuthPayloadForAddress (hb : WellBuilt H b)
    {e : Address × I128 × List Condition} (he : e ∈ b.deposit ++ b.withdraw) (v : U32) :
    ∃ p, b.getAuthPayloadForAddress e.1 v = .ok p ∧ p.liveUntilLedger = v ∧
      p.conditions.map H.conditionToXdr = e.2.2.map H.conditionToXdr := by
  obtain ⟨x, hmem, hx, hkey⟩ := find_of_mem (f := Prod.fst) he
  refine ⟨⟨x.2.2, v⟩, ?_, rfl, ?_⟩
  · rw [ChannelOperationBuilder.getAuthPayloadForAddress, hx]
  · rcases List.mem_append.mp hmem with hd | hw
    · rcases List.mem_append.mp he with hd' | hw'
      · rw [List.inj_on_of_nodup_map hb.deposit_nodup hd hd' hkey]
      · exact equalConditionSequence_iff_map.mp (hb.sequences x hd e hw' hkey)
    · rcases List.mem_append.mp he with hd' | hw'
      · exact (equalConditionSequence_iff_map.mp (hb.sequences e hd' x hw hkey.symm)).symm
      · rw [List.inj_on_of_nodup_map hb.withdraw_nodup hw hw' hkey]

end Left

def BuilderCall.signature : BuilderCall → Option (SignerKey × Signature × U32)
  | addSpendSignature spendUtxo sig liveUntilLedger =>
    some (.p256 spendUtxo, .p256 sig, liveUntilLedger)
  | addEd25519Signature publicKey sig liveUntilLedger =>
    some (.ed25519 publicKey, .ed25519 sig, liveUntilLedger)
  | addProviderSignature (.account pk) sig liveUntilLedger =>
    some (.provider pk, .ed25519 sig, liveUntilLedger)
  | _ => none

/-- What the two maps of a builder hold after the calls of a list. -/
structure Collected (b : ChannelOperationBuilder) (calls : List BuilderCall) : Prop where
  signMap : ∀ k v, b.utxoBuilder.signMap.lookup k = some v ↔
    ∃ c ∈ calls, c.signature = some (k, v)
  depositSignMap : ∀ a s, b.depositSignMap.lookup a = some s ↔
    .addDepositSignature a s ∈ calls
  provider : ∀ pk pk', .provider pk ∈ b.utxoBuilder.signMap →
    .provider pk' ∈ b.utxoBuilder.signMap → pk = pk'

section Collect

variable {H : Host Digest} {b b' : ChannelOperationBuilder} {c : BuilderCall}
  {calls : List BuilderCall}

theorem Collected.other (hb : Collected b calls) (hsig : c.signature = none)
    (hdep : ∀ a s, c ≠ .addDepositSignature a s)
    (hsign : b'.utxoBuilder.signMap = b.utxoBuilder.signMap)
    (hdeposit : b'.depositSignMap = b.depositSignMap) : Collected b' (calls ++ [c]) := by
  obtain ⟨h1, h2, h3⟩ := hb
  have hnone (k : SignerKey) (v : Signature × U32) : ¬ c.signature = some (k, v) := by simp [hsig]
  have hdep' (a : Address) (s : AccountEd25519Signature) : ¬ .addDepositSignature a s = c :=
    fun h => hdep a s h.symm
  constructor
  · simp [hsign, h1, or_and_right, exists_or, hnone]
  · simp [hdeposit, h2, hdep']
  · rwa [hsign]

theorem Collected.sign (hb : Collected b calls) {k : SignerKey} {v : Signature × U32}
    (hsig : c.signature = some (k, v)) (hdep : ∀ a s, c ≠ .addDepositSignature a s)
    (hnew : k ∉ b.utxoBuilder.signMap)
    (hprovider : k.isProvider = true → ∀ pk, .provider pk ∉ b.utxoBuilder.signMap)
    (hsign : b'.utxoBuilder.signMap = b.utxoBuilder.signMap.insert k v)
    (hdeposit : b'.depositSignMap = b.depositSignMap) : Collected b' (calls ++ [c]) := by
  obtain ⟨h1, h2, h3⟩ := hb
  have hdep' (a : Address) (s : AccountEd25519Signature) : ¬ .addDepositSignature a s = c :=
    fun h => hdep a s h.symm
  constructor
  · intro j w
    rw [hsign, lookup_insert_new hnew, h1]
    simp [or_and_right, exists_or, hsig, eq_comm]
  · simp [hdeposit, h2, hdep']
  · intro pk pk' hpk hpk'
    rw [hsign, Finmap.mem_insert] at hpk hpk'
    rcases hpk with rfl | hpk
    · rcases hpk' with hk | hpk'
      · exact (SignerKey.provider.inj hk).symm
      · exact absurd hpk' (hprovider rfl pk')
    · rcases hpk' with rfl | hpk'
      · exact absurd hpk (hprovider rfl pk)
      · exact h3 pk pk' hpk hpk'

theorem Collected.generate (channelContract authContract asset : Address) :
    Collected (.generate channelContract authContract asset) [] := by
  constructor
  · simp [ChannelOperationBuilder.generate, UtxoOperationBuilder.generate]
  · simp [ChannelOperationBuilder.generate]
  · intro pk pk' hpk
    exact absurd hpk Finmap.notMem_empty

theorem Collected.exec (hb : Collected b calls) (h : c.exec H b = .ok b') :
    Collected b' (calls ++ [c]) := by
  have h := BuilderCall.exec_ok.mp h
  cases c with
  | addSpend utxo conditions =>
    obtain ⟨-, rfl⟩ := h
    exact hb.other rfl (fun _ _ he => by cases he) rfl rfl
  | addCreate utxo amount =>
    obtain ⟨-, -, rfl⟩ := h
    exact hb.other rfl (fun _ _ he => by cases he) rfl rfl
  | addDeposit address amount conditions =>
    obtain ⟨-, -, rfl⟩ := h
    exact hb.other rfl (fun _ _ he => by cases he) rfl rfl
  | addWithdraw address amount conditions =>
    obtain ⟨-, -, rfl⟩ := h
    exact hb.other rfl (fun _ _ he => by cases he) rfl rfl
  | addSpendSignature utxo sig v =>
    obtain ⟨hnew, rfl⟩ := h
    exact hb.sign rfl (fun _ _ he => by cases he) hnew (fun hp => by cases hp) rfl rfl
  | addEd25519Signature pk sig v =>
    obtain ⟨hnew, rfl⟩ := h
    exact hb.sign rfl (fun _ _ he => by cases he) hnew (fun hp => by cases hp) rfl rfl
  | addProviderSignature a sig v =>
    obtain ⟨hnone, pk, rfl, rfl⟩ := h
    exact hb.sign rfl (fun _ _ he => by cases he) (hnone pk) (fun _ => hnone) rfl rfl
  | addDepositSignature a sig =>
    obtain ⟨hnew, rfl⟩ := h
    obtain ⟨h1, h2, h3⟩ := hb
    constructor
    · simp [h1, or_and_right, exists_or, BuilderCall.signature]
    · intro a' s
      rw [lookup_insert_new hnew, h2]
      simp [eq_comm]
    · exact h3

theorem ChannelOperationBuilder.collected_after (H : Host Digest)
    (channelContract authContract asset : Address) (calls : List BuilderCall) :
    Collected (.after H channelContract authContract asset calls)
      (BuilderCall.accepted H channelContract authContract asset calls) :=
  run_history (fun _ _ _ _ hb h => hb.exec h) (.generate channelContract authContract asset)

end Collect

/-- The provider has signed this entry, and may. -/
def ProviderReady (H : Host Digest) (now : U32) (st : ChannelAuth) (payload : Digest)
    (accepted : List BuilderCall) : Prop :=
  ∃ pk sig v, .addProviderSignature (.account pk) sig v ∈ accepted ∧
    st.isProvider (.account pk) = true ∧ now ≤ v ∧ H.ed25519Verify pk payload sig = true

/-- The owner of a spend has signed the hash that the builder hands out for it. -/
def SpendReady (H : Host Digest) (now : U32) (b : UtxoOperationBuilder)
    (accepted : List BuilderCall) (utxo : BytesN 65) : Prop :=
  ∃ sig v d, .addSpendSignature utxo sig v ∈ accepted ∧ now ≤ v ∧
    b.getAuthHashForSpend H utxo v = .ok d ∧ H.secp256r1Verify utxo d sig = true

def AuthorizedInvocation.context (i : AuthorizedInvocation) : Context :=
  .contract ⟨i.contract, i.args⟩

section Verdict

variable {H : Host Digest} {now : U32} {st : ChannelAuth} {payload : Digest}
  {b : ChannelOperationBuilder} {accepted : List BuilderCall}

theorem Collected.lookup_p256 (hc : Collected b accepted) {u : BytesN 65}
    {v : Signature × U32} : b.utxoBuilder.signMap.lookup (.p256 u) = some v ↔
      ∃ sig, v.1 = .p256 sig ∧ .addSpendSignature u sig v.2 ∈ accepted := by
  rw [hc.signMap]
  constructor
  · intro h
    obtain ⟨c, hmem, hsig⟩ := h
    cases c with
    | addSpendSignature u' sig w =>
      simp only [BuilderCall.signature, Option.some.injEq, Prod.mk.injEq, SignerKey.p256.injEq]
        at hsig
      obtain ⟨rfl, rfl⟩ := hsig
      exact ⟨sig, rfl, hmem⟩
    | addProviderSignature a sig w => cases a <;> simp [BuilderCall.signature] at hsig
    | _ => simp [BuilderCall.signature] at hsig
  · intro h
    obtain ⟨sig, he, hmem⟩ := h
    exact ⟨_, hmem, by rw [BuilderCall.signature, ← he]⟩

theorem Collected.lookup_provider (hc : Collected b accepted) {pk : BytesN 32}
    {v : Signature × U32} : b.utxoBuilder.signMap.lookup (.provider pk) = some v ↔
      ∃ sig, v.1 = .ed25519 sig ∧ .addProviderSignature (.account pk) sig v.2 ∈ accepted := by
  rw [hc.signMap]
  constructor
  · intro h
    obtain ⟨c, hmem, hsig⟩ := h
    cases c with
    | addProviderSignature a sig w =>
      cases a with
      | account pk' =>
        simp only [BuilderCall.signature, Option.some.injEq, Prod.mk.injEq,
          SignerKey.provider.injEq] at hsig
        obtain ⟨rfl, rfl⟩ := hsig
        exact ⟨sig, rfl, hmem⟩
      | contract id => cases hsig
    | _ => simp [BuilderCall.signature] at hsig
  · intro h
    obtain ⟨sig, he, hmem⟩ := h
    exact ⟨_, hmem, by rw [BuilderCall.signature, ← he]⟩

theorem Collected.provider_iff (hc : Collected b accepted) :
    ((∃ pk, .provider pk ∈ b.utxoBuilder.signMap) ∧
        ∀ pk, .provider pk ∈ b.utxoBuilder.signMap →
          ProviderSigned H now st payload b.utxoBuilder.signMap pk) ↔
      ProviderReady H now st payload accepted := by
  constructor
  · intro h
    obtain ⟨⟨pk, hpk⟩, hall⟩ := h
    obtain ⟨sig, v, hlook, hreg, hv, hverify⟩ := hall pk hpk
    obtain ⟨sig', he, hmem⟩ := hc.lookup_provider.mp hlook
    obtain rfl := Signature.ed25519.inj he
    exact ⟨pk, sig, v, hmem, hreg, hv, hverify⟩
  · intro h
    obtain ⟨pk, sig, v, hmem, hreg, hv, hverify⟩ := h
    have hlook : b.utxoBuilder.signMap.lookup (.provider pk) = some (.ed25519 sig, v) :=
      hc.lookup_provider.mpr ⟨sig, rfl, hmem⟩
    have hpk := Finmap.mem_of_lookup_eq_some hlook
    refine ⟨⟨pk, hpk⟩, ?_⟩
    intro pk' hpk'
    obtain rfl := hc.provider pk pk' hpk hpk'
    exact ⟨sig, v, hlook, hreg, hv, hverify⟩

theorem getAuthHashForSpend_ok (hb : WellBuilt H b) {e : BytesN 65 × List Condition}
    (he : e ∈ b.utxoBuilder.spend) {v : U32} {d : Digest} :
    b.utxoBuilder.getAuthHashForSpend H e.1 v = .ok d ↔
      hashPayload H ⟨e.2, v⟩ (H.addressToString b.utxoBuilder.channelContract) = d := by
  simp only [UtxoOperationBuilder.getAuthHashForSpend,
    UtxoOperationBuilder.getAuthPayloadForSpend, find_of_nodup hb.spend_nodup he, bind_eq_ok,
    pure_eq_ok, Except.ok.injEq, exists_eq_left']

theorem Collected.spendReady_iff (hb : WellBuilt H b) (hc : Collected b accepted)
    {e : BytesN 65 × List Condition} (he : e ∈ b.utxoBuilder.spend) :
    P256Signed H now b.utxoBuilder.signMap b.utxoBuilder.channelContract e.1 e.2 ↔
      SpendReady H now b.utxoBuilder accepted e.1 := by
  constructor
  · intro h
    obtain ⟨sig, v, hlook, hv, hverify⟩ := h
    obtain ⟨sig', hsig, hmem⟩ := hc.lookup_p256.mp hlook
    obtain rfl := Signature.p256.inj hsig
    exact ⟨sig, v, _, hmem, hv, (getAuthHashForSpend_ok hb he).mpr rfl, hverify⟩
  · intro h
    obtain ⟨sig, v, d, hmem, hv, hd, hverify⟩ := h
    obtain rfl := (getAuthHashForSpend_ok hb he).mp hd
    exact ⟨sig, v, hc.lookup_p256.mpr ⟨sig, rfl, hmem⟩, hv, hverify⟩

theorem contextSatisfied_root (hb : WellBuilt H b) {sigs : Signatures} :
    ContextSatisfied H now sigs b.utxoBuilder.getRootInvocation.context ↔
      ∀ e ∈ b.utxoBuilder.spend, e.2 ≠ [] ∧
        P256Signed H now sigs b.utxoBuilder.channelContract e.1 e.2 := by
  let req := calculateAuthRequirements b.utxoBuilder.spend
  have hlookup {s cs} : req.lookup s = some cs ↔ ∃ pk, s = .p256 pk ∧ (pk, cs) ∈ _ :=
    calculateAuthRequirements_lookup hb.spend_nodup
  constructor
  · intro h e he
    obtain ⟨cc, hcc, hall⟩ := h
    obtain rfl := Context.contract.inj hcc
    have hmem : req.lookup (.p256 e.1) = some e.2 := hlookup.mpr ⟨e.1, rfl, he⟩
    have hne : req ≠ ∅ := by
      intro hempty
      rw [hempty, Finmap.lookup_empty] at hmem
      cases hmem
    have hargs : b.utxoBuilder.getRootInvocation.args = [.requirements req] := if_neg hne
    obtain ⟨reqs, hreqs, hsat⟩ := hall _ [] hargs
    obtain rfl := Option.some.inj hreqs
    obtain ⟨hconds, hsigned⟩ := hsat _ _ hmem
    exact ⟨hconds, hsigned e.1 rfl⟩
  · intro h
    refine ⟨_, rfl, ?_⟩
    intro v rest hargs
    by_cases hempty : req = ∅
    -- nothing is spent, and no context has arguments
    · have hnil : b.utxoBuilder.getRootInvocation.args = [] := if_pos hempty
      rw [hnil] at hargs
      cases hargs
    · have hone : b.utxoBuilder.getRootInvocation.args = [.requirements req] := if_neg hempty
      rw [hone] at hargs
      obtain ⟨rfl, rfl⟩ := List.cons.inj hargs
      refine ⟨req, rfl, ?_⟩
      intro signer conds hlook
      obtain ⟨pk, rfl, hmem⟩ := hlookup.mp hlook
      obtain ⟨hconds, hsigned⟩ := h _ hmem
      refine ⟨hconds, ?_⟩
      intro pk' hpk
      obtain rfl := SignerKey.p256.inj hpk
      exact hsigned

theorem getAuthEntry_ok {b : UtxoOperationBuilder} {nonce : ℤ} {expiration : U32}
    {entry : AuthorizationEntry Signatures} : b.getAuthEntry nonce expiration = .ok entry ↔
      (∀ e ∈ b.spend, .p256 e.1 ∈ b.signMap) ∧ (∃ pk, .provider pk ∈ b.signMap) ∧
        entry = ⟨b.authContract, nonce, expiration, b.signMap, b.getRootInvocation⟩ := by
  simp only [UtxoOperationBuilder.getAuthEntry, UtxoOperationBuilder.buildSignatures, bind_eq_ok,
    demand_eq_ok, pure_eq_ok, exists_const, hasSignatureForProvider_iff,
    UtxoOperationBuilder.hasAllRequiredSpendSignatures, List.all_eq_true,
    UtxoOperationBuilder.hasSignatureForSpendUtxo, decide_eq_true_eq]
  constructor
  · intro h
    obtain ⟨_, ⟨hspends, hprovider, rfl⟩, rfl⟩ := h
    exact ⟨hspends, hprovider, rfl⟩
  · intro h
    obtain ⟨hspends, hprovider, rfl⟩ := h
    exact ⟨_, ⟨hspends, hprovider, rfl⟩, rfl⟩

/-- The entry is made and accepted exactly if the provider and every owner have
signed what the builder hands out to sign. -/
theorem Collected.entry_accepted_iff (hb : WellBuilt H b) (hc : Collected b accepted)
    (hash : EntryHash Digest) (nonce : ℤ) (expiration : U32) :
    (∃ entry st', b.utxoBuilder.getAuthEntry nonce expiration = .ok entry ∧
        checkAuth H now st
          (hash entry.nonce entry.signatureExpirationLedger entry.rootInvocation)
          entry.signature [entry.rootInvocation.context] = .ok st') ↔
      ProviderReady H now st
          (b.utxoBuilder.getAuthEntryPayloadHashForBundle hash nonce expiration) accepted ∧
        ∀ e ∈ b.utxoBuilder.spend, e.2 ≠ [] ∧ SpendReady H now b.utxoBuilder accepted e.1 := by
  constructor
  · intro h
    obtain ⟨entry, st', hentry, hcheck⟩ := h
    obtain ⟨-, -, rfl⟩ := getAuthEntry_ok.mp hentry
    obtain ⟨hex, hall, hctx⟩ := checkAuth_exists_iff.mp ⟨st', hcheck⟩
    refine ⟨hc.provider_iff.mp ⟨hex, hall⟩, ?_⟩
    intro e he
    have hroot := (contextSatisfied_root hb).mp (hctx _ List.mem_cons_self) e he
    exact ⟨hroot.1, (hc.spendReady_iff hb he).mp hroot.2⟩
  · intro h
    obtain ⟨hprovider, hspends⟩ := h
    obtain ⟨hex, hall⟩ := hc.provider_iff.mpr hprovider
    have hsigned : ∀ e ∈ b.utxoBuilder.spend, e.2 ≠ [] ∧
        P256Signed H now b.utxoBuilder.signMap b.utxoBuilder.channelContract e.1 e.2 :=
      fun e he => ⟨(hspends e he).1, (hc.spendReady_iff hb he).mpr (hspends e he).2⟩
    have hmem : ∀ e ∈ b.utxoBuilder.spend, .p256 e.1 ∈ b.utxoBuilder.signMap := by
      intro e he
      obtain ⟨sig, v, hlook, -⟩ := (hsigned e he).2
      exact Finmap.mem_of_lookup_eq_some hlook
    have hctx : ∀ c ∈ [b.utxoBuilder.getRootInvocation.context],
        ContextSatisfied H now b.utxoBuilder.signMap c := by
      intro c hc
      rw [List.mem_singleton.mp hc]
      exact (contextSatisfied_root hb).mpr hsigned
    obtain ⟨st', hcheck⟩ := checkAuth_exists_iff.mpr ⟨hex, hall, hctx⟩
    exact ⟨_, st', getAuthEntry_ok.mpr ⟨hmem, hex, rfl⟩, hcheck⟩

end Verdict

/-- Whatever calls were made on a builder: its entry is made, and `__check_auth`
accepts it for the call it is made for, exactly if the one provider has signed
the hash that the builder gives for the bundle, every spend has conditions, and
its owner has signed the hash that the builder gives for it. -/
theorem built_entry_accepted_iff (H : Host Digest) (hash : EntryHash Digest) (now : U32)
    (st : ChannelAuth) (nonce : ℤ) (expiration : U32)
    (channelContract authContract asset : Address) (calls : List BuilderCall) :
    let b := ChannelOperationBuilder.after H channelContract authContract asset calls
    let accepted := BuilderCall.accepted H channelContract authContract asset calls
    (∃ entry st', b.utxoBuilder.getAuthEntry nonce expiration = .ok entry ∧
        checkAuth H now st
          (hash entry.nonce entry.signatureExpirationLedger entry.rootInvocation)
          entry.signature [entry.rootInvocation.context] = .ok st') ↔
      ProviderReady H now st
          (b.utxoBuilder.getAuthEntryPayloadHashForBundle hash nonce expiration) accepted ∧
        ∀ e ∈ b.utxoBuilder.spend, e.2 ≠ [] ∧ SpendReady H now b.utxoBuilder accepted e.1 := by
  intro b accepted
  have hb := ChannelOperationBuilder.wellBuilt_after H channelContract authContract asset calls
  have hc := ChannelOperationBuilder.collected_after H channelContract authContract asset calls
  exact hc.entry_accepted_iff hb hash nonce expiration

end Moonlight
