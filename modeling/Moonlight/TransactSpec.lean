import Moonlight.Channel
import Moonlight.UtxoSpec

namespace Moonlight
open Foundations

variable {Digest W : Type}

namespace ChannelOperation

def internal (op : ChannelOperation) : InternalBundle :=
  ⟨op.spend.map Prod.fst, op.create, calculateAuthRequirements op.spend⟩

def depositTotal (op : ChannelOperation) : ℤ := (op.deposit.map fun e => e.2.1.toInt).sum

def withdrawTotal (op : ChannelOperation) : ℤ := (op.withdraw.map fun e => e.2.1.toInt).sum

/-- The `Create` and `ExtWithdraw` conditions of the spends and deposits. -/
def bound (op : ChannelOperation) : List Condition :=
  (op.spend.flatMap (·.2) ++ op.deposit.flatMap (·.2.2)).filter isExecutionBound

/-- The creates and withdraws of the bundle, rendered as conditions. -/
def executed (op : ChannelOperation) : List Condition :=
  op.create.map (fun e => .create e.1 e.2) ++ op.withdraw.map fun e => .extWithdraw e.1 e.2.1

end ChannelOperation

variable {H : Host Digest} {op : ChannelOperation}

theorem totalLoop_ok {l : List (Address × I128 × List Condition)} {t t' : I128}
    (h : l.foldlM totalStep t = .ok t') :
    (∀ e ∈ l, 0 < e.2.1.toInt) ∧ t'.toInt = t.toInt + (l.map fun e => e.2.1.toInt).sum := by
  have hstep {t e t'} (h : totalStep t e = .ok t') :
      0 < e.2.1.toInt ∧ t'.toInt = t.toInt + e.2.1.toInt := by
    simpa [totalStep, bind_eq_ok, I128.checkedAdd_eq_some] using h
  constructor
  · intro e he
    obtain ⟨u, v, huv⟩ := foldlM_mem_ok h he
    exact (hstep huv).1
  · exact foldlM_sum I128.toInt (fun e => e.2.1.toInt) (fun _ _ _ h => (hstep h).2) h

theorem mem_collectBound (set : Finset Bytes) (cs : List Condition) (x : Bytes) :
    x ∈ collectBound H set cs ↔
      x ∈ set ∨ ∃ c ∈ cs, isExecutionBound c = true ∧ x = H.conditionToXdr c := by
  apply mem_foldl_iff
  intro s c y
  by_cases hc : isExecutionBound c = true
  · simp [hc, or_comm]
  · simp [hc]

theorem assertSignedEffectsAreExecuted_ok {u : Unit} :
    assertSignedEffectsAreExecuted H op = .ok u ↔
      ∀ c ∈ op.bound, H.conditionToXdr c ∈ op.executed.map H.conditionToXdr := by
  have hauth (x : Bytes) : x ∈ collectAuthorizedEffectsFromExternal H
      (collectAuthorizedEffects H ∅ op.spend) op.deposit ↔ x ∈ op.bound.map H.conditionToXdr := by
    rw [collectAuthorizedEffectsFromExternal,
      mem_foldl_iff fun s e y => mem_collectBound s e.2.2 y, collectAuthorizedEffects,
      mem_foldl_iff fun s e y => mem_collectBound s e.2 y]
    simp only [ChannelOperation.bound, List.mem_map, List.mem_filter, List.mem_append,
      List.mem_flatMap, Finset.notMem_empty, false_or]
    constructor
    · rintro (⟨e, he, c, hc, hb, rfl⟩ | ⟨e, he, c, hc, hb, rfl⟩)
      · exact ⟨c, ⟨.inl ⟨e, he, hc⟩, hb⟩, rfl⟩
      · exact ⟨c, ⟨.inr ⟨e, he, hc⟩, hb⟩, rfl⟩
    · rintro ⟨c, ⟨⟨e, he, hc⟩ | ⟨e, he, hc⟩, hb⟩, rfl⟩
      · exact .inl ⟨e, he, c, hc, hb, rfl⟩
      · exact .inr ⟨e, he, c, hc, hb, rfl⟩
  have hinsert {α : Type} (f : α → Bytes) (l : List α) (s : Finset Bytes) (x : Bytes) :
      x ∈ l.foldl (fun set e => insert (f e) set) s ↔ x ∈ s ∨ x ∈ l.map f := by
    rw [mem_foldl_iff (P := fun e y => y = f e) fun s e y => by rw [Finset.mem_insert, or_comm]]
    simp [eq_comm]
  simp only [assertSignedEffectsAreExecuted, assertWithError_eq_ok, hauth, hinsert,
    ChannelOperation.executed, List.map_append, List.map_map, List.mem_append,
    Finset.notMem_empty, false_or, List.forall_mem_map]
  rfl

/-- What `pre_process_channel_operation` has established when it returns. -/
structure PreProcessed (H : Host Digest) (op : ChannelOperation) : Prop where
  conflictFree : opHasNoConflictingConditions op = true
  deposit_pos : ∀ e ∈ op.deposit, 0 < e.2.1.toInt
  withdraw_pos : ∀ e ∈ op.withdraw, 0 < e.2.1.toInt
  deposit_nodup : (op.deposit.map Prod.fst).Nodup
  withdraw_nodup : (op.withdraw.map Prod.fst).Nodup
  bound : ∀ c ∈ op.bound, H.conditionToXdr c ∈ op.executed.map H.conditionToXdr

theorem PreProcessed.bound_executed (h : PreProcessed H op)
    (hxdr : Function.Injective H.conditionToXdr) {c : Condition} (hc : c ∈ op.bound) :
    c ∈ op.executed := by
  obtain ⟨d, hd, he⟩ := List.mem_map.mp (h.bound c hc)
  rwa [← hxdr he]

theorem PreProcessed.spend_executed (h : PreProcessed H op)
    (hxdr : Function.Injective H.conditionToXdr) {e : BytesN 65 × List Condition} {c : Condition}
    (he : e ∈ op.spend) (hc : c ∈ e.2) (hb : isExecutionBound c = true) : c ∈ op.executed := by
  apply h.bound_executed hxdr
  rw [ChannelOperation.bound, List.mem_filter, List.mem_append]
  exact ⟨.inl (List.mem_flatMap.mpr ⟨e, he, hc⟩), hb⟩

theorem preProcess_ok {r : InternalBundle × I128 × I128}
    (h : preProcessChannelOperation H op = .ok r) :
    PreProcessed H op ∧ r.1 = op.internal ∧ r.2.1.toInt = op.depositTotal ∧
      r.2.2.toInt = op.withdrawTotal := by
  simp only [preProcessChannelOperation, verifyExternalOperations, bind_eq_ok, pure_eq_ok,
    assertWithError_eq_ok, assertSignedEffectsAreExecuted_ok] at h
  obtain ⟨-, hconf, td, htd, tw, htw, -, ⟨-, hd, -, hw, -⟩, -, hbound, rfl⟩ := h
  obtain ⟨hdpos, hdsum⟩ := totalLoop_ok htd
  obtain ⟨hwpos, hwsum⟩ := totalLoop_ok htw
  refine ⟨⟨hconf, hdpos, hwpos, noDuplicateAddresses_iff.mp hd, noDuplicateAddresses_iff.mp hw,
    hbound⟩, rfl, ?_, ?_⟩
  · rw [hdsum, I128.toInt_zero, zero_add, ChannelOperation.depositTotal]
  · rw [hwsum, I128.toInt_zero, zero_add, ChannelOperation.withdrawTotal]

/-- Phases one and two touch the UTXO state, the guard and the instance's life
only. -/
theorem processOperation_ok [DecidableEq Digest] {now : U32} {requireAuth : RequireAuth}
    {c c' : Channel Digest}
    (h : processOperation H now requireAuth c op = .ok c') :
    PreProcessed H op ∧
      BundleProcessed H requireAuth c.utxo c'.utxo op.internal op.depositTotal op.withdrawTotal ∧
      c'.supply = c.supply ∧ c'.asset = c.asset := by
  simp only [processOperation, enterReentrancyGuard, bind_eq_ok, pure_eq_ok,
    assertWithError_eq_ok] at h
  obtain ⟨c₁, ⟨-, -, rfl⟩, pre, hpre, ⟨r, s⟩, hbundle, rfl⟩ := h
  obtain ⟨hp, hint, hdep, hwith⟩ := preProcess_ok hpre
  have hb := processBundle_ok hbundle
  rw [hint, hdep, hwith] at hb
  exact ⟨hp, hb, rfl, rfl⟩

/-- The asset was asked for the transfers `ts` in order and `supply` moved by
`δ`; nothing else of the channel changed. -/
structure Moved (w w' : World Digest W) (ts : List Transfer) (δ : ℤ) : Prop where
  transfers : w'.transfers = w.transfers ++ ts
  supply : w'.channel.readSupply.toInt = w.channel.readSupply.toInt + δ
  self : w'.self = w.self
  utxo : w'.channel.utxo = w.channel.utxo
  asset : w'.channel.asset = w.channel.asset

theorem Moved.refl (w : World Digest W) : Moved w w [] 0 :=
  ⟨by simp, by simp, rfl, rfl, rfl⟩

theorem Moved.trans {w w' w'' : World Digest W} {ts ts' : List Transfer} {δ δ' : ℤ}
    (h : Moved w w' ts δ) (h' : Moved w' w'' ts' δ') : Moved w w'' (ts ++ ts') (δ + δ') where
  transfers := by rw [h'.transfers, h.transfers, List.append_assoc]
  supply := by rw [h'.supply, h.supply, add_assoc]
  self := h'.self.trans h.self
  utxo := h'.utxo.trans h.utxo
  asset := h'.asset.trans h.asset

section External

variable {inv : Invocation W} {address : Address} {requireAuth : RequireAuth}
  {w w' : World Digest W} {e : Address × I128 × List Condition}

theorem callTransfer_ok {t : Transfer} (h : callTransfer (inv.asset address) t w = .ok w') :
    inv.transfer address t w.assetState = .ok w'.assetState ∧
      w' = { w with assetState := w'.assetState, transfers := w.transfers ++ [t] } := by
  simp only [callTransfer, Invocation.asset, bind_eq_ok, pure_eq_ok] at h
  obtain ⟨w₁, ⟨s, hs, rfl⟩, rfl⟩ := h
  exact ⟨hs, rfl⟩

theorem depositStep_ok (h : depositStep requireAuth (inv.asset address) w e = .ok w') :
    requireAuth e.1 [.conditions e.2.2] = true ∧
      inv.transfer address ⟨e.1, w.self, e.2.1⟩ w.assetState = .ok w'.assetState ∧
      Moved w w' [⟨e.1, w.self, e.2.1⟩] e.2.1.toInt := by
  simp only [depositStep, increaseSupply, bind_eq_ok, pure_eq_ok, ensure_eq_ok, okOr_eq_ok,
    I128.checkedAdd_eq_some] at h
  obtain ⟨-, hauth, w₁, hcall, c, ⟨supply, hsupply, rfl⟩, rfl⟩ := h
  obtain ⟨hask, hw₁⟩ := callTransfer_ok hcall
  rw [hw₁] at hsupply ⊢
  exact ⟨hauth, hask, rfl, hsupply, rfl, rfl, rfl⟩

theorem withdrawStep_ok (h : withdrawStep (inv.asset address) w e = .ok w') :
    inv.transfer address ⟨w.self, e.1, e.2.1⟩ w.assetState = .ok w'.assetState ∧
      Moved w w' [⟨w.self, e.1, e.2.1⟩] (-e.2.1.toInt) := by
  simp only [withdrawStep, decreaseSupply, bind_eq_ok, pure_eq_ok, okOr_eq_ok,
    I128.checkedSub_eq_some] at h
  obtain ⟨w₁, hcall, c, ⟨supply, hsupply, rfl⟩, rfl⟩ := h
  obtain ⟨hask, hw₁⟩ := callTransfer_ok hcall
  rw [hw₁] at hsupply ⊢
  exact ⟨hask, rfl, hsupply, rfl, rfl, rfl⟩

theorem movedLoop_ok {step : World Digest W → Address × I128 × List Condition →
      Except Failure (World Digest W)}
    (line : Address → Address × I128 × List Condition → Transfer)
    {δ : Address × I128 × List Condition → ℤ}
    (hstep : ∀ w e w', step w e = .ok w' → Moved w w' [line w.self e] (δ e))
    {l : List (Address × I128 × List Condition)} (h : l.foldlM step w = .ok w') :
    Moved w w' (l.map (line w.self)) (l.map δ).sum := by
  induction l generalizing w with
  | nil =>
    rw [List.foldlM_nil, pure_eq_ok] at h
    subst h
    exact Moved.refl w
  | cons e l ih =>
    obtain ⟨m, hm, hrest⟩ := foldlM_cons_ok.mp h
    have hhead := hstep w e m hm
    have htail := ih hrest
    rw [hhead.self] at htail
    exact hhead.trans htail

theorem executeExternalOperations_ok {deposit withdraw : List (Address × I128 × List Condition)}
    (h : executeExternalOperations requireAuth inv.asset w deposit withdraw = .ok w') :
    (∀ e ∈ deposit, requireAuth e.1 [.conditions e.2.2] = true) ∧
      Moved w w'
        (deposit.map (fun e => ⟨e.1, w.self, e.2.1⟩) ++
          withdraw.map fun e => ⟨w.self, e.1, e.2.1⟩)
        ((deposit.map fun e => e.2.1.toInt).sum - (withdraw.map fun e => e.2.1.toInt).sum) := by
  simp only [executeExternalOperations, bind_eq_ok, okOr_eq_ok] at h
  obtain ⟨address, -, m, hdep, hwith⟩ := h
  have hd := movedLoop_ok (fun self e => ⟨e.1, self, e.2.1⟩)
    (fun _ _ _ h => (depositStep_ok h).2.2) hdep
  have hw := movedLoop_ok (fun self e => ⟨self, e.1, e.2.1⟩)
    (fun _ _ _ h => (withdrawStep_ok h).2) hwith
  have hneg : (withdraw.map fun e => -e.2.1.toInt).sum =
      -(withdraw.map fun e => e.2.1.toInt).sum := by
    simpa using Multiset.sum_map_neg (m := (withdraw : Multiset (Address × I128 × List Condition)))
  rw [hd.self, hneg] at hw
  constructor
  · intro e he
    obtain ⟨u, v, huv⟩ := foldlM_mem_ok hdep he
    exact (depositStep_ok huv).1
  · rw [sub_eq_add_neg]
    exact hd.trans hw

end External

theorem Deployed.storage {w : World Digest W} (h : Deployed H w) :
    w.channel.utxo.store = ∅ ∧ w.channel.supply = none := by
  obtain ⟨-, now, admin, authContract, asset, hc⟩ := h
  simp only [construct, bind_eq_ok, ensure_eq_ok, pure_eq_ok] at hc
  obtain ⟨-, -, hc⟩ := hc
  rw [← hc]
  exact ⟨rfl, rfl⟩

theorem Deployed.guard {w : World Digest W} (h : Deployed H w) : w.channel.guard = false := by
  obtain ⟨-, now, admin, authContract, asset, hc⟩ := h
  simp only [construct, bind_eq_ok, ensure_eq_ok, pure_eq_ok] at hc
  obtain ⟨-, -, hc⟩ := hc
  rw [← hc]

variable [DecidableEq Digest]

/-- What a successful `transact` has checked and done. -/
structure Accepted (H : Host Digest) (inv : Invocation W) (w : World Digest W)
    (op : ChannelOperation) (w' : World Digest W) : Prop where
  pre : PreProcessed H op
  bundle : BundleProcessed H inv.requireAuth w.channel.utxo w'.channel.utxo op.internal
    op.depositTotal op.withdrawTotal
  depositors : ∀ e ∈ op.deposit, inv.requireAuth e.1 [.conditions e.2.2] = true
  transfers : w'.transfers = w.transfers ++
    (op.deposit.map (fun e => ⟨e.1, w.self, e.2.1⟩) ++
      op.withdraw.map fun e => ⟨w.self, e.1, e.2.1⟩)
  supply : w'.channel.readSupply.toInt =
    w.channel.readSupply.toInt + (op.depositTotal - op.withdrawTotal)
  self : w'.self = w.self
  asset : w'.channel.asset = w.channel.asset

theorem transactWith_phases {now : U32} {requireAuth : RequireAuth} {asset : AssetTransfer Digest W}
    {w w' : World Digest W} (h : transactWith H now requireAuth asset w op = .ok w') :
    ∃ c w₁, processOperation H now requireAuth w.channel op = .ok c ∧
      executeExternalOperations requireAuth asset { w with channel := c } op.deposit op.withdraw =
        .ok w₁ ∧
      w' = { w₁ with channel := exitReentrancyGuard w₁.channel } := by
  simp only [transactWith, bind_eq_ok, pure_eq_ok] at h
  obtain ⟨c, hc, w₁, hw₁, rfl⟩ := h
  exact ⟨c, w₁, hc, hw₁, rfl⟩

theorem transact_phases {inv : Invocation W} {w w' : World Digest W}
    (h : transact H inv w op = .ok w') :
    ∃ c w₁, processOperation H inv.sequence inv.requireAuth w.channel op = .ok c ∧
      executeExternalOperations inv.requireAuth inv.asset { w with channel := c } op.deposit
        op.withdraw = .ok w₁ ∧
      w' = { w₁ with channel := exitReentrancyGuard w₁.channel } := transactWith_phases h

theorem transact_ok {inv : Invocation W} {w w' : World Digest W}
    (h : transact H inv w op = .ok w') : Accepted H inv w op w' := by
  obtain ⟨c, w₁, hc, hw₁, rfl⟩ := transact_phases h
  obtain ⟨hpre, hbundle, hsupply, hasset⟩ := processOperation_ok hc
  obtain ⟨hdep, hmoved⟩ := executeExternalOperations_ok hw₁
  refine ⟨hpre, ?_, hdep, hmoved.transfers, ?_, hmoved.self, ?_⟩
  -- phase three leaves the UTXO state to what `process_bundle` made of it
  · show BundleProcessed H inv.requireAuth w.channel.utxo w₁.channel.utxo op.internal _ _
    rw [hmoved.utxo]
    exact hbundle
  · have hs := hmoved.supply
    show w₁.channel.readSupply.toInt = _
    rw [hs]
    show (c.supply.getD 0).toInt + _ = (w.channel.supply.getD 0).toInt + _
    rw [hsupply]
    rfl
  · show w₁.channel.asset = _
    rw [hmoved.asset]
    exact hasset

end Moonlight
