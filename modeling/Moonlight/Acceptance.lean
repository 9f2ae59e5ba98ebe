import Moonlight.Conflicts
import Moonlight.Conservation
import Moonlight.Residual

namespace Moonlight
open Foundations

variable {Digest W : Type}

section PreProcess

variable {H : Host Digest} {op : ChannelOperation}

theorem totalLoop_exists {l : List (Address × I128 × List Condition)} {t : I128}
    (hpos : ∀ e ∈ l, 0 < e.2.1.toInt)
    (hfit : t.toInt + (l.map fun e => e.2.1.toInt).sum < 2 ^ 127) :
    ∃ t', l.foldlM totalStep t = .ok t' := by
  refine (foldlM_progress (I := fun (l : List (Address × I128 × List Condition)) (t : I128) =>
    (∀ e ∈ l, 0 < e.2.1.toInt) ∧ t.toInt + (l.map fun e => e.2.1.toInt).sum < 2 ^ 127) ?_
    ⟨hpos, hfit⟩).imp fun _ h => h.1
  intro e l t ht
  obtain ⟨⟨he, hl⟩, hfit⟩ := And.imp_left List.forall_mem_cons.mp ht
  have hrest := sum_nonneg_of_pos hl
  rw [List.map_cons, List.sum_cons] at hfit
  have hlow := t.lower
  refine ⟨⟨t.toInt + e.2.1.toInt, by omega, by omega⟩, ?_, hl, ?_⟩
  · simp only [totalStep, bind_eq_ok, assertWithError_eq_ok, okOr_eq_ok, I128.checkedAdd_eq_some]
    exact ⟨(), he, trivial⟩
  · simp only
    omega

theorem verifyExternalOperations_ok {deposit withdraw : List (Address × I128 × List Condition)} :
    verifyExternalOperations H deposit withdraw = .ok () ↔
      (deposit.map Prod.fst).Nodup ∧ (withdraw.map Prod.fst).Nodup ∧
        ∀ d ∈ deposit, ∀ e ∈ withdraw, d.1 = e.1 →
          equalConditionSequence H d.2.2 e.2.2 = true := by
  simp only [verifyExternalOperations, bind_eq_ok, assertWithError_eq_ok,
    noDuplicateAddresses_iff, forM_ok_iff]
  constructor
  · rintro ⟨-, hd, -, hw, hall⟩
    exact ⟨hd, hw, hall⟩
  · rintro ⟨hd, hw, hall⟩
    exact ⟨(), hd, (), hw, hall⟩

theorem preProcess_sequences {r : InternalBundle × I128 × I128}
    (h : preProcessChannelOperation H op = .ok r) : ∀ d ∈ op.deposit, ∀ e ∈ op.withdraw,
      d.1 = e.1 → equalConditionSequence H d.2.2 e.2.2 = true := by
  simp only [preProcessChannelOperation, bind_eq_ok] at h
  obtain ⟨-, -, td, -, tw, -, u, hverify, -⟩ := h
  exact (verifyExternalOperations_ok.mp hverify).2.2

theorem preProcess_exists (hpre : PreProcessed H op)
    (hd : op.depositTotal < 2 ^ 127) (hw : op.withdrawTotal < 2 ^ 127)
    (hseq : ∀ d ∈ op.deposit, ∀ e ∈ op.withdraw,
      d.1 = e.1 → equalConditionSequence H d.2.2 e.2.2 = true) :
    ∃ r, preProcessChannelOperation H op = .ok r := by
  obtain ⟨td, htd⟩ := totalLoop_exists (t := 0) hpre.deposit_pos (by
    rw [I128.toInt_zero, zero_add]
    exact hd)
  obtain ⟨tw, htw⟩ := totalLoop_exists (t := 0) hpre.withdraw_pos (by
    rw [I128.toInt_zero, zero_add]
    exact hw)
  have hverify := verifyExternalOperations_ok.mpr ⟨hpre.deposit_nodup, hpre.withdraw_nodup, hseq⟩
  simp only [preProcessChannelOperation, bind_eq_ok, pure_eq_ok, assertWithError_eq_ok,
    assertSignedEffectsAreExecuted_ok]
  exact ⟨_, (), hpre.conflictFree, td, htd, tw, htw, (), hverify, (), hpre.bound, rfl⟩

end PreProcess

def ChannelOperation.transfers (op : ChannelOperation) (self : Address) : List Transfer :=
  op.deposit.map (fun e => ⟨e.1, self, e.2.1⟩) ++ op.withdraw.map fun e => ⟨self, e.1, e.2.1⟩

def Invocation.transferAll (inv : Invocation W) (asset : Address) (ts : List Transfer) (s : W) :
    Except Failure W :=
  ts.foldlM (fun s t => inv.transfer asset t s) s

section External

variable {inv : Invocation W} {address : Address} {requireAuth : RequireAuth}
  {w w' : World Digest W} {e : Address × I128 × List Condition} {s : W}

theorem callTransfer_exists {t : Transfer} (h : inv.transfer address t w.assetState = .ok s) :
    callTransfer (inv.asset address) t w =
      .ok { w with assetState := s, transfers := w.transfers ++ [t] } := by
  simp only [callTransfer, Invocation.asset, bind_eq_ok, pure_eq_ok]
  exact ⟨_, ⟨s, h, rfl⟩, rfl⟩

theorem depositStep_exists (hauth : requireAuth e.1 [.conditions e.2.2] = true)
    (htransfer : inv.transfer address ⟨e.1, w.self, e.2.1⟩ w.assetState = .ok s)
    (hpos : 0 < e.2.1.toInt) (hfit : w.channel.readSupply.toInt + e.2.1.toInt < 2 ^ 127) :
    ∃ w', depositStep requireAuth (inv.asset address) w e = .ok w' := by
  have hlow := w.channel.readSupply.lower
  simp only [depositStep, increaseSupply, bind_eq_ok, pure_eq_ok, ensure_eq_ok, okOr_eq_ok,
    I128.checkedAdd_eq_some]
  exact ⟨_, (), hauth, _, callTransfer_exists htransfer, _,
    ⟨⟨w.channel.readSupply.toInt + e.2.1.toInt, by omega, hfit⟩, rfl, rfl⟩, rfl⟩

theorem withdrawStep_exists
    (htransfer : inv.transfer address ⟨w.self, e.1, e.2.1⟩ w.assetState = .ok s)
    (hpos : 0 < e.2.1.toInt) (hfit : -2 ^ 127 ≤ w.channel.readSupply.toInt - e.2.1.toInt) :
    ∃ w', withdrawStep (inv.asset address) w e = .ok w' := by
  have hup := w.channel.readSupply.upper
  simp only [withdrawStep, decreaseSupply, bind_eq_ok, pure_eq_ok, okOr_eq_ok,
    I128.checkedSub_eq_some]
  exact ⟨_, _, callTransfer_exists htransfer, _,
    ⟨⟨w.channel.readSupply.toInt - e.2.1.toInt, hfit, by omega⟩, rfl, rfl⟩, rfl⟩

theorem transferLoop_ok {step : World Digest W → Address × I128 × List Condition →
      Except Failure (World Digest W)}
    (line : Address → Address × I128 × List Condition → Transfer)
    (hstep : ∀ w e w', step w e = .ok w' →
      inv.transfer address (line w.self e) w.assetState = .ok w'.assetState ∧ w'.self = w.self)
    {l : List (Address × I128 × List Condition)} (h : l.foldlM step w = .ok w') :
    inv.transferAll address (l.map (line w.self)) w.assetState = .ok w'.assetState := by
  obtain ⟨s, hs, hR⟩ := foldlM_simulation
    (g := fun s e => inv.transfer address (line w.self e) s)
    (R := fun v s => v.assetState = s ∧ v.self = w.self) (t := w.assetState)
    (fun v s e v' hR hv => by
      obtain ⟨htransfer, hself⟩ := hstep v e v' hv
      rw [hR.1, hR.2] at htransfer
      exact ⟨_, htransfer, rfl, hself.trans hR.2⟩) ⟨rfl, rfl⟩ h
  rw [Invocation.transferAll, List.foldlM_map, hs, hR.1]

theorem depositLoop_exists {l : List (Address × I128 × List Condition)}
    (hauth : ∀ e ∈ l, requireAuth e.1 [.conditions e.2.2] = true)
    (hpos : ∀ e ∈ l, 0 < e.2.1.toInt)
    (hfit : w.channel.readSupply.toInt + (l.map fun e => e.2.1.toInt).sum < 2 ^ 127)
    (htransfers : inv.transferAll address (l.map fun e => ⟨e.1, w.self, e.2.1⟩) w.assetState =
      .ok s) :
    ∃ w', l.foldlM (depositStep requireAuth (inv.asset address)) w = .ok w' := by
  refine (foldlM_progress (I := fun (l : List (Address × I128 × List Condition)) v =>
    (∀ e ∈ l, requireAuth e.1 [.conditions e.2.2] = true) ∧ (∀ e ∈ l, 0 < e.2.1.toInt) ∧
      v.channel.readSupply.toInt + (l.map fun e => e.2.1.toInt).sum < 2 ^ 127 ∧
      inv.transferAll address (l.map fun e => ⟨e.1, v.self, e.2.1⟩) v.assetState = .ok s) ?_
    ⟨hauth, hpos, hfit, htransfers⟩).imp fun _ h => h.1
  -- each pass takes its own entry out of what the invariant asks for
  rintro e l v ⟨hauth, hpos, hfit, htransfers⟩
  obtain ⟨hauth₁, hauth⟩ := List.forall_mem_cons.mp hauth
  obtain ⟨hpos₁, hpos⟩ := List.forall_mem_cons.mp hpos
  have hrest := sum_nonneg_of_pos hpos
  rw [List.map_cons, List.sum_cons] at hfit
  obtain ⟨m, hm, hnext⟩ := foldlM_cons_ok.mp htransfers
  obtain ⟨v', hv'⟩ := depositStep_exists hauth₁ hm hpos₁ (by omega)
  obtain ⟨-, hask, hmoved⟩ := depositStep_ok hv'
  refine ⟨v', hv', hauth, hpos, ?_, ?_⟩
  · rw [hmoved.supply]
    omega
  · rw [hmoved.self, ← Except.ok.inj (hm.symm.trans hask)]
    exact hnext

theorem withdrawLoop_exists {l : List (Address × I128 × List Condition)}
    (hpos : ∀ e ∈ l, 0 < e.2.1.toInt)
    (hfit : -2 ^ 127 ≤ w.channel.readSupply.toInt - (l.map fun e => e.2.1.toInt).sum)
    (htransfers : inv.transferAll address (l.map fun e => ⟨w.self, e.1, e.2.1⟩) w.assetState =
      .ok s) :
    ∃ w', l.foldlM (withdrawStep (inv.asset address)) w = .ok w' := by
  refine (foldlM_progress (I := fun (l : List (Address × I128 × List Condition)) v =>
    (∀ e ∈ l, 0 < e.2.1.toInt) ∧
      -2 ^ 127 ≤ v.channel.readSupply.toInt - (l.map fun e => e.2.1.toInt).sum ∧
      inv.transferAll address (l.map fun e => ⟨v.self, e.1, e.2.1⟩) v.assetState = .ok s) ?_
    ⟨hpos, hfit, htransfers⟩).imp fun _ h => h.1
  -- `supply` only falls here, so it is enough that it fits at the end
  rintro e l v ⟨hpos, hfit, htransfers⟩
  obtain ⟨hpos₁, hpos⟩ := List.forall_mem_cons.mp hpos
  have hrest := sum_nonneg_of_pos hpos
  rw [List.map_cons, List.sum_cons] at hfit
  obtain ⟨m, hm, hnext⟩ := foldlM_cons_ok.mp htransfers
  obtain ⟨v', hv'⟩ := withdrawStep_exists hm hpos₁ (by omega)
  obtain ⟨hask, hmoved⟩ := withdrawStep_ok hv'
  refine ⟨v', hv', hpos, ?_, ?_⟩
  · rw [hmoved.supply]
    omega
  · rw [hmoved.self, ← Except.ok.inj (hm.symm.trans hask)]
    exact hnext

end External

/-- Every check of `transact`, none of them dependent on the order of a list:
the order of the transfers is the asset's business. -/
structure Admissible [DecidableEq Digest] (H : Host Digest) (inv : Invocation W)
    (w : World Digest W) (op : ChannelOperation) : Prop where
  pre : PreProcessed H op
  deposit_fits : op.depositTotal < 2 ^ 127
  withdraw_fits : op.withdrawTotal < 2 ^ 127
  sequences : ∀ d ∈ op.deposit, ∀ e ∈ op.withdraw, d.1 = e.1 →
    equalConditionSequence H d.2.2 e.2.2 = true
  enabled : (digestBundle H (op.spend.map Prod.fst) op.create).Enabled w.channel.utxo.store.ledger
  balanced : op.depositTotal + ((op.spend.map Prod.fst).map (w.channel.utxo.store.value H)).sum =
    (op.create.map fun p => p.2.toInt).sum + op.withdrawTotal
  supply_fits : w.channel.readSupply.toInt + op.depositTotal < 2 ^ 127
  authorized : ∃ a, w.channel.utxo.auth = some a ∧
    inv.requireAuth a (authArgs (calculateAuthRequirements op.spend)) = true
  depositors : ∀ e ∈ op.deposit, inv.requireAuth e.1 [.conditions e.2.2] = true
  transfers : ∃ asset, w.channel.asset = some asset ∧
    ∃ s, inv.transferAll asset (op.transfers w.self) w.assetState = .ok s

variable {H : Host Digest} {inv : Invocation W} {w w' : World Digest W} {op : ChannelOperation}

/-- The deposits are all in before the first withdraw, so `supply` has been at
its old value plus all of them. -/
theorem executeExternalOperations_transfers
    (h : executeExternalOperations inv.requireAuth inv.asset w op.deposit op.withdraw = .ok w') :
    w.channel.readSupply.toInt + op.depositTotal < 2 ^ 127 ∧
      ∃ asset, w.channel.asset = some asset ∧
        inv.transferAll asset (op.transfers w.self) w.assetState = .ok w'.assetState := by
  simp only [executeExternalOperations, bind_eq_ok, okOr_eq_ok] at h
  obtain ⟨asset, hasset, m, hdep, hwith⟩ := h
  have hmoved := movedLoop_ok (fun self e => ⟨e.1, self, e.2.1⟩)
    (fun _ _ _ h => (depositStep_ok h).2.2) hdep
  have hd := transferLoop_ok (fun self e => ⟨e.1, self, e.2.1⟩)
    (fun _ _ _ h => ⟨(depositStep_ok h).2.1, (depositStep_ok h).2.2.self⟩) hdep
  have hw := transferLoop_ok (fun self e => ⟨self, e.1, e.2.1⟩)
    (fun _ _ _ h => ⟨(withdrawStep_ok h).1, (withdrawStep_ok h).2.self⟩) hwith
  rw [hmoved.self] at hw
  refine ⟨?_, asset, hasset, ?_⟩
  -- between the loops `supply` is at its highest, and it is an `i128`
  · have hup := m.channel.readSupply.upper
    rw [hmoved.supply] at hup
    exact hup
  · exact foldlM_append_ok.mpr ⟨_, hd, hw⟩

theorem executeExternalOperations_exists {asset : Address} {s : W}
    (hasset : w.channel.asset = some asset) (hpre : PreProcessed H op)
    (hauth : ∀ e ∈ op.deposit, inv.requireAuth e.1 [.conditions e.2.2] = true)
    (hup : w.channel.readSupply.toInt + op.depositTotal < 2 ^ 127)
    (hlow : -2 ^ 127 ≤ w.channel.readSupply.toInt + op.depositTotal - op.withdrawTotal)
    (htransfers : inv.transferAll asset (op.transfers w.self) w.assetState = .ok s) :
    ∃ w', executeExternalOperations inv.requireAuth inv.asset w op.deposit op.withdraw =
      .ok w' := by
  obtain ⟨t, hd, hw⟩ := foldlM_append_ok.mp htransfers
  obtain ⟨m, hm⟩ := depositLoop_exists hauth hpre.deposit_pos hup hd
  have hmoved := movedLoop_ok (fun self e => ⟨e.1, self, e.2.1⟩)
    (fun _ _ _ h => (depositStep_ok h).2.2) hm
  have hask := transferLoop_ok (fun self e => ⟨e.1, self, e.2.1⟩)
    (fun _ _ _ h => ⟨(depositStep_ok h).2.1, (depositStep_ok h).2.2.self⟩) hm
  have hstate : t = m.assetState := Except.ok.inj (hd.symm.trans hask)
  obtain ⟨w', hw'⟩ : ∃ w', op.withdraw.foldlM (withdrawStep (inv.asset asset)) m = .ok w' := by
    apply withdrawLoop_exists hpre.withdraw_pos
    · rw [hmoved.supply]
      exact hlow
    · rw [hmoved.self, ← hstate]
      exact hw
  simp only [executeExternalOperations, bind_eq_ok, okOr_eq_ok]
  exact ⟨w', asset, hasset, m, hm, hw'⟩

variable [DecidableEq Digest]

theorem processOperation_exists {now : U32} {requireAuth : RequireAuth} {c : Channel Digest}
    (hc : Backed c) (hguard : c.guard = false) (hpre : PreProcessed H op)
    (hd : op.depositTotal < 2 ^ 127) (hw : op.withdrawTotal < 2 ^ 127)
    (hseq : ∀ d ∈ op.deposit, ∀ e ∈ op.withdraw, d.1 = e.1 →
      equalConditionSequence H d.2.2 e.2.2 = true)
    (henabled : (digestBundle H (op.spend.map Prod.fst) op.create).Enabled c.utxo.store.ledger)
    (hbal : op.depositTotal + ((op.spend.map Prod.fst).map (c.utxo.store.value H)).sum =
      (op.create.map fun p => p.2.toInt).sum + op.withdrawTotal)
    (hfit : c.readSupply.toInt + op.depositTotal < 2 ^ 127)
    (hauth : ∃ a, c.utxo.auth = some a ∧
      requireAuth a (authArgs (calculateAuthRequirements op.spend)) = true) :
    ∃ c', processOperation H now requireAuth c op = .ok c' := by
  obtain ⟨r, hr⟩ := preProcess_exists hpre hd hw hseq
  obtain ⟨-, hint, hdep, hwith⟩ := preProcess_ok hr
  have hout : 0 ≤ op.withdrawTotal := sum_nonneg_of_pos hpre.withdraw_pos
  obtain ⟨b, hb⟩ : ∃ b,
      processBundle H channelFeatures now requireAuth c.utxo r.1 r.2.1 r.2.2 = .ok b := by
    apply processBundle_exists _ _ hc.nonneg
    -- the store adds up to `supply`, which bounds the running balance
    · rw [hdep, ← hc.supply]
      omega
    · rw [hwith]
      exact hout
    · rw [hint, hdep, hwith]
      exact hbal
    · rw [hint]
      exact henabled
    · rw [hint]
      exact hauth
  simp only [processOperation, enterReentrancyGuard, bind_eq_ok, pure_eq_ok, assertWithError_eq_ok]
  exact ⟨_, _, ⟨(), hguard, rfl⟩, r, hr, b, hb, rfl⟩

theorem transact_guard (h : transact H inv w op = .ok w') : w'.channel.guard = false := by
  obtain ⟨c, w₁, -, -, rfl⟩ := transact_phases h
  rfl

theorem transact_admissible (h : transact H inv w op = .ok w') : Admissible H inv w op := by
  have hacc := transact_ok h
  obtain ⟨c, w₁, hc, hw₁, -⟩ := transact_phases h
  obtain ⟨-, hbundle, hsupply, hasset⟩ := processOperation_ok hc
  obtain ⟨hfits, asset, hask, htransfers⟩ := executeExternalOperations_transfers hw₁
  simp only [processOperation, bind_eq_ok] at hc
  obtain ⟨-, -, r, hr, -⟩ := hc
  obtain ⟨-, -, hdep, hwith⟩ := preProcess_ok hr
  refine ⟨hacc.pre, ?_, ?_, preProcess_sequences hr, hbundle.applies.enabled, hbundle.balanced, ?_,
    hbundle.authorized, hacc.depositors, asset, ?_, _, htransfers⟩
  -- totals that the loops computed as `i128` are in range
  · rw [← hdep]
    exact r.2.1.upper
  · rw [← hwith]
    exact r.2.2.upper
  · have hread : c.readSupply = w.channel.readSupply := by
      rw [Channel.readSupply, hsupply, Channel.readSupply]
    rw [← hread]
    exact hfits
  · rw [← hasset]
    exact hask

theorem Backed.spent_le_supply {c : Channel Digest} (hc : Backed c) {spend : List (BytesN 65)}
    {create : List (BytesN 65 × I128)}
    (h : (digestBundle H spend create).Enabled c.utxo.store.ledger) :
    (spend.map (c.utxo.store.value H)).sum ≤ c.readSupply.toInt := by
  -- the spend loop takes it out of the store, and what is left is not negative
  obtain ⟨⟨s, t⟩, hloop⟩ :
      ∃ acc, spend.foldlM (spendStep H channelFeatures 0) (c.utxo, 0) = .ok acc := by
    apply spendLoop_exists h.spends hc.nonneg
    rw [I128.toInt_zero, zero_add, ← hc.supply]
    exact c.readSupply.upper
  obtain ⟨happ, -, htotal, -⟩ := spendLoop_ok hloop
  have hleft := Store.total_nonneg (happ.nonneg hc.nonneg)
  rw [htotal, ← hc.supply] at hleft
  omega

theorem Admissible.withdraw_le (h : Admissible H inv w op) (hw : Backed w.channel) :
    op.withdrawTotal ≤ w.channel.readSupply.toInt + op.depositTotal := by
  have hspent := hw.spent_le_supply h.enabled
  have hcreated : 0 ≤ (op.create.map fun p => p.2.toInt).sum :=
    sum_nonneg_of_pos fun p hp => h.enabled.positive _ (List.mem_map_of_mem hp)
  have := h.balanced
  omega

/-- In a state whose `supply` is backed, the checks are all there is. -/
theorem transact_exists_iff (hw : Backed w.channel) (hguard : w.channel.guard = false) :
    (∃ w', transact H inv w op = .ok w') ↔ Admissible H inv w op := by
  constructor
  · rintro ⟨w', h⟩
    exact transact_admissible h
  · intro h
    obtain ⟨c, hc⟩ : ∃ c, processOperation H inv.sequence inv.requireAuth w.channel op = .ok c :=
      processOperation_exists hw hguard h.pre h.deposit_fits h.withdraw_fits h.sequences h.enabled
        h.balanced h.supply_fits h.authorized
    -- phases one and two leave `supply` and the asset as they are in `w`
    obtain ⟨-, -, hsupply, hasset⟩ := processOperation_ok hc
    obtain ⟨asset, hask, s, htransfers⟩ := h.transfers
    have hread : c.readSupply = w.channel.readSupply := by
      rw [Channel.readSupply, hsupply, Channel.readSupply]
    have hleft := h.withdraw_le hw
    obtain ⟨w₁, hw₁⟩ : ∃ w₁, executeExternalOperations inv.requireAuth inv.asset
        { w with channel := c } op.deposit op.withdraw = .ok w₁ := by
      apply executeExternalOperations_exists (w := { w with channel := c }) (hasset.trans hask)
        h.pre h.depositors _ _ htransfers
      · rw [hread]
        exact h.supply_fits
      · rw [hread]
        omega
    simp only [transact, transactWith, bind_eq_ok, pure_eq_ok]
    exact ⟨_, c, hc, w₁, hw₁, rfl⟩

theorem guard_of_run {w₀ : World Digest W} (h₀ : Deployed H w₀) (calls : List (Call W)) :
    (run (Call.exec H) w₀ calls).channel.guard = false := by
  apply run_invariant (I := fun w : World Digest W => w.channel.guard = false)
  · intro w w' c _ _ h
    exact transact_guard h
  · exact h₀.guard

/-- What `transact` asks of an operation, over keys and conditions. -/
structure Acceptable (H : Host Digest) (inv : Invocation W) (w : World Digest W)
    (op : ChannelOperation) : Prop where
  /-- No two conditions at different positions conflict. -/
  compatible : ∀ (i j : ℕ) c d, i ≠ j → op.conditions[i]? = some c → op.conditions[j]? = some d →
    c.conflictsWith d = false
  deposit_pos : ∀ e ∈ op.deposit, 0 < e.2.1.toInt
  withdraw_pos : ∀ e ∈ op.withdraw, 0 < e.2.1.toInt
  deposit_fits : op.depositTotal < 2 ^ 127
  withdraw_fits : op.withdrawTotal < 2 ^ 127
  deposit_nodup : (op.deposit.map Prod.fst).Nodup
  withdraw_nodup : (op.withdraw.map Prod.fst).Nodup
  same_conditions : ∀ d ∈ op.deposit, ∀ e ∈ op.withdraw, d.1 = e.1 → d.2.2 = e.2.2
  creates_listed : ∀ cs ∈ op.signedLists, ∀ u a, .create u a ∈ cs → (u, a) ∈ op.create
  withdraws_listed : ∀ cs ∈ op.signedLists, ∀ x a, .extWithdraw x a ∈ cs →
    ∃ ds, (x, a, ds) ∈ op.withdraw
  spend_nodup : (op.spend.map Prod.fst).Nodup
  spend_unspent : ∀ e ∈ op.spend, 0 < w.channel.utxo.store.value H e.1
  create_nodup : (op.create.map Prod.fst).Nodup
  create_fresh : ∀ p ∈ op.create, w.channel.utxo.store.get (Store.utxoKey H p.1) = none
  create_pos : ∀ p ∈ op.create, 0 < p.2.toInt
  balanced : (op.spend.map fun e => w.channel.utxo.store.value H e.1).sum + op.depositTotal =
    (op.create.map fun p => p.2.toInt).sum + op.withdrawTotal
  supply_fits : w.channel.readSupply.toInt + op.depositTotal < 2 ^ 127
  /-- The auth contract, the depositors and the asset accept. -/
  authorized : ∃ a, w.channel.utxo.auth = some a ∧
    inv.requireAuth a (authArgs (calculateAuthRequirements op.spend)) = true
  depositors : ∀ e ∈ op.deposit, inv.requireAuth e.1 [.conditions e.2.2] = true
  transfers : ∃ asset, w.channel.asset = some asset ∧
    ∃ s, inv.transferAll asset (op.transfers w.self) w.assetState = .ok s

omit [DecidableEq Digest] in
theorem bound_listed_iff (hxdr : Function.Injective H.conditionToXdr) :
    (∀ c ∈ op.bound, H.conditionToXdr c ∈ op.executed.map H.conditionToXdr) ↔
      (∀ cs ∈ op.signedLists, ∀ u a, .create u a ∈ cs → (u, a) ∈ op.create) ∧
        ∀ cs ∈ op.signedLists, ∀ x a, .extWithdraw x a ∈ cs → ∃ ds, (x, a, ds) ∈ op.withdraw := by
  simp only [List.mem_map_of_injective hxdr, ChannelOperation.mem_bound]
  constructor
  · intro h
    constructor
    · intro cs hcs u a hc
      exact ChannelOperation.create_mem_executed.mp (h _ ⟨⟨cs, hcs, hc⟩, rfl⟩)
    · intro cs hcs x a hc
      exact ChannelOperation.extWithdraw_mem_executed.mp (h _ ⟨⟨cs, hcs, hc⟩, rfl⟩)
  · rintro ⟨hcreate, hwithdraw⟩ c ⟨⟨cs, hcs, hc⟩, hb⟩
    cases c with
    | create u a => exact ChannelOperation.create_mem_executed.mpr (hcreate cs hcs u a hc)
    | extWithdraw x a =>
      exact ChannelOperation.extWithdraw_mem_executed.mpr (hwithdraw cs hcs x a hc)
    | extDeposit x a => cases hb
    | extIntegration x us a => cases hb

theorem Store.value_pos_iff {st : Store Digest} {k : BytesN 65} :
    0 < st.value H k ↔ ∃ a, 0 < a ∧ st.ledger (Store.utxoKey H k) = some a := by
  rw [Store.value]
  cases h : st.ledger (Store.utxoKey H k) with
  | none => simp
  | some a => simp

/-- Digests of distinct keys are distinct, so the bundle over keys is enabled
exactly when the one over digests is. -/
theorem enabled_iff (hsep : H.SeparatesKeys) {st : Store Digest} {spend : List (BytesN 65)}
    {create : List (BytesN 65 × I128)} :
    (digestBundle H spend create).Enabled st.ledger ↔
      spend.Nodup ∧ (create.map Prod.fst).Nodup ∧ (∀ k ∈ spend, 0 < st.value H k) ∧
        (∀ p ∈ create, st.get (Store.utxoKey H p.1) = none) ∧ ∀ p ∈ create, 0 < p.2.toInt := by
  have hinj : Function.Injective (Store.utxoKey H) := fun k k' h => hsep k k' h
  have hspend : (digestBundle H spend create).spend.Nodup ↔ spend.Nodup :=
    List.nodup_map_iff hinj
  have hcreate : ((digestBundle H spend create).create.map Prod.fst).Nodup ↔
      (create.map Prod.fst).Nodup := by
    rw [← List.nodup_map_iff hinj, digestBundle, List.map_map, List.map_map]
    rfl
  simp only [Store.value_pos_iff]
  constructor
  · intro h
    refine ⟨hspend.mp h.spend_nodup, hcreate.mp h.create_nodup, ?_, ?_, ?_⟩
    · intro k hk
      exact h.unspent _ (List.mem_map_of_mem hk)
    · intro p hp
      simpa [Store.ledger] using h.fresh _ (List.mem_map_of_mem hp)
    · intro p hp
      exact h.positive _ (List.mem_map_of_mem hp)
  · rintro ⟨hs, hc, hunspent, hfresh, hpos⟩
    refine ⟨hspend.mpr hs, hcreate.mpr hc, ?_, ?_, ?_⟩
    · exact List.forall_mem_map.mpr hunspent
    · rintro q hq
      obtain ⟨p, hp, rfl⟩ := List.mem_map.mp hq
      rw [Store.ledger, hfresh p hp]
      rfl
    · exact List.forall_mem_map.mpr hpos

theorem admissible_iff (hsep : H.SeparatesKeys) (hxdr : Function.Injective H.conditionToXdr) :
    Admissible H inv w op ↔ Acceptable H inv w op := by
  have hvalues : (op.spend.map fun e => w.channel.utxo.store.value H e.1) =
      (op.spend.map Prod.fst).map (w.channel.utxo.store.value H) := by
    rw [List.map_map]
    rfl
  constructor
  · intro h
    obtain ⟨hconf, hdpos, hwpos, hd, hw, hbound⟩ := h.pre
    obtain ⟨hcreates, hwithdraws⟩ := (bound_listed_iff hxdr).mp hbound
    obtain ⟨hspend, hcreate, hunspent, hfresh, hcpos⟩ := (enabled_iff hsep).mp h.enabled
    refine ⟨pairwise_compatible_iff.mp (opHasNoConflictingConditions_iff.mp hconf), hdpos, hwpos,
      h.deposit_fits, h.withdraw_fits, hd, hw, ?_, hcreates, hwithdraws, hspend,
      fun e he => hunspent e.1 (List.mem_map_of_mem he), hcreate, hfresh, hcpos, ?_,
      h.supply_fits, h.authorized, h.depositors, h.transfers⟩
    · intro d hd e he hde
      exact (equalConditionSequence_iff hxdr).mp (h.sequences d hd e he hde)
    · rw [hvalues, add_comm]
      exact h.balanced
  · intro h
    refine ⟨⟨opHasNoConflictingConditions_iff.mpr (pairwise_compatible_iff.mpr h.compatible),
      h.deposit_pos, h.withdraw_pos, h.deposit_nodup, h.withdraw_nodup,
      (bound_listed_iff hxdr).mpr ⟨h.creates_listed, h.withdraws_listed⟩⟩, h.deposit_fits,
      h.withdraw_fits, ?_, ?_, ?_, h.supply_fits, h.authorized, h.depositors, h.transfers⟩
    · intro d hd e he hde
      exact (equalConditionSequence_iff hxdr).mpr (h.same_conditions d hd e he hde)
    · exact (enabled_iff hsep).mpr ⟨h.spend_nodup, h.create_nodup,
        List.forall_mem_map.mpr h.spend_unspent, h.create_fresh, h.create_pos⟩
    · rw [← hvalues, add_comm]
      exact h.balanced

theorem Accepted.spent_balance (h : Accepted H inv w op w') {e : BytesN 65 × List Condition}
    (he : e ∈ op.spend) (now : U32) : (utxoBalance H now w'.channel.utxo e.1).1 = 0 := by
  apply I128.toInt_injective
  have hspent := h.bundle.applies.spent _ (List.mem_map_of_mem (List.mem_map_of_mem he))
  rw [utxoBalance_toInt, Store.value, hspent, Option.getD_some, I128.toInt_zero]

theorem Accepted.other_record (h : Accepted H inv w op w') (hsep : H.SeparatesKeys) {k : BytesN 65}
    (hs : k ∉ op.spend.map Prod.fst) (hc : k ∉ op.create.map Prod.fst) :
    w'.channel.utxo.store.get (Store.utxoKey H k) =
      w.channel.utxo.store.get (Store.utxoKey H k) := by
  have hframe := h.bundle.applies.frame (Store.utxoKey H k) ?_ ?_
  · exact Option.map_injective I128.toInt_injective hframe
  · intro hmem
    obtain ⟨j, hj, he⟩ := List.mem_map.mp hmem
    exact hs (hsep j k he ▸ hj)
  · intro hmem
    rw [digestBundle, List.map_map] at hmem
    obtain ⟨p, hp, he⟩ := List.mem_map.mp hmem
    exact hc (hsep p.1 k he ▸ List.mem_map_of_mem hp)

/-- Exact acceptance and effect of `transact` in every reachable state. -/
theorem transact_exact (hsep : H.SeparatesKeys) (hxdr : Function.Injective H.conditionToXdr)
    (w : World Digest W) (hw : Reachable H w) (inv : Invocation W) (op : ChannelOperation) :
    ((∃ w', transact H inv w op = .ok w') ↔ Acceptable H inv w op) ∧
      ∀ w', transact H inv w op = .ok w' →
        (∀ e ∈ op.spend, ∀ now, (utxoBalance H now w'.channel.utxo e.1).1 = 0) ∧
        (∀ p ∈ op.create, ∀ now, (utxoBalance H now w'.channel.utxo p.1).1 = p.2) ∧
        ∀ k, k ∉ op.spend.map Prod.fst → k ∉ op.create.map Prod.fst →
          w'.channel.utxo.store.get (Store.utxoKey H k) =
            w.channel.utxo.store.get (Store.utxoKey H k) := by
  obtain ⟨w₀, h₀, calls, rfl⟩ := hw
  constructor
  · rw [transact_exists_iff (Backed.of_run h₀ calls) (guard_of_run h₀ calls)]
    exact admissible_iff hsep hxdr
  · intro w' h
    have hacc := transact_ok h
    refine ⟨?_, ?_, ?_⟩
    · intro e he
      exact hacc.spent_balance he
    · intro p hp
      exact hacc.created_balance hp
    · intro k hs hc
      exact hacc.other_record hsep hs hc

theorem transact_exact_sampleSpend :
    let H := sampleHost sampleSigned
    Acceptable H (sampleCall sampleSigned sampleSpend).inv sampleFunded sampleSpend ∧
      ∃ w', transact H (sampleCall sampleSigned sampleSpend).inv sampleFunded sampleSpend =
          .ok w' ∧
        (utxoBalance H 100 w'.channel.utxo (sampleKey 1)).1 = 0 ∧
        (utxoBalance H 100 w'.channel.utxo (sampleKey 2)).1 = .ofByte 60 := by
  intro H
  obtain ⟨w', h⟩ := sampleSpend_commits
  have hreach : Reachable H sampleFunded :=
    ⟨_, sampleWorld_deployed _ (), _, rfl⟩
  obtain ⟨hiff, heffect⟩ := transact_exact (idealHost_separatesKeys _ _) Condition.toXdr_injective
    sampleFunded hreach (sampleCall sampleSigned sampleSpend).inv sampleSpend
  obtain ⟨hspent, hcreated, -⟩ := heffect w' h
  exact ⟨hiff.mp ⟨w', h⟩, w', h, hspent (sampleKey 1, sampleConditions) (by decide) 100,
    hcreated (sampleKey 2, .ofByte 60) (by decide) 100⟩

end Moonlight
