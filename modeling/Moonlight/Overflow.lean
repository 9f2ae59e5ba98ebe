import Moonlight.Acceptance
import Moonlight.Paths

namespace Moonlight
open Foundations

variable {Digest W : Type}

section Checked

variable {H : Host Digest}

theorem assertWithError_never_overflows (p : Prop) [Decidable p] (e : MoonlightError) :
    FailsOnly (· ≠ .overflow) (assertWithError p e) := by
  intro f h
  rw [← (assertWithError_eq_error.mp h).2]
  exact nofun

theorem okOr_never_overflows {α : Type} (x : Option α) (f : Failure) (hf : f ≠ .overflow) :
    FailsOnly (· ≠ .overflow) (okOr x f) := by
  intro g h
  rw [← (okOr_eq_error.mp h).2]
  exact hf

theorem totalStep_never_overflows (total : I128) (entry : Address × I128 × List Condition) :
    FailsOnly (· ≠ .overflow) (totalStep total entry) :=
  (assertWithError_never_overflows _ _).bind fun _ => okOr_never_overflows _ (.contract _) nofun

theorem preProcess_never_overflows (op : ChannelOperation) :
    FailsOnly (· ≠ .overflow) (preProcessChannelOperation H op) := by
  apply (assertWithError_never_overflows _ _).bind
  intro _
  apply (FailsOnly.foldlM totalStep_never_overflows _ _).bind
  intro td
  apply (FailsOnly.foldlM totalStep_never_overflows _ _).bind
  intro tw
  have hverify : FailsOnly (· ≠ .overflow) (verifyExternalOperations H op.deposit op.withdraw) := by
    apply (assertWithError_never_overflows _ _).bind
    intro _
    apply (assertWithError_never_overflows _ _).bind
    intro _
    apply FailsOnly.forM
    intro d
    apply FailsOnly.forM
    intro e
    exact assertWithError_never_overflows _ _
  apply hverify.bind
  intro _
  apply (assertWithError_never_overflows _ _).bind
  intro _
  exact FailsOnly.pure _

variable {inv : Invocation W} {w : World Digest W} {e : Address × I128 × List Condition}

theorem callTransfer_never_overflows
    (hasset : ∀ address t state, inv.transfer address t state ≠ .error .overflow)
    (address : Address) (t : Transfer) (w : World Digest W) :
    FailsOnly (· ≠ .overflow) (callTransfer (inv.asset address) t w) := by
  have hcall : FailsOnly (· ≠ .overflow) (inv.transfer address t w.assetState) := by
    intro f h hf
    exact hasset address t w.assetState (hf ▸ h)
  apply FailsOnly.bind (hcall.bind fun _ => FailsOnly.pure _)
  intro _
  exact FailsOnly.pure _

theorem executeExternalOperations_never_overflows
    (hasset : ∀ address t state, inv.transfer address t state ≠ .error .overflow)
    (w : World Digest W) (deposit withdraw : List (Address × I128 × List Condition)) :
    FailsOnly (· ≠ .overflow)
      (executeExternalOperations inv.requireAuth inv.asset w deposit withdraw) := by
  apply (okOr_never_overflows _ .unwrapNone nofun).bind
  intro address
  have hdeposit (w : World Digest W) (e : Address × I128 × List Condition) :
      FailsOnly (· ≠ .overflow) (depositStep inv.requireAuth (inv.asset address) w e) := by
    have hauth : FailsOnly (· ≠ .overflow)
        (ensure (inv.requireAuth e.1 [.conditions e.2.2] = true) .unauthorized) := by
      intro f h
      rw [← (ensure_eq_error.mp h).2]
      exact nofun
    apply hauth.bind
    intro _
    apply (callTransfer_never_overflows hasset address _ w).bind
    intro w₁
    apply ((okOr_never_overflows _ (.contract _) nofun).bind fun _ => FailsOnly.pure _).bind
    intro _
    exact FailsOnly.pure _
  have hwithdraw (w : World Digest W) (e : Address × I128 × List Condition) :
      FailsOnly (· ≠ .overflow) (withdrawStep (inv.asset address) w e) := by
    apply (callTransfer_never_overflows hasset address _ w).bind
    intro w₁
    apply ((okOr_never_overflows _ (.contract _) nofun).bind fun _ => FailsOnly.pure _).bind
    intro _
    exact FailsOnly.pure _
  apply (FailsOnly.foldlM hdeposit _ _).bind
  intro w₁
  exact FailsOnly.foldlM hwithdraw _ _

end Checked

variable [DecidableEq Digest]

section Balance

variable {H : Host Digest} {F : Features} {now : U32} {s s' : UtxoState Digest} {t t' : I128}

theorem spendStep_overflow {u : BytesN 65} (h : spendStep H F now (s, t) u = .error .overflow) :
    ∃ x, 0 < x ∧ s.store.ledger (Store.utxoKey H u) = some x ∧ 2 ^ 127 ≤ t.toInt + x := by
  have hchecked (b : I128) : FailsOnly (· ≠ .overflow) (unspentAmount b) := by
    intro f hf
    unfold unspentAmount at hf
    split_ifs at hf <;> cases hf <;> exact nofun
  rcases bind_eq_error.mp h with hread | ⟨a, ha, -⟩
  · exact absurd rfl (hchecked _ _ hread)
  · have hpos := (unspentAmount_eq_ok.mp ha).1
    rw [Store.balance_fst] at hpos
    cases hget : s.store.get (Store.utxoKey H u) with
    | none =>
      rw [hget] at hpos
      exact absurd hpos (by decide)
    | some b =>
      rw [hget, Option.getD_some] at hpos
      have hledger : s.store.ledger (Store.utxoKey H u) = some b.toInt := by
        rw [Store.ledger, hget]
        rfl
      exact ⟨b.toInt, hpos, hledger, ((spendStep_unspent hpos hledger).mp h).1⟩

theorem createStep_overflow {p : BytesN 65 × I128}
    (h : createStep H F now (s, t) p = .error .overflow) :
    0 < p.2.toInt ∧ s.store.ledger (Store.utxoKey H p.1) = none ∧
      t.toInt - p.2.toInt < -2 ^ 127 := by
  have hstore (st : Store Digest) : FailsOnly (· ≠ .overflow) (st.create H now p.1 p.2) := by
    apply (assertWithError_never_overflows _ _).bind
    intro _
    apply (assertWithError_never_overflows _ _).bind
    intro _
    exact FailsOnly.pure _
  rcases bind_eq_error.mp h with hread | ⟨_, -, h₁⟩
  · exact absurd rfl (assertWithError_never_overflows _ _ _ hread)
  rcases bind_eq_error.mp h₁ with hamount | ⟨_, hpos, h₂⟩
  · exact absurd rfl (assertWithError_never_overflows _ _ _ hamount)
  rcases bind_eq_error.mp h₂ with hcreate | ⟨st, hcreate, -⟩
  · exact absurd rfl (hstore _ _ hcreate)
  -- `Store::create` has looked the record up once more
  have hget := (Store.create_ok hcreate).2.1
  rw [Store.get_balance] at hget
  have hnone : s.store.ledger (Store.utxoKey H p.1) = none := by
    rw [Store.ledger, hget]
    rfl
  have hpos := assertWithError_eq_ok.mp hpos
  exact ⟨hpos, hnone, ((createStep_fresh hpos hnone).mp h).1⟩

theorem spendLoop_error {us : List (BytesN 65)} {f : Failure}
    (henabled : (digestBundle H us []).Enabled s.store.ledger)
    (h : us.foldlM (spendStep H F now) (s, t) = .error f) : f = .overflow := by
  obtain ⟨done, u, rest, ⟨m, tm⟩, rfl, hm, hu⟩ := foldlM_eq_error.mp h
  have happ := (spendLoop_ok hm).1
  rw [digestBundle, List.map_append, List.map_cons] at henabled
  obtain ⟨x, hx, hget⟩ := henabled.next_spend happ
  exact ((spendStep_unspent hx hget).mp hu).2.symm

theorem createLoop_error {ps : List (BytesN 65 × I128)} {f : Failure}
    (henabled : (digestBundle H [] ps).Enabled s.store.ledger)
    (h : ps.foldlM (createStep H F now) (s, t) = .error f) : f = .overflow := by
  obtain ⟨done, p, rest, ⟨m, tm⟩, rfl, hm, hp⟩ := foldlM_eq_error.mp h
  have happ := (createLoop_ok hm).1
  rw [digestBundle, List.map_append, List.map_cons] at henabled
  obtain ⟨hpos, hnone⟩ := henabled.next_create happ
  exact ((createStep_fresh hpos hnone).mp hp).2.symm

/-- The spend loop traps when unspent records from its front, on top of the
balance, leave the range. -/
theorem spendLoop_overflow_iff {us : List (BytesN 65)} :
    us.foldlM (spendStep H F now) (s, t) = .error .overflow ↔
      ∃ vs rest, us = vs ++ rest ∧ (digestBundle H vs []).Enabled s.store.ledger ∧
        2 ^ 127 ≤ t.toInt + (vs.map (s.store.value H)).sum := by
  apply foldlM_stops_iff
  · intro done acc hloop hout
    have hsum : acc.2.toInt = _ := (spendLoop_ok hloop).2.1
    have hup := acc.2.upper
    omega
  · rintro done u ⟨m, tm⟩ hm hu
    obtain ⟨happ, hsum, -⟩ := spendLoop_ok hm
    obtain ⟨x, hx, hget, hout⟩ := spendStep_overflow hu
    obtain ⟨henabled, hledger⟩ := happ.spend_next hx hget
    constructor
    · rw [digestBundle, List.map_append]
      exact henabled
    · rw [List.map_append, List.sum_append, List.map_singleton, List.sum_singleton,
        Store.value_of_ledger hledger]
      omega
  · intro done f henabled hloop
    exact spendLoop_error henabled hloop

theorem createLoop_overflow_iff {ps : List (BytesN 65 × I128)} :
    ps.foldlM (createStep H F now) (s, t) = .error .overflow ↔
      ∃ qs rest, ps = qs ++ rest ∧ (digestBundle H [] qs).Enabled s.store.ledger ∧
        t.toInt - (qs.map fun p => p.2.toInt).sum < -2 ^ 127 := by
  apply foldlM_stops_iff
  · intro done acc hloop hout
    have hsum : acc.2.toInt = _ := (createLoop_ok hloop).2.1
    have hlow := acc.2.lower
    omega
  · rintro done p ⟨m, tm⟩ hm hp
    obtain ⟨happ, hsum, -⟩ := createLoop_ok hm
    obtain ⟨hpos, hnone, hout⟩ := createStep_overflow hp
    constructor
    · rw [digestBundle, List.map_append]
      exact happ.create_next hpos hnone
    · rw [List.map_append, List.sum_append, List.map_singleton, List.sum_singleton]
      omega
  · intro done f henabled hloop
    exact createLoop_error henabled hloop

/-- Where the running balance of a bundle leaves the range: at some spend on the
way up, or at some create on the way down. -/
def BalanceOverflows (H : Host Digest) (st : Store Digest) (spend : List (BytesN 65))
    (create : List (BytesN 65 × I128)) (incoming : ℤ) : Prop :=
  (∃ us rest, spend = us ++ rest ∧ (digestBundle H us []).Enabled st.ledger ∧
      2 ^ 127 ≤ incoming + (us.map (st.value H)).sum) ∨
    ∃ ps rest, create = ps ++ rest ∧ (digestBundle H spend ps).Enabled st.ledger ∧
      incoming + (spend.map (st.value H)).sum - (ps.map fun p => p.2.toInt).sum < -2 ^ 127

theorem bundleLoops_overflow_iff {b : InternalBundle} :
    bundleLoops H F now s b t = .error .overflow ↔
      BalanceOverflows H s.store b.spend b.create t.toInt := by
  rw [bundleLoops, bind_eq_error, BalanceOverflows, ← spendLoop_overflow_iff]
  constructor
  · rintro (h | ⟨⟨m, tm⟩, hm, h⟩)
    · exact .inl h
    · obtain ⟨happ, hsum, -⟩ := spendLoop_ok hm
      obtain ⟨ps, rest, hps, henabled, hout⟩ := createLoop_overflow_iff.mp h
      exact .inr ⟨ps, rest, hps, .after_spends happ henabled, by omega⟩
  · rintro (h | ⟨ps, rest, hps, henabled, hout⟩)
    · exact .inl h
    · cases hm : b.spend.foldlM (spendStep H F now) (s, t) with
      -- spends that stop here stop for the balance themselves
      | error f => exact .inl (by rw [spendLoop_error henabled.spends hm])
      | ok acc =>
        obtain ⟨happ, hsum, -⟩ := spendLoop_ok hm
        refine .inr ⟨acc, rfl, createLoop_overflow_iff.mpr ⟨ps, rest, hps, ?_, by omega⟩⟩
        exact henabled.creates happ

theorem processBundle_overflow_iff {requireAuth : RequireAuth} {b : InternalBundle}
    {outgoing : I128} {auth : Address} (hauth : s.auth = some auth)
    (hgranted : requireAuth auth (authArgs b.req) = true) :
    processBundle H F now requireAuth s b t outgoing = .error .overflow ↔
      b.spend.Nodup ∧ (b.create.map Prod.fst).Nodup ∧
        BalanceOverflows H s.store b.spend b.create t.toInt := by
  have hbalance (acc : UtxoState Digest × I128) : FailsOnly (· ≠ .overflow) (do
      assertWithError (acc.2 = outgoing) .unbalancedBundle
      pure (acc.2, acc.1.publishBundle F b t outgoing)) :=
    (assertWithError_never_overflows _ _).bind fun _ => FailsOnly.pure _
  constructor
  · intro h
    have hnodup : b.spend.Nodup ∧ (b.create.map Prod.fst).Nodup := by
      rcases bind_eq_error.mp h with hs | ⟨_, hs, h₁⟩
      · exact absurd rfl (assertWithError_never_overflows _ _ _ hs)
      rcases bind_eq_error.mp h₁ with hc | ⟨_, hc, -⟩
      · exact absurd rfl (assertWithError_never_overflows _ _ _ hc)
      rw [assertWithError_eq_ok, noDuplicateKeys_iff] at hs hc
      exact ⟨by simpa using hs, hc⟩
    rw [processBundle_eq hnodup.1 hnodup.2 hauth hgranted] at h
    rcases bind_eq_error.mp h with h | ⟨acc, -, h⟩
    · exact ⟨hnodup.1, hnodup.2, bundleLoops_overflow_iff.mp h⟩
    · exact absurd rfl (hbalance acc _ h)
  · rintro ⟨hs, hc, hout⟩
    rw [processBundle_eq hs hc hauth hgranted, bind_eq_error]
    exact .inl (bundleLoops_overflow_iff.mpr hout)

end Balance

section Transact

variable {H : Host Digest} {inv : Invocation W} {w : World Digest W} {op : ChannelOperation}

theorem processOperation_overflow_iff {now : U32} {requireAuth : RequireAuth} {c : Channel Digest}
    (hguard : c.guard = false) :
    processOperation H now requireAuth c op = .error .overflow ↔
      ∃ pre, preProcessChannelOperation H op = .ok pre ∧
        processBundle H channelFeatures now requireAuth c.utxo pre.1 pre.2.1 pre.2.2 =
          .error .overflow := by
  have henter : enterReentrancyGuard { c with liveUntil := bumpInstanceTtl now c.liveUntil } =
      .ok { c with liveUntil := bumpInstanceTtl now c.liveUntil, guard := true } := by
    rw [enterReentrancyGuard, bind_of_ok ((assertWithError_eq_ok (u := ())).mpr hguard)]
    rfl
  rw [processOperation, bind_of_ok henter, bind_eq_error]
  constructor
  · rintro (h | ⟨pre, hpre, h⟩)
    · exact absurd rfl (preProcess_never_overflows op _ h)
    · rcases bind_eq_error.mp h with h | ⟨r, -, h⟩
      · exact ⟨pre, hpre, h⟩
      · cases h
  · rintro ⟨pre, hpre, h⟩
    exact .inr ⟨pre, hpre, bind_eq_error.mpr (.inl h)⟩

/-- A call that traps on overflow has passed every check before the balance, and
its balance leaves the range. -/
theorem transact_overflow_iff (hguard : w.channel.guard = false) {auth : Address}
    (hauth : w.channel.utxo.auth = some auth)
    (hgranted : inv.requireAuth auth (authArgs op.internal.req) = true)
    (hasset : ∀ address t state, inv.transfer address t state ≠ .error .overflow) :
    transact H inv w op = .error .overflow ↔
      (∃ pre, preProcessChannelOperation H op = .ok pre) ∧ op.internal.spend.Nodup ∧
        (op.internal.create.map Prod.fst).Nodup ∧
        BalanceOverflows H w.channel.utxo.store op.internal.spend op.internal.create
          op.depositTotal := by
  have hphases : transact H inv w op = .error .overflow ↔
      processOperation H inv.sequence inv.requireAuth w.channel op = .error .overflow := by
    rw [transact, transactWith, bind_eq_error]
    refine or_iff_left_of_imp ?_
    rintro ⟨c, -, h⟩
    rcases bind_eq_error.mp h with h | ⟨w₁, -, h⟩
    · exact absurd rfl (executeExternalOperations_never_overflows hasset _ _ _ _ h)
    · cases h
  rw [hphases, processOperation_overflow_iff hguard]
  constructor
  · rintro ⟨pre, hpre, h⟩
    obtain ⟨-, hbundle, hdeposit, -⟩ := preProcess_ok hpre
    rw [hbundle, processBundle_overflow_iff hauth hgranted, hdeposit] at h
    exact ⟨⟨pre, hpre⟩, h⟩
  · rintro ⟨⟨pre, hpre⟩, h⟩
    obtain ⟨-, hbundle, hdeposit, -⟩ := preProcess_ok hpre
    refine ⟨pre, hpre, ?_⟩
    rw [hbundle, processBundle_overflow_iff hauth hgranted, hdeposit]
    exact h

theorem Reachable.auth (hw : Reachable H w) : ∃ a, w.channel.utxo.auth = some a := by
  obtain ⟨w₀, h₀, calls, rfl⟩ := hw
  apply run_invariant (I := fun w : World Digest W => ∃ a, w.channel.utxo.auth = some a)
  · intro w w' c _ hw h
    rw [(transact_ok h).bundle.auth]
    exact hw
  · obtain ⟨-, now, admin, authContract, asset, hc⟩ := h₀
    simp only [construct, bind_eq_ok, ensure_eq_ok, pure_eq_ok] at hc
    obtain ⟨-, -, hc⟩ := hc
    exact ⟨authContract, by rw [← hc]⟩

/-- In every reachable state, an authorized `transact` ends in an overflow trap
exactly when every earlier check passes and the running balance of the bundle
leaves the range. -/
theorem transact_never_overflows_iff (hw : Reachable H w)
    (hgranted : ∀ a, w.channel.utxo.auth = some a →
      inv.requireAuth a (authArgs op.internal.req) = true)
    (hasset : ∀ address t state, inv.transfer address t state ≠ .error .overflow) :
    transact H inv w op ≠ .error .overflow ↔
      ¬ ((∃ pre, preProcessChannelOperation H op = .ok pre) ∧ (op.spend.map Prod.fst).Nodup ∧
        (op.create.map Prod.fst).Nodup ∧
        BalanceOverflows H w.channel.utxo.store (op.spend.map Prod.fst) op.create
          op.depositTotal) := by
  obtain ⟨auth, hauth⟩ := hw.auth
  have hguard : w.channel.guard = false := by
    obtain ⟨w₀, h₀, calls, rfl⟩ := hw
    exact guard_of_run h₀ calls
  exact not_congr (transact_overflow_iff hguard hauth (hgranted auth hauth) hasset)

end Transact

def openInvocation : Invocation Unit := ⟨100, fun _ _ => true, fun _ _ s => .ok s⟩

theorem openInvocation_transfers (address : Address) (t : Transfer) (state : Unit) :
    openInvocation.transfer address t state ≠ .error .overflow := by
  intro h
  cases h

theorem sampleSpend_in_range :
    transact (sampleHost sampleSigned) openInvocation sampleFunded sampleSpend ≠
        .error .overflow ∧
      ¬ BalanceOverflows (sampleHost sampleSigned) sampleFunded.channel.utxo.store [sampleKey 1]
        sampleSpend.create 0 := by
  have hreach : Reachable (sampleHost sampleSigned) sampleFunded :=
    ⟨sampleWorld _ (), sampleWorld_deployed _ (), [sampleCall sampleSigned sampleDeposit], rfl⟩
  obtain ⟨w', hcommits⟩ := exists_ok (x := transact (sampleHost sampleSigned) openInvocation
    sampleFunded sampleSpend) (by decide +kernel)
  have hne : transact (sampleHost sampleSigned) openInvocation sampleFunded sampleSpend ≠
      .error .overflow := by
    rw [hcommits]
    exact nofun
  have hrange := (transact_never_overflows_iff hreach (fun _ _ => rfl)
    openInvocation_transfers).mp hne
  obtain ⟨pre, hpre⟩ := exists_ok (x := preProcessChannelOperation (sampleHost sampleSigned)
    sampleSpend) (by decide +kernel)
  refine ⟨hne, fun hout => hrange ⟨⟨pre, hpre⟩, by decide, by decide, hout⟩⟩

def I128.maxValue : I128 := ⟨2 ^ 127 - 1, by norm_num, by norm_num⟩

def largeCreates : ChannelOperation :=
  ⟨[], [(sampleKey 1, .maxValue), (sampleKey 2, .maxValue)], [], []⟩

/-- The second create takes the balance of a new channel below the range. -/
theorem largeCreates_overflow :
    Reachable (sampleHost []) (sampleWorld (sampleHost []) ()) ∧
      (∀ a args, openInvocation.requireAuth a args = true) ∧
      ¬ transact (sampleHost []) openInvocation (sampleWorld (sampleHost []) ()) largeCreates ≠
        .error .overflow := by
  refine ⟨⟨sampleWorld _ (), sampleWorld_deployed _ (), [], rfl⟩, fun _ _ => rfl, ?_⟩
  have htrap : (match transact (sampleHost []) openInvocation (sampleWorld (sampleHost []) ())
      largeCreates with
    | .error .overflow => true
    | _ => false) = true := by decide +kernel
  split at htrap
  · rename_i htransact
    exact not_not.mpr htransact
  · cases htrap

end Moonlight
