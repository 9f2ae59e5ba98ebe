import Moonlight.InstanceLife
import Moonlight.Foundations.Leases

namespace Moonlight
open Foundations

variable {Digest W : Type} [DecidableEq Digest]

namespace Store

/-- The operations on the entries `ks`, at ledger `now`, that lead from `st` to
`st'`: more than the threshold is left to each of them, and no other entry has
changed. -/
structure Touched (now : U32) (ks : List Digest) (st st' : Store Digest) : Prop where
  fresh : ∀ k ∈ ks, ∀ e, st'.lookup k = some e →
    now.val + persistentLifetimeThreshold < e.liveUntil
  frame : ∀ d, d ∉ ks → st'.lookup d = st.lookup d

variable {H : Host Digest} {now : U32} {ks ks' : List Digest} {k : Digest}
  {st st' st'' : Store Digest} {utxo : BytesN 65} {amount : I128}

theorem Touched.refl (now : U32) (st : Store Digest) : Touched now [] st st :=
  ⟨by simp, fun _ _ => rfl⟩

theorem Touched.trans (h : Touched now ks st st') (h' : Touched now ks' st' st'') :
    Touched now (ks ++ ks') st st'' := by
  constructor
  · intro k hk e he
    by_cases hk' : k ∈ ks'
    · exact h'.fresh k hk' e he
    · rw [h'.frame k hk'] at he
      have hks : k ∈ ks := (List.mem_append.mp hk).resolve_right hk'
      exact h.fresh k hks e he
  · intro d hd
    rw [List.mem_append, not_or] at hd
    rw [h'.frame d hd.2, h.frame d hd.1]

theorem Touched.again (h : Touched now [k] st st') (h' : Touched now [k] st' st'') :
    Touched now [k] st st'' := by
  have hboth := h.trans h'
  refine ⟨fun j hj => hboth.fresh j (List.mem_append_left _ hj), fun d hd => ?_⟩
  exact hboth.frame d (by simpa using hd)

theorem bumpTtl_touched (hframe : ∀ d, d ≠ k → st'.lookup d = st.lookup d) :
    Touched now [k] st (st'.bumpTtl now k) := by
  unfold bumpTtl
  cases hk : st'.lookup k with
  | none =>
    refine ⟨?_, fun d hd => hframe d (by simpa using hd)⟩
    intro j hj e he
    rw [List.mem_singleton.mp hj, hk] at he
    cases he
  | some e =>
    constructor
    · intro j hj e' he'
      rw [List.mem_singleton.mp hj, Finmap.lookup_insert] at he'
      rw [← Option.some.inj he']
      exact lt_extendTtl (by decide) _
    · intro d hd
      have hdk : d ≠ k := by simpa using hd
      rw [Finmap.lookup_insert_of_ne _ hdk, hframe d hdk]

theorem balance_touched (st : Store Digest) (utxo : BytesN 65) :
    Touched now [utxoKey H utxo] st (st.balance H now utxo).2 := by
  unfold balance
  cases hget : st.get (utxoKey H utxo) with
  | some a => exact bumpTtl_touched fun _ _ => rfl
  | none =>
    -- a read of a missing key finds no entry to extend
    refine ⟨?_, fun _ _ => rfl⟩
    intro k hk e he
    rw [List.mem_singleton.mp hk] at he
    simp [get, he] at hget

theorem set_touched (st : Store Digest) (k : Digest) (amount : I128) :
    Touched now [k] st ((st.set H now k amount).bumpTtl now k) :=
  bumpTtl_touched fun _ hd => Finmap.lookup_insert_of_ne _ hd

theorem create_touched (h : st.create H now utxo amount = .ok st') :
    Touched now [utxoKey H utxo] st st' := by
  simp only [create, bind_eq_ok, pure_eq_ok] at h
  obtain ⟨-, -, -, -, rfl⟩ := h
  exact set_touched st _ amount

theorem spend_touched (h : st.spend H now utxo = .ok (amount, st')) :
    Touched now [utxoKey H utxo] st st' := by
  unfold spend at h
  split at h
  · split at h
    · cases h
      exact set_touched st _ 0
    · cases h
  · cases h

end Store

open Store

section Calls

variable {H : Host Digest} {F : Features} {now : U32} {acc acc' : UtxoState Digest × I128}

/-- A loop whose passes touch one entry each touches those of its list. -/
theorem touchedLoop {α : Type} {step : UtxoState Digest × I128 → α →
      Except Failure (UtxoState Digest × I128)} {key : α → Digest}
    (hstep : ∀ acc x acc', step acc x = .ok acc' → Touched now [key x] acc.1.store acc'.1.store)
    {xs : List α} (h : xs.foldlM step acc = .ok acc') :
    Touched now (xs.map key) acc.1.store acc'.1.store := by
  induction xs generalizing acc with
  | nil =>
    rw [List.foldlM_nil, pure_eq_ok] at h
    subst h
    exact Touched.refl now _
  | cons x xs ih =>
    obtain ⟨m, hm, hrest⟩ := foldlM_cons_ok.mp h
    exact (hstep acc x m hm).trans (ih hrest)

theorem spendStep_touched {u : BytesN 65} (h : spendStep H F now acc u = .ok acc') :
    Touched now [utxoKey H u] acc.1.store acc'.1.store := by
  simp only [spendStep, bind_eq_ok, pure_eq_ok] at h
  obtain ⟨a, -, ⟨b, st⟩, hspend, t, -, rfl⟩ := h
  rw [publishUtxo_store]
  exact (balance_touched acc.1.store u).again (spend_touched hspend)

theorem createStep_touched {p : BytesN 65 × I128} (h : createStep H F now acc p = .ok acc') :
    Touched now [utxoKey H p.1] acc.1.store acc'.1.store := by
  simp only [createStep, bind_eq_ok, pure_eq_ok] at h
  obtain ⟨-, -, -, -, st, hcreate, t, -, rfl⟩ := h
  rw [publishUtxo_store]
  exact (balance_touched acc.1.store p.1).again (create_touched hcreate)

theorem processBundle_touched {requireAuth : RequireAuth} {s s' : UtxoState Digest}
    {b : InternalBundle} {incoming outgoing r : I128}
    (h : processBundle H F now requireAuth s b incoming outgoing = .ok (r, s')) :
    Touched now ((b.spend ++ b.create.map Prod.fst).map (utxoKey H)) s.store s'.store := by
  simp only [processBundle, bind_eq_ok, pure_eq_ok, Prod.mk.injEq] at h
  obtain ⟨-, -, -, -, -, -, -, -, acc, hspend, acc', hcreate, -, -, -, rfl⟩ := h
  show Touched _ _ _ (acc'.1.publishBundle F b incoming outgoing).store
  rw [publishBundle_store, List.map_append, List.map_map]
  exact (touchedLoop (fun _ _ _ => spendStep_touched) hspend).trans
    (touchedLoop (fun _ _ _ => createStep_touched) hcreate)

theorem utxoBalances_touched (s : UtxoState Digest) (utxos : List (BytesN 65)) :
    Touched now (utxos.map (utxoKey H)) s.store (utxoBalances H now s utxos).2.store := by
  induction utxos using List.reverseRecOn with
  | nil => exact Touched.refl now _
  | append_singleton us u ih =>
    rw [utxoBalances, List.foldl_append, List.map_append]
    exact ih.trans (balance_touched _ u)

theorem transact_touched {inv : Invocation W} {w w' : World Digest W} {op : ChannelOperation}
    (h : transact H inv w op = .ok w') :
    Touched inv.sequence ((op.spend.map Prod.fst ++ op.create.map Prod.fst).map (utxoKey H))
      w.channel.utxo.store w'.channel.utxo.store := by
  obtain ⟨c, w₁, hc, hw₁, rfl⟩ := transact_phases h
  -- phase three does not reach the entries
  have hext : w₁.channel.utxo = c.utxo := (executeExternalOperations_ok hw₁).2.utxo
  simp only [processOperation, enterReentrancyGuard, bind_eq_ok, pure_eq_ok,
    assertWithError_eq_ok] at hc
  obtain ⟨c₁, ⟨-, -, rfl⟩, pre, hpre, ⟨r, s⟩, hbundle, rfl⟩ := hc
  have htouched := processBundle_touched hbundle
  rw [(preProcess_ok hpre).2.1] at htouched
  show Touched _ _ _ w₁.channel.utxo.store
  rw [hext]
  exact htouched

end Calls

theorem ChannelCall.exec_touched {H : Host Digest} {c : ChannelCall W}
    {st st' : ChannelInstance Digest W} (h : c.exec H st = .ok st') :
    Touched c.inv.sequence (c.entrypoint.keys.map (utxoKey H)) st.store st'.store := by
  cases ChannelCall.exec_step h with
  | quiet hkeys hkind hstore hlife =>
    rw [hkeys, hstore]
    exact Touched.refl _ _
  | read hkind hstore hlife =>
    rw [hstore]
    exact utxoBalances_touched _ _
  | transact op hc hw =>
    rw [hc]
    exact transact_touched hw

section Runs

variable {H : Host Digest} {st₀ : ChannelInstance Digest W} {calls : List (ChannelCall W)}

def ChannelInstance.entryLife (H : Host Digest) (k : BytesN 65) (st : ChannelInstance Digest W) :
    Option ℕ := (st.store.lookup (utxoKey H k)).map Entry.liveUntil

def ChannelCall.ledger (c : ChannelCall W) : ℕ := c.inv.sequence.val

theorem ChannelCall.exec_frame (hsep : H.SeparatesKeys) {c : ChannelCall W}
    {st st' : ChannelInstance Digest W} (h : c.exec H st = .ok st') {k : BytesN 65}
    (hk : k ∉ c.entrypoint.keys) :
    st'.store.lookup (utxoKey H k) = st.store.lookup (utxoKey H k) := by
  apply (ChannelCall.exec_touched h).frame
  rw [List.mem_map]
  rintro ⟨k', hk', heq⟩
  exact hk (hsep k' k heq ▸ hk')

theorem ChannelCall.exec_entryLife (hsep : H.SeparatesKeys) {c : ChannelCall W}
    {st st' : ChannelInstance Digest W} (h : c.exec H st = .ok st') {k : BytesN 65}
    (hk : k ∉ c.entrypoint.keys) : st'.entryLife H k = st.entryLife H k := by
  rw [ChannelInstance.entryLife, ChannelCall.exec_frame hsep h hk]
  rfl

theorem recorded_key (h₀ : Deployed H st₀.world) {i : ℕ} {d : Digest} {e : Entry}
    (h : (stateAt (ChannelCall.exec H) st₀ calls i).store.lookup d = some e) :
    ∃ k, utxoKey H k = d := by
  by_contra hd
  have hnone : (stateAt (ChannelCall.exec H) st₀ calls i).store.lookup d = none := by
    refine run_invariant (I := fun st : ChannelInstance Digest W => st.store.lookup d = none) ?_ ?_
    · intro st st' c _ hst hc
      rw [(ChannelCall.exec_touched hc).frame d ?_, hst]
      rw [List.mem_map]
      rintro ⟨k, -, hk⟩
      exact hd ⟨k, hk⟩
    · show st₀.world.channel.utxo.store.lookup d = none
      rw [h₀.storage.1, Finmap.lookup_empty]
  rw [hnone] at h
  cases h

theorem entryLife_deployed (h₀ : Deployed H st₀.world) (k : BytesN 65) :
    st₀.entryLife H k = none := by
  show (st₀.world.channel.utxo.store.lookup _).map _ = none
  rw [h₀.storage.1, Finmap.lookup_empty]
  rfl

theorem ChannelCall.exec_renews {c : ChannelCall W} {st st' : ChannelInstance Digest W}
    (h : c.exec H st = .ok st') {k : BytesN 65} (hk : k ∈ c.entrypoint.keys) {l : ℕ}
    (hl : st'.entryLife H k = some l) : c.ledger + persistentLifetimeThreshold < l := by
  obtain ⟨e, he, rfl⟩ := Option.map_eq_some_iff.mp hl
  exact (ChannelCall.exec_touched h).fresh _ (List.mem_map_of_mem hk) e he

theorem touched_of_recorded (hsep : H.SeparatesKeys) (h₀ : Deployed H st₀.world) {i : ℕ}
    {k : BytesN 65} (h : (stateAt (ChannelCall.exec H) st₀ calls i).entryLife H k ≠ none) :
    ∃ j c st, CommitsAt (ChannelCall.exec H) st₀ calls j c st ∧ k ∈ c.entrypoint.keys := by
  obtain ⟨l, hl⟩ := Option.ne_none_iff_exists'.mp h
  obtain ⟨j, c, st, hc, -, -, hlatest⟩ := latest_renewal (entryLife_deployed h₀ k)
    (fun _ _ _ _ hc hk => ChannelCall.exec_renews hc hk)
    (fun _ _ _ hc hk => ChannelCall.exec_entryLife hsep hc hk) hl
  exact ⟨j, c, st, hc, hlatest.renewed⟩

/-- In a run that touches each recorded key in every window of the threshold, no
entry's life is ever used up; and in every run, a call and each operation of the
store leave the entries of the other keys as they are. -/
theorem entries_stay_alive (hsep : H.SeparatesKeys) (h₀ : Deployed H st₀.world)
    (calls : List (ChannelCall W)) (htime : calls.Pairwise fun a b => a.ledger ≤ b.ledger) :
    (∀ last,
      (∀ k, RenewedEvery (ChannelCall.exec H) ChannelCall.ledger persistentLifetimeThreshold
        (fun c => k ∈ c.entrypoint.keys) (ChannelInstance.entryLife H k) st₀ calls last) →
      ∀ i n, Moment ChannelCall.ledger calls last i n → ∀ d e,
        (stateAt (ChannelCall.exec H) st₀ calls i).store.lookup d = some e →
          0 < e.liveUntil - n) ∧
    (∀ i c st, CommitsAt (ChannelCall.exec H) st₀ calls i c st → ∀ k ∉ c.entrypoint.keys,
      st.store.lookup (utxoKey H k) =
        (stateAt (ChannelCall.exec H) st₀ calls i).store.lookup (utxoKey H k)) ∧
    ∀ (now : U32) (st : Store Digest) (k k' : BytesN 65), k' ≠ k →
      (st.balance H now k).2.lookup (utxoKey H k') = st.lookup (utxoKey H k') ∧
      (∀ amount st', st.create H now k amount = .ok st' →
        st'.lookup (utxoKey H k') = st.lookup (utxoKey H k')) ∧
      ∀ amount st', st.spend H now k = .ok (amount, st') →
        st'.lookup (utxoKey H k') = st.lookup (utxoKey H k') := by
  refine ⟨?_, ?_, ?_⟩
  · intro last hwindow i n hnow d e he
    obtain ⟨k, rfl⟩ := recorded_key h₀ he
    have hl : (stateAt (ChannelCall.exec H) st₀ calls i).entryLife H k = some e.liveUntil := by
      rw [ChannelInstance.entryLife, he]
      rfl
    have hlife : n < e.liveUntil := by
      refine lease_outlives htime (entryLife_deployed h₀ k) ?_ ?_ (hwindow k) hnow hl
      · intro st c st' l hc hk
        exact ChannelCall.exec_renews hc hk
      · intro st c st' hc hk
        exact ChannelCall.exec_entryLife hsep hc hk
    omega
  · intro i c st hc k hk
    exact ChannelCall.exec_frame hsep hc.2 hk
  · intro now st k k' hne
    have hother : utxoKey H k' ∉ [utxoKey H k] := by
      rw [List.mem_singleton]
      exact fun h => hne (hsep k' k h)
    exact ⟨(balance_touched st k).frame _ hother,
      fun _ _ h => (create_touched h).frame _ hother,
      fun _ _ h => (spend_touched h).frame _ hother⟩

end Runs

def sampleTouches : List (ChannelCall Unit) :=
  [sampleChannelCall 100 (.transact sampleDeposit),
    sampleChannelCall 483940 (.utxoBalance (sampleKey 1))]

theorem sampleTouches_stay_alive :
    ∃ e, (stateAt (ChannelCall.exec (sampleHost [])) sampleInstance sampleTouches 2).store.lookup
        (utxoKey (sampleHost []) (sampleKey 1)) = some e ∧ 0 < e.liveUntil - 980000 := by
  have hsep : (sampleHost []).SeparatesKeys := idealHost_separatesKeys _ _
  have h₀ : Deployed (sampleHost []) sampleInstance.world := sampleWorld_deployed _ _
  have htime : sampleTouches.Pairwise fun a b => a.ledger ≤ b.ledger := by decide
  obtain ⟨e, he⟩ := Option.isSome_iff_exists.mp (show ((stateAt (ChannelCall.exec (sampleHost []))
    sampleInstance sampleTouches 2).store.lookup (utxoKey (sampleHost []) (sampleKey 1))).isSome =
      true by decide +kernel)
  refine ⟨e, he, (entries_stay_alive hsep h₀ sampleTouches htime).1 980000 ?_ 2 980000 ?_ _ e he⟩
  · intro k i n _ hrecorded hlast
    obtain ⟨j, c, st, hc, hk⟩ := touched_of_recorded hsep h₀ hrecorded
    have hmem : c ∈ sampleTouches := List.mem_of_getElem? hc.1
    simp only [sampleTouches, List.mem_cons, List.not_mem_nil, or_false] at hmem
    -- both calls touch key 1 and no other key
    have hk1 : k = sampleKey 1 := by
      rcases hmem with rfl | rfl
      · exact List.mem_singleton.mp hk
      · exact List.mem_singleton.mp hk
    subst hk1
    have hthreshold : persistentLifetimeThreshold = 501120 := rfl
    have hledger : (sampleChannelCall 483940 (.utxoBalance (sampleKey 1))).ledger = 483940 := rfl
    refine ⟨1, _, _, ⟨rfl, rfl⟩, List.mem_singleton_self _, ?_, ?_⟩
    · rw [hledger]
      omega
    · rw [hledger]
      omega
  · refine ⟨fun j c _ hc => ?_, fun j c hj hc => ?_, le_rfl⟩
    · have hmem : c ∈ sampleTouches := List.mem_of_getElem? hc
      have hall : ∀ c ∈ sampleTouches, c.ledger ≤ 980000 := by decide
      exact hall c hmem
    · rw [List.getElem?_eq_none hj] at hc
      cases hc

end Moonlight
