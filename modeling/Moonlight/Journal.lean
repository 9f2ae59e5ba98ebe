import Moonlight.UtxoSpec
import Moonlight.Stellar

namespace Moonlight
open Foundations

variable {Digest : Type} [DecidableEq Digest]

/-- `utxo-core` built with neither feature that silences it. -/
def eventsOn : Features := ⟨false, false⟩

inductive UtxoOperation
  | processBundle (bundle : InternalBundle) (incomingAmount expectedOutgoing : I128)
  | create (amount : I128) (utxo : BytesN 65)
  | spend (utxo : BytesN 65)

structure UtxoCall where
  sequence : U32
  requireAuth : RequireAuth
  operation : UtxoOperation

def UtxoCall.exec (H : Host Digest) (s : UtxoState Digest) (c : UtxoCall) :
    Except Failure (UtxoState Digest) :=
  match c.operation with
  | .processBundle bundle incomingAmount expectedOutgoing => do
    let result ← processBundle H eventsOn c.sequence c.requireAuth s bundle incomingAmount
      expectedOutgoing
    pure result.2
  | .create amount utxo => s.create H eventsOn c.sequence amount utxo
  | .spend utxo => do
    let result ← s.spend H eventsOn c.sequence utxo
    pure result.2

/-- An event read as a change of the records: a create sets the key to the
amount, a spend sets it to `0`. -/
def Event.apply (records : BytesN 65 → Option I128) : Event → BytesN 65 → Option I128
  | utxo k .create a => Function.update records k (some a)
  | utxo k .spend _ => Function.update records k (some 0)
  | bundle _ _ _ _ => records

/-- The records that a reader of the log alone arrives at. -/
def replayUtxos (events : List Event) : BytesN 65 → Option I128 :=
  events.foldl Event.apply fun _ => none

/-- What an event says about `k`. -/
def Event.about (k : BytesN 65) : Event → Option (UtxoAction × I128)
  | utxo j action a => if j = k then some (action, a) else none
  | bundle _ _ _ _ => none

/-- The events of the log that are about `k`. -/
def utxoHistory (k : BytesN 65) (events : List Event) : List (UtxoAction × I128) :=
  events.filterMap (Event.about k)

def Event.spentAmount : Event → Option ℤ
  | utxo _ .spend a => some a.toInt
  | _ => none

def spentAmounts (events : List Event) : List ℤ := events.filterMap Event.spentAmount

/-- One record written and the event that reports it. -/
inductive UtxoStep (H : Host Digest) (s s' : UtxoState Digest) (k : BytesN 65) (a : I128) :
    UtxoAction → Prop
  | create (hpos : 0 < a.toInt) (hget : s.store.get (Store.utxoKey H k) = none)
      (hset : ∀ j, s'.store.get j = if j = Store.utxoKey H k then some a else s.store.get j)
      (hlog : s'.events = s.events ++ [.utxo k .create a]) : UtxoStep H s s' k a .create
  | spend (hpos : 0 < a.toInt) (hget : s.store.get (Store.utxoKey H k) = some a)
      (hset : ∀ j, s'.store.get j = if j = Store.utxoKey H k then some 0 else s.store.get j)
      (hlog : s'.events = s.events ++ [.utxo k .spend a]) : UtxoStep H s s' k a .spend

variable {H : Host Digest} {F : Features} {now : U32} {s s' : UtxoState Digest} {k : BytesN 65}
  {a : I128}

theorem UtxoState.create_ok (h : s.create H eventsOn now a k = .ok s') :
    UtxoStep H s s' k a .create := by
  simp only [create, verifyUtxoNotExists, uncheckedCreate, bind_eq_ok, pure_eq_ok] at h
  obtain ⟨_, ⟨-, -, rfl⟩, -, -, st, hcreate, rfl⟩ := h
  obtain ⟨hpos, hget, hset, -⟩ := Store.create_ok hcreate
  simp only [Store.get_balance] at hget hset
  exact .create hpos hget (by simpa using hset) rfl

theorem UtxoState.spend_ok (h : s.spend H eventsOn now k = .ok (a, s')) :
    UtxoStep H s s' k a .spend := by
  simp only [spend, verifyUtxoUnspent, uncheckedSpend, bind_eq_ok, pure_eq_ok,
    unspentAmount_eq_ok, Prod.mk.injEq] at h
  obtain ⟨_, ⟨amount, ⟨-, hamount⟩, rfl⟩, _, ⟨⟨b, st⟩, hspend, rfl⟩, rfl, rfl⟩ := h
  obtain ⟨hpos, hget, hset, -⟩ := Store.spend_ok hspend
  simp only [Store.get_balance] at hget hset
  rw [Store.balance_fst, hget, Option.getD_some] at hamount
  subst hamount
  exact .spend hpos hget (by simpa using hset) rfl

theorem spendStep_eq (acc : UtxoState Digest × I128) :
    spendStep H F now acc k = (do
      let spent ← acc.1.spend H F now k
      let total ← acc.2.add spent.1
      pure (spent.2, total)) := by
  simp only [spendStep, UtxoState.spend, UtxoState.verifyUtxoUnspent, UtxoState.uncheckedSpend,
    bind_assoc, pure_bind]

theorem createStep_eq (acc : UtxoState Digest × I128) (entry : BytesN 65 × I128) :
    createStep H F now acc entry = (do
      let created ← acc.1.create H F now entry.2 entry.1
      let total ← acc.2.sub entry.2
      pure (created, total)) := by
  simp only [createStep, UtxoState.create, UtxoState.verifyUtxoNotExists,
    UtxoState.uncheckedCreate, bind_assoc, pure_bind]

/-- The events of a key, next to its record. -/
inductive KeyHistory : List (UtxoAction × I128) → Option I128 → Prop
  | missing : KeyHistory [] none
  | unspent (a : I128) (ha : 0 < a.toInt) : KeyHistory [(.create, a)] (some a)
  | spent (a : I128) (ha : 0 < a.toInt) : KeyHistory [(.create, a), (.spend, a)] (some 0)

theorem KeyHistory.shape {l : List (UtxoAction × I128)} {r : Option I128} (h : KeyHistory l r) :
    l = [] ∨ ∃ a : I128, 0 < a.toInt ∧ (l = [(.create, a)] ∨ l = [(.create, a), (.spend, a)]) := by
  cases h with
  | missing => exact .inl rfl
  | unspent a ha => exact .inr ⟨a, ha, .inl rfl⟩
  | spent a ha => exact .inr ⟨a, ha, .inr rfl⟩

structure Journaled (H : Host Digest) (s : UtxoState Digest) : Prop where
  replay : ∀ k, replayUtxos s.events k = s.store.get (Store.utxoKey H k)
  keyed : ∀ d a, s.store.get d = some a → ∃ k, Store.utxoKey H k = d
  history : ∀ k, KeyHistory (utxoHistory k s.events) (s.store.get (Store.utxoKey H k))

theorem Journaled.empty (auth : Option Address) :
    Journaled H (⟨∅, auth, []⟩ : UtxoState Digest) := by
  refine ⟨fun _ => rfl, ?_, fun _ => .missing⟩
  intro d a h
  simp [Store.get] at h

theorem replayUtxos_append (events : List Event) (e : Event) :
    replayUtxos (events ++ [e]) = e.apply (replayUtxos events) := by
  rw [replayUtxos, List.foldl_append]
  rfl

theorem utxoHistory_append (events : List Event) (j : BytesN 65) (action : UtxoAction) :
    utxoHistory j (events ++ [.utxo k action a]) =
      if j = k then utxoHistory j events ++ [(action, a)] else utxoHistory j events := by
  rw [utxoHistory, List.filterMap_append]
  split_ifs with h
  · simp [utxoHistory, Event.about, h]
  · simp [utxoHistory, Event.about, Ne.symm h]

theorem Journaled.bundle (h : Journaled H s) (hstore : s'.store = s.store)
    {spend : List (BytesN 65)} {create : List (BytesN 65 × I128)} {deposited withdrawn : I128}
    (hlog : s'.events = s.events ++ [.bundle spend create deposited withdrawn]) :
    Journaled H s' := by
  refine ⟨?_, ?_, ?_⟩
  · intro k
    rw [hlog, replayUtxos_append, hstore, ← h.replay k]
    rfl
  · rw [hstore]
    exact h.keyed
  · intro k
    rw [hlog, hstore, utxoHistory, List.filterMap_append, List.filterMap_cons_none rfl,
      List.filterMap_nil, List.append_nil]
    exact h.history k

/-- One record written under an event that replays to the same record. Only the
history of the key is left to show. -/
theorem Journaled.write {action : UtxoAction} {r : I128} (hsep : H.SeparatesKeys)
    (hs : Journaled H s)
    (hset : ∀ j, s'.store.get j = if j = Store.utxoKey H k then some r else s.store.get j)
    (hlog : s'.events = s.events ++ [.utxo k action a])
    (happly : ∀ records, Event.apply records (.utxo k action a) =
      Function.update records k (some r))
    (hhistory : KeyHistory (utxoHistory k s.events ++ [(action, a)]) (some r)) :
    Journaled H s' := by
  -- an event names a key, the store a digest: with injective hashing they agree
  have hkey (j : BytesN 65) : Store.utxoKey H j = Store.utxoKey H k ↔ j = k :=
    ⟨fun he => hsep j k he, fun he => he ▸ rfl⟩
  refine ⟨?_, ?_, ?_⟩
  · intro j
    simp only [hlog, replayUtxos_append, happly, Function.update_apply, hset, hkey, hs.replay]
  · intro d b hd
    rw [hset] at hd
    split_ifs at hd with he
    · exact ⟨k, he.symm⟩
    · exact hs.keyed d b hd
  · intro j
    rw [hlog, utxoHistory_append, hset, if_congr (hkey j) rfl rfl]
    split_ifs with hj
    · rw [hj]
      exact hhistory
    · exact hs.history j

theorem UtxoStep.journaled {action : UtxoAction} (hsep : H.SeparatesKeys)
    (h : UtxoStep H s s' k a action) (hs : Journaled H s) : Journaled H s' := by
  have hhistory := hs.history k
  generalize hl : utxoHistory k s.events = l at hhistory
  cases h with
  | create hpos hget hset hlog =>
    apply hs.write hsep hset hlog fun _ => rfl
    rw [hget] at hhistory
    cases hhistory
    rw [hl]
    exact .unspent a hpos
  | spend hpos hget hset hlog =>
    apply hs.write hsep hset hlog fun _ => rfl
    rw [hget] at hhistory
    cases hhistory with
    | unspent _ _ =>
      rw [hl]
      exact .spent a hpos
    | spent _ _ =>
      -- a tombstone has nothing left to spend
      exact absurd hpos (by simp)

/-- What a bundle leaves in the log balances what it says. -/
def Balanced (new : List Event) : Prop :=
  ∀ spend create deposited withdrawn, .bundle spend create deposited withdrawn ∈ new →
    deposited.toInt + (spentAmounts new).sum =
      withdrawn.toInt + (create.map fun p => p.2.toInt).sum

theorem spentAmounts_append (l r : List Event) :
    spentAmounts (l ++ r) = spentAmounts l ++ spentAmounts r := List.filterMap_append

def OnlyUtxoEvents (new : List Event) : Prop := ∀ e ∈ new, ∃ k action a, e = .utxo k action a

theorem OnlyUtxoEvents.append {new : List Event} (h : OnlyUtxoEvents new) (k : BytesN 65)
    (action : UtxoAction) (a : I128) : OnlyUtxoEvents (new ++ [.utxo k action a]) := by
  intro e he
  rcases List.mem_append.mp he with he | he
  · exact h e he
  · exact ⟨k, action, a, List.mem_singleton.mp he⟩

theorem OnlyUtxoEvents.balanced {new : List Event} (h : OnlyUtxoEvents new) : Balanced new := by
  intro spend create deposited withdrawn hmem
  obtain ⟨k, action, a, he⟩ := h _ hmem
  cases he

theorem UtxoStep.events {action : UtxoAction} (h : UtxoStep H s s' k a action) :
    s'.events = s.events ++ [.utxo k action a] := by
  cases h with
  | create _ _ _ hlog => exact hlog
  | spend _ _ _ hlog => exact hlog

section Loops

variable {acc acc' : UtxoState Digest × I128} {t t' : I128}

theorem spendStep_utxo (h : spendStep H eventsOn now acc k = .ok acc') :
    ∃ a, UtxoStep H acc.1 acc'.1 k a .spend ∧ acc'.2.toInt = acc.2.toInt + a.toInt := by
  simp only [spendStep_eq, bind_eq_ok, pure_eq_ok, I128.add_eq_ok] at h
  obtain ⟨⟨a, s⟩, hspend, total, htotal, rfl⟩ := h
  exact ⟨a, UtxoState.spend_ok hspend, htotal⟩

theorem createStep_utxo {entry : BytesN 65 × I128}
    (h : createStep H eventsOn now acc entry = .ok acc') :
    UtxoStep H acc.1 acc'.1 entry.1 entry.2 .create := by
  simp only [createStep_eq, bind_eq_ok, pure_eq_ok] at h
  obtain ⟨s, hcreate, total, -, rfl⟩ := h
  exact UtxoState.create_ok hcreate

theorem spendLoop_events {us : List (BytesN 65)}
    (h : us.foldlM (spendStep H eventsOn now) (s, t) = .ok (s', t')) :
    ∃ new, s'.events = s.events ++ new ∧ OnlyUtxoEvents new ∧
      t'.toInt = t.toInt + (spentAmounts new).sum := by
  refine foldlM_invariant (I := fun acc : UtxoState Digest × I128 => ∃ new,
    acc.1.events = s.events ++ new ∧ OnlyUtxoEvents new ∧
      acc.2.toInt = t.toInt + (spentAmounts new).sum) ?_ ?_ h
  · rintro acc acc' u - ⟨new, hlog, honly, hsum⟩ hstep
    -- the amount in the event is the one that joins the running balance
    obtain ⟨a, hu, htotal⟩ := spendStep_utxo hstep
    refine ⟨new ++ [.utxo u .spend a], ?_, honly.append u .spend a, ?_⟩
    · rw [hu.events, hlog, List.append_assoc]
    · have hlast : spentAmounts [.utxo u .spend a] = [a.toInt] := rfl
      rw [htotal, hsum, spentAmounts_append, hlast, List.sum_append, List.sum_singleton, add_assoc]
  · exact ⟨[], by simp, by simp [OnlyUtxoEvents], by simp [spentAmounts]⟩

theorem createLoop_events {ps : List (BytesN 65 × I128)}
    (h : ps.foldlM (createStep H eventsOn now) (s, t) = .ok (s', t')) :
    ∃ new, s'.events = s.events ++ new ∧ OnlyUtxoEvents new ∧ spentAmounts new = [] := by
  refine foldlM_invariant (I := fun acc : UtxoState Digest × I128 => ∃ new,
    acc.1.events = s.events ++ new ∧ OnlyUtxoEvents new ∧ spentAmounts new = []) ?_ ?_ h
  · rintro acc acc' p - ⟨new, hlog, honly, hnone⟩ hstep
    have hp := createStep_utxo hstep
    refine ⟨new ++ [.utxo p.1 .create p.2], ?_, honly.append p.1 .create p.2, ?_⟩
    · rw [hp.events, hlog, List.append_assoc]
    · rw [spentAmounts_append, hnone]
      rfl
  · exact ⟨[], by simp, by simp [OnlyUtxoEvents], rfl⟩

theorem loops_journaled (hsep : H.SeparatesKeys) {us : List (BytesN 65)}
    {ps : List (BytesN 65 × I128)} (hs : Journaled H acc.1)
    (hspend : us.foldlM (spendStep H eventsOn now) acc = .ok acc') {acc'' : UtxoState Digest × I128}
    (hcreate : ps.foldlM (createStep H eventsOn now) acc' = .ok acc'') : Journaled H acc''.1 := by
  apply foldlM_invariant (I := fun acc : UtxoState Digest × I128 => Journaled H acc.1) _ _ hcreate
  · intro acc acc' p _ hacc hstep
    exact (createStep_utxo hstep).journaled hsep hacc
  · apply foldlM_invariant (I := fun acc : UtxoState Digest × I128 => Journaled H acc.1) _ hs hspend
    intro acc acc' u _ hacc hstep
    obtain ⟨a, hu, -⟩ := spendStep_utxo hstep
    exact hu.journaled hsep hacc

end Loops

theorem processBundle_journaled (hsep : H.SeparatesKeys) {requireAuth : RequireAuth}
    {b : InternalBundle} {incoming outgoing r : I128} (hs : Journaled H s)
    (h : processBundle H eventsOn now requireAuth s b incoming outgoing = .ok (r, s')) :
    Journaled H s' ∧ ∃ new, s'.events = s.events ++ new ∧ Balanced new := by
  simp only [processBundle, bind_eq_ok, pure_eq_ok, assertWithError_eq_ok, Prod.mk.injEq] at h
  obtain ⟨-, -, -, -, a, -, -, -, ⟨sm, tm⟩, hspend, ⟨sc, tc⟩, hcreate, -, hout, -, rfl⟩ := h
  obtain ⟨new₁, hlog₁, honly₁, hsum₁⟩ := spendLoop_events hspend
  obtain ⟨new₂, hlog₂, honly₂, hnone₂⟩ := createLoop_events hcreate
  obtain ⟨-, hsum₂, -, -⟩ := createLoop_ok hcreate
  refine ⟨(loops_journaled hsep hs hspend hcreate).bundle rfl rfl,
    new₁ ++ new₂ ++ [.bundle b.spend b.create incoming outgoing], ?_, ?_⟩
  · show sc.events ++ [.bundle b.spend b.create incoming outgoing] = _
    simp only [hlog₂, hlog₁, List.append_assoc]
  · intro spend create deposited withdrawn hmem
    have honly : OnlyUtxoEvents (new₁ ++ new₂) := by
      intro e he
      exact (List.mem_append.mp he).elim (honly₁ e) (honly₂ e)
    -- the loops publish no bundle event, so it is the one at the end
    obtain ⟨rfl, rfl, rfl, rfl⟩ : spend = b.spend ∧ create = b.create ∧ deposited = incoming ∧
        withdrawn = outgoing := by
      rcases List.mem_append.mp hmem with hmem | hmem
      · obtain ⟨_, _, _, he⟩ := honly _ hmem
        cases he
      · simpa using hmem
    have hspent : spentAmounts (new₁ ++ new₂ ++ [.bundle b.spend b.create deposited withdrawn]) =
        spentAmounts new₁ := by
      rw [spentAmounts_append, spentAmounts_append, hnone₂, List.append_nil]
      exact List.append_nil _
    simp only at hout
    rw [hspent, ← hout, hsum₂]
    omega

theorem UtxoStep.call {action : UtxoAction} (hsep : H.SeparatesKeys) (hs : Journaled H s)
    (h : UtxoStep H s s' k a action) :
    Journaled H s' ∧ ∃ new, s'.events = s.events ++ new ∧ Balanced new := by
  refine ⟨h.journaled hsep hs, _, h.events, ?_⟩
  have hnil : OnlyUtxoEvents [] := by simp [OnlyUtxoEvents]
  exact (hnil.append k action a).balanced

theorem UtxoCall.journaled {c : UtxoCall} (hsep : H.SeparatesKeys) (hs : Journaled H s)
    (h : c.exec H s = .ok s') :
    Journaled H s' ∧ ∃ new, s'.events = s.events ++ new ∧ Balanced new := by
  unfold UtxoCall.exec at h
  cases hc : c.operation with
  | processBundle bundle incoming outgoing =>
    simp only [hc, bind_eq_ok, pure_eq_ok] at h
    obtain ⟨⟨r, _⟩, h, rfl⟩ := h
    exact processBundle_journaled hsep hs h
  | create amount utxo =>
    simp only [hc] at h
    exact (UtxoState.create_ok h).call hsep hs
  | spend utxo =>
    simp only [hc, bind_eq_ok, pure_eq_ok] at h
    obtain ⟨⟨amount, _⟩, h, rfl⟩ := h
    exact (UtxoState.spend_ok h).call hsep hs

theorem Journaled.stateAt (hsep : H.SeparatesKeys) (auth : Option Address) (calls : List UtxoCall)
    (i : ℕ) : Journaled H (stateAt (UtxoCall.exec H) ⟨∅, auth, []⟩ calls i) := by
  apply run_invariant
  · intro s s' c _ hs h
    exact (UtxoCall.journaled hsep hs h).1
  · exact .empty auth

/-- The UTXO log is a faithful journal. After every call of every run from an
empty store the log replays to exactly the records of the store; a key has
nothing in the log, or its creation, or its creation and then the spend of that
amount; and every bundle event balances with the spend events of its call. -/
theorem utxo_log_faithful (hsep : H.SeparatesKeys) (auth : Option Address)
    (calls : List UtxoCall) :
    let s := stateAt (UtxoCall.exec H) ⟨∅, auth, []⟩ calls
    (∀ i, (∀ k, replayUtxos (s i).events k = (s i).store.get (Store.utxoKey H k)) ∧
      ∀ d a, (s i).store.get d = some a → ∃ k, Store.utxoKey H k = d) ∧
    (∀ i k, utxoHistory k (s i).events = [] ∨ ∃ a : I128, 0 < a.toInt ∧
      (utxoHistory k (s i).events = [(.create, a)] ∨
        utxoHistory k (s i).events = [(.create, a), (.spend, a)])) ∧
    (s 0).events = [] ∧
    ∀ i, ∃ new, (s (i + 1)).events = (s i).events ++ new ∧
      ∀ spend create deposited withdrawn, .bundle spend create deposited withdrawn ∈ new →
        deposited.toInt + (spentAmounts new).sum =
          withdrawn.toInt + (create.map fun p => p.2.toInt).sum := by
  intro s
  have hs (i : ℕ) : Journaled H (s i) := Journaled.stateAt hsep auth calls i
  refine ⟨fun i => ⟨(hs i).replay, (hs i).keyed⟩, ?_, rfl, ?_⟩
  · intro i k
    exact ((hs i).history k).shape
  · intro i
    -- a call that fails, or none at all, leaves the log as it was
    apply stateAt_succ_cases (I := fun t : UtxoState Digest =>
      ∃ new, t.events = (s i).events ++ new ∧ Balanced new)
    · exact ⟨[], (List.append_nil _).symm, fun _ _ _ _ h => by cases h⟩
    · intro c s' h
      exact (UtxoCall.journaled hsep (hs i) h.2).2

def sampleUtxoCalls : List UtxoCall :=
  [⟨100, fun _ _ => true, .create (.ofByte 100) (sampleKey 1)⟩,
    ⟨100, fun _ _ => true, .processBundle
      ⟨[sampleKey 1], [(sampleKey 2, .ofByte 60)], calculateAuthRequirements sampleSigned⟩
      (.ofByte 0) (.ofByte 40)⟩,
    ⟨101, fun _ _ => true, .spend (sampleKey 1)⟩]

theorem utxo_log_sampleUtxoCalls :
    let H := sampleHost []
    let s := stateAt (UtxoCall.exec H) ⟨∅, some (sampleContract 2), []⟩ sampleUtxoCalls
    (s 3).events = [.utxo (sampleKey 1) .create (.ofByte 100),
        .utxo (sampleKey 1) .spend (.ofByte 100), .utxo (sampleKey 2) .create (.ofByte 60),
        .bundle [sampleKey 1] [(sampleKey 2, .ofByte 60)] (.ofByte 0) (.ofByte 40)] ∧
      ∀ k, replayUtxos (s 3).events k = (s 3).store.get (Store.utxoKey H k) := by
  intro H s
  refine ⟨by decide +kernel, ?_⟩
  exact ((utxo_log_faithful (idealHost_separatesKeys _ _) (some (sampleContract 2))
    sampleUtxoCalls).1 3).1

end Moonlight
