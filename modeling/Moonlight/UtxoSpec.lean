import Moonlight.Ledger
import Moonlight.UtxoCore
import Moonlight.Foundations.Sums

namespace Moonlight
open Foundations

variable {Digest : Type} [DecidableEq Digest]

/-- The abstract ledger a store holds. -/
def Store.ledger (st : Store Digest) : Ledger Digest := fun d => (st.get d).map I128.toInt

/-- The number `utxo_balance` reports for a key, as an integer. -/
def Store.value (H : Host Digest) (st : Store Digest) (utxo : BytesN 65) : ℤ :=
  (st.ledger (Store.utxoKey H utxo)).getD (-1)

/-- A bundle over keys, as the abstract bundle over their digests. -/
def digestBundle (H : Host Digest) (spend : List (BytesN 65)) (create : List (BytesN 65 × I128)) :
    Bundle Digest :=
  ⟨spend.map (Store.utxoKey H), create.map fun p => (Store.utxoKey H p.1, p.2.toInt)⟩

variable {H : Host Digest} {F : Features} {now : U32}

theorem utxoBalance_toInt (s : UtxoState Digest) (utxo : BytesN 65) :
    (utxoBalance H now s utxo).1.toInt = s.store.value H utxo := by
  rw [utxoBalance, Store.balance_fst, Store.value, Store.ledger]
  cases s.store.get (Store.utxoKey H utxo) <;> rfl

theorem Store.ledger_update {st st' : Store Digest} {k : Digest} {a : I128}
    (h : ∀ j, st'.get j = if j = k then some a else st.get j) (j : Digest) :
    st'.ledger j = if j = k then some a.toInt else st.ledger j := by
  rw [ledger, h, ledger]
  split_ifs <;> rfl

theorem Store.amount_nonneg {st : Store Digest} (h : ∀ d a, st.ledger d = some a → 0 ≤ a)
    (d : Digest) (e : Entry) (he : st.lookup d = some e) : 0 ≤ e.amount.toInt := by
  apply h d
  simp [Store.ledger, Store.get, he]

theorem Store.total_nonneg {st : Store Digest} (h : ∀ d a, st.ledger d = some a → 0 ≤ a) :
    0 ≤ st.total := Foundations.total_nonneg (Store.amount_nonneg h)

theorem Store.le_total {st : Store Digest} (hst : ∀ d a, st.ledger d = some a → 0 ≤ a) {d : Digest}
    {x : ℤ} (h : st.ledger d = some x) : x ≤ st.total := by
  obtain ⟨e, he, rfl⟩ : ∃ e, st.lookup d = some e ∧ e.amount.toInt = x := by
    simpa [Store.ledger, Store.get] using h
  exact Foundations.le_total (Store.amount_nonneg hst) he

theorem Store.value_of_ledger {st : Store Digest} {u : BytesN 65} {x : ℤ}
    (h : st.ledger (Store.utxoKey H u) = some x) : st.value H u = x := by
  rw [Store.value, h]
  rfl

theorem Store.nonneg_update {st st' : Store Digest} {k : Digest} {a : I128}
    (hst : ∀ d x, st.ledger d = some x → 0 ≤ x) (ha : 0 ≤ a.toInt)
    (h : ∀ j, st'.get j = if j = k then some a else st.get j) (d : Digest) (x : ℤ)
    (hx : st'.ledger d = some x) : 0 ≤ x := by
  rw [Store.ledger_update h] at hx
  split_ifs at hx with hd
  · rwa [← Option.some.inj hx]
  · exact hst d x hx

theorem unspentAmount_eq_ok {b a : I128} : unspentAmount b = .ok a ↔ 0 < b.toInt ∧ a = b := by
  unfold unspentAmount
  split_ifs with h₁ h₂
  · simp [h₁, eq_comm]
  · simp [h₁]
  · simp [h₁]

omit [DecidableEq Digest] in
@[simp] theorem publishUtxo_store (s : UtxoState Digest) (k : BytesN 65) (x : UtxoAction)
    (a : I128) : (s.publishUtxo F k x a).store = s.store := by
  unfold UtxoState.publishUtxo
  split_ifs <;> rfl

omit [DecidableEq Digest] in
@[simp] theorem publishUtxo_auth (s : UtxoState Digest) (k : BytesN 65) (x : UtxoAction)
    (a : I128) : (s.publishUtxo F k x a).auth = s.auth := by
  unfold UtxoState.publishUtxo
  split_ifs <;> rfl

omit [DecidableEq Digest] in
@[simp] theorem publishBundle_store (s : UtxoState Digest) (b : InternalBundle)
    (incoming outgoing : I128) : (s.publishBundle F b incoming outgoing).store = s.store := by
  unfold UtxoState.publishBundle
  split_ifs <;> rfl

omit [DecidableEq Digest] in
@[simp] theorem publishBundle_auth (s : UtxoState Digest) (b : InternalBundle)
    (incoming outgoing : I128) : (s.publishBundle F b incoming outgoing).auth = s.auth := by
  unfold UtxoState.publishBundle
  split_ifs <;> rfl

section Steps

variable {acc acc' : UtxoState Digest × I128}

/-- One spend: a positive record becomes a tombstone and its amount joins the
running balance. -/
theorem spendStep_ok {u : BytesN 65} (h : spendStep H F now acc u = .ok acc') :
    ∃ a : I128, 0 < a.toInt ∧ acc.1.store.get (Store.utxoKey H u) = some a ∧
      (∀ j, acc'.1.store.get j = if j = Store.utxoKey H u then some 0 else acc.1.store.get j) ∧
      acc'.1.store.total = acc.1.store.total - a.toInt ∧
      acc'.2.toInt = acc.2.toInt + a.toInt ∧ acc'.1.auth = acc.1.auth := by
  simp only [spendStep, bind_eq_ok, pure_eq_ok, unspentAmount_eq_ok, I128.add_eq_ok] at h
  obtain ⟨amount, ⟨-, hamount⟩, ⟨a, st⟩, hspend, total, htotal, rfl⟩ := h
  obtain ⟨hpos, hget, hframe, hsum⟩ := Store.spend_ok hspend
  rw [Store.get_balance] at hget
  rw [Store.balance_fst, hget, Option.getD_some] at hamount
  subst hamount
  refine ⟨amount, hpos, hget, ?_, ?_, htotal, ?_⟩
  · intro j
    rw [publishUtxo_store, hframe, Store.get_balance]
  · rw [publishUtxo_store, hsum, Store.total_balance]
  · rw [publishUtxo_auth]

theorem createStep_ok {p : BytesN 65 × I128} (h : createStep H F now acc p = .ok acc') :
    0 < p.2.toInt ∧ acc.1.store.get (Store.utxoKey H p.1) = none ∧
      (∀ j, acc'.1.store.get j =
        if j = Store.utxoKey H p.1 then some p.2 else acc.1.store.get j) ∧
      acc'.1.store.total = acc.1.store.total + p.2.toInt ∧
      acc'.2.toInt = acc.2.toInt - p.2.toInt ∧ acc'.1.auth = acc.1.auth := by
  simp only [createStep, bind_eq_ok, pure_eq_ok, assertWithError_eq_ok, I128.sub_eq_ok] at h
  obtain ⟨-, -, -, -, st, hcreate, total, htotal, rfl⟩ := h
  obtain ⟨hpos, hget, hframe, hsum⟩ := Store.create_ok hcreate
  rw [Store.get_balance] at hget
  refine ⟨hpos, hget, ?_, ?_, htotal, ?_⟩
  · intro j
    rw [publishUtxo_store, hframe, Store.get_balance]
  · rw [publishUtxo_store, hsum, Store.total_balance]
  · rw [publishUtxo_auth]

end Steps

variable {s s' : UtxoState Digest} {t t' : I128}

/-- The spend loop applies the spends to the ledger and adds up what they held
before the loop. -/
theorem spendLoop_ok {us : List (BytesN 65)}
    (h : us.foldlM (spendStep H F now) (s, t) = .ok (s', t')) :
    (digestBundle H us []).Applies s.store.ledger s'.store.ledger ∧
      t'.toInt = t.toInt + (us.map (s.store.value H)).sum ∧
      s'.store.total = s.store.total - (us.map (s.store.value H)).sum ∧ s'.auth = s.auth := by
  induction us generalizing s t with
  | nil =>
    simp only [List.foldlM_nil, pure_eq_ok, Prod.mk.injEq] at h
    obtain ⟨rfl, rfl⟩ := h
    exact ⟨Bundle.applies_nil fun _ => rfl, by simp, by simp, rfl⟩
  | cons u us ih =>
    obtain ⟨⟨m, tm⟩, hstep, hrest⟩ := foldlM_cons_ok.mp h
    obtain ⟨a, hpos, hget, hframe, htotal, hbal, hauth⟩ := spendStep_ok hstep
    obtain ⟨happ, hsum, hstore, hauth'⟩ := ih hrest
    have hled := Store.ledger_update hframe
    have hu : s.store.ledger (Store.utxoKey H u) = some a.toInt := by rw [Store.ledger, hget]; rfl
    have hval : s.store.value H u = a.toInt := Store.value_of_ledger hu
    -- the tombstone of `u` keeps its digest out of the rest of the list
    have hsame : us.map (m.store.value H) = us.map (s.store.value H) := by
      apply List.map_congr_left
      intro v hv
      obtain ⟨b, hb, hmb⟩ := happ.unspent _ (List.mem_map_of_mem hv)
      have hne : Store.utxoKey H v ≠ Store.utxoKey H u := by
        intro he
        rw [hled, if_pos he, Option.some.injEq, I128.toInt_zero] at hmb
        omega
      rw [Store.value, hled, if_neg hne, Store.value]
    rw [hsame] at hsum hstore
    refine ⟨Bundle.applies_spend_cons hpos hu hled happ, ?_, ?_, hauth'.trans hauth⟩
    · rw [hsum, hbal, List.map_cons, List.sum_cons, hval]
      ring
    · rw [hstore, htotal, List.map_cons, List.sum_cons, hval]
      ring

theorem createLoop_ok {ps : List (BytesN 65 × I128)}
    (h : ps.foldlM (createStep H F now) (s, t) = .ok (s', t')) :
    (digestBundle H [] ps).Applies s.store.ledger s'.store.ledger ∧
      t'.toInt = t.toInt - (ps.map fun p => p.2.toInt).sum ∧
      s'.store.total = s.store.total + (ps.map fun p => p.2.toInt).sum ∧ s'.auth = s.auth := by
  induction ps generalizing s t with
  | nil =>
    simp only [List.foldlM_nil, pure_eq_ok, Prod.mk.injEq] at h
    obtain ⟨rfl, rfl⟩ := h
    exact ⟨Bundle.applies_nil fun _ => rfl, by simp, by simp, rfl⟩
  | cons p ps ih =>
    obtain ⟨⟨m, tm⟩, hstep, hrest⟩ := foldlM_cons_ok.mp h
    obtain ⟨hpos, hget, hframe, htotal, hbal, hauth⟩ := createStep_ok hstep
    obtain ⟨happ, hsum, hstore, hauth'⟩ := ih hrest
    have hnone : s.store.ledger (Store.utxoKey H p.1) = none := by rw [Store.ledger, hget]; rfl
    refine ⟨Bundle.applies_create_cons hpos hnone (Store.ledger_update hframe) happ, ?_, ?_,
      hauth'.trans hauth⟩
    · rw [hsum, hbal, List.map_cons, List.sum_cons]
      ring
    · rw [hstore, htotal, List.map_cons, List.sum_cons]
      ring

/-- Everything a successful `process_bundle` has checked and done. -/
structure BundleProcessed (H : Host Digest) (requireAuth : RequireAuth) (s s' : UtxoState Digest)
    (b : InternalBundle) (incoming outgoing : ℤ) : Prop where
  spend_nodup : b.spend.Nodup
  create_nodup : (b.create.map Prod.fst).Nodup
  authorized : ∃ a, s.auth = some a ∧ requireAuth a (authArgs b.req) = true
  applies : (digestBundle H b.spend b.create).Applies s.store.ledger s'.store.ledger
  balanced : incoming + (b.spend.map (s.store.value H)).sum =
    (b.create.map fun p => p.2.toInt).sum + outgoing
  total : s'.store.total = s.store.total + incoming - outgoing
  auth : s'.auth = s.auth

theorem processBundle_ok {requireAuth : RequireAuth} {b : InternalBundle}
    {incoming outgoing r : I128}
    (h : processBundle H F now requireAuth s b incoming outgoing = .ok (r, s')) :
    BundleProcessed H requireAuth s s' b incoming.toInt outgoing.toInt := by
  simp only [processBundle, bind_eq_ok, pure_eq_ok, assertWithError_eq_ok, ensure_eq_ok,
    okOr_eq_ok, Prod.mk.injEq] at h
  obtain ⟨-, hspend, -, hcreate, a, ha, -, hauth, ⟨sm, tm⟩, hloop₁, ⟨sc, tc⟩, hloop₂, -, hbal, -,
    rfl⟩ := h
  obtain ⟨happ₁, hsum₁, htot₁, hauth₁⟩ := spendLoop_ok hloop₁
  obtain ⟨happ₂, hsum₂, htot₂, hauth₂⟩ := createLoop_ok hloop₂
  have happ := Bundle.applies_spend_create happ₁ happ₂
  simp only at hbal
  subst hbal
  refine ⟨by simpa using noDuplicateKeys_iff.mp hspend, noDuplicateKeys_iff.mp hcreate,
    ⟨a, ha, hauth⟩, ?_, ?_, ?_, ?_⟩
  · show Bundle.Applies _ _ (sc.publishBundle F b incoming tc).store.ledger
    rw [publishBundle_store]
    exact happ
  · omega
  · show (sc.publishBundle F b incoming tc).store.total = _
    rw [publishBundle_store]
    omega
  · show (sc.publishBundle F b incoming tc).auth = _
    rw [publishBundle_auth, hauth₂, hauth₁]

theorem Store.get_of_ledger {st : Store Digest} {d : Digest} {x : ℤ} (h : st.ledger d = some x) :
    ∃ a : I128, st.get d = some a ∧ a.toInt = x := by
  simpa [Store.ledger] using h

theorem spendStep_unspent {u : BytesN 65} {x : ℤ} (hpos : 0 < x)
    (hget : s.store.ledger (Store.utxoKey H u) = some x) {f : Failure} :
    spendStep H F now (s, t) u = .error f ↔
      2 ^ 127 ≤ t.toInt + x ∧ .overflow = f := by
  obtain ⟨a, ha, rfl⟩ := Store.get_of_ledger hget
  have hread : (s.store.balance H now u).1 = a := by rw [Store.balance_fst, ha]; rfl
  have hbal : (s.store.balance H now u).2.get (Store.utxoKey H u) = some a := by
    rw [Store.get_balance, ha]
  obtain ⟨st, hspend⟩ : ∃ st, Store.spend H now _ u = .ok (a, st) := Store.spend_exists hpos hbal
  have hamount : unspentAmount (s.store.balance H now u).1 = .ok a :=
    unspentAmount_eq_ok.mpr ⟨by rwa [hread], hread.symm⟩
  have hlow := t.lower
  rw [spendStep, bind_of_ok hamount, bind_of_ok hspend, bind_eq_error, I128.add_eq_error]
  simp only
  constructor
  · rintro (⟨hout, hf⟩ | ⟨total, -, h⟩)
    · exact ⟨by omega, hf⟩
    · cases h
  · rintro ⟨hout, hf⟩
    exact .inl ⟨.inr hout, hf⟩

/-- The running balance takes from the store what it gains, so it never leaves
the range once the two together are in it. -/
theorem spendStep_exists {u : BytesN 65} {x : ℤ} (hpos : 0 < x)
    (hget : s.store.ledger (Store.utxoKey H u) = some x)
    (hstore : ∀ d x, s.store.ledger d = some x → 0 ≤ x)
    (hfit : t.toInt + s.store.total < 2 ^ 127) :
    ∃ acc', spendStep H F now (s, t) u = .ok acc' := by
  cases hstep : spendStep H F now (s, t) u with
  | ok acc' => exact ⟨acc', rfl⟩
  | error f =>
    have hout := ((spendStep_unspent hpos hget).mp hstep).1
    have hle := Store.le_total hstore hget
    omega

theorem createStep_fresh {p : BytesN 65 × I128} (hpos : 0 < p.2.toInt)
    (hnone : s.store.ledger (Store.utxoKey H p.1) = none) {f : Failure} :
    createStep H F now (s, t) p = .error f ↔
      t.toInt - p.2.toInt < -2 ^ 127 ∧ .overflow = f := by
  have hget : s.store.get (Store.utxoKey H p.1) = none := by simpa [Store.ledger] using hnone
  have hread : (s.store.balance H now p.1).1 = .negOne := by rw [Store.balance_fst, hget]; rfl
  have hbal : (s.store.balance H now p.1).2.get (Store.utxoKey H p.1) = none := by
    rw [Store.get_balance, hget]
  obtain ⟨st, hcreate⟩ : ∃ st, Store.create H now _ p.1 p.2 = .ok st :=
    Store.create_exists hpos hbal
  have hexists : assertWithError ((s.store.balance H now p.1).1 = .negOne) .utxoAlreadyExists =
      .ok () := assertWithError_eq_ok.mpr hread
  have hamount : assertWithError (0 < p.2.toInt) .invalidCreateAmount = .ok () :=
    assertWithError_eq_ok.mpr hpos
  have hup := t.upper
  rw [createStep, bind_of_ok hexists, bind_of_ok hamount, bind_of_ok hcreate, bind_eq_error,
    I128.sub_eq_error]
  simp only
  constructor
  · rintro (⟨hout, hf⟩ | ⟨total, -, h⟩)
    · exact ⟨by omega, hf⟩
    · cases h
  · rintro ⟨hout, hf⟩
    exact .inl ⟨.inl hout, hf⟩

theorem createStep_exists {p : BytesN 65 × I128} (hpos : 0 < p.2.toInt)
    (hnone : s.store.ledger (Store.utxoKey H p.1) = none) (hfit : -2 ^ 127 ≤ t.toInt - p.2.toInt) :
    ∃ acc', createStep H F now (s, t) p = .ok acc' := by
  cases hstep : createStep H F now (s, t) p with
  | ok acc' => exact ⟨acc', rfl⟩
  | error f =>
    have hout := ((createStep_fresh hpos hnone).mp hstep).1
    omega

theorem spendLoop_exists {us : List (BytesN 65)}
    (henabled : (digestBundle H us []).Enabled s.store.ledger)
    (hstore : ∀ d x, s.store.ledger d = some x → 0 ≤ x)
    (hfit : t.toInt + s.store.total < 2 ^ 127) :
    ∃ acc', us.foldlM (spendStep H F now) (s, t) = .ok acc' := by
  refine (foldlM_progress (I := fun us (acc : UtxoState Digest × I128) =>
    (digestBundle H us []).Enabled acc.1.store.ledger ∧
      (∀ d x, acc.1.store.ledger d = some x → 0 ≤ x) ∧
      acc.2.toInt + acc.1.store.total < 2 ^ 127) ?_ ⟨henabled, hstore, hfit⟩).imp fun _ h => h.1
  rintro u us ⟨s, t⟩ ⟨hen, hst, hft⟩
  obtain ⟨x, hx, hget⟩ := hen.unspent (Store.utxoKey H u) (by simp [digestBundle])
  obtain ⟨acc', hstep⟩ : ∃ acc', spendStep H F now (s, t) u = .ok acc' :=
    spendStep_exists hx hget hst hft
  obtain ⟨a, -, -, hframe, htotal, hbal, -⟩ := spendStep_ok hstep
  refine ⟨acc', hstep, hen.spend_tail ?_, Store.nonneg_update hst (a := 0) le_rfl hframe, ?_⟩
  · intro j hj
    rw [Store.ledger_update hframe, if_neg hj]
  · simp only at htotal hbal hft
    omega

theorem createLoop_exists {ps : List (BytesN 65 × I128)}
    (henabled : (digestBundle H [] ps).Enabled s.store.ledger)
    (hfit : -2 ^ 127 ≤ t.toInt - (ps.map fun p => p.2.toInt).sum) :
    ∃ acc', ps.foldlM (createStep H F now) (s, t) = .ok acc' := by
  refine (foldlM_progress (I := fun ps (acc : UtxoState Digest × I128) =>
    (digestBundle H [] ps).Enabled acc.1.store.ledger ∧
      -2 ^ 127 ≤ acc.2.toInt - (ps.map fun p => p.2.toInt).sum) ?_ ⟨henabled, hfit⟩).imp
    fun _ h => h.1
  rintro p ps ⟨s, t⟩ ⟨hen, hft⟩
  have hmem : (Store.utxoKey H p.1, p.2.toInt) ∈ (digestBundle H [] (p :: ps)).create := by
    simp [digestBundle]
  have hpos : 0 < p.2.toInt := hen.positive _ hmem
  have hrest : 0 ≤ (ps.map fun p => p.2.toInt).sum :=
    sum_nonneg_of_pos fun q hq => hen.positive (Store.utxoKey H q.1, q.2.toInt)
      (List.mem_cons_of_mem _ (List.mem_map_of_mem hq))
  simp only [List.map_cons, List.sum_cons] at hft
  obtain ⟨acc', hstep⟩ : ∃ acc', createStep H F now (s, t) p = .ok acc' :=
    createStep_exists hpos (hen.fresh _ hmem) (by omega)
  obtain ⟨-, -, hframe, -, hbal, -⟩ := createStep_ok hstep
  refine ⟨acc', hstep, hen.create_tail ?_, ?_⟩
  · intro j hj
    rw [Store.ledger_update hframe, if_neg hj]
  · simp only at hbal
    omega

theorem processBundle_exists {requireAuth : RequireAuth} {b : InternalBundle}
    {incoming outgoing : I128}
    (henabled : (digestBundle H b.spend b.create).Enabled s.store.ledger)
    (hauth : ∃ a, s.auth = some a ∧ requireAuth a (authArgs b.req) = true)
    (hstore : ∀ d x, s.store.ledger d = some x → 0 ≤ x)
    (hfit : incoming.toInt + s.store.total < 2 ^ 127) (hout : 0 ≤ outgoing.toInt)
    (hbal : incoming.toInt + (b.spend.map (s.store.value H)).sum =
      (b.create.map fun p => p.2.toInt).sum + outgoing.toInt) :
    ∃ r, processBundle H F now requireAuth s b incoming outgoing = .ok r := by
  obtain ⟨a, ha, hreq⟩ := hauth
  have hspend : noDuplicateKeys b.spend id = true := by
    rw [noDuplicateKeys_iff, List.map_id]
    exact henabled.spend_nodup.of_map
  have hcreate : noDuplicateKeys b.create Prod.fst = true := by
    rw [noDuplicateKeys_iff]
    apply List.Nodup.of_map (Store.utxoKey H)
    simpa [digestBundle, Function.comp_def] using henabled.create_nodup
  obtain ⟨⟨sm, tm⟩, hloop₁⟩ :
      ∃ acc, b.spend.foldlM (spendStep H F now) (s, incoming) = .ok acc :=
    spendLoop_exists henabled.spends hstore hfit
  obtain ⟨happ, hsum, -, -⟩ := spendLoop_ok hloop₁
  obtain ⟨⟨sc, tc⟩, hloop₂⟩ :
      ∃ acc, b.create.foldlM (createStep H F now) (sm, tm) = .ok acc :=
    createLoop_exists (henabled.creates happ) (by omega)
  have htc : tc = outgoing := by
    apply I128.toInt_injective
    rw [(createLoop_ok hloop₂).2.1]
    omega
  simp only [processBundle, bind_eq_ok, pure_eq_ok, assertWithError_eq_ok, ensure_eq_ok,
    okOr_eq_ok]
  exact ⟨_, (), hspend, (), hcreate, a, ha, (), hreq, (sm, tm), hloop₁, (sc, tc), hloop₂, (), htc,
    rfl⟩

end Moonlight
