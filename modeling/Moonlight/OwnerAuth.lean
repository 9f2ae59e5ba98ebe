import Moonlight.Payload
import Moonlight.Residual

namespace Moonlight
open Foundations

variable {Digest W : Type} [DecidableEq Digest]

theorem calculateAuthRequirements_lookup {l : List (BytesN 65 × List Condition)}
    (hl : (l.map Prod.fst).Nodup) {s : SignerKey} {cs : List Condition} :
    (calculateAuthRequirements l).lookup s = some cs ↔ ∃ pk, s = .p256 pk ∧ (pk, cs) ∈ l := by
  induction l using List.reverseRecOn with
  | nil => simp [calculateAuthRequirements]
  | append_singleton l e ih =>
    rw [List.map_append, List.nodup_append] at hl
    have hfresh : ∀ ds, (e.1, ds) ∉ l := by
      intro ds hds
      have hkey : e.1 ∈ l.map Prod.fst := List.mem_map.mpr ⟨_, hds, rfl⟩
      exact hl.2.2 e.1 hkey e.1 (by simp) rfl
    have happ : calculateAuthRequirements (l ++ [e]) =
        (calculateAuthRequirements l).insert (.p256 e.1) e.2 := by
      rw [calculateAuthRequirements, List.foldl_append]
      rfl
    rw [happ]
    by_cases hs : s = .p256 e.1
    · subst hs
      rw [Finmap.lookup_insert]
      constructor
      · intro h
        exact ⟨e.1, rfl, by simp [← Option.some.inj h]⟩
      · rintro ⟨pk, hpk, hmem⟩
        obtain rfl := SignerKey.p256.inj hpk
        rcases List.mem_append.mp hmem with hmem | hmem
        · exact absurd hmem (hfresh cs)
        · rw [← List.mem_singleton.mp hmem]
    · rw [Finmap.lookup_insert_of_ne _ hs, ih hl.1]
      refine exists_congr fun pk => and_congr_right fun hpk => ?_
      rw [List.mem_append, List.mem_singleton]
      refine ⟨Or.inl, fun h => h.resolve_right ?_⟩
      rintro rfl
      exact hs hpk

/-- The host grants the auth contract's address only through `__check_auth`,
called with one contract context for the channel. -/
def AuthChecked (H : Host Digest) (inv : Invocation W) (w : World Digest W) (st : ChannelAuth)
    (payload : Digest) (sigs : Signatures) : Prop :=
  ∀ a args, w.channel.utxo.auth = some a → inv.requireAuth a args = true →
    ∃ st', checkAuth H inv.sequence st payload sigs [.contract ⟨w.self, args⟩] = .ok st'

variable {H : Host Digest} {inv : Invocation W} {w w' : World Digest W} {op : ChannelOperation}
  {st : ChannelAuth} {payload : Digest} {sigs : Signatures}

theorem Accepted.spend_nodup (h : Accepted H inv w op w') : (op.spend.map Prod.fst).Nodup :=
  h.bundle.spend_nodup

theorem Accepted.checked (h : Accepted H inv w op w')
    (hauth : AuthChecked H inv w st payload sigs) :
    ∃ st', checkAuth H inv.sequence st payload sigs
      [.contract ⟨w.self, authArgs (calculateAuthRequirements op.spend)⟩] = .ok st' := by
  obtain ⟨a, ha, hreq⟩ := h.bundle.authorized
  exact hauth a _ ha hreq

theorem Accepted.provider_signed (h : Accepted H inv w op w')
    (hauth : AuthChecked H inv w st payload sigs) :
    ∃ pk, ProviderSigned H inv.sequence st payload sigs pk := by
  obtain ⟨⟨pk, hpk⟩, hall, -⟩ := checkAuth_ok.mp (h.checked hauth)
  exact ⟨pk, hall pk hpk⟩

theorem Accepted.owner_signed (h : Accepted H inv w op w')
    (hauth : AuthChecked H inv w st payload sigs) {e : BytesN 65 × List Condition}
    (he : e ∈ op.spend) : e.2 ≠ [] ∧ P256Signed H inv.sequence sigs w.self e.1 e.2 := by
  have hlook : (calculateAuthRequirements op.spend).lookup (.p256 e.1) = some e.2 :=
    (calculateAuthRequirements_lookup h.spend_nodup).mpr ⟨e.1, rfl, he⟩
  have hargs : authArgs (calculateAuthRequirements op.spend) =
      [.requirements (calculateAuthRequirements op.spend)] := by
    apply if_neg
    intro hempty
    rw [hempty, Finmap.lookup_empty] at hlook
    cases hlook
  obtain ⟨-, -, hctx⟩ := checkAuth_ok.mp (h.checked hauth)
  have hcheck := checkContext_ok.mp (hctx _ List.mem_cons_self)
  rw [hargs] at hcheck
  obtain ⟨reqs, hreqs, hsigned⟩ := hcheck _ rfl
  obtain rfl := Option.some.inj hreqs
  obtain ⟨hne, hpk⟩ := hsigned _ _ hlook
  exact ⟨hne, hpk e.1 rfl⟩

theorem Accepted.spent_of_lt (h : Accepted H inv w op w') {k : BytesN 65}
    (hlt : w'.channel.utxo.store.value H k < w.channel.utxo.store.value H k) :
    ∃ e ∈ op.spend, Store.utxoKey H e.1 = Store.utxoKey H k := by
  cases h.bundle.applies.keyStep (Store.utxoKey H k) with
  | untouched hv _ _ =>
    rw [Store.value, Store.value, hv] at hlt
    omega
  | create a ha hv hv' _ _ =>
    rw [Store.value, Store.value, hv, hv'] at hlt
    omega
  | spend _ _ _ hs =>
    obtain ⟨j, hj, hkey⟩ := List.mem_map.mp hs
    obtain ⟨e, he, rfl⟩ := List.mem_map.mp hj
    exact ⟨e, he, hkey⟩

/-- No spend without its owner: a committed call has a registered provider's
signature and, for every spend, the owner's over exactly its conditions. So
where an amount drops, the key of that record has signed in the same call. -/
theorem spend_requires_owner (hauth : AuthChecked H inv w st payload sigs)
    (h : transact H inv w op = .ok w') :
    (∃ pk, ProviderSigned H inv.sequence st payload sigs pk) ∧
      (∀ e ∈ op.spend, e.2 ≠ [] ∧ P256Signed H inv.sequence sigs w.self e.1 e.2) ∧
      ∀ k, w'.channel.utxo.store.value H k < w.channel.utxo.store.value H k →
        ∃ e ∈ op.spend, Store.utxoKey H e.1 = Store.utxoKey H k ∧ (H.SeparatesKeys → e.1 = k) ∧
          P256Signed H inv.sequence sigs w.self e.1 e.2 := by
  have hacc := transact_ok h
  refine ⟨hacc.provider_signed hauth, fun e he => hacc.owner_signed hauth he, ?_⟩
  intro k hlt
  obtain ⟨e, he, hkey⟩ := hacc.spent_of_lt hlt
  exact ⟨e, he, hkey, fun hsep => hsep _ _ hkey, (hacc.owner_signed hauth he).2⟩

theorem sampleCall_checked (signed : List (BytesN 65 × List Condition)) (op : ChannelOperation)
    {w : World Bytes Unit} (hself : w.self = sampleContract 1)
    (hauth : w.channel.utxo.auth = some (sampleContract 2)) :
    AuthChecked (sampleHost signed) (sampleCall signed op).inv w sampleAuth samplePayload
      (sampleSignatures signed) := by
  intro a args ha hreq
  obtain rfl : sampleContract 2 = a := Option.some.inj (hauth.symm.trans ha)
  have hreq' : hostAuth (sampleHost signed) 100 (sampleContract 1) (sampleContract 2) sampleAuth
      samplePayload (sampleSignatures signed) (sampleContract 2) args = true := hreq
  rw [hself]
  exact hostAuth_checks hreq'

theorem spend_requires_owner_sampleSpend :
    ∃ w', transact (sampleHost sampleSigned) (sampleCall sampleSigned sampleSpend).inv sampleFunded
        sampleSpend = .ok w' ∧
      ∀ e ∈ sampleSpend.spend, e.2 ≠ [] ∧
        P256Signed (sampleHost sampleSigned) 100 (sampleSignatures sampleSigned) sampleFunded.self
          e.1 e.2 := by
  obtain ⟨w', h⟩ := sampleSpend_commits
  have hauth := sampleCall_checked sampleSigned sampleSpend (w := sampleFunded)
    (by decide +kernel) (by decide +kernel)
  exact ⟨w', h, (spend_requires_owner hauth h).2.1⟩

/-- SHA-256 separates the strings that `hash_payload` builds. -/
def Host.SeparatesPayloads (H : Host Digest) : Prop :=
  ∀ p q a b, hashPayload H p (H.addressToString a) = hashPayload H q (H.addressToString b) →
    payloadBytes H p (H.addressToString a) = payloadBytes H q (H.addressToString b)

/-- Under `pk` only what its owner signed verifies: the payload `p` for this
channel, and any payloads for other contracts. -/
def SignedOnce (H : Host Digest) (pk : BytesN 65) (self : Address) (p : AuthPayload) : Prop :=
  ∀ d sig, H.secp256r1Verify pk d sig = true →
    d = hashPayload H p (H.addressToString self) ∨
      ∃ other q, other ≠ self ∧ d = hashPayload H q (H.addressToString other)

def SameCounts (cs ds : List Condition) : Prop :=
  (sequences cs).creates.length = (sequences ds).creates.length ∧
    (sequences cs).deposits.length = (sequences ds).deposits.length ∧
    (sequences cs).withdraws.length = (sequences ds).withdraws.length

/-- `cs` has the bytes of the payload `p` for this contract, and yet other
counts. -/
def Misread (H : Host Digest) (self : Address) (p : AuthPayload) (cs : List Condition) : Prop :=
  payloadBytes H ⟨cs, p.liveUntilLedger⟩ (H.addressToString self) =
      payloadBytes H p (H.addressToString self) ∧
    ¬ SameCounts cs p.conditions

theorem mem_creates {cs : List Condition} {u : BytesN 65} {a : I128} :
    (u, a) ∈ (sequences cs).creates ↔ .create u a ∈ cs := by
  rw [sequences, List.mem_filterMap]
  constructor
  · rintro ⟨c, hc, he⟩
    cases c <;> simp [Condition.asCreate] at he
    rwa [he.1, he.2] at hc
  · intro hc
    exact ⟨_, hc, rfl⟩

theorem mem_withdraws {cs : List Condition} {x : Address} {a : I128} :
    (x, a) ∈ (sequences cs).withdraws ↔ .extWithdraw x a ∈ cs := by
  rw [sequences, List.mem_filterMap]
  constructor
  · rintro ⟨c, hc, he⟩
    cases c <;> simp [Condition.asWithdraw] at he
    rwa [he.1, he.2] at hc
  · intro hc
    exact ⟨_, hc, rfl⟩

omit [DecidableEq Digest] in
/-- A signature that verifies for this channel covers the body the owner
signed, whatever list it is presented with. -/
theorem P256Signed.body_eq {now : U32} {self : Address} {pk : BytesN 65} {p : AuthPayload}
    {cs : List Condition} (hH : H.RendersAddresses) (hsha : H.SeparatesPayloads)
    (hsig : SignedOnce H pk self p) (h : P256Signed H now sigs self pk cs) :
    payloadBody H cs = payloadBody H p.conditions := by
  obtain ⟨sig, validUntil, -, -, hverify⟩ := h
  rcases hsig _ _ hverify with heq | ⟨other, q, hne, heq⟩
  · exact (payloadBytes_ends hH (hsha _ _ _ _ heq)).2.1
  · exact absurd (payloadBytes_ends hH (hsha _ _ _ _ heq)).1.symm hne

theorem Accepted.signed_executed (h : Accepted H inv w op w') (hH : H.RendersAddresses)
    (hxdr : Function.Injective H.conditionToXdr) (hsha : H.SeparatesPayloads) {pk : BytesN 65}
    {p : AuthPayload} (hsig : SignedOnce H pk w.self p)
    (hauth : AuthChecked H inv w st payload sigs) {cs : List Condition} (hcs : (pk, cs) ∈ op.spend)
    (hread : ¬ Misread H w.self p cs) :
    (∀ u a, .create u a ∈ p.conditions → (u, a) ∈ op.create) ∧
      ∀ x a, .extWithdraw x a ∈ p.conditions → ∃ ds, (x, a, ds) ∈ op.withdraw := by
  have hbody := (h.owner_signed hauth hcs).2.body_eq hH hsha hsig
  have hcounts : SameCounts cs p.conditions := by
    by_contra hne
    exact hread ⟨by rw [payloadBytes_eq, payloadBytes_eq, hbody], hne⟩
  obtain ⟨hc, hd, hw⟩ := hcounts
  obtain ⟨hcreates, -, hwithdraws, -⟩ := payloadBody_inj hH hc hd hw hbody
  constructor
  · intro u a hu
    rw [← mem_creates, ← hcreates, mem_creates] at hu
    exact ChannelOperation.create_mem_executed.mp (h.pre.spend_executed hxdr hcs hu rfl)
  · intro x a hx
    rw [← mem_withdraws, ← hwithdraws, mem_withdraws] at hx
    exact ChannelOperation.extWithdraw_mem_executed.mp (h.pre.spend_executed hxdr hcs hx rfl)

theorem stateAt_self (w₀ : World Digest W) (calls : List (Call W)) (i : ℕ) :
    (stateAt (Call.exec H) w₀ calls i).self = w₀.self := by
  apply run_invariant (I := fun w : World Digest W => w.self = w₀.self)
  · intro w w' c _ hw h
    exact (transact_ok h).self.trans hw
  · rfl

theorem stateAt_auth (w₀ : World Digest W) (calls : List (Call W)) (i : ℕ) :
    (stateAt (Call.exec H) w₀ calls i).channel.utxo.auth = w₀.channel.utxo.auth := by
  apply run_invariant (I := fun w : World Digest W => w.channel.utxo.auth = w₀.channel.utxo.auth)
  · intro w w' c _ hw h
    exact (transact_ok h).bundle.auth.trans hw
  · rfl

/-- The owner of `pk` has signed one list for the channel. In every run, a call
that spends `pk` and presents no list that misreads the signed one creates every
signed output and pays every signed withdraw. -/
theorem owner_intent_executed (hH : H.RendersAddresses)
    (hxdr : Function.Injective H.conditionToXdr) (hsha : H.SeparatesPayloads) {pk : BytesN 65}
    {p : AuthPayload} (w₀ : World Digest W) (hsig : SignedOnce H pk w₀.self p)
    (calls : List (Call W))
    (hauth : ∀ i c, calls[i]? = some c → ∃ st payload sigs,
      AuthChecked H c.inv (stateAt (Call.exec H) w₀ calls i) st payload sigs)
    {i : ℕ} {c : Call W} {w' : World Digest W} (hi : CommitsAt (Call.exec H) w₀ calls i c w')
    (hspend : pk ∈ c.op.spend.map Prod.fst)
    (hread : ∀ cs, (pk, cs) ∈ c.op.spend → ¬ Misread H w₀.self p cs) :
    (∀ u a, .create u a ∈ p.conditions → (u, a) ∈ c.op.create ∧
      ∀ now, (utxoBalance H now w'.channel.utxo u).1 = a) ∧
    ∀ x a, .extWithdraw x a ∈ p.conditions → (∃ ds, (x, a, ds) ∈ c.op.withdraw) ∧
      ∃ made, w'.transfers = (stateAt (Call.exec H) w₀ calls i).transfers ++ made ∧
        ⟨w₀.self, x, a⟩ ∈ made := by
  have hself := stateAt_self (H := H) w₀ calls i
  have hacc := transact_ok hi.2
  obtain ⟨st, payload, sigs, hchecked⟩ := hauth i c hi.1
  obtain ⟨⟨_, cs⟩, hcs, rfl⟩ := List.mem_map.mp hspend
  have hcalled := hread cs hcs
  rw [← hself] at hsig hcalled
  obtain ⟨hcreate, hwithdraw⟩ := hacc.signed_executed hH hxdr hsha hsig hchecked hcs hcalled
  constructor
  · intro u a hu
    refine ⟨hcreate u a hu, ?_⟩
    exact hacc.created_balance (hcreate u a hu)
  · intro x a hx
    obtain ⟨ds, hds⟩ := hwithdraw x a hx
    refine ⟨⟨ds, hds⟩, _, hacc.transfers, ?_⟩
    rw [← hself]
    exact List.mem_append_right _ (List.mem_map_of_mem hds)

theorem sampleHost_separatesPayloads (signed : List (BytesN 65 × List Condition)) :
    (sampleHost signed).SeparatesPayloads := fun _ _ _ _ h => h

theorem sampleHost_signedOnce (cs : List Condition) :
    SignedOnce (sampleHost [(sampleKey 1, cs)]) (sampleKey 1) (sampleContract 1) ⟨cs, 200⟩ := by
  intro d sig h
  have hmem : (sampleKey 1, d) ∈ [(sampleKey 1,
      payloadBytes (idealHost [] []) ⟨cs, 200⟩ (sampleContract 1).strkey)] := of_decide_eq_true h
  exact .inl (Prod.mk.inj (List.mem_singleton.mp hmem)).2

theorem sampleRun_checked (signed : List (BytesN 65 × List Condition)) (ops : List ChannelOperation)
    (i : ℕ) (c : Call Unit) (hc : (ops.map (sampleCall signed))[i]? = some c) :
    ∃ st payload sigs, AuthChecked (sampleHost signed) c.inv
      (stateAt (Call.exec (sampleHost signed)) (sampleWorld (sampleHost signed) ())
        (ops.map (sampleCall signed)) i) st payload sigs := by
  obtain ⟨op, -, rfl⟩ := List.mem_map.mp (List.mem_of_getElem? hc)
  exact ⟨_, _, _, sampleCall_checked signed op (stateAt_self _ _ i) (stateAt_auth _ _ i)⟩

theorem owner_intent_executed_sampleCalls :
    let H := sampleHost sampleSigned
    ∃ w', CommitsAt (Call.exec H) (sampleWorld H ()) sampleCalls 1
        (sampleCall sampleSigned sampleSpend) w' ∧
      (sampleKey 2, .ofByte 60) ∈ sampleSpend.create ∧
      ∃ ds, (sampleAccount 6, .ofByte 40, ds) ∈ sampleSpend.withdraw := by
  intro H
  obtain ⟨w', h⟩ := sampleSpend_commits
  have hcommit : CommitsAt (Call.exec H) (sampleWorld H ()) sampleCalls 1
      (sampleCall sampleSigned sampleSpend) w' := ⟨rfl, h⟩
  have hread : ∀ cs, (sampleKey 1, cs) ∈ sampleSpend.spend →
      ¬ Misread H (sampleContract 1) ⟨sampleConditions, 200⟩ cs := by
    intro cs hcs hmisread
    rw [(Prod.mk.inj (List.mem_singleton.mp hcs)).2] at hmisread
    exact hmisread.2 ⟨rfl, rfl, rfl⟩
  have heffects := owner_intent_executed (idealHost_rendersAddresses _ _) Condition.toXdr_injective
    (sampleHost_separatesPayloads sampleSigned) (sampleWorld H ())
    (sampleHost_signedOnce sampleConditions) sampleCalls
    (sampleRun_checked sampleSigned [sampleDeposit, sampleSpend]) hcommit List.mem_cons_self hread
  exact ⟨w', hcommit, (heffects.1 _ _ List.mem_cons_self).1,
    (heffects.2 _ _ (List.mem_cons_of_mem _ List.mem_cons_self)).1⟩

def redirectSigned : List (BytesN 65 × List Condition) :=
  [(sampleKey 1, [.extWithdraw (sampleAccount 6) (.ofByte 100)])]

/-- The submitter presents the withdraw as a deposit, which binds nothing, and
creates a UTXO of its own. -/
def redirectSpend : ChannelOperation :=
  ⟨[(sampleKey 1, [.extDeposit (sampleAccount 6) (.ofByte 100)])],
    [(sampleKey 8, .ofByte 100)], [], []⟩

def redirectFunded : World Bytes Unit :=
  run (Call.exec (sampleHost redirectSigned)) (sampleWorld (sampleHost redirectSigned) ())
    [sampleCall redirectSigned sampleDeposit]

theorem withdraw_redirected :
    let H := sampleHost redirectSigned
    let inv := (sampleCall redirectSigned redirectSpend).inv
    Reachable H redirectFunded ∧ H.RendersAddresses ∧ H.SeparatesPayloads ∧
      SignedOnce H (sampleKey 1) redirectFunded.self
        ⟨[.extWithdraw (sampleAccount 6) (.ofByte 100)], 200⟩ ∧
      AuthChecked H inv redirectFunded sampleAuth samplePayload (sampleSignatures redirectSigned) ∧
      (∃ w', transact H inv redirectFunded redirectSpend = .ok w') ∧
      sampleKey 1 ∈ redirectSpend.spend.map Prod.fst ∧ redirectSpend.withdraw = [] := by
  intro H inv
  have hself : redirectFunded.self = sampleContract 1 := by decide +kernel
  refine ⟨⟨_, sampleWorld_deployed _ (), _, rfl⟩, idealHost_rendersAddresses _ _,
    sampleHost_separatesPayloads _, ?_, ?_, exists_ok (by decide +kernel), List.mem_cons_self, rfl⟩
  · rw [hself]
    exact sampleHost_signedOnce _
  · exact sampleCall_checked redirectSigned _ hself (by decide +kernel)

end Moonlight
