import Moonlight.Governance
import Moonlight.InstanceLife
import Moonlight.Approval

namespace Moonlight
open Foundations

variable {Digest W : Type}

/-- A channel in its world and the Channel Auth contract at the address that the
channel holds. -/
structure Deployment (Digest W : Type) where
  channel : ChannelInstance Digest W
  auth : ChannelAuth

/-- A transaction that calls the channel. For the Channel Auth address it carries
an authorization entry: the payload and the signatures, and the contexts that
its tree holds below the call. Other addresses answer as in `inv`. -/
structure Submission (Digest W : Type) where
  inv : ChannelInvocation W
  payload : Digest
  signatures : Signatures
  contexts : List Context

section Submission

variable (H : Host Digest) (s : Submission Digest W) (st : Deployment Digest W)

def Submission.check (args : List Val) : Except Failure ChannelAuth :=
  checkAuth H s.inv.sequence st.auth s.payload s.signatures
    (.contract ⟨st.channel.world.self, args⟩ :: s.contexts)

/-- The host's answer to `require_auth_for_args`. -/
def Submission.requireAuth : RequireAuth := fun a args =>
  if st.channel.world.channel.utxo.auth = some a then
    match s.check H st args with
    | .ok _ => true
    | .error _ => false
  else
    s.inv.verdicts.requireAuth a args

def Submission.call (e : ChannelEntrypoint) : ChannelCall W where
  inv := { s.inv with verdicts := { s.inv.verdicts with requireAuth := s.requireAuth H st } }
  entrypoint := e

/-- What the check of a `transact` leaves of Channel Auth. -/
def Submission.commit : ChannelEntrypoint → Except Failure ChannelAuth
  | .entrypoint (.transact op) => s.check H st (authArgs (calculateAuthRequirements op.spend))
  | _ => pure st.auth

end Submission

/-- A transaction of the deployment: a call of the channel, a call of Channel
Auth, or anything that happens at the asset. -/
inductive ProtocolCall (Digest W : Type)
  | channel (s : Submission Digest W) (e : ChannelEntrypoint)
  | auth (c : AuthCall Digest)
  | asset (sequence : U32) (act : W → Except Failure W)

def ProtocolCall.exec [DecidableEq Digest] (H : Host Digest) (st : Deployment Digest W) :
    ProtocolCall Digest W → Except Failure (Deployment Digest W)
  | channel s e => do
    let channel ← (s.call H st e).exec H st.channel
    let auth ← s.commit H st e
    pure ⟨channel, auth⟩
  | auth c => do
    let auth ← c.exec H st.auth
    pure { st with auth := auth }
  | asset _ act => do
    let assetState ← act st.channel.world.assetState
    pure { st with channel :=
      { st.channel with world := { st.channel.world with assetState := assetState } } }

structure Launched (H : Host Digest) (st : Deployment Digest W) : Prop where
  channel : Deployed H st.channel.world
  events : st.channel.events = []
  auth : ∃ now admin, st.auth = .construct H now admin

theorem Launched.providers {H : Host Digest} {st₀ : Deployment Digest W} (h₀ : Launched H st₀) :
    st₀.auth.providers = ∅ := by
  obtain ⟨now, admin, hauth⟩ := h₀.auth
  rw [hauth]
  rfl

section Step

variable {H : Host Digest} {s : Submission Digest W} {st st' : Deployment Digest W}
  {e : ChannelEntrypoint} {op : ChannelOperation} {c : ProtocolCall Digest W}

theorem Submission.requireAuth_auth {a : Address} {args : List Val}
    (ha : st.channel.world.channel.utxo.auth = some a) :
    s.requireAuth H st a args = true ↔ ∃ auth, s.check H st args = .ok auth := by
  rw [Submission.requireAuth, if_pos ha]
  cases s.check H st args with
  | error e => simp
  | ok auth => simp

/-- The contexts below the call can only add to what is checked. -/
theorem Submission.check_call {args : List Val} {auth : ChannelAuth}
    (h : s.check H st args = .ok auth) :
    ∃ auth', checkAuth H s.inv.sequence st.auth s.payload s.signatures
      [.contract ⟨st.channel.world.self, args⟩] = .ok auth' := by
  obtain ⟨hprovider, hall, hctx⟩ := checkAuth_ok.mp ⟨auth, h⟩
  refine checkAuth_ok.mpr ⟨hprovider, hall, fun ctx hmem => hctx ctx ?_⟩
  rw [List.mem_singleton.mp hmem]
  exact List.mem_cons_self

theorem Submission.checked : AuthChecked H (s.call H st e).inv.invocation st.channel.world st.auth
    s.payload s.signatures := by
  intro a args ha h
  obtain ⟨auth, hcheck⟩ := (Submission.requireAuth_auth ha).mp h
  exact Submission.check_call hcheck

/-- A call of the channel can reach nothing of Channel Auth but its life. -/
theorem Submission.commit_state {auth : ChannelAuth} (h : s.commit H st e = .ok auth) :
    ∃ n, auth = { st.auth with liveUntil := n } := by
  unfold Submission.commit at h
  split at h
  · exact ⟨_, checkAuth_state h⟩
  · exact ⟨st.auth.liveUntil, (Except.ok.inj h).symm⟩

variable [DecidableEq Digest]

/-- The recorded amounts, `supply` and the transfers asked for are as they were. -/
structure Idle (w w' : World Digest W) : Prop where
  amounts : ∀ d, w'.channel.utxo.store.get d = w.channel.utxo.store.get d
  supply : w'.channel.readSupply = w.channel.readSupply
  transfers : w'.transfers = w.transfers
  self : w'.self = w.self

theorem Idle.refl (w : World Digest W) : Idle w w := ⟨fun _ => rfl, rfl, rfl, rfl⟩

theorem Idle.trans {w w' w'' : World Digest W} (h : Idle w w') (h' : Idle w' w'') : Idle w w'' where
  amounts d := (h'.amounts d).trans (h.amounts d)
  supply := h'.supply.trans h.supply
  transfers := h'.transfers.trans h.transfers
  self := h'.self.trans h.self

/-- Of the channel's entrypoints only `transact` moves funds. -/
theorem ChannelCall.exec_idle {c : ChannelCall W} {ch ch' : ChannelInstance Digest W}
    (h : c.exec H ch = .ok ch') : Idle ch.world ch'.world ∨
      ∃ op, c.entrypoint = .entrypoint (.transact op) ∧
        transact H c.inv.invocation ch.world op = .ok ch'.world := by
  unfold ChannelCall.exec at h
  cases hc : c.entrypoint with
  | upgrade wasmHash =>
    simp only [hc, Channel.upgrade, bind_eq_ok, pure_eq_ok] at h
    obtain ⟨_, ⟨-, -, -, -, rfl⟩, rfl⟩ := h
    exact .inl (Idle.refl _)
  | entrypoint e =>
    simp only [hc, bind_eq_ok, pure_eq_ok] at h
    obtain ⟨r, hr, rfl⟩ := h
    cases e with
    | setAdmin newAdmin | acceptAdmin | admin | auth | asset =>
      simp only [Entrypoint.exec, bind_eq_ok, pure_eq_ok] at hr
      obtain ⟨_, -, rfl⟩ := hr
      exact .inl ⟨fun _ => rfl, rfl, rfl, rfl⟩
    | supply =>
      simp only [Entrypoint.exec, pure_eq_ok] at hr
      subst hr
      exact .inl (Idle.refl _)
    | utxoBalance utxo =>
      simp only [Entrypoint.exec, pure_eq_ok] at hr
      subst hr
      exact .inl ⟨utxoBalances_get ch.world.channel.utxo [utxo], rfl, rfl, rfl⟩
    | utxoBalances utxos =>
      simp only [Entrypoint.exec, pure_eq_ok] at hr
      subst hr
      exact .inl ⟨utxoBalances_get ch.world.channel.utxo utxos, rfl, rfl, rfl⟩
    | transact op =>
      simp only [Entrypoint.exec, bind_eq_ok, pure_eq_ok] at hr
      obtain ⟨w₁, hw₁, rfl⟩ := hr
      exact .inr ⟨op, rfl, hw₁⟩

/-- What a committed call can do to the deployment. -/
inductive ProtocolStep (H : Host Digest) (st st' : Deployment Digest W) :
    ProtocolCall Digest W → Prop
  | transact (s : Submission Digest W) (op : ChannelOperation)
      (h : Moonlight.transact H (s.call H st (.entrypoint (.transact op))).inv.invocation
        st.channel.world op = .ok st'.channel.world)
      (hcheck : s.check H st (authArgs (calculateAuthRequirements op.spend)) = .ok st'.auth) :
      ProtocolStep H st st' (.channel s (.entrypoint (.transact op)))
  | channel (s : Submission Digest W) (e : ChannelEntrypoint)
      (he : ∀ op, e ≠ .entrypoint (.transact op))
      (h : (s.call H st e).exec H st.channel = .ok st'.channel) (hauth : st'.auth = st.auth) :
      ProtocolStep H st st' (.channel s e)
  | auth (c : AuthCall Digest) (h : c.exec H st.auth = .ok st'.auth)
      (hchannel : st'.channel = st.channel) : ProtocolStep H st st' (.auth c)
  | asset (sequence : U32) (act : W → Except Failure W) (hauth : st'.auth = st.auth)
      (hchannel : st'.channel.world.channel = st.channel.world.channel)
      (hself : st'.channel.world.self = st.channel.world.self)
      (htransfers : st'.channel.world.transfers = st.channel.world.transfers)
      (h : act st.channel.world.assetState = .ok st'.channel.world.assetState) :
      ProtocolStep H st st' (.asset sequence act)

theorem ProtocolCall.exec_step (h : c.exec H st = .ok st') : ProtocolStep H st st' c := by
  cases c with
  | auth c =>
    simp only [exec, bind_eq_ok, pure_eq_ok] at h
    obtain ⟨auth, hauth, rfl⟩ := h
    exact .auth c hauth rfl
  | asset sequence act =>
    simp only [exec, bind_eq_ok, pure_eq_ok] at h
    obtain ⟨assetState, hact, rfl⟩ := h
    exact .asset sequence act rfl rfl rfl rfl hact
  | channel s e =>
    simp only [exec, bind_eq_ok, pure_eq_ok] at h
    obtain ⟨channel, hchannel, auth, hauth, rfl⟩ := h
    by_cases he : ∃ op, e = .entrypoint (.transact op)
    · obtain ⟨op, rfl⟩ := he
      refine .transact s op ?_ hauth
      rcases ChannelCall.exec_step hchannel with ⟨hkeys, hkind⟩ | ⟨hkind⟩ | ⟨op', hop, htransact⟩
      · cases hkind rfl
      · cases hkind
      · obtain rfl : op = op' := by
          injection hop with hop
          injection hop
        exact htransact
    · push Not at he
      refine .channel s e he hchannel ?_
      cases e with
      | upgrade wasmHash => exact (Except.ok.inj hauth).symm
      | entrypoint e =>
        cases e with
        | transact op => exact absurd rfl (he op)
        | _ => exact (Except.ok.inj hauth).symm

theorem ProtocolStep.idle (h : ProtocolStep H st st' c) :
    Idle st.channel.world st'.channel.world ∨
      ∃ s op, c = .channel s (.entrypoint (.transact op)) := by
  cases h with
  | transact s op h hcheck => exact .inr ⟨s, op, rfl⟩
  | channel s e he h hauth =>
    rcases ChannelCall.exec_idle h with hidle | ⟨op, hop, -⟩
    · exact .inl hidle
    · exact absurd hop (he op)
  | auth c h hchannel =>
    rw [hchannel]
    exact .inl (Idle.refl _)
  | asset sequence act hauth hchannel hself htransfers h =>
    left
    refine ⟨fun d => ?_, ?_, htransfers, hself⟩
    · rw [hchannel]
    · rw [hchannel]

theorem ProtocolStep.providers (h : ProtocolStep H st st' c) :
    st'.auth.providers = st.auth.providers ∨
      ∃ d, c = .auth d ∧ ProviderStep d st.auth st'.auth := by
  cases h with
  | transact s op h hcheck =>
    left
    rw [checkAuth_state hcheck]
  | channel s e he h hauth => exact .inl (by rw [hauth])
  | auth d h hchannel => exact .inr ⟨d, rfl, d.providerStep h⟩
  | asset sequence act hauth hchannel hself htransfers h => exact .inl (by rw [hauth])

theorem ProtocolStep.self (h : ProtocolStep H st st' c) :
    st'.channel.world.self = st.channel.world.self := by
  cases h with
  | transact s op h hcheck => exact (transact_ok h).self
  | channel s e he h hauth =>
    rcases ChannelCall.exec_idle h with hidle | ⟨op, hop, -⟩
    · exact hidle.self
    · exact absurd hop (he op)
  | auth c h hchannel => rw [hchannel]
  | asset sequence act hauth hchannel hself htransfers h => exact hself

end Step

section Runs

variable [DecidableEq Digest] {H : Host Digest} {st₀ : Deployment Digest W}
  {calls : List (ProtocolCall Digest W)}

/-- The owner added `p` in a call before call `i`, and no call since has removed
it. -/
def Registered (H : Host Digest) (st₀ : Deployment Digest W) (calls : List (ProtocolCall Digest W))
    (i : ℕ) (p : Address) : Prop :=
  ∃ j c t, j < i ∧ CommitsAt (ProtocolCall.exec H) st₀ calls j (.auth c) t ∧
    c.entrypoint = .addProvider p ∧ c.inv.ownerAuth = true ∧
    ∀ k d u, j < k → k < i → CommitsAt (ProtocolCall.exec H) st₀ calls k (.auth d) u →
      d.entrypoint ≠ .removeProvider p

theorem registered_iff (h₀ : Launched H st₀) {i : ℕ} {p : Address} :
    p ∈ (stateAt (ProtocolCall.exec H) st₀ calls i).auth.providers ↔
      Registered H st₀ calls i p := by
  constructor
  · intro hp
    have hout : p ∉ st₀.auth.providers := by simp [h₀.providers]
    obtain ⟨j, c, t, hj, hc, hbefore, hafter, hsince⟩ :=
      stateAt_origin (I := fun st : Deployment Digest W => p ∈ st.auth.providers) hout hp
    rcases (ProtocolCall.exec_step hc.2).providers with hset | ⟨d, rfl, hstep⟩
    · exact absurd (hset ▸ hafter) hbefore
    · have hadd : d.entrypoint = .addProvider p := by
        by_contra hne
        exact hstep.not_mem hbefore hne hafter
      have howner : d.inv.ownerAuth = true := by
        apply (hstep.changed _).1
        intro heq
        have hmem := congrFun heq p
        simp [ChannelAuth.isProvider, hbefore, hafter] at hmem
      refine ⟨j, d, t, hj, hc, hadd, howner, fun k e u hjk hki he hremove => ?_⟩
      -- right after a removal `p` would be out of the set
      have hmem := hsince (k + 1) (by omega) (by omega)
      rw [he.stateAt_succ] at hmem
      have hexec : ProtocolStep H _ u (.auth e) := ProtocolCall.exec_step he.2
      cases hexec with
      | auth _ h _ =>
        rw [AuthCall.exec, hremove] at h
        obtain ⟨-, -, hu⟩ := removeProvider_ok.mp h
        rw [hu] at hmem
        exact Finset.notMem_erase p _ hmem
  · rintro ⟨j, c, t, hj, hc, hadd, -, hkept⟩
    apply stateAt_between (I := fun st : Deployment Digest W => p ∈ st.auth.providers)
      (Nat.succ_le_of_lt hj)
    · rw [hc.stateAt_succ]
      have hexec : ProtocolStep H _ t (.auth c) := ProtocolCall.exec_step hc.2
      cases hexec with
      | auth _ h _ =>
        rw [AuthCall.exec, hadd] at h
        obtain ⟨-, -, ht⟩ := addProvider_ok.mp h
        rw [ht]
        exact Finset.mem_insert_self p _
    · intro k hjk hki d u hd hp
      rcases (ProtocolCall.exec_step hd.2).providers with hset | ⟨e, rfl, hstep⟩
      · rwa [hset]
      · have hne := hkept k e u hjk hki hd
        cases hstep with
        | add q _ _ _ hset _ => exact hset ▸ Finset.mem_insert_of_mem hp
        | remove q hremove _ _ hset _ =>
          rw [hset, Finset.mem_erase]
          refine ⟨?_, hp⟩
          rintro rfl
          exact hne hremove
        | other _ _ hset _ => rwa [hset]

theorem protocol_self (i : ℕ) : (stateAt (ProtocolCall.exec H) st₀ calls i).channel.world.self =
    st₀.channel.world.self := by
  apply run_invariant (I := fun st : Deployment Digest W =>
    st.channel.world.self = st₀.channel.world.self)
  · intro st st' c _ hst h
    exact (ProtocolCall.exec_step h).self.trans hst
  · rfl

/-- A provider that the owner has added and not removed signed the payload of
this transaction, and every spent key signed what is spent under it. -/
structure Vouched (H : Host Digest) (st₀ : Deployment Digest W)
    (calls : List (ProtocolCall Digest W)) (i : ℕ) (s : Submission Digest W)
    (op : ChannelOperation) : Prop where
  provider : ∃ pk, .provider pk ∈ s.signatures
  registered : ∀ pk, .provider pk ∈ s.signatures →
    Registered H st₀ calls i (addressFromEd25519PkBytes pk)
  signed : ∀ pk, .provider pk ∈ s.signatures → ∃ sig validUntil,
    s.signatures.lookup (.provider pk) = some (.ed25519 sig, validUntil) ∧
      s.inv.sequence ≤ validUntil ∧ H.ed25519Verify pk s.payload sig = true
  owners : ∀ e ∈ op.spend, e.2 ≠ [] ∧
    P256Signed H s.inv.sequence s.signatures st₀.channel.world.self e.1 e.2

/-- In every run, whatever amounts, `supply` or transfers a call moves, the call
is a `transact` vouched for by every provider key it carries, one at least, and
by the owner of every key it spends; and while no provider is registered
nothing moves, whatever is called. -/
theorem funds_move_only_vouched (h₀ : Launched H st₀) (calls : List (ProtocolCall Digest W)) :
    let st := stateAt (ProtocolCall.exec H) st₀ calls
    (∀ i c, calls[i]? = some c → ¬ Idle (st i).channel.world (st (i + 1)).channel.world →
      ∃ s op, c = .channel s (.entrypoint (.transact op)) ∧ Vouched H st₀ calls i s op) ∧
    ∀ i j, i ≤ j → (∀ p, ¬ Registered H st₀ calls i p) →
      (∀ k c t, i ≤ k → k < j → CommitsAt (ProtocolCall.exec H) st₀ calls k (.auth c) t →
        ∀ p, c.entrypoint ≠ .addProvider p) →
      Idle (st i).channel.world (st j).channel.world := by
  intro st
  refine ⟨?_, ?_⟩
  · intro i c hc hmoved
    cases hexec : c.exec H (st i) with
    | error f =>
      have hst : st (i + 1) = st i := (stateAt_succ hc).trans (step_of_error hexec)
      rw [hst] at hmoved
      exact absurd (Idle.refl _) hmoved
    | ok t =>
      have hst : st (i + 1) = t := (stateAt_succ hc).trans (step_of_ok hexec)
      rw [hst] at hmoved
      have hstep := ProtocolCall.exec_step hexec
      obtain ⟨s, op, rfl⟩ := hstep.idle.resolve_left hmoved
      refine ⟨s, op, rfl, ?_⟩
      cases hstep with
      | channel s e he _ _ => exact absurd rfl (he op)
      | transact _ _ htransact hcheck =>
        have hacc := transact_ok htransact
        obtain ⟨hprovider, hall, -⟩ := checkAuth_ok.mp ⟨_, hcheck⟩
        refine ⟨hprovider, fun pk hpk => ?_, fun pk hpk => ?_, fun e he => ?_⟩
        · obtain ⟨sig, validUntil, -, hreg, -, -⟩ := hall pk hpk
          rw [← registered_iff h₀]
          simpa [ChannelAuth.isProvider] using hreg
        · obtain ⟨sig, validUntil, hlook, -, hvalid, hverify⟩ := hall pk hpk
          exact ⟨sig, validUntil, hlook, hvalid, hverify⟩
        · have hsigned := hacc.owner_signed Submission.checked he
          rw [protocol_self] at hsigned
          exact hsigned
  · intro i j hij hnone hadd
    have hrun : (∀ p, p ∉ (st j).auth.providers) ∧
        Idle (st i).channel.world (st j).channel.world := by
      apply stateAt_between (I := fun t : Deployment Digest W => (∀ p, p ∉ t.auth.providers) ∧
        Idle (st i).channel.world t.channel.world) hij
      · exact ⟨fun p hp => hnone p ((registered_iff h₀).mp hp), Idle.refl _⟩
      · rintro k hik hkj c t hc ⟨hempty, hidle⟩
        have hstep := ProtocolCall.exec_step hc.2
        constructor
        · intro p hp
          rcases hstep.providers with hset | ⟨d, rfl, hprov⟩
          · exact hempty p (hset ▸ hp)
          · exact hprov.not_mem (hempty p) (hadd k d t hik hkj hc p) hp
        · rcases hstep.idle with hkept | ⟨s, op, rfl⟩
          · exact hidle.trans hkept
          -- a check needs a registered provider, and there is none
          · cases hstep with
            | channel s e he _ _ => exact absurd rfl (he op)
            | transact _ _ _ hcheck =>
              obtain ⟨⟨pk, hpk⟩, hall, -⟩ := checkAuth_ok.mp ⟨_, hcheck⟩
              obtain ⟨-, -, -, hreg, -⟩ := hall pk hpk
              exact absurd (by simpa [ChannelAuth.isProvider] using hreg) (hempty _)
    exact hrun.2

end Runs

def sampleLaunch {W : Type} (H : Host Bytes) (assetState : W) : Deployment Bytes W :=
  ⟨⟨sampleWorld H assetState, []⟩, .construct H 100 (sampleAccount 5)⟩

theorem sampleLaunch_launched {W : Type} (H : Host Bytes) (assetState : W) :
    Launched H (sampleLaunch H assetState) :=
  ⟨sampleWorld_deployed H assetState, rfl, 100, sampleAccount 5, rfl⟩

def sampleSubmission (signed : List (BytesN 65 × List Condition)) : Submission Bytes Unit where
  inv := ⟨100, openVerdicts, true, .ok (), [], fun _ _ s => .ok s⟩
  payload := samplePayload
  signatures := sampleSignatures signed
  contexts := []

def sampleProtocol : List (ProtocolCall Bytes Unit) :=
  [.auth (ownerCall (.addProvider (addressFromEd25519PkBytes sampleProvider))),
    .channel (sampleSubmission sampleSigned) (.entrypoint (.transact sampleDeposit)),
    .channel (sampleSubmission sampleSigned) (.entrypoint (.transact sampleSpend))]

theorem funds_move_vouched_sampleProtocol :
    let H := sampleHost sampleSigned
    Vouched H (sampleLaunch H ()) sampleProtocol 2 (sampleSubmission sampleSigned) sampleSpend := by
  intro H
  have hmoved : ¬ Idle
      (stateAt (ProtocolCall.exec H) (sampleLaunch H ()) sampleProtocol 2).channel.world
      (stateAt (ProtocolCall.exec H) (sampleLaunch H ()) sampleProtocol (2 + 1)).channel.world := by
    intro h
    have hlen := congrArg List.length h.transfers
    revert hlen
    decide +kernel
  let spend : ProtocolCall Bytes Unit :=
    .channel (sampleSubmission sampleSigned) (.entrypoint (.transact sampleSpend))
  have hspend : sampleProtocol[2]? = some spend := rfl
  obtain ⟨s, op, hc, hvouched⟩ :=
    (funds_move_only_vouched (sampleLaunch_launched H ()) sampleProtocol).1 2 spend hspend hmoved
  obtain ⟨rfl, he⟩ := ProtocolCall.channel.inj hc
  injection he with he
  injection he with he
  rw [he]
  exact hvouched

end Moonlight
