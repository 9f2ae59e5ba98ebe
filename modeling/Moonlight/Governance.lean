import Moonlight.Auth
import Moonlight.Stellar
import Moonlight.Foundations.Runs
import Moonlight.Foundations.Logs

namespace Moonlight
open Foundations

variable {Digest : Type}

/-- What the code outside the repository answers in one call: the ledger, the
verdict of `enforce_owner_auth`, the owner that Ownable holds, how
`transfer_ownership` or `accept_ownership` ends and what it publishes, and how a
wasm update ends. -/
structure AuthInvocation where
  sequence : U32
  ownerAuth : Bool
  owner : Option Address
  ownership : Except Failure (List Bytes)
  update : Except Failure Unit

/-- The entrypoints of `ChannelAuthContract`. -/
inductive AuthEntrypoint (Digest : Type)
  | admin
  | setAdmin (newAdmin : Address)
  | acceptAdmin
  | upgrade (wasmHash : BytesN 32)
  | isProvider (provider : Address)
  | addProvider (provider : Address)
  | removeProvider (provider : Address)
  | enableChannel (channel asset : Address)
  | disableChannel (channel asset : Address)
  | checkAuth (payload : Digest) (signatures : Signatures) (contexts : List Context)

structure AuthCall (Digest : Type) where
  inv : AuthInvocation
  entrypoint : AuthEntrypoint Digest

/-- The state a call commits. Who owns the contract is in Ownable's own storage;
where the ownership moves, Ownable publishes in the contract's log. -/
def AuthCall.exec (H : Host Digest) (st : ChannelAuth) (c : AuthCall Digest) :
    Except Failure ChannelAuth :=
  match c.entrypoint with
  | .admin => do
    let _ ← okOr c.inv.owner .unwrapNone
    pure st
  | .setAdmin _ => do
    let published ← c.inv.ownership
    pure { st with events := st.events ++ published.map .ownable }
  | .acceptAdmin => do
    let published ← c.inv.ownership
    pure { st with events := st.events ++ published.map .ownable }
  | .upgrade wasmHash => st.upgrade c.inv.ownerAuth c.inv.update wasmHash
  | .isProvider _ => pure st
  | .addProvider provider => st.addProvider c.inv.ownerAuth provider
  | .removeProvider provider => st.removeProvider c.inv.ownerAuth provider
  | .enableChannel channel asset => st.enableChannel c.inv.ownerAuth channel asset
  | .disableChannel channel asset => st.disableChannel c.inv.ownerAuth channel asset
  | .checkAuth payload signatures contexts =>
    checkAuth H c.inv.sequence st payload signatures contexts

def AuthEvent.apply (providers : Finset Address) : AuthEvent → Finset Address
  | providerAdded p => insert p providers
  | providerRemoved p => providers.erase p
  | _ => providers

/-- The providers that a reader of the log alone arrives at. -/
def replayProviders (events : List AuthEvent) : Finset Address := events.foldl AuthEvent.apply ∅

def providerHistory (p : Address) (events : List AuthEvent) : List AuthEvent :=
  events.filter fun e => e = .providerAdded p ∨ e = .providerRemoved p

/-- What a committed call can do to the provider set and to the log. -/
inductive ProviderStep (c : AuthCall Digest) (st st' : ChannelAuth) : Prop
  | add (p : Address) (hc : c.entrypoint = .addProvider p) (howner : c.inv.ownerAuth = true)
      (hp : p ∉ st.providers) (hset : st'.providers = insert p st.providers)
      (hlog : st'.events = st.events ++ [.providerAdded p])
  | remove (p : Address) (hc : c.entrypoint = .removeProvider p) (howner : c.inv.ownerAuth = true)
      (hp : p ∈ st.providers) (hset : st'.providers = st.providers.erase p)
      (hlog : st'.events = st.events ++ [.providerRemoved p])
  | other (new : List AuthEvent)
      (hnew : ∀ e ∈ new, ∀ p, e ≠ .providerAdded p ∧ e ≠ .providerRemoved p)
      (hset : st'.providers = st.providers) (hlog : st'.events = st.events ++ new)

theorem ProviderStep.unchanged {c : AuthCall Digest} {st st' : ChannelAuth}
    (hset : st'.providers = st.providers) (hlog : st'.events = st.events) :
    ProviderStep c st st' := by
  apply ProviderStep.other [] _ hset
  · rw [hlog, List.append_nil]
  · intro e he
    cases he

section Step

variable {H : Host Digest} {c : AuthCall Digest} {st st' : ChannelAuth}

theorem ProviderStep.of_one {e : AuthEvent}
    (he : ∀ p, e ≠ .providerAdded p ∧ e ≠ .providerRemoved p)
    (hset : st'.providers = st.providers) (hlog : st'.events = st.events ++ [e]) :
    ProviderStep c st st' := by
  apply ProviderStep.other [e] _ hset hlog
  intro f hf
  rw [List.mem_singleton.mp hf]
  exact he

theorem addProvider_ok {ownerAuth : Bool} {p : Address} :
    st.addProvider ownerAuth p = .ok st' ↔ ownerAuth = true ∧ p ∉ st.providers ∧
      st' = { st with
        providers := insert p st.providers, events := st.events ++ [.providerAdded p] } := by
  simp only [ChannelAuth.addProvider, ChannelAuth.registerProvider, ChannelAuth.isProvider,
    bind_eq_ok, ensure_eq_ok, assertWithError_eq_ok, pure_eq_ok, decide_eq_true_eq]
  constructor
  · rintro ⟨-, howner, st₁, ⟨-, hp, rfl⟩, rfl⟩
    exact ⟨howner, hp, rfl⟩
  · rintro ⟨howner, hp, rfl⟩
    exact ⟨(), howner, _, ⟨(), hp, rfl⟩, rfl⟩

theorem removeProvider_ok {ownerAuth : Bool} {p : Address} :
    st.removeProvider ownerAuth p = .ok st' ↔ ownerAuth = true ∧ p ∈ st.providers ∧
      st' = { st with
        providers := st.providers.erase p, events := st.events ++ [.providerRemoved p] } := by
  simp only [ChannelAuth.removeProvider, ChannelAuth.deregisterProvider, ChannelAuth.isProvider,
    bind_eq_ok, ensure_eq_ok, assertWithError_eq_ok, pure_eq_ok, decide_eq_true_eq]
  constructor
  · rintro ⟨-, howner, st₁, ⟨-, hp, rfl⟩, rfl⟩
    exact ⟨howner, hp, rfl⟩
  · rintro ⟨howner, hp, rfl⟩
    exact ⟨(), howner, _, ⟨(), hp, rfl⟩, rfl⟩

theorem setChannelState_ok {ownerAuth enabled : Bool} {channel asset : Address}
    (h : st.setChannelState ownerAuth channel asset enabled = .ok st') :
    st' = { st with events := st.events ++ [.channelStateChanged channel asset enabled] } := by
  simp only [ChannelAuth.setChannelState, bind_eq_ok, pure_eq_ok] at h
  obtain ⟨-, -, rfl⟩ := h
  rfl

theorem upgrade_ok {ownerAuth : Bool} {update : Except Failure Unit} {wasmHash : BytesN 32}
    (h : st.upgrade ownerAuth update wasmHash = .ok st') :
    st' = { st with events := st.events ++ [.upgraded wasmHash] } := by
  simp only [ChannelAuth.upgrade, bind_eq_ok, pure_eq_ok] at h
  obtain ⟨-, -, -, -, rfl⟩ := h
  rfl

theorem checkAuth_state {now : U32} {payload : Digest} {sigs : Signatures}
    {contexts : List Context} (h : checkAuth H now st payload sigs contexts = .ok st') :
    st' = { st with liveUntil := bumpInstanceTtl now st.liveUntil } := by
  simp only [checkAuth, bind_eq_ok, pure_eq_ok] at h
  obtain ⟨-, -, -, -, rfl⟩ := h
  rfl

theorem AuthCall.providerStep (h : c.exec H st = .ok st') : ProviderStep c st st' := by
  unfold AuthCall.exec at h
  cases hc : c.entrypoint with
  | admin =>
    simp only [hc, bind_eq_ok, pure_eq_ok] at h
    obtain ⟨_, -, rfl⟩ := h
    exact .unchanged rfl rfl
  | setAdmin newAdmin | acceptAdmin =>
    simp only [hc, bind_eq_ok, pure_eq_ok] at h
    obtain ⟨published, -, rfl⟩ := h
    exact .other (published.map .ownable) (by simp) rfl rfl
  | upgrade wasmHash =>
    simp only [hc] at h
    obtain rfl := upgrade_ok h
    exact .of_one (by simp) rfl rfl
  | isProvider provider =>
    simp only [hc, pure_eq_ok] at h
    exact h ▸ .unchanged rfl rfl
  | addProvider provider =>
    simp only [hc, addProvider_ok] at h
    obtain ⟨howner, hp, rfl⟩ := h
    exact .add provider hc howner hp rfl rfl
  | removeProvider provider =>
    simp only [hc, removeProvider_ok] at h
    obtain ⟨howner, hp, rfl⟩ := h
    exact .remove provider hc howner hp rfl rfl
  | enableChannel channel asset | disableChannel channel asset =>
    simp only [hc] at h
    obtain rfl := setChannelState_ok h
    exact .of_one (by simp) rfl rfl
  | checkAuth payload signatures contexts =>
    simp only [hc] at h
    obtain rfl := checkAuth_state h
    exact .unchanged rfl rfl

end Step

/-- The log tells the stored set, and each provider's events alternate. -/
structure Logged (st : ChannelAuth) : Prop where
  replay : replayProviders st.events = st.providers
  alternates : ∀ p, Alternates (.providerAdded p) (.providerRemoved p) (providerHistory p st.events)
  parity : ∀ p, p ∈ st.providers ↔ ¬ Even (providerHistory p st.events).length

section History

variable {events new : List AuthEvent} {p q : Address}

theorem replayProviders_append {e : AuthEvent} :
    replayProviders (events ++ [e]) = e.apply (replayProviders events) := by
  rw [replayProviders, List.foldl_append]
  rfl

theorem replayProviders_append_other
    (hnew : ∀ e ∈ new, ∀ p, e ≠ .providerAdded p ∧ e ≠ .providerRemoved p) :
    replayProviders (events ++ new) = replayProviders events := by
  induction new using List.reverseRecOn with
  | nil => rw [List.append_nil]
  | append_singleton l e ih =>
    have he := hnew e (by simp)
    rw [← List.append_assoc, replayProviders_append, ih fun f hf => hnew f (by simp [hf])]
    cases e with
    | providerAdded p => exact absurd rfl (he p).1
    | providerRemoved p => exact absurd rfl (he p).2
    | contractInitialized admin => rfl
    | channelStateChanged channel asset enabled => rfl
    | upgraded wasmHash => rfl
    | ownable event => rfl

theorem providerHistory_append_other
    (hnew : ∀ e ∈ new, ∀ p, e ≠ .providerAdded p ∧ e ≠ .providerRemoved p) :
    providerHistory p (events ++ new) = providerHistory p events := by
  have hnone : providerHistory p new = [] := by
    apply List.filter_eq_nil_iff.mpr
    intro e he
    simpa using hnew e he p
  rw [providerHistory, List.filter_append]
  exact (congrArg _ hnone).trans (List.append_nil _)

theorem providerHistory_append {e : AuthEvent}
    (he : e = .providerAdded q ∨ e = .providerRemoved q) :
    providerHistory p (events ++ [e]) =
      if p = q then providerHistory p events ++ [e] else providerHistory p events := by
  rw [providerHistory, List.filter_append]
  split_ifs with h
  · rcases he with rfl | rfl
    · simp [providerHistory, h]
    · simp [providerHistory, h]
  · rcases he with rfl | rfl
    · simp [providerHistory, Ne.symm h]
    · simp [providerHistory, Ne.symm h]

end History

theorem Logged.construct (H : Host Digest) (now : U32) (admin : Address) :
    Logged (ChannelAuth.construct H now admin) := by
  refine ⟨rfl, ?_, ?_⟩
  · intro p
    exact .nil
  · intro p
    simp [ChannelAuth.construct, providerHistory]

variable {H : Host Digest} {c : AuthCall Digest} {st st' : ChannelAuth}

/-- The event that flips `p` is the one whose turn it is in the history of `p`. -/
theorem Logged.flip (hlog : Logged st) {p : Address} {e : AuthEvent}
    (he : e = if p ∈ st.providers then .providerRemoved p else .providerAdded p)
    (hset : st'.providers = e.apply st.providers) (hevents : st'.events = st.events ++ [e]) :
    Logged st' := by
  have habout : e = .providerAdded p ∨ e = .providerRemoved p := by
    rw [he]
    split_ifs
    · exact .inr rfl
    · exact .inl rfl
  -- `p` is registered exactly when its history has odd length
  have hturn : e = if Even (providerHistory p st.events).length then .providerAdded p
      else .providerRemoved p := by
    rw [he, if_congr (hlog.parity p) rfl rfl, ite_not]
  have hmem (q : Address) : q ∈ st'.providers ↔
      if q = p then p ∉ st.providers else q ∈ st.providers := by
    rw [hset, he]
    by_cases hp : p ∈ st.providers
    · by_cases hq : q = p
      · simp [hp, hq, AuthEvent.apply]
      · simp [hp, hq, AuthEvent.apply]
    · by_cases hq : q = p
      · simp [hp, hq, AuthEvent.apply]
      · simp [hp, hq, AuthEvent.apply]
  refine ⟨?_, ?_, ?_⟩
  · rw [hevents, hset, replayProviders_append, hlog.replay]
  · intro q
    rw [hevents, providerHistory_append habout]
    split_ifs with hq
    · rw [hq]
      exact (hlog.alternates p).append hturn
    · exact hlog.alternates q
  · intro q
    rw [hevents, providerHistory_append habout, hmem]
    split_ifs with hq
    · rw [hq, hlog.parity p, List.length_append, List.length_singleton, Nat.even_add_one]
    · exact hlog.parity q

theorem Logged.step (hlog : Logged st) (h : c.exec H st = .ok st') : Logged st' := by
  cases c.providerStep h with
  | add p _ _ hp hset hevents =>
    exact hlog.flip (if_neg hp).symm hset hevents
  | remove p _ _ hp hset hevents =>
    exact hlog.flip (if_pos hp).symm hset hevents
  | other new hnew hset hevents =>
    refine ⟨?_, ?_, ?_⟩
    · rw [hevents, hset, replayProviders_append_other hnew, hlog.replay]
    · intro q
      rw [hevents, providerHistory_append_other hnew]
      exact hlog.alternates q
    · intro q
      rw [hevents, hset, providerHistory_append_other hnew]
      exact hlog.parity q

theorem ProviderStep.changed (h : ProviderStep c st st') (hne : st'.isProvider ≠ st.isProvider) :
    c.inv.ownerAuth = true ∧ ∃ p, ∀ q, st'.isProvider q ≠ st.isProvider q ↔ q = p := by
  cases h with
  | add p _ howner hp hset _ =>
    refine ⟨howner, p, ?_⟩
    intro q
    by_cases hq : q = p
    · subst hq
      simp [ChannelAuth.isProvider, hset, hp]
    · simp [ChannelAuth.isProvider, hset, hq]
  | remove p _ howner hp hset _ =>
    refine ⟨howner, p, ?_⟩
    intro q
    by_cases hq : q = p
    · subst hq
      simp [ChannelAuth.isProvider, hset, hp]
    · simp [ChannelAuth.isProvider, hset, hq]
  | other new _ hset _ =>
    exfalso
    apply hne
    funext q
    simp only [ChannelAuth.isProvider, hset]

theorem ProviderStep.not_mem (h : ProviderStep c st st') {p : Address} (hp : p ∉ st.providers)
    (hc : c.entrypoint ≠ .addProvider p) : p ∉ st'.providers := by
  cases h with
  | add q hadd _ _ hset _ =>
    rw [hset, Finset.mem_insert, not_or]
    refine ⟨?_, hp⟩
    rintro rfl
    exact hc hadd
  | remove q _ _ _ hset _ =>
    rw [hset]
    exact fun hmem => hp (Finset.mem_of_mem_erase hmem)
  | other new _ hset _ => rwa [hset]

theorem Logged.stateAt (now : U32) (admin : Address) (calls : List (AuthCall Digest)) (i : ℕ) :
    Logged (stateAt (AuthCall.exec H) (.construct H now admin) calls i) := by
  apply run_invariant
  · intro st st' c _ hlog h
    exact hlog.step h
  · exact .construct H now admin

theorem removed_until_added {st₀ : ChannelAuth} {calls : List (AuthCall Digest)} {i j : ℕ}
    {p : Address} (hij : i < j) (h : CommitsAt (AuthCall.exec H) st₀ calls i c st')
    (hc : c.entrypoint = .removeProvider p)
    (hadd : ∀ k, i < k → k < j → ∀ d t, CommitsAt (AuthCall.exec H) st₀ calls k d t →
      d.entrypoint ≠ .addProvider p) :
    p ∉ (stateAt (AuthCall.exec H) st₀ calls j).providers := by
  apply stateAt_between (I := fun st : ChannelAuth => p ∉ st.providers) (Nat.succ_le_of_lt hij)
  · rw [h.stateAt_succ]
    have hexec := h.2
    rw [AuthCall.exec, hc] at hexec
    obtain ⟨-, -, rfl⟩ := removeProvider_ok.mp hexec
    exact Finset.notMem_erase p _
  -- a registration that fails is rolled back and needs no case
  · intro k hik hkj d t hd hp
    exact (d.providerStep hd.2).not_mem hp (hadd k hik hkj d t hd)

/-- The log of Channel Auth is its provider set. After every call of every run
the set is what the log replays to and each address's events alternate; only a
call of the owner moves the set, by one address; and between the removal of an
address and its next registration no check with its key in the map passes. -/
theorem provider_log_faithful (H : Host Digest) (now : U32) (admin : Address)
    (calls : List (AuthCall Digest)) :
    let exec := AuthCall.exec H
    let st₀ := ChannelAuth.construct H now admin
    let st := stateAt exec st₀ calls
    (∀ i, {p | (st i).isProvider p = true} = replayProviders (st i).events) ∧
    (∀ i p, Alternates (.providerAdded p) (.providerRemoved p)
      (providerHistory p (st i).events)) ∧
    (∀ i c, calls[i]? = some c → (st (i + 1)).isProvider ≠ (st i).isProvider →
      c.inv.ownerAuth = true ∧
        ∃ p, ∀ q, (st (i + 1)).isProvider q ≠ (st i).isProvider q ↔ q = p) ∧
    ∀ i j p, i < j →
      (∃ c t, CommitsAt exec st₀ calls i c t ∧ c.entrypoint = .removeProvider p) →
      (∀ k, i < k → k < j → ∀ c t, CommitsAt exec st₀ calls k c t →
        c.entrypoint ≠ .addProvider p) →
      ∀ c t payload sigs contexts pk, c.entrypoint = .checkAuth payload sigs contexts →
        .provider pk ∈ sigs → addressFromEd25519PkBytes pk = p →
        ¬ CommitsAt exec st₀ calls j c t := by
  intro exec st₀ st
  have hlog (i : ℕ) : Logged (st i) := Logged.stateAt now admin calls i
  refine ⟨?_, ?_, ?_, ?_⟩
  · intro i
    ext p
    rw [(hlog i).replay]
    simp [ChannelAuth.isProvider]
  · intro i p
    exact (hlog i).alternates p
  · intro i c hc hne
    cases h : exec (st i) c with
    | error e =>
      -- a failed call is rolled back, so nothing can have changed
      have hst : st (i + 1) = st i := (stateAt_succ hc).trans (step_of_error h)
      rw [hst] at hne
      exact absurd rfl hne
    | ok t =>
      have hst : st (i + 1) = t := (stateAt_succ hc).trans (step_of_ok h)
      rw [hst] at hne ⊢
      exact (c.providerStep h).changed hne
  · rintro i j p hij ⟨d, t, hremove, hd⟩ hadd c t' payload sigs contexts pk hc hpk rfl hcommit
    have hout := removed_until_added hij hremove hd hadd
    have hexec := hcommit.2
    simp only [exec, AuthCall.exec, hc] at hexec
    -- every provider key of the map must be registered, whoever else signed
    obtain ⟨-, hall, -⟩ := checkAuth_ok.mp ⟨t', hexec⟩
    obtain ⟨-, -, -, hreg, -⟩ := hall pk hpk
    exact hout (by simpa [ChannelAuth.isProvider] using hreg)

def otherProvider : BytesN 32 := ⟨List.replicate 32 8, by simp⟩

def bothProvidersSigned : Signatures :=
  (sampleSignatures []).insert (.provider otherProvider) (.ed25519 sampleSignature, 200)

def ownerCall (entrypoint : AuthEntrypoint Bytes) : AuthCall Bytes :=
  ⟨⟨100, true, none, .ok [], .ok ()⟩, entrypoint⟩

def providerRotation : List (AuthCall Bytes) :=
  [ownerCall (.addProvider (addressFromEd25519PkBytes sampleProvider)),
    ownerCall (.addProvider (addressFromEd25519PkBytes otherProvider)),
    ownerCall (.checkAuth samplePayload bothProvidersSigned []),
    ownerCall (.removeProvider (addressFromEd25519PkBytes sampleProvider)),
    ownerCall (.checkAuth samplePayload bothProvidersSigned [])]

theorem provider_log_providerRotation :
    let H := idealHost [] [(sampleProvider, samplePayload), (otherProvider, samplePayload)]
    let st₀ := ChannelAuth.construct H 100 (sampleAccount 5)
    let check := ownerCall (.checkAuth samplePayload bothProvidersSigned [])
    (∃ t, CommitsAt (AuthCall.exec H) st₀ providerRotation 2 check t) ∧
      (∃ c t, CommitsAt (AuthCall.exec H) st₀ providerRotation 3 c t ∧
        c.entrypoint = .removeProvider (addressFromEd25519PkBytes sampleProvider)) ∧
      ∀ t, ¬ CommitsAt (AuthCall.exec H) st₀ providerRotation 4 check t := by
  intro H st₀ check
  have hcheck : ∃ t, check.exec H (stateAt (AuthCall.exec H) st₀ providerRotation 2) = .ok t :=
    exists_ok (by decide +kernel)
  let remove := ownerCall (.removeProvider (addressFromEd25519PkBytes sampleProvider))
  have hremove : ∃ t, remove.exec H (stateAt (AuthCall.exec H) st₀ providerRotation 3) = .ok t :=
    exists_ok (by decide +kernel)
  obtain ⟨t, ht⟩ := hremove
  have hcommit : ∃ c t, CommitsAt (AuthCall.exec H) st₀ providerRotation 3 c t ∧
      c.entrypoint = .removeProvider (addressFromEd25519PkBytes sampleProvider) :=
    ⟨remove, t, ⟨rfl, ht⟩, rfl⟩
  refine ⟨hcheck.imp fun t h => ⟨rfl, h⟩, hcommit, ?_⟩
  obtain ⟨-, -, -, hout⟩ := provider_log_faithful H 100 (sampleAccount 5) providerRotation
  intro t
  refine hout 3 4 _ (by omega) hcommit ?_ check t samplePayload bothProvidersSigned []
    sampleProvider rfl (by decide +kernel) rfl
  intro k hk hk'
  omega

end Moonlight
