import Moonlight.Protocol

namespace Moonlight
open Foundations

variable {Digest W : Type}

/-- The event of its own that a committed call of Channel Auth publishes. -/
def AuthCall.announcement (c : AuthCall Digest) : Option AuthEvent :=
  match c.entrypoint with
  | .upgrade wasmHash => some (.upgraded wasmHash)
  | .addProvider provider => some (.providerAdded provider)
  | .removeProvider provider => some (.providerRemoved provider)
  | .enableChannel channel asset => some (.channelStateChanged channel asset true)
  | .disableChannel channel asset => some (.channelStateChanged channel asset false)
  | _ => none

/-- The events of Ownable in a committed call of Channel Auth. -/
def AuthCall.ownable (c : AuthCall Digest) : List AuthEvent :=
  match c.entrypoint, c.inv.ownership with
  | .setAdmin _, .ok published => published.map .ownable
  | .acceptAdmin, .ok published => published.map .ownable
  | _, _ => []

def AuthCall.published (c : AuthCall Digest) : List AuthEvent := c.announcement.toList ++ c.ownable

theorem checkAuth_events (H : Host Digest) (now : U32) (st : ChannelAuth) (payload : Digest)
    (sigs : Signatures) (contexts : List Context) (l : List AuthEvent) :
    checkAuth H now { st with events := l } payload sigs contexts =
      (fun t => { t with events := l }) <$> checkAuth H now st payload sigs contexts := by
  simp only [checkAuth, map_bind, map_pure]
  rfl

/-- A call never reads the log, and adds its own events to it. -/
theorem AuthCall.exec_events (H : Host Digest) (c : AuthCall Digest) (st : ChannelAuth)
    (l : List AuthEvent) : c.exec H { st with events := l } =
      (fun t => { t with events := l ++ c.published }) <$> c.exec H st := by
  unfold AuthCall.exec AuthCall.published AuthCall.announcement AuthCall.ownable
  cases hc : c.entrypoint with
  | admin | isProvider provider =>
    simp only [map_bind, map_pure, Option.toList_none, List.append_nil]
  | setAdmin newAdmin | acceptAdmin =>
    cases ho : c.inv.ownership with
    | error f => rfl
    | ok published => rfl
  | upgrade wasmHash =>
    simp only [ChannelAuth.upgrade, map_bind, map_pure, Option.toList_some, List.append_nil]
  | addProvider provider =>
    simp only [ChannelAuth.addProvider, ChannelAuth.registerProvider, bind_assoc, pure_bind,
      map_bind, map_pure, Option.toList_some, List.append_nil]
    rfl
  | removeProvider provider =>
    simp only [ChannelAuth.removeProvider, ChannelAuth.deregisterProvider, bind_assoc, pure_bind,
      map_bind, map_pure, Option.toList_some, List.append_nil]
    rfl
  | enableChannel channel asset | disableChannel channel asset =>
    simp only [ChannelAuth.enableChannel, ChannelAuth.disableChannel, ChannelAuth.setChannelState,
      map_bind, map_pure, Option.toList_some, List.append_nil]
  | checkAuth payload signatures contexts =>
    simp only [Option.toList_none, List.append_nil]
    exact checkAuth_events H c.inv.sequence st payload signatures contexts l

theorem AuthCall.exec_logged {H : Host Digest} {c : AuthCall Digest} {st st' : ChannelAuth}
    (h : c.exec H st = .ok st') : st'.events = st.events ++ c.published := by
  have hlog := AuthCall.exec_events H c st st.events
  have hst : { st with events := st.events } = st := rfl
  rw [hst, h] at hlog
  exact congrArg ChannelAuth.events (Except.ok.inj hlog)

theorem AuthCall.exec_owner {H : Host Digest} {c : AuthCall Digest} {st st' : ChannelAuth}
    (h : c.exec H st = .ok st') (hc : c.announcement ≠ none) : c.inv.ownerAuth = true := by
  unfold AuthCall.exec at h
  unfold AuthCall.announcement at hc
  cases he : c.entrypoint with
  | admin | setAdmin newAdmin | acceptAdmin | isProvider provider
  | checkAuth payload signatures contexts => exact absurd (by rw [he]) hc
  | upgrade wasmHash =>
    simp only [he, ChannelAuth.upgrade, bind_eq_ok, ensure_eq_ok] at h
    obtain ⟨-, howner, -⟩ := h
    exact howner
  | addProvider provider =>
    rw [he] at h
    exact (addProvider_ok.mp h).1
  | removeProvider provider =>
    rw [he] at h
    exact (removeProvider_ok.mp h).1
  | enableChannel channel asset | disableChannel channel asset =>
    simp only [he, ChannelAuth.enableChannel, ChannelAuth.disableChannel,
      ChannelAuth.setChannelState, bind_eq_ok, ensure_eq_ok] at h
    obtain ⟨-, howner, -⟩ := h
    exact howner

namespace ProtocolCall

def announcement : ProtocolCall Digest W → Option AuthEvent
  | auth c => c.announcement
  | _ => none

def published : ProtocolCall Digest W → List AuthEvent
  | auth c => c.published
  | _ => []

def channelPublished : ProtocolCall Digest W → List ChannelEvent
  | channel s e => ChannelCall.published ⟨s.inv, e⟩
  | _ => []

def upgrades : ProtocolCall Digest W → Bool
  | channel _ (.upgrade _) => true
  | _ => false

/-- The verdict of `enforce_owner_auth` in the contract that is called. -/
def ownerAuth : ProtocolCall Digest W → Bool
  | channel s _ => s.inv.ownerAuth
  | auth c => c.inv.ownerAuth
  | asset _ _ => false

end ProtocolCall

variable [DecidableEq Digest] {H : Host Digest} {st₀ st st' : Deployment Digest W}

/-- What the logs have gained, and who must have called. -/
structure LoggedStep (c : ProtocolCall Digest W) (st st' : Deployment Digest W) : Prop where
  auth : st'.auth.events = st.auth.events ++ c.published
  channel : st'.channel.events = st.channel.events ++ c.channelPublished
  owner : c.announcement ≠ none ∨ c.upgrades = true → c.ownerAuth = true

theorem ChannelCall.exec_logged {c : ChannelCall W} {ch ch' : ChannelInstance Digest W}
    (h : c.exec H ch = .ok ch') : ch'.events = ch.events ++ c.published ∧
      ∀ wasmHash, c.entrypoint = .upgrade wasmHash → c.inv.ownerAuth = true := by
  unfold ChannelCall.exec at h
  unfold ChannelCall.published
  cases hc : c.entrypoint with
  | entrypoint e =>
    simp only [hc, bind_eq_ok, pure_eq_ok] at h
    obtain ⟨-, -, rfl⟩ := h
    exact ⟨rfl, fun _ hne => by cases hne⟩
  | upgrade wasmHash =>
    simp only [hc, Channel.upgrade, bind_eq_ok, ensure_eq_ok, pure_eq_ok] at h
    obtain ⟨-, ⟨-, howner, -, -, rfl⟩, rfl⟩ := h
    exact ⟨rfl, fun _ _ => howner⟩

theorem ProtocolCall.exec_log {c : ProtocolCall Digest W} (h : c.exec H st = .ok st') :
    LoggedStep c st st' := by
  cases c with
  | asset sequence act =>
    simp only [exec, bind_eq_ok, pure_eq_ok] at h
    obtain ⟨-, -, rfl⟩ := h
    exact ⟨(List.append_nil _).symm, (List.append_nil _).symm, by simp [announcement, upgrades]⟩
  | auth d =>
    simp only [exec, bind_eq_ok, pure_eq_ok] at h
    obtain ⟨auth, hd, rfl⟩ := h
    refine ⟨d.exec_logged hd, (List.append_nil _).symm, ?_⟩
    rintro (hc | hc)
    · exact d.exec_owner hd hc
    · cases hc
  | channel s e =>
    simp only [exec, bind_eq_ok, pure_eq_ok] at h
    obtain ⟨ch, hch, auth, hauth, rfl⟩ := h
    obtain ⟨n, rfl⟩ := Submission.commit_state hauth
    obtain ⟨hlog, howner⟩ := ChannelCall.exec_logged hch
    refine ⟨(List.append_nil _).symm, hlog, ?_⟩
    cases e with
    | entrypoint e => simp [announcement, upgrades]
    | upgrade wasmHash => exact fun _ => howner wasmHash rfl

/-- After any run both logs are what the committed calls published, in order: one
event of Moonlight for each decision, and the events of Ownable. Each call that
decided something was authorized by the owner of the contract it called. -/
theorem governance_log_exact (h₀ : Launched H st₀) (calls : List (ProtocolCall Digest W)) :
    let committed := succeeded (ProtocolCall.exec H) st₀ calls
    let st := run (ProtocolCall.exec H) st₀ calls
    (∃ admin, st.auth.events =
      .contractInitialized admin :: committed.flatMap ProtocolCall.published) ∧
    st.channel.events = committed.flatMap ProtocolCall.channelPublished ∧
    ∀ c ∈ committed, c.announcement ≠ none ∨ c.upgrades = true → c.ownerAuth = true := by
  intro committed st
  refine ⟨?_, ?_, ?_⟩
  · obtain ⟨now, admin, hauth⟩ := h₀.auth
    have hlog : st.auth.events =
        st₀.auth.events ++ committed.flatMap ProtocolCall.published :=
      run_log (fun st : Deployment Digest W => st.auth.events) _ fun _ _ _ h =>
        (ProtocolCall.exec_log h).auth
    rw [hauth] at hlog
    exact ⟨admin, hlog⟩
  · have hlog : st.channel.events =
        st₀.channel.events ++ committed.flatMap ProtocolCall.channelPublished :=
      run_log (fun st : Deployment Digest W => st.channel.events) _ fun _ _ _ h =>
        (ProtocolCall.exec_log h).channel
    rw [h₀.events, List.nil_append] at hlog
    exact hlog
  · intro c hc hannounced
    obtain ⟨u, t, h⟩ := exec_of_mem_succeeded hc
    exact (ProtocolCall.exec_log h).owner hannounced

/-- Ownable publishes one event in a transfer of the ownership. -/
def sampleSetAdmin : AuthCall Bytes :=
  ⟨⟨100, true, none, .ok [[1, 2]], .ok ()⟩, .setAdmin (sampleAccount 7)⟩

def sampleAnnouncements : List (ProtocolCall Bytes Unit) :=
  [.auth (ownerCall (.enableChannel (sampleContract 1) (sampleContract 3))),
    .auth (ownerCall (.addProvider (addressFromEd25519PkBytes sampleProvider))),
    .auth sampleSetAdmin,
    .auth (ownerCall (.disableChannel (sampleContract 1) (sampleContract 3))),
    .channel (sampleSubmission sampleSigned) (.entrypoint (.transact sampleDeposit))]

theorem governance_log_sampleAnnouncements :
    let H := sampleHost sampleSigned
    ∃ admin, (run (ProtocolCall.exec H) (sampleLaunch H ()) sampleAnnouncements).auth.events =
      [.contractInitialized admin,
        .channelStateChanged (sampleContract 1) (sampleContract 3) true,
        .providerAdded (addressFromEd25519PkBytes sampleProvider), .ownable [1, 2],
        .channelStateChanged (sampleContract 1) (sampleContract 3) false] := by
  intro H
  obtain ⟨⟨admin, hlog⟩, -⟩ :=
    governance_log_exact (sampleLaunch_launched H ()) sampleAnnouncements
  have hcommitted : (succeeded (ProtocolCall.exec H) (sampleLaunch H ())
      sampleAnnouncements).flatMap ProtocolCall.published =
        [.channelStateChanged (sampleContract 1) (sampleContract 3) true,
          .providerAdded (addressFromEd25519PkBytes sampleProvider), .ownable [1, 2],
          .channelStateChanged (sampleContract 1) (sampleContract 3) false] := by
    decide +kernel
  rw [hcommitted] at hlog
  exact ⟨admin, hlog⟩

def AuthEvent.isChannelState : AuthEvent → Bool
  | channelStateChanged _ _ _ => true
  | _ => false

def ProtocolCall.announces : ProtocolCall Digest W → Bool
  | auth c =>
    match c.entrypoint with
    | .enableChannel _ _ => true
    | .disableChannel _ _ => true
    | _ => false
  | _ => false

/-- The deployment as if it had announced no channel state. -/
def Deployment.quiet (st : Deployment Digest W) : Deployment Digest W :=
  { st with auth := { st.auth with events := st.auth.events.filter fun e => ¬ e.isChannelState } }

omit [DecidableEq Digest] in
theorem Deployment.quiet_quiet (st : Deployment Digest W) : st.quiet.quiet = st.quiet := by
  simp [Deployment.quiet, List.filter_filter]

omit [DecidableEq Digest] in
theorem Submission.check_quiet (s : Submission Digest W) (args : List Val) :
    s.check H st.quiet args =
      (fun t => { t with events := st.quiet.auth.events }) <$> s.check H st args :=
  checkAuth_events H s.inv.sequence st.auth s.payload s.signatures _ _

omit [DecidableEq Digest] in
theorem Submission.requireAuth_quiet (s : Submission Digest W) :
    s.requireAuth H st.quiet = s.requireAuth H st := by
  funext a args
  unfold Submission.requireAuth
  rw [Submission.check_quiet]
  cases s.check H st args <;> rfl

omit [DecidableEq Digest] in
theorem Submission.commit_quiet (s : Submission Digest W) (e : ChannelEntrypoint) :
    s.commit H st.quiet e =
      (fun t => { t with events := st.quiet.auth.events }) <$> s.commit H st e := by
  unfold Submission.commit
  split
  · exact s.check_quiet _
  · rfl

/-- A call that does not announce goes the same way without the announcements.
-/
theorem ProtocolCall.exec_quiet {c : ProtocolCall Digest W} (hc : c.announces = false) :
    c.exec H st.quiet = Deployment.quiet <$> c.exec H st := by
  cases c with
  | asset sequence act =>
    simp only [exec, map_bind, map_pure]
    rfl
  | auth d =>
    have hvisible : d.published.filter (fun e => ¬ e.isChannelState) = d.published := by
      unfold announces at hc
      unfold AuthCall.published AuthCall.announcement AuthCall.ownable
      cases he : d.entrypoint with
      | enableChannel channel asset | disableChannel channel asset => simp [he] at hc
      | setAdmin newAdmin | acceptAdmin =>
        cases d.inv.ownership with
        | error f => rfl
        | ok published => simp [AuthEvent.isChannelState]
      | _ => rfl
    have hexec := d.exec_events H st.auth st.quiet.auth.events
    have hquiet : st.quiet.auth = { st.auth with events := st.quiet.auth.events } := rfl
    simp only [exec]
    rw [hquiet, hexec]
    cases h : d.exec H st.auth with
    | error f => rfl
    | ok t =>
      have hevents : t.events.filter (fun e => ¬ e.isChannelState) =
          st.quiet.auth.events ++ d.published := by
        rw [d.exec_logged h, List.filter_append, hvisible]
        rfl
      show Except.ok (⟨st.channel, { t with
        events := st.quiet.auth.events ++ d.published }⟩ : Deployment Digest W) = _
      rw [← hevents]
      rfl
  | channel s e =>
    have hcall : s.call H st.quiet e = s.call H st e := by
      rw [Submission.call, Submission.requireAuth_quiet]
      rfl
    simp only [exec, hcall, s.commit_quiet e]
    have hchannel : st.quiet.channel = st.channel := rfl
    rw [hchannel]
    cases (s.call H st e).exec H st.channel with
    | error f => rfl
    | ok ch =>
      cases h : s.commit H st e with
      | error f => rfl
      | ok auth =>
        obtain ⟨n, rfl⟩ := Submission.commit_state h
        rfl

theorem ProtocolCall.exec_announces {c : ProtocolCall Digest W} (hc : c.announces = true)
    (h : c.exec H st = .ok st') : st'.quiet = st.quiet := by
  cases c with
  | asset sequence act => cases hc
  | channel s e => cases hc
  | auth d =>
    simp only [exec, bind_eq_ok, pure_eq_ok] at h
    obtain ⟨auth, hauth, rfl⟩ := h
    unfold announces at hc
    cases he : d.entrypoint with
    | enableChannel channel asset | disableChannel channel asset =>
      rw [AuthCall.exec, he] at hauth
      obtain rfl := setChannelState_ok hauth
      simp [Deployment.quiet, AuthEvent.isChannelState]
    | _ => simp [he] at hc

theorem ProtocolCall.quiet_exec (H : Host Digest) (st : Deployment Digest W)
    (c : ProtocolCall Digest W) :
    Deployment.quiet <$> c.exec H st.quiet = Deployment.quiet <$> c.exec H st := by
  by_cases hc : c.announces = true
  · cases c with
    | asset sequence act => cases hc
    | channel s e => cases hc
    | auth d =>
      have hexec : d.exec H st.quiet.auth = _ := d.exec_events H st.auth st.quiet.auth.events
      cases h : d.exec H st.auth with
      | error f =>
        rw [h] at hexec
        simp only [exec, h, hexec]
        rfl
      | ok t =>
        rw [h] at hexec
        have hfirst : (auth d : ProtocolCall Digest W).exec H st = .ok { st with auth := t } := by
          simp only [exec, h]
          rfl
        have hnext : (auth d : ProtocolCall Digest W).exec H st.quiet = .ok { st.quiet with
            auth := { t with events := st.quiet.auth.events ++ d.published } } := by
          simp only [exec, hexec]
          rfl
        rw [hfirst, hnext]
        show Except.ok (Deployment.quiet _) = Except.ok (Deployment.quiet _)
        rw [exec_announces hc hfirst, exec_announces hc hnext, Deployment.quiet_quiet]
  · have hexec : c.exec H st.quiet = Deployment.quiet <$> c.exec H st :=
      exec_quiet (Bool.eq_false_iff.mpr hc)
    rw [hexec]
    cases c.exec H st with
    | error f => rfl
    | ok t =>
      show Except.ok t.quiet.quiet = Except.ok t.quiet
      rw [Deployment.quiet_quiet]

/-- Leave every `enable_channel` and `disable_channel` out of a run: the
contracts end in the same state, less the announcements in the log, and any
next call, announcing or not, succeeds or fails as it would have. -/
theorem announcements_bind_nothing (h₀ : Launched H st₀) (calls : List (ProtocolCall Digest W)) :
    let st := run (ProtocolCall.exec H) st₀ calls
    let st' := run (ProtocolCall.exec H) st₀ (calls.filter fun c => ¬ c.announces)
    st' = st.quiet ∧
      (∀ c : ProtocolCall Digest W, c.announces = false →
        c.exec H st' = Deployment.quiet <$> c.exec H st) ∧
      ∀ c : ProtocolCall Digest W,
        Deployment.quiet <$> c.exec H st' = Deployment.quiet <$> c.exec H st := by
  intro st st'
  have hstart : st₀ = st₀.quiet := by
    obtain ⟨now, admin, hauth⟩ := h₀.auth
    have hevents : st₀.auth.events = [.contractInitialized admin] := by
      rw [hauth]
      rfl
    unfold Deployment.quiet
    rw [hevents]
    show st₀ = ⟨st₀.channel, { st₀.auth with events := [.contractInitialized admin] }⟩
    rw [← hevents]
  have hrun : st' = st.quiet := by
    let erase (c : ProtocolCall Digest W) : Option (ProtocolCall Digest W) :=
      Option.guard (fun c => ¬ c.announces) c
    have herase : calls.filter (fun c => ¬ c.announces) = calls.filterMap erase :=
      congrFun List.filterMap_eq_filter.symm calls
    show run _ _ (calls.filter _) = _
    rw [herase]
    refine run_erasing (Q := fun u v : Deployment Digest W => v = u.quiet) ?_ ?_ hstart
    · intro u v c d hv hd
      obtain ⟨hcd, hc⟩ := Option.guard_eq_some_iff.mp hd
      have hquiet : c.exec H u.quiet = Deployment.quiet <$> c.exec H u :=
        ProtocolCall.exec_quiet (by simpa using hc)
      rw [hv, ← hcd]
      cases h : c.exec H u with
      | error f =>
        rw [step_of_error h]
        rw [h] at hquiet
        exact step_of_error hquiet
      | ok t =>
        rw [step_of_ok h]
        rw [h] at hquiet
        exact step_of_ok hquiet
    · intro u v c hv hc
      have hannounces : c.announces = true := by simpa using Option.guard_eq_none_iff.mp hc
      rw [hv]
      symm
      exact step_invariant (fun t h => ProtocolCall.exec_announces hannounces h) rfl
  refine ⟨hrun, fun c hc => ?_, fun c => ?_⟩
  · rw [hrun]
    exact ProtocolCall.exec_quiet hc
  · rw [hrun]
    exact c.quiet_exec H st

/-- The disabled channel has taken the deposit and lets it be spent. -/
theorem announcements_bind_nothing_sampleAnnouncements :
    let H := sampleHost sampleSigned
    let st := run (ProtocolCall.exec H) (sampleLaunch H ()) sampleAnnouncements
    let spend : ProtocolCall Bytes Unit :=
      .channel (sampleSubmission sampleSigned) (.entrypoint (.transact sampleSpend))
    (∃ t, spend.exec H st.quiet = .ok t) ∧ st.quiet =
      run (ProtocolCall.exec H) (sampleLaunch H ())
        (sampleAnnouncements.filter fun c => ¬ c.announces) := by
  intro H st spend
  obtain ⟨hquiet, hnext, -⟩ :=
    announcements_bind_nothing (sampleLaunch_launched H ()) sampleAnnouncements
  have hspend : ∃ t, spend.exec H st = .ok t := exists_ok (by decide +kernel)
  obtain ⟨t, ht⟩ := hspend
  have hsame := hnext spend rfl
  rw [hquiet, ht] at hsame
  exact ⟨⟨t.quiet, hsame⟩, hquiet.symm⟩

end Moonlight
