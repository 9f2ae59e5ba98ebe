import Moonlight.Reentrancy

namespace Moonlight
open Foundations

variable {Digest W : Type} [DecidableEq Digest]

/-- The `Upgraded` event of the channel, and the events of Ownable as the host
encodes them. -/
inductive ChannelEvent
  | upgraded (wasmHash : BytesN 32)
  | ownable (event : Bytes)
deriving DecidableEq

/-- `upgrade`; `ownerAuth` is the verdict of `enforce_owner_auth` and `update` is
how `upgradeable::upgrade` ends. -/
def Channel.upgrade (c : Channel Digest) (ownerAuth : Bool) (update : Except Failure Unit)
    (wasmHash : BytesN 32) : Except Failure (ChannelEvent × Channel Digest) := do
  ensure (ownerAuth = true) .unauthorized
  let event := ChannelEvent.upgraded wasmHash
  update
  pure (event, c)

inductive ChannelEntrypoint
  | entrypoint (e : Entrypoint)
  | upgrade (wasmHash : BytesN 32)

/-- What the code outside the repository answers in one top-level call.
`ownable` is what Ownable publishes if the call moves the ownership. -/
structure ChannelInvocation (W : Type) where
  sequence : U32
  verdicts : Verdicts
  ownerAuth : Bool
  update : Except Failure Unit
  ownable : List Bytes
  transfer : Address → Transfer → W → Except Failure W

def ChannelInvocation.invocation (inv : ChannelInvocation W) : Invocation W :=
  ⟨inv.sequence, inv.verdicts.requireAuth, inv.transfer⟩

def ChannelInvocation.published (inv : ChannelInvocation W) : Entrypoint → List ChannelEvent
  | .setAdmin _ => inv.ownable.map .ownable
  | .acceptAdmin => inv.ownable.map .ownable
  | _ => []

structure ChannelCall (W : Type) where
  inv : ChannelInvocation W
  entrypoint : ChannelEntrypoint

/-- The channel in its world, and its log. The events of `utxo-core` are switched
off in it. -/
structure ChannelInstance (Digest W : Type) where
  world : World Digest W
  events : List ChannelEvent

def ChannelInstance.liveUntil (st : ChannelInstance Digest W) : ℕ := st.world.channel.liveUntil

def ChannelInstance.store (st : ChannelInstance Digest W) : Store Digest :=
  st.world.channel.utxo.store

/-- The state a call commits. After an upgrade the run goes on with this code. -/
def ChannelCall.exec (H : Host Digest) (st : ChannelInstance Digest W) (c : ChannelCall W) :
    Except Failure (ChannelInstance Digest W) :=
  match c.entrypoint with
  | .entrypoint e => do
    let result ← e.exec H c.inv.sequence c.inv.invocation.asset st.world c.inv.verdicts
    pure ⟨result.2, st.events ++ c.inv.published e⟩
  | .upgrade wasmHash => do
    let result ← st.world.channel.upgrade c.inv.ownerAuth c.inv.update wasmHash
    pure ⟨{ st.world with channel := result.2 }, st.events ++ [result.1]⟩

def ChannelCall.published (c : ChannelCall W) : List ChannelEvent :=
  match c.entrypoint with
  | .entrypoint e => c.inv.published e
  | .upgrade wasmHash => [.upgraded wasmHash]

/-- The entrypoints that change who owns the channel or what code it runs. -/
def ChannelEntrypoint.governs : ChannelEntrypoint → Bool
  | .entrypoint (.setAdmin _) => true
  | .entrypoint .acceptAdmin => true
  | .upgrade _ => true
  | _ => false

/-- The entrypoints that change contract state. -/
def ChannelEntrypoint.mutates : ChannelEntrypoint → Bool
  | .entrypoint (.transact _) => true
  | e => e.governs

def ChannelEntrypoint.keys : ChannelEntrypoint → List (BytesN 65)
  | .entrypoint (.utxoBalance utxo) => [utxo]
  | .entrypoint (.utxoBalances utxos) => utxos
  | .entrypoint (.transact op) => op.spend.map Prod.fst ++ op.create.map Prod.fst
  | _ => []

theorem ChannelEntrypoint.mutates_of_governs {e : ChannelEntrypoint} (h : e.governs = true) :
    e.mutates = true := by
  cases e with
  | upgrade wasmHash => rfl
  | entrypoint e =>
    cases e with
    | transact op => rfl
    | _ => exact h

section Step

variable {H : Host Digest} {w w' : World Digest W} {e : Address × I128 × List Condition}
  {inv : Invocation W} {address : Address}

omit [DecidableEq Digest] in
theorem depositStep_liveUntil (h : depositStep inv.requireAuth (inv.asset address) w e = .ok w') :
    w'.channel.liveUntil = w.channel.liveUntil := by
  simp only [depositStep, increaseSupply, bind_eq_ok, pure_eq_ok] at h
  obtain ⟨-, -, w₁, hcall, c, ⟨supply, -, rfl⟩, rfl⟩ := h
  rw [(callTransfer_ok hcall).2]

omit [DecidableEq Digest] in
theorem withdrawStep_liveUntil (h : withdrawStep (inv.asset address) w e = .ok w') :
    w'.channel.liveUntil = w.channel.liveUntil := by
  simp only [withdrawStep, decreaseSupply, bind_eq_ok, pure_eq_ok] at h
  obtain ⟨w₁, hcall, c, ⟨supply, -, rfl⟩, rfl⟩ := h
  rw [(callTransfer_ok hcall).2]

omit [DecidableEq Digest] in
theorem executeExternalOperations_liveUntil
    {deposit withdraw : List (Address × I128 × List Condition)}
    (h : executeExternalOperations inv.requireAuth inv.asset w deposit withdraw = .ok w') :
    w'.channel.liveUntil = w.channel.liveUntil := by
  simp only [executeExternalOperations, bind_eq_ok, okOr_eq_ok] at h
  obtain ⟨address, -, m, hdep, hwith⟩ := h
  have hm : m.channel.liveUntil = w.channel.liveUntil := by
    apply foldlM_invariant (I := fun v : World Digest W =>
      v.channel.liveUntil = w.channel.liveUntil) _ rfl hdep
    intro u v e _ hu huv
    rw [depositStep_liveUntil huv, hu]
  apply foldlM_invariant (I := fun v : World Digest W =>
    v.channel.liveUntil = w.channel.liveUntil) _ hm hwith
  intro u v e _ hu huv
  rw [withdrawStep_liveUntil huv, hu]

theorem transact_liveUntil {op : ChannelOperation} (h : transact H inv w op = .ok w') :
    w'.channel.liveUntil = bumpInstanceTtl inv.sequence w.channel.liveUntil := by
  obtain ⟨c, w₁, hc, hw₁, rfl⟩ := transact_phases h
  show w₁.channel.liveUntil = _
  rw [executeExternalOperations_liveUntil hw₁]
  simp only [processOperation, enterReentrancyGuard, bind_eq_ok, pure_eq_ok,
    assertWithError_eq_ok] at hc
  obtain ⟨c₁, ⟨-, -, rfl⟩, pre, -, result, -, rfl⟩ := hc
  rfl

/-- What a committed call can do to the entries and the life of the instance:
nothing, a read of some entries, or a whole `transact`. -/
inductive ChannelStep (H : Host Digest) (c : ChannelCall W) (st st' : ChannelInstance Digest W) :
    Prop
  | quiet (hkeys : c.entrypoint.keys = [])
      (hkind : c.entrypoint.mutates = true → c.entrypoint.governs = true)
      (hstore : st'.store = st.store) (hlife : st'.liveUntil = st.liveUntil)
  | read (hkind : c.entrypoint.mutates = false)
      (hstore : st'.store =
        (utxoBalances H c.inv.sequence st.world.channel.utxo c.entrypoint.keys).2.store)
      (hlife : st'.liveUntil = st.liveUntil)
  | transact (op : ChannelOperation) (hc : c.entrypoint = .entrypoint (.transact op))
      (h : transact H c.inv.invocation st.world op = .ok st'.world)

theorem ChannelCall.exec_step {c : ChannelCall W} {st st' : ChannelInstance Digest W}
    (h : c.exec H st = .ok st') : ChannelStep H c st st' := by
  unfold ChannelCall.exec at h
  cases hc : c.entrypoint with
  | upgrade wasmHash =>
    simp only [hc, Channel.upgrade, bind_eq_ok, pure_eq_ok] at h
    obtain ⟨_, ⟨-, -, -, -, rfl⟩, rfl⟩ := h
    exact .quiet (by rw [hc]; rfl) (by rw [hc]; exact id) rfl rfl
  | entrypoint e =>
    simp only [hc, bind_eq_ok, pure_eq_ok] at h
    obtain ⟨r, hr, rfl⟩ := h
    cases e with
    | setAdmin newAdmin | acceptAdmin | admin | auth | asset =>
      simp only [Entrypoint.exec, bind_eq_ok, pure_eq_ok] at hr
      obtain ⟨_, -, rfl⟩ := hr
      exact .quiet (by rw [hc]; rfl) (by rw [hc]; exact id) rfl rfl
    | supply =>
      simp only [Entrypoint.exec, pure_eq_ok] at hr
      subst hr
      exact .quiet (by rw [hc]; rfl) (by rw [hc]; exact id) rfl rfl
    -- a single read is a list of one
    | utxoBalance utxo | utxoBalances utxos =>
      simp only [Entrypoint.exec, pure_eq_ok] at hr
      subst hr
      exact .read (by rw [hc]; rfl) (by rw [hc]; rfl) rfl
    | transact op =>
      simp only [Entrypoint.exec, bind_eq_ok, pure_eq_ok] at hr
      obtain ⟨w₁, hw₁, rfl⟩ := hr
      exact .transact op hc hw₁

theorem ChannelCall.exec_liveUntil {c : ChannelCall W} {st st' : ChannelInstance Digest W}
    (h : c.exec H st = .ok st') :
    st'.liveUntil =
      if c.entrypoint.mutates = true ∧ c.entrypoint.governs = false then
        bumpInstanceTtl c.inv.sequence st.liveUntil
      else st.liveUntil := by
  cases ChannelCall.exec_step h with
  | quiet hkeys hkind hstore hlife =>
    rw [hlife, if_neg]
    intro hboth
    rw [hkind hboth.1] at hboth
    exact absurd hboth.2 (by decide)
  | read hkind hstore hlife => rw [hlife, if_neg (by simp [hkind])]
  | transact op hc hw =>
    rw [hc, if_pos ⟨rfl, rfl⟩]
    exact transact_liveUntil hw

end Step

variable {H : Host Digest} {st₀ : ChannelInstance Digest W} {calls : List (ChannelCall W)}

omit [DecidableEq Digest] in
theorem construct_liveUntil {now : U32} {adminAuth : Bool} {admin authContract asset : Address}
    {c : Channel Digest} (h : construct H now adminAuth admin authContract asset = .ok c) :
    now.val + instanceLifetimeThreshold < c.liveUntil := by
  simp only [construct, bind_eq_ok, ensure_eq_ok, pure_eq_ok] at h
  obtain ⟨-, -, rfl⟩ := h
  exact lt_bumpInstanceTtl now _

/-- No call shortens the instance's life. -/
theorem stateAt_liveUntil_le {i j : ℕ} (hij : i ≤ j) :
    (stateAt (ChannelCall.exec H) st₀ calls i).liveUntil ≤
      (stateAt (ChannelCall.exec H) st₀ calls j).liveUntil := by
  refine stateAt_between (I := fun st : ChannelInstance Digest W =>
    (stateAt (ChannelCall.exec H) st₀ calls i).liveUntil ≤ st.liveUntil) hij le_rfl ?_
  intro k _ _ c st' hc hk
  show _ ≤ st'.liveUntil
  rw [ChannelCall.exec_liveUntil hc.2]
  split_ifs with hbump
  · exact hk.trans (le_bumpInstanceTtl _ _)
  · exact hk

def KeepsAlive (H : Host Digest) (st₀ : ChannelInstance Digest W) (calls : List (ChannelCall W))
    (i : ℕ) (now : U32) : Prop :=
  instanceLifetimeThreshold ≤ (stateAt (ChannelCall.exec H) st₀ calls i).liveUntil - now.val

/-- The instance is then there at every later point of the run within the
threshold. -/
theorem KeepsAlive.later {i j : ℕ} {now : U32} (h : KeepsAlive H st₀ calls i now) (hij : i ≤ j)
    {n : ℕ} (hn : n ≤ now.val + instanceLifetimeThreshold) :
    n ≤ (stateAt (ChannelCall.exec H) st₀ calls j).liveUntil := by
  have hlife : (stateAt (ChannelCall.exec H) st₀ calls i).liveUntil ≤ _ :=
    stateAt_liveUntil_le hij
  have hpos : 0 < instanceLifetimeThreshold := by decide
  unfold KeepsAlive at h
  omega

/-- In every run, the constructor keeps the instance alive, and all calls that
change state do if and only if each change of owner or code finds the threshold
left. An instance kept alive is there at every later point within the
threshold. -/
theorem instance_kept_alive_iff {now₀ : U32} {adminAuth : Bool}
    {admin authContract asset : Address}
    (h₀ : construct H now₀ adminAuth admin authContract asset = .ok st₀.world.channel)
    (calls : List (ChannelCall W)) :
    ((KeepsAlive H st₀ calls 0 now₀ ∧
        ∀ i c st, CommitsAt (ChannelCall.exec H) st₀ calls i c st →
          c.entrypoint.mutates = true → KeepsAlive H st₀ calls (i + 1) c.inv.sequence) ↔
      ∀ i c st, CommitsAt (ChannelCall.exec H) st₀ calls i c st →
        c.entrypoint.governs = true →
          instanceLifetimeThreshold ≤
            (stateAt (ChannelCall.exec H) st₀ calls i).liveUntil - c.inv.sequence.val) ∧
    ∀ i now, KeepsAlive H st₀ calls i now → ∀ j, i ≤ j →
      ∀ n ≤ now.val + instanceLifetimeThreshold,
        n ≤ (stateAt (ChannelCall.exec H) st₀ calls j).liveUntil := by
  refine ⟨?_, fun i now h j hij n hn => h.later hij hn⟩
  simp only [KeepsAlive]
  constructor
  · intro h i c st hc hgov
    have hkept := h.2 i c st hc (ChannelEntrypoint.mutates_of_governs hgov)
    rwa [hc.stateAt_succ, ChannelCall.exec_liveUntil hc.2, if_neg (by simp [hgov])] at hkept
  · intro h
    refine ⟨?_, fun i c st hc hmut => ?_⟩
    · have hlife : _ < st₀.liveUntil := construct_liveUntil h₀
      show instanceLifetimeThreshold ≤ st₀.liveUntil - now₀.val
      omega
    · rw [hc.stateAt_succ, ChannelCall.exec_liveUntil hc.2]
      split_ifs with hbump
      · have hlife := lt_bumpInstanceTtl c.inv.sequence
          (stateAt (ChannelCall.exec H) st₀ calls i).liveUntil
        omega
      -- a state-changing call that does not extend the life governs
      · have hgov : c.entrypoint.governs = true := by
          simpa [hmut] using hbump
        exact h i c st hc hgov

def sampleChannelCall (sequence : U32) (e : Entrypoint) : ChannelCall Unit where
  inv := ⟨sequence, openVerdicts, true, .ok (), [], fun _ _ s => .ok s⟩
  entrypoint := .entrypoint e

def lateSetAdmin : ChannelCall Unit := sampleChannelCall 34660 (.setAdmin (sampleAccount 7))

def sampleInstance : ChannelInstance Bytes Unit := ⟨sampleWorld (sampleHost []) (), []⟩

/-- The new owner is set, with five of the seven days left and six promised. -/
theorem lateSetAdmin_not_kept_alive :
    ¬ ∀ i c st, CommitsAt (ChannelCall.exec (sampleHost [])) sampleInstance [lateSetAdmin] i c st →
      c.entrypoint.mutates = true →
        KeepsAlive (sampleHost []) sampleInstance [lateSetAdmin] (i + 1) c.inv.sequence := by
  intro h
  have hkept := h 0 lateSetAdmin sampleInstance ⟨rfl, rfl⟩ rfl
  have hshort : ¬ instanceLifetimeThreshold ≤ sampleInstance.liveUntil - 34660 := by
    decide +kernel
  exact hshort hkept

def earlySetAdmin : ChannelCall Unit := sampleChannelCall 101 (.setAdmin (sampleAccount 7))

theorem earlySetAdmin_kept_alive :
    KeepsAlive (sampleHost []) sampleInstance [earlySetAdmin] 1 101 := by
  have h₀ : construct (sampleHost []) 100 true (sampleAccount 1) (sampleContract 2)
      (sampleContract 3) = .ok sampleInstance.world.channel := rfl
  apply ((instance_kept_alive_iff h₀ [earlySetAdmin]).1.mpr ?_).2 0 earlySetAdmin sampleInstance
    ⟨rfl, rfl⟩ rfl
  intro i c st hc _
  cases i with
  | zero =>
    obtain rfl : earlySetAdmin = c := Option.some.inj hc.1
    show instanceLifetimeThreshold ≤ sampleInstance.liveUntil - 101
    decide +kernel
  | succ i => simp [CommitsAt] at hc

end Moonlight
