import Moonlight.Built
import Moonlight.Overflow

namespace Moonlight
open Foundations

variable {Digest W : Type}

/-- What the host brings to a transaction: the ledger, the last ledger that an entry
may be valid until, the state of Channel Auth, the digests of entries, the unused
nonces, the signatures that other addresses accept, and the asset. -/
structure HostEnv (Digest W : Type) where
  sequence : U32
  maxLiveUntilLedger : U32
  channelAuth : ChannelAuth
  entryHash : EntryHash Digest
  nonceUnused : Address → ℤ → Bool
  accountSigned : Address → Digest → List AccountEd25519Signature → Bool
  transfer : Address → Transfer → W → Except Failure W

/-- The host takes an entry of `a` with this nonce and expiration. -/
def HostEnv.takes (E : HostEnv Digest W) (a : Address) (nonce : ℤ) (expiration : U32) : Bool :=
  E.sequence ≤ expiration ∧ expiration ≤ E.maxLiveUntilLedger ∧ E.nonceUnused a nonce = true

structure TransactionEntries where
  bundle : AuthorizationEntry Signatures
  deposits : List (AuthorizationEntry (List AccountEd25519Signature))

section Entry

variable {Sig : Type} (E : HostEnv Digest W) (e : AuthorizationEntry Sig)

def AuthorizationEntry.digest : Digest :=
  E.entryHash e.nonce e.signatureExpirationLedger e.rootInvocation

/-- The entry is for this call of `transact` and can still be used. -/
def AuthorizationEntry.covers (self a : Address) (args : List Val) : Bool :=
  e.address = a ∧ e.rootInvocation.contract = self ∧ e.rootInvocation.functionName = "transact" ∧
    e.rootInvocation.args = args ∧ E.takes a e.nonce e.signatureExpirationLedger = true

end Entry

/-- The host on `require_auth_for_args` in `transact`: for Channel Auth its
`__check_auth` decides, which takes the signatures of the bundle's entry and no
others. -/
def TransactionEntries.requireAuth (H : Host Digest) (E : HostEnv Digest W)
    (self authContract : Address) (t : TransactionEntries) : RequireAuth := fun a args =>
  if a = authContract then
    t.bundle.covers E self a args &&
      (checkAuth H E.sequence E.channelAuth (t.bundle.digest E) t.bundle.signature
        [t.bundle.rootInvocation.context]).isOk
  else
    t.deposits.any fun e =>
      e.covers E self a args && E.accountSigned a (e.digest E) e.signature

namespace ChannelOperationBuilder

/-- The entry of the bundle and one for every deposit. -/
def authorize (b : ChannelOperationBuilder) (nonce : Address → ℤ) (expiration : Address → U32) :
    Except BuilderFailure TransactionEntries := do
  let authContract := b.utxoBuilder.authContract
  let bundle ← b.utxoBuilder.getAuthEntry (nonce authContract) (expiration authContract)
  let deposits ← b.deposit.mapM fun e =>
    b.getAuthEntryForDeposit e.1 (nonce e.1) (expiration e.1)
  pure ⟨bundle, deposits⟩

def submit (H : Host Digest) [DecidableEq Digest] (E : HostEnv Digest W) (nonce : Address → ℤ)
    (expiration : Address → U32) (w : World Digest W) (b : ChannelOperationBuilder) :
    Except (BuilderFailure ⊕ Failure) (World Digest W) := do
  let t ← (b.authorize nonce expiration).mapError .inl
  let inv := ⟨E.sequence, t.requireAuth H E w.self b.utxoBuilder.authContract, E.transfer⟩
  (transact H inv w b.getOperationBundle).mapError .inr

end ChannelOperationBuilder

/-- The depositor has signed the entry that the builder makes for the deposit. -/
def DepositReady (E : HostEnv Digest W) (nonce : Address → ℤ) (expiration : Address → U32)
    (b : ChannelOperationBuilder) (accepted : List BuilderCall) (depositor : Address) : Prop :=
  ∃ sig d, .addDepositSignature depositor sig ∈ accepted ∧
    b.getAuthEntryPayloadHashForDeposit E.entryHash depositor (nonce depositor)
      (expiration depositor) = .ok d ∧
    E.accountSigned depositor d [sig] = true

section Entries

variable {H : Host Digest} {E : HostEnv Digest W} {b : ChannelOperationBuilder}
  {accepted : List BuilderCall} {nonce : Address → ℤ} {expiration : Address → U32}
  {e : Address × I128 × List Condition} {t : TransactionEntries}

def ChannelOperationBuilder.depositInvocation (b : ChannelOperationBuilder)
    (e : Address × I128 × List Condition) : AuthorizedInvocation :=
  ⟨b.utxoBuilder.channelContract, "transact", if e.2.2 = [] then [] else [.conditions e.2.2],
    [(b.asset, ⟨e.1, b.utxoBuilder.channelContract, e.2.1⟩)]⟩

theorem getDepositRootInvocation_eq (hb : WellBuilt H b) (he : e ∈ b.deposit) :
    b.getDepositRootInvocation e.1 = .ok (b.depositInvocation e) := by
  simp only [ChannelOperationBuilder.getDepositRootInvocation,
    ChannelOperationBuilder.getContractDepositAuthArgs, find_of_nodup hb.deposit_nodup he]
  rfl

theorem getAuthEntryForDeposit_ok (hb : WellBuilt H b) (hc : Collected b accepted)
    (he : e ∈ b.deposit) {n : ℤ} {last : U32}
    {entry : AuthorizationEntry (List AccountEd25519Signature)} :
    b.getAuthEntryForDeposit e.1 n last = .ok entry ↔
      ∃ sig, .addDepositSignature e.1 sig ∈ accepted ∧
        ⟨e.1, n, last, [sig], b.depositInvocation e⟩ = entry := by
  simp only [ChannelOperationBuilder.getAuthEntryForDeposit, getDepositRootInvocation_eq hb he,
    ChannelOperationBuilder.getDepositSignature, bind_eq_ok, pure_eq_ok, Except.ok.injEq,
    exists_eq_left', ← hc.depositSignMap]
  cases b.depositSignMap.lookup e.1 <;> simp

theorem authorize_deposits (hb : WellBuilt H b) (hc : Collected b accepted)
    (ht : b.authorize nonce expiration = .ok t) :
    (∀ e ∈ b.deposit, ∃ sig, .addDepositSignature e.1 sig ∈ accepted ∧
      ⟨e.1, nonce e.1, expiration e.1, [sig], b.depositInvocation e⟩ ∈ t.deposits) ∧
    ∀ x ∈ t.deposits, ∃ e ∈ b.deposit, ∃ sig, .addDepositSignature e.1 sig ∈ accepted ∧
      ⟨e.1, nonce e.1, expiration e.1, [sig], b.depositInvocation e⟩ = x := by
  simp only [ChannelOperationBuilder.authorize, bind_eq_ok, pure_eq_ok] at ht
  obtain ⟨bundle, -, deposits, hdeposits, rfl⟩ := ht
  obtain ⟨hto, hfrom⟩ := mapM_mem hdeposits
  constructor
  · intro e he
    obtain ⟨x, hx, hentry⟩ := hto e he
    obtain ⟨sig, hsig, rfl⟩ := (getAuthEntryForDeposit_ok hb hc he).mp hentry
    exact ⟨sig, hsig, hx⟩
  · intro x hx
    obtain ⟨e, he, hentry⟩ := hfrom x hx
    exact ⟨e, he, (getAuthEntryForDeposit_ok hb hc he).mp hentry⟩

theorem authorize_transfers (hb : WellBuilt H b) (hc : Collected b accepted)
    (ht : b.authorize nonce expiration = .ok t) :
    t.deposits.map (·.rootInvocation.transfers) =
      b.deposit.map fun e => [(b.asset, ⟨e.1, b.utxoBuilder.channelContract, e.2.1⟩)] := by
  simp only [ChannelOperationBuilder.authorize, bind_eq_ok, pure_eq_ok] at ht
  obtain ⟨bundle, -, deposits, hdeposits, rfl⟩ := ht
  apply mapM_map _ hdeposits
  intro e he x hx
  obtain ⟨sig, -, rfl⟩ := (getAuthEntryForDeposit_ok hb hc he).mp hx
  rfl

theorem authorize_bundle (ht : b.authorize nonce expiration = .ok t) :
    b.utxoBuilder.getAuthEntry (nonce b.utxoBuilder.authContract)
      (expiration b.utxoBuilder.authContract) = .ok t.bundle := by
  simp only [ChannelOperationBuilder.authorize, bind_eq_ok, pure_eq_ok] at ht
  obtain ⟨bundle, hbundle, deposits, -, rfl⟩ := ht
  exact hbundle

theorem authorize_exists (hb : WellBuilt H b) (hc : Collected b accepted)
    {bundle : AuthorizationEntry Signatures}
    (hbundle : b.utxoBuilder.getAuthEntry (nonce b.utxoBuilder.authContract)
      (expiration b.utxoBuilder.authContract) = .ok bundle)
    (hsigned : ∀ e ∈ b.deposit, ∃ sig, .addDepositSignature e.1 sig ∈ accepted) :
    ∃ t, b.authorize nonce expiration = .ok t ∧ t.bundle = bundle := by
  have hentries : ∀ e ∈ b.deposit,
      ∃ x, b.getAuthEntryForDeposit e.1 (nonce e.1) (expiration e.1) = .ok x := by
    intro e he
    obtain ⟨sig, hsig⟩ := hsigned e he
    exact ⟨_, (getAuthEntryForDeposit_ok hb hc he).mpr ⟨sig, hsig, rfl⟩⟩
  obtain ⟨deposits, hdeposits⟩ := mapM_exists hentries
  simp only [ChannelOperationBuilder.authorize, bind_eq_ok, pure_eq_ok]
  exact ⟨_, ⟨bundle, hbundle, deposits, hdeposits, rfl⟩, rfl⟩

theorem covers_iff {Sig : Type} {x : AuthorizationEntry Sig} {self a : Address}
    {args : List Val} : x.covers E self a args = true ↔
      x.address = a ∧ x.rootInvocation.contract = self ∧
        x.rootInvocation.functionName = "transact" ∧ x.rootInvocation.args = args ∧
        E.takes a x.nonce x.signatureExpirationLedger = true := by
  rw [AuthorizationEntry.covers, decide_eq_true_iff]

theorem authArgs_ne_conditions (req : AuthRequirements) (cs : List Condition) :
    authArgs req ≠ [.conditions cs] := by
  unfold authArgs
  split_ifs
  · simp
  · simp

/-- When a depositor's consent is found among the entries. -/
theorem depositor_granted_iff (hb : WellBuilt H b) (hc : Collected b accepted) {self : Address}
    (hself : b.utxoBuilder.channelContract = self) (ht : b.authorize nonce expiration = .ok t)
    (he : e ∈ b.deposit) :
    t.requireAuth H E self b.utxoBuilder.authContract e.1 [.conditions e.2.2] = true ↔
      e.1 ≠ b.utxoBuilder.authContract ∧ e.2.2 ≠ [] ∧
        E.takes e.1 (nonce e.1) (expiration e.1) = true ∧
        DepositReady E nonce expiration b accepted e.1 := by
  obtain ⟨hto, hfrom⟩ := authorize_deposits hb hc ht
  have hhash : b.getAuthEntryPayloadHashForDeposit E.entryHash e.1 (nonce e.1) (expiration e.1) =
      .ok (E.entryHash (nonce e.1) (expiration e.1) (b.depositInvocation e)) := by
    rw [ChannelOperationBuilder.getAuthEntryPayloadHashForDeposit,
      getDepositRootInvocation_eq hb he]
    rfl
  by_cases ha : e.1 = b.utxoBuilder.authContract
  -- Channel Auth would be asked with the entry of the bundle
  · obtain ⟨-, -, hbundle⟩ := getAuthEntry_ok.mp (authorize_bundle ht)
    have hrefused : ¬ t.bundle.covers E self e.1 [.conditions e.2.2] = true := by
      intro h
      obtain ⟨-, -, -, hargs, -⟩ := covers_iff.mp h
      rw [hbundle] at hargs
      exact authArgs_ne_conditions _ _ hargs
    rw [TransactionEntries.requireAuth, if_pos ha, Bool.and_eq_true]
    constructor
    · intro h
      exact absurd h.1 hrefused
    · intro h
      exact absurd ha h.1
  · rw [TransactionEntries.requireAuth, if_neg ha, List.any_eq_true]
    simp only [Bool.and_eq_true, covers_iff]
    constructor
    · intro h
      obtain ⟨x, hx, ⟨haddr, -, -, hargs, htakes⟩, hsigned⟩ := h
      obtain ⟨e', he', sig, hsig, rfl⟩ := hfrom x hx
      obtain rfl : e' = e := List.inj_on_of_nodup_map hb.deposit_nodup he' he haddr
      have hne : e'.2.2 ≠ [] := by
        intro hnil
        simp [ChannelOperationBuilder.depositInvocation, hnil] at hargs
      exact ⟨ha, hne, htakes, sig, _, hsig, hhash, hsigned⟩
    · intro h
      obtain ⟨-, hne, htakes, sig, d, hsig, hd, hsigned⟩ := h
      obtain ⟨sig', hsig', hmem⟩ := hto e he
      obtain rfl : sig' = sig := by
        have hlook := (hc.depositSignMap e.1 sig').mpr hsig'
        rw [(hc.depositSignMap e.1 sig).mpr hsig] at hlook
        exact (Option.some.inj hlook).symm
      obtain rfl := Except.ok.inj (hhash.symm.trans hd)
      have hargs : (b.depositInvocation e).args = [.conditions e.2.2] := if_neg hne
      exact ⟨_, hmem, ⟨rfl, hself, rfl, hargs, htakes⟩, hsigned⟩

/-- When the host asks Channel Auth, and it agrees. -/
theorem bundle_granted_iff {self : Address}
    (hself : b.utxoBuilder.channelContract = self) (ht : b.authorize nonce expiration = .ok t) :
    t.requireAuth H E self b.utxoBuilder.authContract b.utxoBuilder.authContract
        (authArgs (calculateAuthRequirements b.utxoBuilder.spend)) = true ↔
      E.takes b.utxoBuilder.authContract (nonce b.utxoBuilder.authContract)
          (expiration b.utxoBuilder.authContract) = true ∧
        ∃ st', checkAuth H E.sequence E.channelAuth (t.bundle.digest E) t.bundle.signature
          [t.bundle.rootInvocation.context] = .ok st' := by
  obtain ⟨-, -, hbundle⟩ := getAuthEntry_ok.mp (authorize_bundle ht)
  have haccepts (x : Except Failure ChannelAuth) : x.isOk = true ↔ ∃ st', x = .ok st' := by
    cases x <;> simp [Except.isOk, Except.toBool]
  rw [TransactionEntries.requireAuth, if_pos rfl, Bool.and_eq_true, haccepts, covers_iff]
  constructor
  · intro h
    obtain ⟨⟨-, -, -, -, htakes⟩, hcheck⟩ := h
    rw [hbundle] at htakes
    exact ⟨htakes, hcheck⟩
  · intro h
    obtain ⟨htakes, hcheck⟩ := h
    refine ⟨?_, hcheck⟩
    rw [hbundle]
    exact ⟨rfl, hself, rfl, rfl, htakes⟩

end Entries

/-- All that has to be in order for a built transaction: what the builder leaves to
the channel, the channel's state, the asset, and every signature. -/
structure ReadyToCommit [DecidableEq Digest] (H : Host Digest) (E : HostEnv Digest W)
    (nonce : Address → ℤ) (expiration : Address → U32) (w : World Digest W)
    (b : ChannelOperationBuilder) (accepted : List BuilderCall) : Prop where
  left : LeftToCheck H b.getOperationBundle
  enabled : (digestBundle H (b.utxoBuilder.spend.map Prod.fst) b.utxoBuilder.create).Enabled
    w.channel.utxo.store.ledger
  balanced : b.getOperationBundle.depositTotal +
      ((b.utxoBuilder.spend.map Prod.fst).map (w.channel.utxo.store.value H)).sum =
    (b.utxoBuilder.create.map fun p => p.2.toInt).sum + b.getOperationBundle.withdrawTotal
  supply_fits : w.channel.readSupply.toInt + b.getOperationBundle.depositTotal < 2 ^ 127
  transfers : ∃ asset, w.channel.asset = some asset ∧ ∃ s,
    (b.getOperationBundle.transfers w.self).foldlM (fun s t => E.transfer asset t s)
      w.assetState = .ok s
  bundle_taken : E.takes b.utxoBuilder.authContract (nonce b.utxoBuilder.authContract)
    (expiration b.utxoBuilder.authContract) = true
  provider : ProviderReady H E.sequence E.channelAuth
    (b.utxoBuilder.getAuthEntryPayloadHashForBundle E.entryHash
      (nonce b.utxoBuilder.authContract) (expiration b.utxoBuilder.authContract)) accepted
  owners : ∀ e ∈ b.utxoBuilder.spend, e.2 ≠ [] ∧
    SpendReady H E.sequence b.utxoBuilder accepted e.1
  depositors : ∀ e ∈ b.deposit, e.1 ≠ b.utxoBuilder.authContract ∧ e.2.2 ≠ [] ∧
    E.takes e.1 (nonce e.1) (expiration e.1) = true ∧
    DepositReady E nonce expiration b accepted e.1

section Commit

variable [DecidableEq Digest] {H : Host Digest} {E : HostEnv Digest W} {w : World Digest W}
  {b : ChannelOperationBuilder} {accepted : List BuilderCall} {nonce : Address → ℤ}
  {expiration : Address → U32}

theorem submit_ok {w' : World Digest W} : b.submit H E nonce expiration w = .ok w' ↔
    ∃ t, b.authorize nonce expiration = .ok t ∧
      transact H ⟨E.sequence, t.requireAuth H E w.self b.utxoBuilder.authContract, E.transfer⟩ w
        b.getOperationBundle = .ok w' := by
  simp only [ChannelOperationBuilder.submit, bind_eq_ok, mapError_eq_ok]

theorem ready_of_submit (hb : WellBuilt H b) (hc : Collected b accepted)
    (hself : b.utxoBuilder.channelContract = w.self)
    (hauth : w.channel.utxo.auth = some b.utxoBuilder.authContract) {w' : World Digest W}
    (h : b.submit H E nonce expiration w = .ok w') :
    ReadyToCommit H E nonce expiration w b accepted := by
  obtain ⟨t, ht, htransact⟩ := submit_ok.mp h
  have hadm := transact_admissible htransact
  obtain ⟨a, ha, hgranted⟩ := hadm.authorized
  obtain rfl : a = b.utxoBuilder.authContract := Option.some.inj (ha.symm.trans hauth)
  obtain ⟨htakes, st', hcheck⟩ := (bundle_granted_iff hself ht).mp hgranted
  obtain ⟨hprovider, howners⟩ := (hc.entry_accepted_iff hb E.entryHash _ _).mp
    ⟨t.bundle, st', authorize_bundle ht, hcheck⟩
  have hleft : LeftToCheck H b.getOperationBundle := hb.preProcess_iff.mp
    (preProcess_exists hadm.pre hadm.deposit_fits hadm.withdraw_fits hadm.sequences)
  have hdepositors : ∀ e ∈ b.deposit, e.1 ≠ b.utxoBuilder.authContract ∧ e.2.2 ≠ [] ∧
      E.takes e.1 (nonce e.1) (expiration e.1) = true ∧
      DepositReady E nonce expiration b accepted e.1 := by
    intro e he
    exact (depositor_granted_iff hb hc hself ht he).mp (hadm.depositors e he)
  exact ⟨hleft, hadm.enabled, hadm.balanced, hadm.supply_fits, hadm.transfers, htakes, hprovider,
    howners, hdepositors⟩

theorem ReadyToCommit.submits (hb : WellBuilt H b) (hc : Collected b accepted)
    (hself : b.utxoBuilder.channelContract = w.self)
    (hauth : w.channel.utxo.auth = some b.utxoBuilder.authContract) (hbacked : Backed w.channel)
    (hguard : w.channel.guard = false) (h : ReadyToCommit H E nonce expiration w b accepted) :
    ∃ w', b.submit H E nonce expiration w = .ok w' := by
  obtain ⟨bundle, st', hentry, hcheck⟩ :=
    (hc.entry_accepted_iff hb E.entryHash _ _).mpr ⟨h.provider, h.owners⟩
  have hsigned : ∀ e ∈ b.deposit, ∃ sig, .addDepositSignature e.1 sig ∈ accepted := by
    intro e he
    obtain ⟨-, -, -, sig, -, hsig, -⟩ := h.depositors e he
    exact ⟨sig, hsig⟩
  obtain ⟨t, ht, rfl⟩ := authorize_exists hb hc hentry hsigned
  obtain ⟨r, hr⟩ := hb.preProcess_iff.mpr h.left
  have hgranted := (bundle_granted_iff hself ht).mpr ⟨h.bundle_taken, st', hcheck⟩
  have hadm : Admissible H
      ⟨E.sequence, t.requireAuth H E w.self b.utxoBuilder.authContract, E.transfer⟩ w
      b.getOperationBundle :=
    { pre := (preProcess_ok hr).1
      deposit_fits := h.left.deposit_fits
      withdraw_fits := h.left.withdraw_fits
      sequences := hb.sequences
      enabled := h.enabled
      balanced := h.balanced
      supply_fits := h.supply_fits
      authorized := ⟨_, hauth, hgranted⟩
      depositors := by
        intro e he
        exact (depositor_granted_iff hb hc hself ht he).mpr (h.depositors e he)
      transfers := h.transfers }
  obtain ⟨w', hw'⟩ := (transact_exists_iff hbacked hguard).mpr hadm
  exact ⟨w', submit_ok.mpr ⟨t, ht, hw'⟩⟩

/-- In every reachable state of the channel, and whatever calls were made on a
builder: what it makes is submitted and committed exactly if everything is in
order, and the transfers that its entries authorize are those of the deposits. -/
theorem built_transaction_commits_iff (hw : Reachable H w) {authContract : Address}
    (hauth : w.channel.utxo.auth = some authContract) (E : HostEnv Digest W) (asset : Address)
    (nonce : Address → ℤ) (expiration : Address → U32) (calls : List BuilderCall) :
    let b := ChannelOperationBuilder.after H w.self authContract asset calls
    let accepted := BuilderCall.accepted H w.self authContract asset calls
    ((∃ w', b.submit H E nonce expiration w = .ok w') ↔
      ReadyToCommit H E nonce expiration w b accepted) ∧
    ∀ t, b.authorize nonce expiration = .ok t →
      t.deposits.map (·.rootInvocation.transfers) =
        b.deposit.map fun e => [(asset, ⟨e.1, w.self, e.2.1⟩)] := by
  intro b accepted
  have hb : WellBuilt H b := ChannelOperationBuilder.wellBuilt_after H w.self authContract asset _
  have hc : Collected b accepted :=
    ChannelOperationBuilder.collected_after H w.self authContract asset calls
  obtain ⟨hself, hcontract, hasset⟩ :=
    ChannelOperationBuilder.after_contracts H w.self authContract asset calls
  have hauth : w.channel.utxo.auth = some b.utxoBuilder.authContract :=
    hauth.trans (congrArg some hcontract.symm)
  obtain ⟨hbacked, hguard⟩ : Backed w.channel ∧ w.channel.guard = false := by
    obtain ⟨w₀, h₀, calls, rfl⟩ := hw
    exact ⟨Backed.of_run h₀ calls, guard_of_run h₀ calls⟩
  refine ⟨⟨?_, ?_⟩, ?_⟩
  · intro h
    obtain ⟨w', hw'⟩ := h
    exact ready_of_submit hb hc hself hauth hw'
  · intro h
    exact h.submits hb hc hself hauth hbacked hguard
  · intro t ht
    rw [authorize_transfers hb hc ht, hself, hasset]

end Commit

def sampleEnv : HostEnv Bytes Unit where
  sequence := 100
  maxLiveUntilLedger := 3110499
  channelAuth := sampleAuth
  entryHash := fun _ _ _ => samplePayload
  nonceUnused := fun _ _ => true
  accountSigned := fun _ _ _ => true
  transfer := fun _ _ s => .ok s

def sampleBuild : List BuilderCall :=
  [.addSpend (sampleKey 1) sampleConditions, .addCreate (sampleKey 2) (.ofByte 60),
    .addWithdraw (sampleAccount 6) (.ofByte 40) [],
    .addDeposit (sampleAccount 5) (.ofByte 30) [.create (sampleKey 3) (.ofByte 30)],
    .addCreate (sampleKey 3) (.ofByte 30), .addSpendSignature (sampleKey 1) sampleSignature 200,
    .addProviderSignature (.account sampleProvider) sampleSignature 200,
    .addDepositSignature (sampleAccount 5) ⟨sampleProvider, sampleSignature⟩]

theorem built_transaction_commits_sampleBuild :
    let H := sampleHost sampleSigned
    ReadyToCommit H sampleEnv (fun _ => 0) (fun _ => 200) sampleFunded
      (.after H (sampleContract 1) (sampleContract 2) (sampleContract 3) sampleBuild)
      (BuilderCall.accepted H (sampleContract 1) (sampleContract 2) (sampleContract 3)
        sampleBuild) := by
  intro H
  have hreachable : Reachable H sampleFunded := ⟨_, sampleWorld_deployed H (), _, rfl⟩
  have hauth : sampleFunded.channel.utxo.auth = some (sampleContract 2) := by decide +kernel
  have hsubmit : ∃ w', (ChannelOperationBuilder.after H (sampleContract 1) (sampleContract 2)
      (sampleContract 3) sampleBuild).submit H sampleEnv (fun _ => 0) (fun _ => 200)
        sampleFunded = .ok w' :=
    exists_ok (by decide +kernel)
  exact (built_transaction_commits_iff hreachable hauth sampleEnv (sampleContract 3) (fun _ => 0)
    (fun _ => 200) sampleBuild).1.mp hsubmit

end Moonlight
