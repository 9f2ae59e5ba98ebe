import Moonlight.Stellar
import Moonlight.TransactSpec
import Moonlight.Foundations.Callbacks

namespace Moonlight
open Foundations

variable {Digest W : Type} [DecidableEq Digest]

/-- Every entrypoint of the channel but `upgrade`. -/
inductive Entrypoint
  | admin
  | setAdmin (newAdmin : Address)
  | acceptAdmin
  | auth
  | utxoBalance (utxo : BytesN 65)
  | utxoBalances (utxos : List (BytesN 65))
  | asset
  | supply
  | transact (op : ChannelOperation)

inductive Reply
  | unit
  | address (a : Address)
  | amount (a : I128)
  | amounts (l : List I128)

/-- What the host and Ownable decide about one call: who has authorized what,
how `transfer_ownership` ends, and the owner that `accept_ownership` installs. -/
structure Verdicts where
  requireAuth : RequireAuth
  transferOwnership : Except Failure Unit
  acceptOwnership : Except Failure Address

def Entrypoint.exec (H : Host Digest) (now : U32) (asset : AssetTransfer Digest W)
    (w : World Digest W) (v : Verdicts) :
    Entrypoint → Except Failure (Reply × World Digest W)
  | .admin => do
    let owner ← okOr w.channel.owner .unwrapNone
    pure (.address owner, w)
  | .setAdmin _ => do
    v.transferOwnership
    pure (.unit, w)
  | .acceptAdmin => do
    let owner ← v.acceptOwnership
    pure (.unit, { w with channel := { w.channel with owner := some owner } })
  | .auth => do
    let auth ← okOr w.channel.utxo.auth (.contract .authContractNotSet)
    pure (.address auth, w)
  | .utxoBalance utxo =>
    let read := Moonlight.utxoBalance H now w.channel.utxo utxo
    pure (.amount read.1, { w with channel := { w.channel with utxo := read.2 } })
  | .utxoBalances utxos =>
    let read := Moonlight.utxoBalances H now w.channel.utxo utxos
    pure (.amounts read.1, { w with channel := { w.channel with utxo := read.2 } })
  | .asset => do
    let address ← okOr w.channel.asset .unwrapNone
    pure (.address address, w)
  | .supply => pure (.amount w.channel.readSupply, w)
  | .transact op => do
    let w ← transactWith H now v.requireAuth asset w op
    pure (.unit, w)

abbrev AssetProgram (W : Type) := Program (Verdicts × Entrypoint) Reply W Failure

/-- How the channel answers the asset's calls while `asset` is what a nested
`transact` would ask for its transfers. -/
def channelEnv (H : Host Digest) (now : U32) (asset : AssetTransfer Digest W) :
    Program.Env (Verdicts × Entrypoint) Reply W Failure (World Digest W) where
  get w := w.assetState
  put w state := { w with assetState := state }
  exec w request := request.2.exec H now asset w request.1

/-- The asset that runs `behaviour` on every transfer, with `depth` more levels of
calls below it. What it would do beyond them is `limit`. -/
def callingAsset (H : Host Digest) (now : U32) (behaviour : Address → Transfer → W → AssetProgram W)
    (limit : AssetTransfer Digest W) : ℕ → AssetTransfer Digest W
  | 0 => fun address t w => (behaviour address t w.assetState).run (channelEnv H now limit) w
  | depth + 1 => fun address t w =>
    (behaviour address t w.assetState).run
      (channelEnv H now (callingAsset H now behaviour limit depth)) w

/-- The asset calls of `transact`: `t` is asked of the asset at `address` when the
world is `w₁`. -/
def AssetCalled (H : Host Digest) (now : U32) (requireAuth : RequireAuth)
    (asset : AssetTransfer Digest W) (w : World Digest W) (op : ChannelOperation)
    (address : Address) (t : Transfer) (w₁ : World Digest W) : Prop :=
  ∃ c, processOperation H now requireAuth w.channel op = .ok c ∧ c.asset = some address ∧
    ((∃ done e rest, op.deposit = done ++ e :: rest ∧
        done.foldlM (depositStep requireAuth (asset address)) { w with channel := c } = .ok w₁ ∧
        requireAuth e.1 [.conditions e.2.2] = true ∧ t = ⟨e.1, w₁.self, e.2.1⟩) ∨
      ∃ w₂ done e rest,
        op.deposit.foldlM (depositStep requireAuth (asset address)) { w with channel := c } =
          .ok w₂ ∧
        op.withdraw = done ++ e :: rest ∧
        done.foldlM (withdrawStep (asset address)) w₂ = .ok w₁ ∧ t = ⟨w₁.self, e.1, e.2.1⟩)

/-- From `w` to `w'` the UTXO amounts and the guard have stayed and `supply` has
moved by `δ`. -/
structure Kept (w w' : World Digest W) (δ : ℤ) : Prop where
  amounts : ∀ d, w'.channel.utxo.store.get d = w.channel.utxo.store.get d
  guard : w'.channel.guard = w.channel.guard
  supply : w'.channel.readSupply.toInt = w.channel.readSupply.toInt + δ

variable {H : Host Digest} {now : U32} {w w' w'' : World Digest W}

theorem Kept.refl (w : World Digest W) : Kept w w 0 := ⟨fun _ => rfl, rfl, by simp⟩

theorem Kept.trans {δ δ' : ℤ} (h : Kept w w' δ) (h' : Kept w' w'' δ') : Kept w w'' (δ + δ') where
  amounts d := (h'.amounts d).trans (h.amounts d)
  guard := h'.guard.trans h.guard
  supply := by rw [h'.supply, h.supply, add_assoc]

theorem utxoBalances_get (s : UtxoState Digest) (utxos : List (BytesN 65)) (d : Digest) :
    (utxoBalances H now s utxos).2.store.get d = s.store.get d := by
  induction utxos using List.reverseRecOn with
  | nil => rfl
  | append_singleton us u ih =>
    rw [utxoBalances, List.foldl_append]
    exact (Store.get_balance d).trans ih

theorem transactWith_guarded {requireAuth : RequireAuth} {asset : AssetTransfer Digest W}
    {op : ChannelOperation} (hw : w.channel.guard = true) :
    transactWith H now requireAuth asset w op = .error (.contract .reentrantCall) := by
  have hguard (c : Channel Digest) (hc : c.guard = true) :
      enterReentrancyGuard c = .error (.contract .reentrantCall) := by
    rw [enterReentrancyGuard, hc]
    rfl
  rw [transactWith, processOperation,
    hguard { w.channel with liveUntil := bumpInstanceTtl now w.channel.liveUntil } hw]
  rfl

theorem Entrypoint.kept {asset : AssetTransfer Digest W} {v : Verdicts} {e : Entrypoint} {r : Reply}
    (hw : w.channel.guard = true) (h : e.exec H now asset w v = .ok (r, w')) : Kept w w' 0 := by
  cases e with
  | admin | setAdmin newAdmin | auth | asset =>
    simp only [exec, bind_eq_ok, pure_eq_ok, Prod.mk.injEq] at h
    obtain ⟨_, -, -, rfl⟩ := h
    exact .refl w
  | acceptAdmin =>
    simp only [exec, bind_eq_ok, pure_eq_ok, Prod.mk.injEq] at h
    obtain ⟨_, -, -, rfl⟩ := h
    exact ⟨fun _ => rfl, rfl, (add_zero _).symm⟩
  -- a read refreshes the life of an entry and leaves its amount
  | utxoBalance utxo =>
    simp only [exec, pure_eq_ok, Prod.mk.injEq] at h
    obtain ⟨-, rfl⟩ := h
    exact ⟨fun _ => Store.get_balance _, rfl, (add_zero _).symm⟩
  | utxoBalances utxos =>
    simp only [exec, pure_eq_ok, Prod.mk.injEq] at h
    obtain ⟨-, rfl⟩ := h
    exact ⟨fun _ => utxoBalances_get _ _ _, rfl, (add_zero _).symm⟩
  | supply =>
    simp only [exec, pure_eq_ok, Prod.mk.injEq] at h
    obtain ⟨-, rfl⟩ := h
    exact .refl w
  | transact op =>
    rw [exec, transactWith_guarded hw] at h
    cases h

/-- An asset under which a guarded channel keeps its funds while it is asked for
a transfer. -/
def Harmless (asset : AssetTransfer Digest W) : Prop :=
  ∀ address t w w', w.channel.guard = true → asset address t w = .ok w' → Kept w w' 0

def GuardedFrom (w w' : World Digest W) : Prop := w'.channel.guard = true ∧ Kept w w' 0

section Programs

variable {asset : AssetTransfer Digest W}

theorem guardedFrom_put (state : W) (h : GuardedFrom w w') :
    GuardedFrom w ((channelEnv H now asset).put w' state) :=
  ⟨h.1, h.2.amounts, h.2.guard, h.2.supply⟩

theorem guardedFrom_exec {q : Verdicts × Entrypoint} {r : Reply} (h : GuardedFrom w w')
    (he : (channelEnv H now asset).exec w' q = .ok (r, w'')) : GuardedFrom w w'' := by
  have hkept : Kept w' w'' 0 := Entrypoint.kept h.1 he
  exact ⟨hkept.guard.trans h.1, h.2.trans hkept⟩

theorem program_kept {p : AssetProgram W} (hw : w.channel.guard = true)
    (h : p.run (channelEnv H now asset) w = .ok w') : Kept w w' 0 := by
  apply (Program.run_invariant (I := GuardedFrom w) _ _ p ⟨hw, .refl w⟩ h).2
  · intro w' state h
    exact guardedFrom_put state h
  · intro w' q r w'' h he
    exact guardedFrom_exec h he

/-- A request that is not a `transact`, or is one that fails without reaching any
asset. -/
def TransactRejected (H : Host Digest) (now : U32) (w : World Digest W)
    (request : Verdicts × Entrypoint) : Prop :=
  ∀ op, request.2 = .transact op → ∀ inner : AssetTransfer Digest W,
    request.2.exec H now inner w request.1 = .error (.contract .reentrantCall)

theorem program_rejected {p : AssetProgram W} (hw : w.channel.guard = true) :
    p.Along (channelEnv H now asset) (TransactRejected H now) w := by
  apply Program.along_of_invariant (I := GuardedFrom w) _ _ _ p ⟨hw, .refl w⟩
  · intro w' state h
    exact guardedFrom_put state h
  · intro w' q r w'' h he
    exact guardedFrom_exec h he
  -- `inner` plays no part: the guard is checked before any asset is called
  · intro w' q h op hop inner
    rw [hop, Entrypoint.exec, transactWith_guarded h.1]
    rfl

theorem callingAsset_harmless (behaviour : Address → Transfer → W → AssetProgram W)
    (limit : AssetTransfer Digest W) (depth : ℕ) :
    Harmless (callingAsset H now behaviour limit depth) := by
  intro address t w w' hw h
  cases depth with
  | zero => exact program_kept hw h
  | succ depth => exact program_kept hw h

end Programs

theorem Invocation.asset_harmless (inv : Invocation W) :
    Harmless (inv.asset : AssetTransfer Digest W) := by
  intro address t w w' _ h
  simp only [Invocation.asset, bind_eq_ok, pure_eq_ok] at h
  obtain ⟨_, -, rfl⟩ := h
  exact ⟨fun _ => rfl, rfl, (add_zero _).symm⟩

section Loops

variable {requireAuth : RequireAuth} {asset : AssetTransfer Digest W} {address : Address}
  {e : Address × I128 × List Condition} {op : ChannelOperation}

theorem callTransfer_kept (hasset : Harmless asset) (hw : w.channel.guard = true) {t : Transfer}
    (h : callTransfer (asset address) t w = .ok w') : Kept w w' 0 := by
  simp only [callTransfer, bind_eq_ok, pure_eq_ok] at h
  obtain ⟨w₁, hcall, rfl⟩ := h
  have hkept : Kept w w₁ 0 := hasset _ _ _ _ hw hcall
  exact ⟨hkept.amounts, hkept.guard, hkept.supply⟩

theorem depositStep_kept (hasset : Harmless asset) (hw : w.channel.guard = true)
    (h : depositStep requireAuth (asset address) w e = .ok w') : Kept w w' e.2.1.toInt := by
  simp only [depositStep, increaseSupply, bind_eq_ok, pure_eq_ok, okOr_eq_ok,
    I128.checkedAdd_eq_some] at h
  obtain ⟨-, -, w₁, hcall, _, ⟨supply, hsupply, rfl⟩, rfl⟩ := h
  have hkept := callTransfer_kept hasset hw hcall
  refine ⟨hkept.amounts, hkept.guard, ?_⟩
  have hbefore := hkept.supply
  show supply.toInt = _
  omega

theorem withdrawStep_kept (hasset : Harmless asset) (hw : w.channel.guard = true)
    (h : withdrawStep (asset address) w e = .ok w') : Kept w w' (-e.2.1.toInt) := by
  simp only [withdrawStep, decreaseSupply, bind_eq_ok, pure_eq_ok, okOr_eq_ok,
    I128.checkedSub_eq_some] at h
  obtain ⟨w₁, hcall, _, ⟨supply, hsupply, rfl⟩, rfl⟩ := h
  have hkept := callTransfer_kept hasset hw hcall
  refine ⟨hkept.amounts, hkept.guard, ?_⟩
  have hbefore := hkept.supply
  show supply.toInt = _
  omega

theorem keptLoop {step : World Digest W → Address × I128 × List Condition →
      Except Failure (World Digest W)} {δ : Address × I128 × List Condition → ℤ}
    (hstep : ∀ w e w', w.channel.guard = true → step w e = .ok w' → Kept w w' (δ e))
    {l : List (Address × I128 × List Condition)} (hw : w.channel.guard = true)
    (h : l.foldlM step w = .ok w') : Kept w w' (l.map δ).sum := by
  induction l generalizing w with
  | nil =>
    rw [List.foldlM_nil, pure_eq_ok] at h
    exact h ▸ .refl w
  | cons e l ih =>
    obtain ⟨m, hm, hrest⟩ := foldlM_cons_ok.mp h
    have hfirst := hstep w e m hw hm
    exact hfirst.trans (ih (hfirst.guard.trans hw) hrest)

theorem depositLoop_kept (hasset : Harmless asset) (hw : w.channel.guard = true)
    {l : List (Address × I128 × List Condition)}
    (h : l.foldlM (depositStep requireAuth (asset address)) w = .ok w') :
    Kept w w' (l.map fun e => e.2.1.toInt).sum :=
  keptLoop (fun _ _ _ hw h => depositStep_kept hasset hw h) hw h

theorem withdrawLoop_kept (hasset : Harmless asset) (hw : w.channel.guard = true)
    {l : List (Address × I128 × List Condition)}
    (h : l.foldlM (withdrawStep (asset address)) w = .ok w') :
    Kept w w' (l.map fun e => -e.2.1.toInt).sum :=
  keptLoop (fun _ _ _ hw h => withdrawStep_kept hasset hw h) hw h

theorem processOperation_guard {c c' : Channel Digest}
    (h : processOperation H now requireAuth c op = .ok c') : c'.guard = true := by
  simp only [processOperation, enterReentrancyGuard, bind_eq_ok, pure_eq_ok] at h
  obtain ⟨_, ⟨-, -, rfl⟩, _, -, _, -, rfl⟩ := h
  rfl

theorem AssetCalled.guard (hasset : Harmless asset) {t : Transfer}
    (h : AssetCalled H now requireAuth asset w op address t w') : w'.channel.guard = true := by
  obtain ⟨c, hc, -, ⟨done, e, rest, -, hdone, -⟩ | ⟨w₂, done, e, rest, hdeposit, -, hdone, -⟩⟩ := h
  · exact (depositLoop_kept hasset (processOperation_guard hc) hdone).guard.trans
      (processOperation_guard hc)
  -- the guard is raised in phase one and kept by every pass so far
  · have hmid := (depositLoop_kept hasset (processOperation_guard hc) hdeposit).guard.trans
      (processOperation_guard hc)
    exact (withdrawLoop_kept hasset hmid hdone).guard.trans hmid

/-- The amounts that a committed call leaves are those of its bundle, and its
`supply` follows from the lists, if the asset is harmless. -/
theorem transactWith_kept (hasset : Harmless asset)
    (h : transactWith H now requireAuth asset w op = .ok w') :
    ∃ c, processOperation H now requireAuth w.channel op = .ok c ∧
      (∀ d, w'.channel.utxo.store.get d = c.utxo.store.get d) ∧
      w'.channel.readSupply.toInt = c.readSupply.toInt +
        ((op.deposit.map fun e => e.2.1.toInt).sum +
          (op.withdraw.map fun e => -e.2.1.toInt).sum) := by
  obtain ⟨c, w₁, hc, hexec, rfl⟩ := transactWith_phases h
  simp only [executeExternalOperations, bind_eq_ok] at hexec
  obtain ⟨address, -, m, hdeposit, hwithdraw⟩ := hexec
  have hfirst := depositLoop_kept hasset (processOperation_guard hc) hdeposit
  have hguard := hfirst.guard.trans (processOperation_guard hc)
  have hsecond := withdrawLoop_kept hasset hguard hwithdraw
  have hboth := hfirst.trans hsecond
  exact ⟨c, hc, hboth.amounts, hboth.supply⟩

theorem transactWith_funds {asset' : AssetTransfer Digest W} (hasset : Harmless asset)
    (hasset' : Harmless asset') (h : transactWith H now requireAuth asset w op = .ok w')
    (h' : transactWith H now requireAuth asset' w op = .ok w'') :
    (∀ d, w'.channel.utxo.store.get d = w''.channel.utxo.store.get d) ∧
      w'.channel.readSupply = w''.channel.readSupply := by
  obtain ⟨c, hc, hget, hsupply⟩ := transactWith_kept hasset h
  obtain ⟨c', hc', hget', hsupply'⟩ := transactWith_kept hasset' h'
  -- both start phase three from the same channel
  obtain rfl := Except.ok.inj (hc.symm.trans hc')
  refine ⟨?_, ?_⟩
  · intro d
    rw [hget, hget']
  · apply I128.toInt_injective
    rw [hsupply, hsupply']

def quietInvocation (now : U32) (requireAuth : RequireAuth) : Invocation W where
  sequence := now
  requireAuth := requireAuth
  transfer _ _ state := .ok state

def SameSupply (w v : World Digest W) : Prop :=
  w.channel.guard = true ∧ v.channel.readSupply = w.channel.readSupply

theorem Kept.readSupply_eq (h : Kept w w' 0) : w'.channel.readSupply = w.channel.readSupply := by
  apply I128.toInt_injective
  rw [h.supply, add_zero]

omit [DecidableEq Digest] in
theorem callTransfer_quiet (now : U32) (requireAuth : RequireAuth) (address : Address)
    (t : Transfer) (v : World Digest W) :
    callTransfer ((quietInvocation now requireAuth).asset address) t v =
      .ok { v with transfers := v.transfers ++ [t] } := rfl

theorem depositStep_quiet (hasset : Harmless asset) (now : U32) {v : World Digest W}
    (hv : SameSupply w v) (h : depositStep requireAuth (asset address) w e = .ok w') :
    ∃ v', depositStep requireAuth ((quietInvocation now requireAuth).asset address) v e = .ok v' ∧
      SameSupply w' v' := by
  have hguard := (depositStep_kept hasset hv.1 h).guard.trans hv.1
  simp only [depositStep, increaseSupply, bind_eq_ok, pure_eq_ok, okOr_eq_ok] at h
  obtain ⟨u, hauth, w₁, hcall, _, ⟨supply, hsupply, rfl⟩, rfl⟩ := h
  -- the asset has not touched `supply`, so both add to the same number
  rw [(callTransfer_kept hasset hv.1 hcall).readSupply_eq, ← hv.2] at hsupply
  simp only [depositStep, callTransfer_quiet, increaseSupply, bind_eq_ok, pure_eq_ok, okOr_eq_ok]
  exact ⟨_, ⟨u, hauth, _, rfl, _, ⟨supply, hsupply, rfl⟩, rfl⟩, hguard, rfl⟩

theorem withdrawStep_quiet (hasset : Harmless asset) (now : U32) (requireAuth : RequireAuth)
    {v : World Digest W} (hv : SameSupply w v)
    (h : withdrawStep (asset address) w e = .ok w') :
    ∃ v', withdrawStep ((quietInvocation now requireAuth).asset address) v e = .ok v' ∧
      SameSupply w' v' := by
  have hguard := (withdrawStep_kept hasset hv.1 h).guard.trans hv.1
  simp only [withdrawStep, decreaseSupply, bind_eq_ok, pure_eq_ok, okOr_eq_ok] at h
  obtain ⟨w₁, hcall, _, ⟨supply, hsupply, rfl⟩, rfl⟩ := h
  rw [(callTransfer_kept hasset hv.1 hcall).readSupply_eq, ← hv.2] at hsupply
  simp only [withdrawStep, callTransfer_quiet, decreaseSupply, bind_eq_ok, pure_eq_ok, okOr_eq_ok]
  exact ⟨_, ⟨_, rfl, _, ⟨supply, hsupply, rfl⟩, rfl⟩, hguard, rfl⟩

/-- What commits with a harmless asset commits with the quiet one. -/
theorem transact_quiet (hasset : Harmless asset)
    (h : transactWith H now requireAuth asset w op = .ok w') :
    ∃ v, transact H (quietInvocation now requireAuth) w op = .ok v := by
  obtain ⟨c, w₁, hc, hexec, rfl⟩ := transactWith_phases h
  simp only [executeExternalOperations, bind_eq_ok, okOr_eq_ok] at hexec
  obtain ⟨address, haddress, m, hdeposit, hwithdraw⟩ := hexec
  have hstart : SameSupply { w with channel := c } { w with channel := c } :=
    ⟨processOperation_guard hc, rfl⟩
  obtain ⟨v, hv, hmid⟩ : ∃ v, op.deposit.foldlM (depositStep requireAuth
      ((quietInvocation now requireAuth).asset address)) { w with channel := c } = .ok v ∧
      SameSupply m v := by
    refine foldlM_simulation ?_ hstart hdeposit
    intro s t e s' hst hs
    exact depositStep_quiet hasset now hst hs
  obtain ⟨v', hv', -⟩ : ∃ v', op.withdraw.foldlM (withdrawStep
      ((quietInvocation now requireAuth).asset address)) v = .ok v' ∧ SameSupply w₁ v' := by
    refine foldlM_simulation ?_ hmid hwithdraw
    intro s t e s' hst hs
    exact withdrawStep_quiet hasset now requireAuth hst hs
  simp only [transact, transactWith, executeExternalOperations, bind_eq_ok, pure_eq_ok, okOr_eq_ok]
  exact ⟨_, c, hc, v', ⟨address, haddress, v, hv, hv'⟩, rfl⟩

end Loops

structure OuterCall (W : Type) where
  sequence : U32
  requireAuth : RequireAuth
  behaviour : Address → Transfer → W → AssetProgram W
  op : ChannelOperation

def OuterCall.asset (H : Host Digest) (limit : AssetTransfer Digest W) (depth : ℕ)
    (c : OuterCall W) : AssetTransfer Digest W :=
  callingAsset H c.sequence c.behaviour limit depth

def OuterCall.exec (H : Host Digest) (limit : AssetTransfer Digest W) (depth : ℕ)
    (w : World Digest W) (c : OuterCall W) : Except Failure (World Digest W) :=
  transactWith H c.sequence c.requireAuth (c.asset H limit depth) w c.op

theorem OuterCall.guard {limit : AssetTransfer Digest W} {depth : ℕ} {c : OuterCall W}
    (h : c.exec H limit depth w = .ok w') : w'.channel.guard = false := by
  obtain ⟨_, _, -, -, rfl⟩ := transactWith_phases h
  rfl

/-- Calling back has no effect. Over every run of outer calls, whatever the
asset's programs do: the guard is down before and after each call; every
`transact` that a program sends is rejected without reaching an asset; and a call
that commits would commit with an asset that calls nobody, and every such asset
under which it does leaves the same amounts and the same `supply`. -/
theorem reentrancy_has_no_effect (limit : AssetTransfer Digest W) (depth : ℕ)
    {w₀ : World Digest W} (h₀ : Deployed H w₀) (calls : List (OuterCall W)) :
    let exec := OuterCall.exec H limit depth
    let w := stateAt exec w₀ calls
    (∀ i, (w i).channel.guard = false) ∧
    (∀ i c, calls[i]? = some c → ∀ address t w₁,
      AssetCalled H c.sequence c.requireAuth (c.asset H limit depth) (w i) c.op address t w₁ →
        ∀ inner, (c.behaviour address t w₁.assetState).Along (channelEnv H c.sequence inner)
          (TransactRejected H c.sequence) w₁) ∧
    ∀ i c w', CommitsAt exec w₀ calls i c w' →
      (∃ v, transact H (quietInvocation c.sequence c.requireAuth) (w i) c.op = .ok v) ∧
      ∀ transfer v, transact H ⟨c.sequence, c.requireAuth, transfer⟩ (w i) c.op = .ok v →
        (∀ d, w'.channel.utxo.store.get d = v.channel.utxo.store.get d) ∧
          w'.channel.readSupply = v.channel.readSupply := by
  intro exec w
  have hharmless (c : OuterCall W) : Harmless (c.asset H limit depth) :=
    callingAsset_harmless c.behaviour limit depth
  refine ⟨?_, ?_, ?_⟩
  · intro i
    apply run_invariant (I := fun w : World Digest W => w.channel.guard = false)
    · intro w w' c _ _ h
      exact OuterCall.guard h
    · exact h₀.guard
  · intro i c _ address t w₁ hcalled inner
    exact program_rejected (hcalled.guard (hharmless c))
  · intro i c w' h
    refine ⟨transact_quiet (hharmless c) h.2, ?_⟩
    intro transfer v hv
    exact transactWith_funds (hharmless c) (Invocation.asset_harmless _) h.2 hv

def openVerdicts : Verdicts := ⟨fun _ _ => true, .ok (), .ok (sampleAccount 9)⟩

/-- An asset that makes itself the owner in a frame that it then drops, tries the
sample deposit a second time, swallows the failure, and returns. -/
def meddlingProgram : AssetProgram Unit :=
  .attempt () (.call () (openVerdicts, .acceptAdmin) fun _ _ => .trap .unwrapNone) fun _ _ =>
    .call () (openVerdicts, .transact sampleDeposit) fun _ _ => .ret ()

def meddledDeposit : OuterCall Unit :=
  ⟨100, (sampleCall sampleSigned sampleDeposit).inv.requireAuth, fun _ _ _ => meddlingProgram,
    sampleDeposit⟩

theorem reentrancy_meddledDeposit :
    let H := sampleHost sampleSigned
    let limit : AssetTransfer Bytes Unit := fun _ _ w => .ok w
    ∃ w', CommitsAt (OuterCall.exec H limit 2) (sampleWorld H ()) [meddledDeposit] 0 meddledDeposit
        w' ∧
      ∃ v, transact H (quietInvocation 100 meddledDeposit.requireAuth) (sampleWorld H ())
          sampleDeposit = .ok v ∧
        w'.channel.readSupply = v.channel.readSupply := by
  intro H limit
  obtain ⟨w', h⟩ := exists_ok (x := OuterCall.exec H limit 2 (sampleWorld H ()) meddledDeposit)
    (by decide +kernel)
  obtain ⟨-, -, hcommit⟩ := reentrancy_has_no_effect limit 2 (sampleWorld_deployed H ())
    [meddledDeposit]
  obtain ⟨⟨v, hv⟩, hsame⟩ := hcommit 0 meddledDeposit w' ⟨rfl, h⟩
  exact ⟨w', ⟨rfl, h⟩, v, hv, (hsame _ v hv).2⟩

end Moonlight
