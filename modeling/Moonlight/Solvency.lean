import Moonlight.Conservation
import Moonlight.Token

namespace Moonlight
open Foundations

variable {Digest : Type}

/-- A transaction of a channel whose asset is the token. `auth` is what the
host answers when the token asks for the payer of a transfer. -/
def tokenInvocation (sequence : U32) (requireAuth : RequireAuth)
    (auth : Transfer → Address → Bool) : Invocation Token :=
  ⟨sequence, requireAuth, fun _ x t => t.transfer (auth x) x⟩

inductive SystemCall
  | transact (sequence : U32) (requireAuth : RequireAuth) (auth : Transfer → Address → Bool)
      (op : ChannelOperation)
  | token (c : TokenCall)

def SystemCall.exec [DecidableEq Digest] (H : Host Digest) (w : World Digest Token) :
    SystemCall → Except Failure (World Digest Token)
  | transact sequence requireAuth auth op =>
    Moonlight.transact H (tokenInvocation sequence requireAuth auth) w op
  | token c => do
    let t ← c.exec w.assetState
    pure { w with assetState := t }

/-- The channel authorizes nothing but the transfers of its withdraw loop: no
deposit and no call of the token from outside. -/
def SystemCall.RefusesSelf (self : Address) : SystemCall → Prop
  | transact _ requireAuth _ _ => ∀ args, requireAuth self args = false
  | token c => c.auth self = false

/-- A token as it stands when the channel is deployed: constructed, and called
by any addresses but the channel's. -/
def TokenBefore (self : Address) (t : Token) : Prop :=
  ∃ admin decimal name symbol t₀, Token.construct admin decimal name symbol = .ok t₀ ∧
    ∃ calls : List TokenCall, (∀ c ∈ calls, c.auth self = false) ∧
      t = run (fun t c => TokenCall.exec t c) t₀ calls

/-- The channel's tokens cover `supply`, and the channel has approved no one. -/
structure Covered (w : World Digest Token) : Prop where
  supply : w.channel.readSupply.toInt ≤ w.assetState.balance w.self
  noAllowance : w.assetState.NoAllowance w.self

section Loops

variable {requireAuth : RequireAuth} {auth : Transfer → Address → Bool} {sequence : U32}
  {address : Address} {w w' : World Digest Token} {e : Address × I128 × List Condition}

theorem Covered.depositStep (hw : Covered w) (hself : ∀ args, requireAuth w.self args = false)
    (h : depositStep requireAuth ((tokenInvocation sequence requireAuth auth).asset address) w e =
      .ok w') : Covered w' := by
  obtain ⟨hauth, htransfer, hmoved⟩ := depositStep_ok h
  obtain ⟨-, -, hbalance, hallow⟩ := Token.transfer_ok htransfer
  have hne : w.self ≠ e.1 := by
    intro he
    rw [← he, hself] at hauth
    cases hauth
  refine ⟨?_, ?_⟩
  · have := hw.supply
    rw [hmoved.supply, hmoved.self, hbalance, if_neg hne, if_pos rfl]
    simp only
    omega
  · rw [hmoved.self]
    exact hw.noAllowance.congr hallow

/-- A withdraw lowers `supply` by what leaves the channel, or by more if it is
paid to the channel. -/
theorem Covered.withdrawStep (hw : Covered w)
    (h : withdrawStep ((tokenInvocation sequence requireAuth auth).asset address) w e = .ok w') :
    Covered w' := by
  obtain ⟨htransfer, hmoved⟩ := withdrawStep_ok h
  obtain ⟨-, hpos, hbalance, hallow⟩ := Token.transfer_ok htransfer
  refine ⟨?_, ?_⟩
  · have := hw.supply
    rw [hmoved.supply, hmoved.self, hbalance, if_pos rfl]
    simp only at hpos ⊢
    split_ifs <;> omega
  · rw [hmoved.self]
    exact hw.noAllowance.congr hallow

theorem Covered.executeExternalOperations
    {deposit withdraw : List (Address × I128 × List Condition)} (hw : Covered w)
    (hself : ∀ args, requireAuth w.self args = false)
    (h : executeExternalOperations requireAuth (tokenInvocation sequence requireAuth auth).asset w
      deposit withdraw = .ok w') : Covered w' := by
  simp only [Moonlight.executeExternalOperations, bind_eq_ok, okOr_eq_ok] at h
  obtain ⟨address, -, m, hdep, hwith⟩ := h
  -- the deposit loop keeps the channel's address, which is what excludes it as a depositor
  have hm : Covered m ∧ m.self = w.self := by
    apply foldlM_invariant (I := fun m => Covered m ∧ m.self = w.self) _ ⟨hw, rfl⟩ hdep
    intro s t e _ hs ht
    refine ⟨hs.1.depositStep ?_ ht, (depositStep_ok ht).2.2.self.trans hs.2⟩
    rw [hs.2]
    exact hself
  exact foldlM_invariant (fun s t e _ hs ht => hs.withdrawStep ht) hm.1 hwith

end Loops

variable [DecidableEq Digest]

/-- What every reachable state of the system keeps. -/
structure Solvent (w : World Digest Token) : Prop where
  backed : Backed w.channel
  covered : Covered w

variable {H : Host Digest} {w w' : World Digest Token}

theorem Solvent.transact {sequence : U32} {requireAuth : RequireAuth}
    {auth : Transfer → Address → Bool} {op : ChannelOperation} (hw : Solvent w)
    (hself : ∀ args, requireAuth w.self args = false)
    (h : transact H (tokenInvocation sequence requireAuth auth) w op = .ok w') : Solvent w' := by
  refine ⟨(transact_ok h).backed hw.backed, ?_⟩
  obtain ⟨c, w₁, hc, hx, rfl⟩ := transact_phases h
  have hsupply := (processOperation_ok hc).2.2.1
  have hmid : Covered { w with channel := c } := by
    refine ⟨?_, hw.covered.noAllowance⟩
    show (c.supply.getD 0).toInt ≤ _
    rw [hsupply]
    exact hw.covered.supply
  have hend := hmid.executeExternalOperations hself hx
  exact ⟨hend.supply, hend.noAllowance⟩

theorem Solvent.token {c : TokenCall} {t : Token} (hw : Solvent w) (hself : c.auth w.self = false)
    (h : c.exec w.assetState = .ok t) : Solvent { w with assetState := t } := by
  have hkept := c.untouched hw.covered.noAllowance hself h
  exact ⟨hw.backed, hw.covered.supply.trans hkept.balance, hkept.noAllowance⟩

theorem SystemCall.exec_self {c : SystemCall} (h : c.exec H w = .ok w') : w'.self = w.self := by
  cases c with
  | transact sequence requireAuth auth op => exact (transact_ok h).self
  | token c =>
    simp only [SystemCall.exec, bind_eq_ok, pure_eq_ok] at h
    obtain ⟨t, -, rfl⟩ := h
    rfl

theorem Solvent.exec {c : SystemCall} (hw : Solvent w) (hself : c.RefusesSelf w.self)
    (h : c.exec H w = .ok w') : Solvent w' := by
  cases c with
  | transact sequence requireAuth auth op => exact hw.transact hself h
  | token c =>
    simp only [SystemCall.exec, bind_eq_ok, pure_eq_ok] at h
    obtain ⟨t, ht, rfl⟩ := h
    exact hw.token hself ht

theorem TokenBefore.untouched {self : Address} {t : Token} (h : TokenBefore self t) :
    0 ≤ t.balance self ∧ t.NoAllowance self := by
  obtain ⟨admin, decimal, name, symbol, t₀, hconstruct, calls, hcalls, rfl⟩ := h
  simp only [Token.construct, bind_eq_ok, ensure_eq_ok, pure_eq_ok] at hconstruct
  obtain ⟨-, -, rfl⟩ := hconstruct
  apply run_invariant (I := fun t : Token => 0 ≤ t.balance self ∧ t.NoAllowance self)
  · intro t t' c hc ht h
    have hkept := c.untouched ht.2 (hcalls c hc) h
    exact ⟨ht.1.trans hkept.balance, hkept.noAllowance⟩
  · exact ⟨le_rfl, fun _ => rfl⟩

theorem Solvent.of_deployed (h : Deployed H w) (ht : TokenBefore w.self w.assetState) :
    Solvent w := by
  obtain ⟨hbalance, hallow⟩ := ht.untouched
  refine ⟨.of_deployed h, ?_, hallow⟩
  rw [Channel.readSupply, h.storage.2]
  exact hbalance

theorem Solvent.of_run {w₀ : World Digest Token} (h₀ : Deployed H w₀)
    (ht : TokenBefore w₀.self w₀.assetState) {calls : List SystemCall}
    (hself : ∀ c ∈ calls, c.RefusesSelf w₀.self) :
    Solvent (run (SystemCall.exec H) w₀ calls) := by
  have hrun : Solvent (run (SystemCall.exec H) w₀ calls) ∧
      (run (SystemCall.exec H) w₀ calls).self = w₀.self := by
    apply run_invariant (I := fun w : World Digest Token => Solvent w ∧ w.self = w₀.self)
    · intro w w' c hc hw h
      refine ⟨hw.1.exec ?_ h, (SystemCall.exec_self h).trans hw.2⟩
      rw [hw.2]
      exact hself c hc
    · exact ⟨.of_deployed h₀ ht, rfl⟩
  exact hrun.1

/-- In every state reached by any interleaving of `transact` with calls of the
token by others, the channel holds at least `supply` tokens, and so at least
the sum of its UTXOs. -/
theorem channel_solvent (w₀ : World Digest Token) (h₀ : Deployed H w₀)
    (ht : TokenBefore w₀.self w₀.assetState) (calls : List SystemCall)
    (hself : ∀ c ∈ calls, c.RefusesSelf w₀.self) :
    let w := run (SystemCall.exec H) w₀ calls
    w.channel.readSupply.toInt ≤ w.assetState.balance w.self ∧
      w.channel.utxo.store.total ≤ w.assetState.balance w.self := by
  intro w
  have hw : Solvent w := Solvent.of_run h₀ ht hself
  refine ⟨hw.covered.supply, ?_⟩
  rw [← hw.backed.supply]
  exact hw.covered.supply

def sampleToken : Token :=
  run (fun t c => TokenCall.exec t c) ⟨some (sampleAccount 1), ⟨7, "Test", "TST"⟩, ∅, ∅⟩
    [⟨100, fun a => a = sampleAccount 1, .mint (sampleAccount 5) (.ofByte 107)⟩]

theorem sampleToken_before : TokenBefore (sampleContract 1) sampleToken := by
  refine ⟨sampleAccount 1, 7, "Test", "TST", _, rfl, _, ?_, rfl⟩
  intro c hc
  rw [List.mem_singleton.mp hc]
  decide +kernel

def sampleSystemCalls : List SystemCall :=
  [.transact 100 (sampleCall sampleSigned sampleDeposit).inv.requireAuth (fun _ _ => true)
      sampleDeposit,
    .token ⟨101, fun a => a = sampleAccount 5,
      .transfer ⟨sampleAccount 5, sampleContract 1, .ofByte 7⟩⟩,
    .transact 102 (sampleCall sampleSigned sampleSpend).inv.requireAuth (fun _ _ => true)
      sampleSpend]

theorem channel_solvent_sampleSystemCalls :
    let H := sampleHost sampleSigned
    let w := run (SystemCall.exec H) (sampleWorld H sampleToken) sampleSystemCalls
    w.channel.readSupply.toInt = 60 ∧ w.assetState.balance w.self = 67 ∧
      w.channel.readSupply.toInt ≤ w.assetState.balance w.self := by
  intro H w
  have hself : ∀ c ∈ sampleSystemCalls, c.RefusesSelf (sampleContract 1) := by
    intro c hc
    simp only [sampleSystemCalls, List.mem_cons, List.not_mem_nil, or_false] at hc
    rcases hc with rfl | rfl | rfl
    · intro args
      rfl
    · rfl
    · intro args
      rfl
  exact ⟨by decide +kernel, by decide +kernel,
    (channel_solvent (sampleWorld H sampleToken) (sampleWorld_deployed H sampleToken)
      sampleToken_before sampleSystemCalls hself).1⟩

end Moonlight
