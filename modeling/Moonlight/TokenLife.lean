import Moonlight.TokenRefinement
import Moonlight.EntryLife

namespace Moonlight
open Foundations Store

/-- The accounts whose balances a call reads or writes. -/
def TokenInvocation.accounts (c : TokenInvocation) : List Address :=
  match c.entrypoint with
  | .mint payee _ => [payee]
  | .balance id => [id]
  | .transfer payer payee _ => [payer, payee.address]
  | .transferFrom _ payer payee _ => [payer, payee]
  | .burn owner _ => [owner]
  | .burnFrom _ owner _ => [owner]
  | _ => []

/-- The entrypoints that extend the life of the instance. -/
def TokenInvocation.bumps (c : TokenInvocation) : Bool :=
  match c.entrypoint with
  | .decimals => false
  | .name => false
  | .symbol => false
  | _ => true

/-- What is read and written at ledger `now` for the accounts `as`: their entries
are extended, and neither other entries nor the instance. -/
structure AccountsTouched (now : U32) (as : List Address) (st st' : TokenStorage) : Prop where
  balances : Touched now as st.balances st'.balances
  liveUntil : st'.liveUntil = st.liveUntil

namespace AccountsTouched

variable {N : EntryLimits} {now : U32} {as bs : List Address} {a : Address}
  {st st' st'' : TokenStorage} {amount : I128}

theorem refl (st : TokenStorage) : AccountsTouched now [] st st := ⟨Touched.refl now _, rfl⟩

theorem trans (h : AccountsTouched now as st st') (h' : AccountsTouched now bs st' st'') :
    AccountsTouched now (as ++ bs) st st'' :=
  ⟨h.balances.trans h'.balances, h'.liveUntil.trans h.liveUntil⟩

theorem again (h : AccountsTouched now [a] st st') (h' : AccountsTouched now [a] st' st'') :
    AccountsTouched now [a] st st'' :=
  ⟨h.balances.again h'.balances, h'.liveUntil.trans h.liveUntil⟩

theorem publish (h : AccountsTouched now as st st') (e : TokenEvent) :
    AccountsTouched now as st (st'.publish e) := ⟨h.balances, h.liveUntil⟩

theorem writeAllowance {owner spender : Address} {expirationLedger : U32}
    (h : st.writeAllowance N now owner spender amount expirationLedger = .ok st') :
    AccountsTouched now [] st st' := by
  simp only [TokenStorage.writeAllowance, bind_eq_ok] at h
  obtain ⟨-, -, h⟩ := h
  split_ifs at h with hpos
  · simp only [TokenStorage.extendAllowance, TokenStorage.setAllowance, Finmap.lookup_insert] at h
    split_ifs at h with hmax
    obtain rfl := Except.ok.inj h
    exact ⟨Touched.refl now _, rfl⟩
  · obtain rfl := pure_eq_ok.mp h
    exact ⟨Touched.refl now _, rfl⟩

theorem spendAllowance {owner spender : Address}
    (h : st.spendAllowance N now owner spender amount = .ok st') :
    AccountsTouched now [] st st' := by
  simp only [TokenStorage.spendAllowance, bind_eq_ok] at h
  obtain ⟨-, -, h⟩ := h
  split_ifs at h with hpos
  · obtain ⟨rest, -, h⟩ := bind_eq_ok.mp h
    exact writeAllowance h
  · obtain rfl := pure_eq_ok.mp h
    exact refl st

section Balances

-- the network does not cut the extensions of a balance
variable (hmax : balanceBumpAmount ≤ N.longestLife)
include hmax

theorem balances_bumpBalance (st : TokenStorage) :
    (st.bumpBalance N now a).balances = bumpTtl now st.balances a := by
  unfold TokenStorage.bumpBalance bumpTtl
  cases st.balances.lookup a with
  | none => rfl
  | some e =>
    simp only [extendTtlUpTo_eq (by decide : balanceLifetimeThreshold ≤ balanceBumpAmount) hmax]
    rfl

theorem bumpBalance (hframe : ∀ b, b ≠ a → st'.balances.lookup b = st.balances.lookup b)
    (hlife : st'.liveUntil = st.liveUntil) :
    AccountsTouched now [a] st (st'.bumpBalance N now a) := by
  constructor
  · rw [balances_bumpBalance hmax]
    exact bumpTtl_touched hframe
  · rw [← hlife]
    unfold TokenStorage.bumpBalance
    cases st'.balances.lookup a <;> rfl

theorem readBalance (st : TokenStorage) (a : Address) :
    AccountsTouched now [a] st (st.readBalance N now a).2 := by
  unfold TokenStorage.readBalance
  cases he : st.balances.lookup a with
  | some e => exact bumpBalance hmax (fun _ _ => rfl) rfl
  | none =>
    refine ⟨⟨?_, fun _ _ => rfl⟩, rfl⟩
    intro b hb e hlook
    rw [List.mem_singleton.mp hb, he] at hlook
    cases hlook

theorem writeBalance (st : TokenStorage) (a : Address) (amount : I128) :
    AccountsTouched now [a] st (st.writeBalance N now a amount) :=
  bumpBalance hmax (fun _ hb => Finmap.lookup_insert_of_ne _ hb) rfl

theorem receiveBalance (h : st.receiveBalance N now a amount = .ok st') :
    AccountsTouched now [a] st st' := by
  simp only [TokenStorage.receiveBalance, bind_eq_ok, pure_eq_ok] at h
  obtain ⟨b, -, rfl⟩ := h
  exact (readBalance hmax st a).again (writeBalance hmax _ a b)

theorem spendBalance (h : st.spendBalance N now a amount = .ok st') :
    AccountsTouched now [a] st st' := by
  simp only [TokenStorage.spendBalance, bind_eq_ok, pure_eq_ok] at h
  obtain ⟨-, -, b, -, rfl⟩ := h
  exact (readBalance hmax st a).again (writeBalance hmax _ a b)

end Balances

end AccountsTouched

section Step

variable {N : EntryLimits} {c : TokenInvocation} {st st' : TokenStorage}

def TokenInvocation.start (N : EntryLimits) (c : TokenInvocation) (st : TokenStorage) :
    TokenStorage :=
  if c.bumps = true then st.bumpInstance N c.sequence else st

variable (hmax : balanceBumpAmount ≤ N.longestLife)
include hmax

theorem TokenInvocation.exec_touched (h : c.exec N st = .ok st') :
    AccountsTouched c.sequence c.accounts (c.start N st) st' := by
  simp only [TokenInvocation.exec, TokenInvocation.invoke, bind_eq_ok, pure_eq_ok] at h
  obtain ⟨r, h, rfl⟩ := h
  obtain ⟨sequence, auth, entrypoint⟩ := c
  cases entrypoint with
  | decimals | name | symbol =>
    simp only [pure_eq_ok] at h
    subst h
    exact .refl st
  | allowance owner spender =>
    simp only [pure_eq_ok] at h
    subst h
    exact .refl _
  | balance id =>
    simp only [pure_eq_ok] at h
    subst h
    exact .readBalance hmax _ id
  | mint payee amount =>
    simp only [TokenStorage.mint, bind_eq_ok, pure_eq_ok] at h
    obtain ⟨s, ⟨-, -, -, -, -, -, hs⟩, rfl⟩ := h
    exact .receiveBalance hmax hs
  | setAdmin newAdmin =>
    simp only [TokenStorage.setAdmin, bind_eq_ok, pure_eq_ok] at h
    obtain ⟨s, ⟨-, -, -, -, rfl⟩, rfl⟩ := h
    exact ⟨Touched.refl _ _, rfl⟩
  | approve owner spender amount expirationLedger =>
    simp only [TokenStorage.approve, bind_eq_ok, pure_eq_ok] at h
    obtain ⟨s, ⟨-, -, -, -, m, hm, rfl⟩, rfl⟩ := h
    exact (AccountsTouched.writeAllowance hm).publish _
  | transfer payer payee amount =>
    simp only [TokenStorage.transfer, bind_eq_ok, pure_eq_ok] at h
    obtain ⟨s, ⟨-, -, -, -, m, hm, n, hn, rfl⟩, rfl⟩ := h
    exact ((AccountsTouched.spendBalance hmax hm).trans (.receiveBalance hmax hn)).publish _
  | transferFrom spender payer payee amount =>
    simp only [TokenStorage.transferFrom, bind_eq_ok, pure_eq_ok] at h
    obtain ⟨s, ⟨-, -, -, -, l, hl, m, hm, n, hn, rfl⟩, rfl⟩ := h
    have hspent := (AccountsTouched.spendAllowance hl).trans (.spendBalance hmax hm)
    exact (hspent.trans (.receiveBalance hmax hn)).publish _
  | burn owner amount =>
    simp only [TokenStorage.burn, bind_eq_ok, pure_eq_ok] at h
    obtain ⟨s, ⟨-, -, -, -, m, hm, rfl⟩, rfl⟩ := h
    exact (AccountsTouched.spendBalance hmax hm).publish _
  | burnFrom spender owner amount =>
    simp only [TokenStorage.burnFrom, bind_eq_ok, pure_eq_ok] at h
    obtain ⟨s, ⟨-, -, -, -, l, hl, m, hm, rfl⟩, rfl⟩ := h
    exact ((AccountsTouched.spendAllowance hl).trans (.spendBalance hmax hm)).publish _

theorem TokenInvocation.exec_liveUntil (h : c.exec N st = .ok st') :
    st'.liveUntil =
      if c.bumps = true then bumpInstanceTtl c.sequence st.liveUntil else st.liveUntil := by
  rw [(exec_touched hmax h).liveUntil, TokenInvocation.start]
  split_ifs
  · exact extendTtlUpTo_eq (by decide) ((by decide : instanceBumpAmount ≤ _).trans hmax) _
  · rfl

end Step

section Runs

variable {N : EntryLimits} {now₀ : U32} {admin : Address} {decimal : U32} {name symbol : String}
  {st₀ : TokenStorage}

end Runs

end Moonlight
