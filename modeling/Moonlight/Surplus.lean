import Moonlight.Settlement

namespace Moonlight
open Foundations

variable {Digest : Type}

def TokenCall.received (y : Address) (c : TokenCall) : ℤ :=
  match c.op with
  | .mint payee amount => if y = payee then amount.toInt else 0
  | .transfer x => if y = x.payee then x.amount.toInt else 0
  | .transferFrom _ x => if y = x.payee then x.amount.toInt else 0
  | _ => 0

namespace Token

variable {t t' : Token} {o addr : Address} {amount : I128}

theorem balance_spend (hne : o = addr → amount.toInt = 0)
    (h : t.spendBalance addr amount = .ok t') : t'.balance o = t.balance o := by
  rw [(spendBalance_ok h).2.1]
  split_ifs with ho
  · rw [hne ho, sub_zero]
  · rw [sub_zero]

theorem balance_receive (h : t.receiveBalance addr amount = .ok t') :
    t'.balance o = t.balance o + if o = addr then amount.toInt else 0 :=
  (receiveBalance_ok h).1 o

end Token

theorem TokenCall.received_nonneg {t t' : Token} {c : TokenCall} {y : Address}
    (h : c.exec t = .ok t') : 0 ≤ c.received y := by
  unfold TokenCall.exec at h
  unfold TokenCall.received
  cases hop : c.op with
  | setAdmin newAdmin | approve owner spender amount expirationLedger | burn owner amount
  | burnFrom spender owner amount => exact le_rfl
  | mint payee amount =>
    simp only [hop, Token.mint, Token.checkNonnegativeAmount, bind_eq_ok, ensure_eq_ok] at h
    obtain ⟨-, hpos, -⟩ := h
    simp only
    split_ifs <;> omega
  | transfer x =>
    simp only [hop] at h
    have hpos := (Token.transfer_ok h).2.1
    simp only
    split_ifs <;> omega
  | transferFrom spender x =>
    simp only [hop, Token.transferFrom, Token.checkNonnegativeAmount, bind_eq_ok,
      ensure_eq_ok] at h
    obtain ⟨-, -, -, hpos, -⟩ := h
    simp only
    split_ifs <;> omega

/-- An address that neither signs nor has approved anyone gains what it is sent,
exactly. -/
theorem TokenCall.balance_received {t t' : Token} {c : TokenCall} {o : Address}
    (ho : t.NoAllowance o) (hauth : c.auth o = false) (h : c.exec t = .ok t') :
    t'.balance o = t.balance o + c.received o := by
  have hne {x : Address} (hx : c.auth x = true) : o ≠ x := by
    rintro rfl
    rw [hauth] at hx
    cases hx
  unfold TokenCall.exec at h
  unfold TokenCall.received
  cases hop : c.op with
  | mint payee amount =>
    simp only [hop, Token.mint, bind_eq_ok] at h
    obtain ⟨-, -, admin, -, -, -, hreceive⟩ := h
    exact Token.balance_receive hreceive
  | setAdmin newAdmin =>
    simp only [hop, Token.setAdmin, bind_eq_ok, pure_eq_ok] at h
    obtain ⟨admin, -, -, -, rfl⟩ := h
    exact (add_zero _).symm
  | approve owner spender amount expirationLedger =>
    simp only [hop, Token.approve, bind_eq_ok] at h
    obtain ⟨-, -, -, -, hwrite⟩ := h
    rw [Token.balance_congr (Token.writeAllowance_ok hwrite).1]
    exact (add_zero _).symm
  | transfer x =>
    simp only [hop, Token.transfer, bind_eq_ok, ensure_eq_ok] at h
    obtain ⟨-, hpayer, -, -, s, hspend, hreceive⟩ := h
    rw [Token.balance_receive hreceive,
      Token.balance_spend (fun he => absurd he (hne hpayer)) hspend]
  | transferFrom spender x =>
    simp only [hop, Token.transferFrom, Token.checkNonnegativeAmount, bind_eq_ok,
      ensure_eq_ok] at h
    obtain ⟨-, -, -, hpos, r, hallow, s, hspend, hreceive⟩ := h
    obtain ⟨hbal, hkeep⟩ := Token.spendAllowance_ok hallow
    -- without an approval only an empty amount goes through
    have hzero : o = x.payer → x.amount.toInt = 0 := by
      intro he
      have := (hkeep o ho).2 he
      omega
    rw [Token.balance_receive hreceive, Token.balance_spend hzero hspend,
      Token.balance_congr hbal]
  | burn owner amount =>
    simp only [hop, Token.burn, bind_eq_ok, ensure_eq_ok] at h
    obtain ⟨-, howner, -, -, hspend⟩ := h
    rw [Token.balance_spend (fun he => absurd he (hne howner)) hspend]
    exact (add_zero _).symm
  | burnFrom spender owner amount =>
    simp only [hop, Token.burnFrom, Token.checkNonnegativeAmount, bind_eq_ok, ensure_eq_ok] at h
    obtain ⟨-, -, -, hpos, r, hallow, hspend⟩ := h
    obtain ⟨hbal, hkeep⟩ := Token.spendAllowance_ok hallow
    have hzero : o = owner → amount.toInt = 0 := by
      intro he
      have := (hkeep o ho).2 he
      omega
    rw [Token.balance_spend hzero hspend, Token.balance_congr hbal]
    exact (add_zero _).symm

/-- What a call brings to the channel past its books: a transfer or a mint from
outside, or a withdraw that it pays to itself. -/
def SystemCall.gift (self : Address) : SystemCall → ℤ
  | transact _ _ _ op => listed op.withdraw self
  | token c => c.received self

/-- What the channel holds beyond `supply`. -/
def surplus (w : World Digest Token) : ℤ :=
  w.assetState.balance w.self - w.channel.readSupply.toInt

variable [DecidableEq Digest] {H : Host Digest} {w w' : World Digest Token} {c : SystemCall}

theorem listed_nonneg {l : List (Address × I128 × List Condition)} {y : Address}
    (hpos : ∀ e ∈ l, 0 < e.2.1.toInt) : 0 ≤ listed l y := by
  by_cases hy : y ∈ l.map Prod.fst
  · exact (listed_pos hpos hy).le
  · exact (listed_eq_zero hy).ge

theorem SystemCall.exec_surplus (hw : Solvent w) (hself : c.RefusesSelf w.self)
    (h : c.exec H w = .ok w') :
    surplus w' = surplus w + c.gift w.self ∧ 0 ≤ c.gift w.self := by
  cases c with
  | transact sequence requireAuth auth op =>
    have h' : Moonlight.transact H (tokenInvocation sequence requireAuth auth) w op = .ok w' := h
    have hacc := transact_ok h'
    have hdeposit := listed_eq_zero (hacc.self_not_deposits hself)
    have hbalance := transact_balance h' w.self
    rw [transfers_delta, if_pos rfl, hdeposit] at hbalance
    have hsupply := hacc.supply
    refine ⟨?_, listed_nonneg hacc.pre.withdraw_pos⟩
    rw [surplus, hacc.self, hbalance, hsupply, surplus, gift]
    ring
  | token d =>
    simp only [exec, bind_eq_ok, pure_eq_ok] at h
    obtain ⟨t, ht, rfl⟩ := h
    refine ⟨?_, d.received_nonneg ht⟩
    show t.balance w.self - _ = _
    rw [d.balance_received hw.covered.noAllowance hself ht, surplus, gift]
    ring

/-- In any interleaving, the tokens that the channel holds beyond `supply` are
what it held when it was deployed and what it has been given since, to the
unit, and they never become fewer: no call can take them out again. -/
theorem surplus_exact (w₀ : World Digest Token) (h₀ : Deployed H w₀)
    (ht : TokenBefore w₀.self w₀.assetState) (calls : List SystemCall)
    (hself : ∀ c ∈ calls, c.RefusesSelf w₀.self) :
    surplus (run (SystemCall.exec H) w₀ calls) = w₀.assetState.balance w₀.self +
        ((succeeded (SystemCall.exec H) w₀ calls).map (SystemCall.gift w₀.self)).sum ∧
      ∀ i j, i ≤ j → surplus (stateAt (SystemCall.exec H) w₀ calls i) ≤
        surplus (stateAt (SystemCall.exec H) w₀ calls j) := by
  have hstart : surplus w₀ = w₀.assetState.balance w₀.self := by
    rw [surplus, Channel.readSupply, h₀.storage.2]
    exact sub_zero _
  -- what every state has, so that each call gives exactly its gift
  let I (w : World Digest Token) : Prop := Solvent w ∧ w.self = w₀.self
  have hI₀ : I w₀ := ⟨.of_deployed h₀ ht, rfl⟩
  have hstep (w w' : World Digest Token) (c : SystemCall) (hc : c ∈ calls) (hw : I w)
      (h : c.exec H w = .ok w') : I w' ∧ surplus w' = surplus w + c.gift w₀.self ∧
        0 ≤ c.gift w₀.self := by
    have hrefuses : c.RefusesSelf w.self := by
      rw [hw.2]
      exact hself c hc
    have hgift := SystemCall.exec_surplus hw.1 hrefuses h
    rw [hw.2] at hgift
    exact ⟨⟨hw.1.exec hrefuses h, (SystemCall.exec_self h).trans hw.2⟩, hgift⟩
  constructor
  · rw [← hstart]
    apply run_sum_on (I := I) surplus (SystemCall.gift w₀.self) _ hI₀
    intro w w' c hc hw h
    obtain ⟨hI, hgift, -⟩ := hstep w w' c hc hw h
    exact ⟨hI, hgift⟩
  · intro i j hij
    have hIi : I (stateAt (SystemCall.exec H) w₀ calls i) := by
      apply run_invariant (I := I) _ hI₀
      intro w w' c hc hw h
      exact (hstep w w' c (List.mem_of_mem_take hc) hw h).1
    have hboth : I (stateAt (SystemCall.exec H) w₀ calls j) ∧
        surplus (stateAt (SystemCall.exec H) w₀ calls i) ≤
          surplus (stateAt (SystemCall.exec H) w₀ calls j) := by
      apply stateAt_between (I := fun w : World Digest Token =>
        I w ∧ surplus (stateAt (SystemCall.exec H) w₀ calls i) ≤ surplus w) hij ⟨hIi, le_rfl⟩
      rintro k - - c w' hc ⟨hw, hle⟩
      obtain ⟨hI, hgift, hnonneg⟩ := hstep _ w' c (List.mem_of_getElem? hc.1) hw hc.2
      refine ⟨hI, ?_⟩
      rw [hgift]
      omega
    exact hboth.2

theorem surplus_sampleSystemCalls :
    let H := sampleHost sampleSigned
    surplus (run (SystemCall.exec H) (sampleWorld H sampleToken) sampleSystemCalls) = 7 := by
  intro H
  have hself : ∀ c ∈ sampleSystemCalls, c.RefusesSelf (sampleContract 1) := by
    intro c hc
    simp only [sampleSystemCalls, List.mem_cons, List.not_mem_nil, or_false] at hc
    rcases hc with rfl | rfl | rfl
    · intro args
      rfl
    · rfl
    · intro args
      rfl
  have hexact := (surplus_exact (sampleWorld H sampleToken) (sampleWorld_deployed H sampleToken)
    sampleToken_before sampleSystemCalls hself).1
  rw [hexact]
  decide +kernel

end Moonlight
