import Moonlight.TokenStorage
import Moonlight.Stellar
import Moonlight.Foundations.Leases

namespace Moonlight
open Foundations

/-- The storage `st` holds the token `t`: the same values, and no positive
allowance vanishes before it expires. -/
structure Stores (st : TokenStorage) (t : Token) : Prop where
  admin : st.admin = t.admin
  metadata : st.metadata = t.metadata
  balances : ∀ a, (st.balances.lookup a).map Entry.amount = t.balances.lookup a
  allowances : ∀ k, (st.allowances.lookup k).map AllowanceEntry.value = t.allowances.lookup k
  nonneg : ∀ k e, st.allowances.lookup k = some e → 0 ≤ e.value.amount.toInt
  outlives : ∀ k e, st.allowances.lookup k = some e → 0 < e.value.amount.toInt →
    e.value.expirationLedger.val ≤ e.liveUntil

/-- The storage-level computation does what the balance-level one does, or the
host refuses to extend an entry so far. -/
abbrev Follows {α β : Type} (R : α → β → Prop) (x : Except TokenTrap α) (y : Except Failure β) :
    Prop := AgreeUnless .pastMaxLiveUntil R x (hosted y)

section Follows

variable {α α' β β' γ : Type} {R : α → β → Prop} {R' : α' → β' → Prop}

theorem Follows.bind {x : Except TokenTrap α} {y : Except Failure β}
    {f : α → Except TokenTrap α'} {g : β → Except Failure β'} (h : Follows R x y)
    (hnext : ∀ a b, R a b → Follows R' (f a) (g b)) : Follows R' (x >>= f) (y >>= g) := by
  rw [Follows, hosted_bind]
  exact AgreeUnless.bind h hnext

theorem Follows.hosted {x : Except Failure γ} {f : γ → Except TokenTrap α'}
    {g : γ → Except Failure β'} (hnext : ∀ c, x = .ok c → Follows R' (f c) (g c)) :
    Follows R' (hosted x >>= f) (x >>= g) := by
  cases x with
  | error e => exact .failed _
  | ok c => exact hnext c rfl

end Follows

namespace Stores

variable {N : EntryLimits} {now : U32} {st : TokenStorage} {t : Token} {addr : Address}
  {amount : I128}

theorem bumpInstance (h : Stores st t) : Stores (st.bumpInstance N now) t :=
  ⟨h.admin, h.metadata, h.balances, h.allowances, h.nonneg, h.outlives⟩

theorem publish (h : Stores st t) (e : TokenEvent) : Stores (st.publish e) t :=
  ⟨h.admin, h.metadata, h.balances, h.allowances, h.nonneg, h.outlives⟩

theorem of_balances {st' : TokenStorage} {t' : Token} (h : Stores st t)
    (hst : st' = { st with balances := st'.balances })
    (ht : t' = { t with balances := t'.balances })
    (hbal : ∀ a, (st'.balances.lookup a).map Entry.amount = t'.balances.lookup a) :
    Stores st' t' := by
  rw [hst, ht]
  exact ⟨h.admin, h.metadata, hbal, h.allowances, h.nonneg, h.outlives⟩

theorem bumpBalance (h : Stores st t) (addr : Address) : Stores (st.bumpBalance N now addr) t := by
  unfold TokenStorage.bumpBalance
  cases he : st.balances.lookup addr with
  | none => exact h
  | some e =>
    refine h.of_balances rfl rfl fun a => ?_
    by_cases ha : a = addr
    · have hold := h.balances addr
      rw [he] at hold
      rw [ha, Finmap.lookup_insert]
      exact hold
    · rw [Finmap.lookup_insert_of_ne _ ha]
      exact h.balances a

theorem setBalance (h : Stores st t) (addr : Address) (amount : I128) :
    Stores (st.setBalance N now addr amount) (t.writeBalance addr amount) := by
  refine h.of_balances rfl rfl fun a => ?_
  unfold TokenStorage.setBalance Token.writeBalance
  by_cases ha : a = addr
  · rw [ha, Finmap.lookup_insert, Finmap.lookup_insert]
    rfl
  · rw [Finmap.lookup_insert_of_ne _ ha, Finmap.lookup_insert_of_ne _ ha]
    exact h.balances a

theorem writeBalance (h : Stores st t) (addr : Address) (amount : I128) :
    Stores (st.writeBalance N now addr amount) (t.writeBalance addr amount) :=
  (h.setBalance addr amount).bumpBalance addr

theorem readBalance (h : Stores st t) (N : EntryLimits) (now : U32) (addr : Address) :
    (st.readBalance N now addr).1 = t.readBalance addr ∧
      Stores (st.readBalance N now addr).2 t := by
  have hbal := h.balances addr
  unfold TokenStorage.readBalance Token.readBalance
  rw [← hbal]
  cases he : st.balances.lookup addr with
  | none => exact ⟨rfl, h⟩
  | some e => exact ⟨rfl, h.bumpBalance addr⟩

theorem receiveBalance (h : Stores st t) :
    Follows Stores (st.receiveBalance N now addr amount) (t.receiveBalance addr amount) := by
  obtain ⟨hread, hst⟩ := h.readBalance N now addr
  unfold TokenStorage.receiveBalance Token.receiveBalance
  simp only [hread]
  refine .hosted fun b _ => ?_
  exact .done (hst.writeBalance addr b)

theorem spendBalance (h : Stores st t) :
    Follows Stores (st.spendBalance N now addr amount) (t.spendBalance addr amount) := by
  obtain ⟨hread, hst⟩ := h.readBalance N now addr
  unfold TokenStorage.spendBalance Token.spendBalance
  simp only [hread]
  refine .hosted fun _ _ => .hosted fun b _ => ?_
  exact .done (hst.writeBalance addr b)

/-- Where the temporary entry is gone, the allowance had expired anyway. -/
theorem readAllowance (h : Stores st t) (now : U32) (owner spender : Address) :
    (st.readAllowance now owner spender).amount = (t.readAllowance now owner spender).amount ∧
      (0 < (t.readAllowance now owner spender).amount.toInt →
        st.readAllowance now owner spender = t.readAllowance now owner spender) := by
  have hval := h.allowances (owner, spender)
  unfold TokenStorage.readAllowance TokenStorage.getAllowance Token.readAllowance
  rw [← hval]
  cases he : st.allowances.lookup (owner, spender) with
  | none => exact ⟨rfl, fun _ => rfl⟩
  | some e =>
    simp only [Option.map_some]
    by_cases hdead : e.liveUntil < now.val
    · simp only [if_pos hdead]
      by_cases hexp : e.value.expirationLedger < now
      · simp [hexp]
      -- gone but not expired: then there was nothing left to spend
      · have hnonneg := h.nonneg _ e he
        have hzero : ¬ 0 < e.value.amount.toInt := by
          intro hpos
          have hlife := h.outlives _ e he hpos
          exact hexp (Fin.lt_def.mpr (by omega))
        have hamount : e.value.amount = 0 := by
          apply I128.toInt_injective
          rw [I128.toInt_zero]
          omega
        simp [hexp, hamount]
    · simp only [if_neg hdead, implies_true, and_self]

theorem of_allowance {k : Address × Address} {e : AllowanceEntry} (h : Stores st t)
    (hnonneg : 0 ≤ e.value.amount.toInt)
    (hlife : 0 < e.value.amount.toInt → e.value.expirationLedger.val ≤ e.liveUntil) :
    Stores { st with allowances := st.allowances.insert k e }
      { t with allowances := t.allowances.insert k e.value } := by
  refine ⟨h.admin, h.metadata, h.balances, fun j => ?_, fun j f hf => ?_, fun j f hf => ?_⟩
  · rcases eq_or_ne j k with rfl | hj
    · rw [Finmap.lookup_insert, Finmap.lookup_insert]
      rfl
    · rw [Finmap.lookup_insert_of_ne _ hj, Finmap.lookup_insert_of_ne _ hj]
      exact h.allowances j
  · rcases eq_or_ne j k with rfl | hj
    · rw [Finmap.lookup_insert, Option.some.injEq] at hf
      exact hf ▸ hnonneg
    · rw [Finmap.lookup_insert_of_ne _ hj] at hf
      exact h.nonneg j f hf
  · rcases eq_or_ne j k with rfl | hj
    · rw [Finmap.lookup_insert, Option.some.injEq] at hf
      exact hf ▸ hlife
    · rw [Finmap.lookup_insert_of_ne _ hj] at hf
      exact h.outlives j f hf

theorem writeAllowance {owner spender : Address} {expirationLedger : U32} (h : Stores st t)
    (hnonneg : 0 ≤ amount.toInt) :
    Follows Stores (st.writeAllowance N now owner spender amount expirationLedger)
      (t.writeAllowance now owner spender amount expirationLedger) := by
  unfold TokenStorage.writeAllowance Token.writeAllowance
  refine .hosted fun _ hcheck => ?_
  have hcheck := ensure_eq_ok.mp hcheck
  by_cases hpos : 0 < amount.toInt
  · simp only [if_pos hpos, TokenStorage.extendAllowance, TokenStorage.setAllowance,
      Finmap.lookup_insert]
    by_cases hmax : N.longestLife < expirationLedger.val - now.val
    · rw [if_pos hmax]
      exact .stopped _
    · rw [if_neg hmax, Finmap.insert_insert]
      refine .done (h.of_allowance (e := ⟨⟨amount, expirationLedger⟩, _⟩) hnonneg fun _ => ?_)
      -- an extension by `live_for` reaches the expiration
      have hle : now.val ≤ expirationLedger.val := by
        by_contra hlt
        exact hcheck ⟨hpos, Fin.lt_def.mpr (by omega)⟩
      unfold extendTtl
      split_ifs with hleft
      · simp only
        omega
      · simp only
        omega
  · rw [if_neg hpos]
    exact .done (h.of_allowance (e := ⟨⟨amount, expirationLedger⟩, _⟩) hnonneg
      fun hp => absurd hp hpos)

theorem spendAllowance {owner spender : Address} (h : Stores st t) :
    Follows Stores (st.spendAllowance N now owner spender amount)
      (t.spendAllowance now owner spender amount) := by
  obtain ⟨hamount, heq⟩ := h.readAllowance now owner spender
  unfold TokenStorage.spendAllowance Token.spendAllowance
  simp only [hamount]
  refine .hosted fun _ hcheck => ?_
  have hcheck := ensure_eq_ok.mp hcheck
  by_cases hpos : 0 < amount.toInt
  · rw [if_pos hpos, if_pos hpos, heq (by omega)]
    refine .hosted fun rest hrest => ?_
    have hrest := I128.sub_eq_ok.mp hrest
    exact h.writeAllowance (by omega)
  · rw [if_neg hpos, if_neg hpos]
    exact .done h

theorem transferFrom {auth : Address → Bool} {spender payer payee : Address} (h : Stores st t) :
    Follows Stores (st.transferFrom N now auth spender payer payee amount)
      (t.transferFrom now auth spender ⟨payer, payee, amount⟩) := by
  unfold TokenStorage.transferFrom Token.transferFrom
  refine .hosted fun _ _ => .hosted fun _ _ => ?_
  refine (h.bumpInstance.spendAllowance).bind fun _ _ h => (h.spendBalance).bind fun _ _ h => ?_
  rw [← bind_pure (Token.receiveBalance _ _ _)]
  exact (h.receiveBalance).bind fun _ _ h => .done (h.publish _)

theorem transfer {auth : Address → Bool} {payer : Address} {payee : MuxedAddress}
    (h : Stores st t) : Follows Stores (st.transfer N now auth payer payee amount)
      (t.transfer auth ⟨payer, payee.address, amount⟩) := by
  unfold TokenStorage.transfer Token.transfer
  refine .hosted fun _ _ => .hosted fun _ _ => ?_
  refine (h.bumpInstance.spendBalance).bind fun _ _ h => ?_
  rw [← bind_pure (Token.receiveBalance _ _ _)]
  exact (h.receiveBalance).bind fun _ _ h => .done (h.publish _)

theorem burn {auth : Address → Bool} {owner : Address} (h : Stores st t) :
    Follows Stores (st.burn N now auth owner amount) (t.burn auth owner amount) := by
  unfold TokenStorage.burn Token.burn
  refine .hosted fun _ _ => .hosted fun _ _ => ?_
  rw [← bind_pure (Token.spendBalance _ _ _)]
  exact (h.bumpInstance.spendBalance).bind fun _ _ h => .done (h.publish _)

theorem burnFrom {auth : Address → Bool} {spender owner : Address} (h : Stores st t) :
    Follows Stores (st.burnFrom N now auth spender owner amount)
      (t.burnFrom now auth spender owner amount) := by
  unfold TokenStorage.burnFrom Token.burnFrom
  refine .hosted fun _ _ => .hosted fun _ _ => ?_
  refine (h.bumpInstance.spendAllowance).bind fun _ _ h => ?_
  rw [← bind_pure (Token.spendBalance _ _ _)]
  exact (h.spendBalance).bind fun _ _ h => .done (h.publish _)

theorem approve {auth : Address → Bool} {owner spender : Address} {expirationLedger : U32}
    (h : Stores st t) :
    Follows Stores (st.approve N now auth owner spender amount expirationLedger)
      (t.approve now auth owner spender amount expirationLedger) := by
  unfold TokenStorage.approve Token.approve
  refine .hosted fun _ _ => .hosted fun _ hcheck => ?_
  have hnonneg := ensure_eq_ok.mp hcheck
  rw [← bind_pure (Token.writeAllowance _ _ _ _ _ _)]
  exact (h.bumpInstance.writeAllowance (not_lt.mp hnonneg)).bind fun _ _ h => .done (h.publish _)

theorem mint {auth : Address → Bool} {payee : Address} (h : Stores st t) :
    Follows Stores (st.mint N now auth payee amount) (t.mint auth payee amount) := by
  unfold TokenStorage.mint Token.mint
  rw [h.admin]
  refine .hosted fun _ _ => .hosted fun _ _ => .hosted fun _ _ => ?_
  exact h.bumpInstance.receiveBalance

theorem setAdmin {auth : Address → Bool} {newAdmin : Address} (h : Stores st t) :
    Follows Stores (st.setAdmin N now auth newAdmin) (t.setAdmin auth newAdmin) := by
  unfold TokenStorage.setAdmin Token.setAdmin
  rw [h.admin]
  refine .hosted fun _ _ => .hosted fun _ _ => ?_
  exact .done ⟨rfl, h.metadata, h.balances, h.allowances, h.nonneg, h.outlives⟩

end Stores

namespace TokenStorage

/-- No positive allowance reaches further ahead than the network allows. -/
def Within (N : EntryLimits) (n : ℕ) (st : TokenStorage) : Prop :=
  ∀ k e, st.allowances.lookup k = some e → 0 < e.value.amount.toInt →
    e.value.expirationLedger.val ≤ n + N.longestLife

variable {N : EntryLimits} {now : U32} {st st' : TokenStorage} {addr owner spender : Address}
  {amount : I128} {expirationLedger : U32}

theorem Within.mono {n m : ℕ} (hnm : n ≤ m) (h : st.Within N n) : st.Within N m :=
  fun k e he hpos => (h k e he hpos).trans (by omega)

theorem Within.congr {n : ℕ} (h : st.Within N n) (he : st'.allowances = st.allowances) :
    st'.Within N n := by
  intro k e hk
  rw [he] at hk
  exact h k e hk

theorem bumpBalance_allowances : (st.bumpBalance N now addr).allowances = st.allowances := by
  unfold bumpBalance
  cases st.balances.lookup addr <;> rfl

theorem readBalance_allowances : (st.readBalance N now addr).2.allowances = st.allowances := by
  unfold readBalance
  cases st.balances.lookup addr with
  | none => rfl
  | some e => exact bumpBalance_allowances

theorem writeBalance_allowances :
    (st.writeBalance N now addr amount).allowances = st.allowances := bumpBalance_allowances

theorem receiveBalance_allowances (h : st.receiveBalance N now addr amount = .ok st') :
    st'.allowances = st.allowances := by
  simp only [receiveBalance, bind_eq_ok, pure_eq_ok] at h
  obtain ⟨b, -, rfl⟩ := h
  rw [writeBalance_allowances, readBalance_allowances]

theorem spendBalance_allowances (h : st.spendBalance N now addr amount = .ok st') :
    st'.allowances = st.allowances := by
  simp only [spendBalance, bind_eq_ok, pure_eq_ok] at h
  obtain ⟨-, -, b, -, rfl⟩ := h
  rw [writeBalance_allowances, readBalance_allowances]

theorem writeAllowance_ok
    (h : st.writeAllowance N now owner spender amount expirationLedger = .ok st') :
    (0 < amount.toInt → expirationLedger.val ≤ now.val + N.longestLife) ∧
      (∃ life, st'.allowances.lookup (owner, spender) = some ⟨⟨amount, expirationLedger⟩, life⟩) ∧
      ∀ k, k ≠ (owner, spender) → st'.allowances.lookup k = st.allowances.lookup k := by
  simp only [writeAllowance, bind_eq_ok, hosted_eq_ok, ensure_eq_ok] at h
  obtain ⟨-, -, h⟩ := h
  split_ifs at h with hpos
  · simp only [extendAllowance, setAllowance, Finmap.lookup_insert] at h
    split_ifs at h with hmax
    obtain rfl := Except.ok.inj h
    refine ⟨fun _ => by omega, ⟨_, Finmap.lookup_insert _⟩, fun k hk => ?_⟩
    rw [Finmap.lookup_insert_of_ne _ hk, Finmap.lookup_insert_of_ne _ hk]
  · obtain rfl := pure_eq_ok.mp h
    exact ⟨fun hp => absurd hp hpos, ⟨_, Finmap.lookup_insert _⟩, fun k hk =>
      Finmap.lookup_insert_of_ne _ hk⟩

theorem Within.writeAllowance (hst : st.Within N now.val)
    (h : st.writeAllowance N now owner spender amount expirationLedger = .ok st') :
    st'.Within N now.val := by
  obtain ⟨hreach, ⟨life, hnew⟩, hframe⟩ := writeAllowance_ok h
  intro k e he hpos
  by_cases hk : k = (owner, spender)
  · rw [hk, hnew, Option.some.injEq] at he
    subst he
    exact hreach hpos
  · rw [hframe k hk] at he
    exact hst k e he hpos

theorem Within.spendAllowance (hst : st.Within N now.val)
    (h : st.spendAllowance N now owner spender amount = .ok st') : st'.Within N now.val := by
  simp only [TokenStorage.spendAllowance, bind_eq_ok] at h
  obtain ⟨-, -, h⟩ := h
  split_ifs at h with hpos
  · obtain ⟨rest, -, hwrite⟩ := bind_eq_ok.mp h
    exact hst.writeAllowance hwrite
  · exact pure_eq_ok.mp h ▸ hst

theorem hosted_only {α : Type} (x : Except Failure α) :
    FailsOnly (· ≠ .pastMaxLiveUntil) (hosted x) := by
  rintro e h rfl
  exact hosted_ne_pastMax h

theorem receiveBalance_only :
    FailsOnly (· ≠ .pastMaxLiveUntil) (st.receiveBalance N now addr amount) :=
  (hosted_only _).bind fun _ => .pure _

theorem spendBalance_only :
    FailsOnly (· ≠ .pastMaxLiveUntil) (st.spendBalance N now addr amount) :=
  (hosted_only _).bind fun _ => (hosted_only _).bind fun _ => .pure _

theorem writeAllowance_only
    (hreach : 0 < amount.toInt → expirationLedger.val ≤ now.val + N.longestLife) :
    FailsOnly (· ≠ .pastMaxLiveUntil)
      (st.writeAllowance N now owner spender amount expirationLedger) := by
  refine (hosted_only _).bind fun _ => ?_
  split_ifs with hpos
  · have hmax := hreach hpos
    simp only [extendAllowance, setAllowance, Finmap.lookup_insert]
    rw [if_neg (by omega)]
    exact .pure _
  · exact .pure _

theorem spendAllowance_only (hst : st.Within N now.val) :
    FailsOnly (· ≠ .pastMaxLiveUntil) (st.spendAllowance N now owner spender amount) := by
  intro e h
  rcases bind_eq_error.mp h with h | ⟨_, hcheck, h⟩
  · exact hosted_only _ e h
  have hcheck := ensure_eq_ok.mp (hosted_eq_ok.mp hcheck)
  split_ifs at h with hpos
  · refine (hosted_only _).bind (fun rest => writeAllowance_only fun _ => ?_) e h
    -- what is spent from is positive, so it is a live entry within reach
    have hread : 0 < (st.readAllowance now owner spender).amount.toInt := by omega
    unfold readAllowance getAllowance at hread ⊢
    cases he : st.allowances.lookup (owner, spender) with
    | none => simp [he] at hread
    | some f =>
      simp only [he] at hread ⊢
      by_cases hdead : f.liveUntil < now.val
      · simp [hdead] at hread
      · by_cases hexp : f.value.expirationLedger < now
        · simp [hdead, hexp] at hread
        · simp only [if_neg hdead, if_neg hexp] at hread ⊢
          exact hst _ f he hread
  · cases h

end TokenStorage

def TokenInvocation.call? (c : TokenInvocation) : Option TokenCall :=
  let call (op : TokenOperation) : Option TokenCall := some ⟨c.sequence, c.auth, op⟩
  match c.entrypoint with
  | .mint payee amount => call (.mint payee amount)
  | .setAdmin newAdmin => call (.setAdmin newAdmin)
  | .approve owner spender amount expirationLedger =>
    call (.approve owner spender amount expirationLedger)
  | .transfer payer payee amount => call (.transfer ⟨payer, payee.address, amount⟩)
  | .transferFrom spender payer payee amount => call (.transferFrom spender ⟨payer, payee, amount⟩)
  | .burn owner amount => call (.burn owner amount)
  | .burnFrom spender owner amount => call (.burnFrom spender owner amount)
  | _ => none

/-- An approval that asks for a longer life than the network allows. -/
def TokenInvocation.TooLong (N : EntryLimits) (c : TokenInvocation) : Prop :=
  match c.entrypoint with
  | .approve _ _ amount expirationLedger =>
    0 < amount.toInt ∧ N.longestLife < expirationLedger.val - c.sequence.val
  | _ => False

instance (N : EntryLimits) (c : TokenInvocation) : Decidable (c.TooLong N) := by
  unfold TokenInvocation.TooLong
  split <;> infer_instance

section Invocation

open TokenStorage

variable {N : EntryLimits} {c : TokenInvocation} {st st' : TokenStorage} {t : Token}

theorem TokenInvocation.exec_read (hc : c.call? = none) (h : Stores st t) :
    ∃ st', c.exec N st = .ok st' ∧ Stores st' t ∧ st'.allowances = st.allowances := by
  unfold TokenInvocation.exec TokenInvocation.invoke
  cases he : c.entrypoint with
  | allowance owner spender => exact ⟨_, rfl, h.bumpInstance, rfl⟩
  | balance id =>
    refine ⟨_, rfl, (h.bumpInstance.readBalance N _ id).2, ?_⟩
    unfold TokenStorage.balance TokenStorage.readBalance TokenStorage.bumpBalance
    cases st.bumpInstance N c.sequence |>.balances.lookup id <;> rfl
  | decimals | name | symbol => exact ⟨st, rfl, h, rfl⟩
  | _ => simp [TokenInvocation.call?, he] at hc

theorem TokenInvocation.exec_follows {d : TokenCall} (hc : c.call? = some d) (h : Stores st t) :
    Follows Stores (c.exec N st) (d.exec t) := by
  unfold TokenInvocation.exec TokenInvocation.invoke
  unfold TokenInvocation.call? at hc
  cases he : c.entrypoint with
  | allowance owner spender | balance id | decimals | name | symbol => simp [he] at hc
  | mint payee amount =>
    obtain rfl : _ = d := by simpa [he] using hc
    simpa [TokenCall.exec] using h.mint
  | setAdmin newAdmin =>
    obtain rfl : _ = d := by simpa [he] using hc
    simpa [TokenCall.exec] using h.setAdmin
  | approve owner spender amount expirationLedger =>
    obtain rfl : _ = d := by simpa [he] using hc
    simpa [TokenCall.exec] using h.approve
  | transfer payer payee amount =>
    obtain rfl : _ = d := by simpa [he] using hc
    simpa [TokenCall.exec] using h.transfer
  | transferFrom spender payer payee amount =>
    obtain rfl : _ = d := by simpa [he] using hc
    simpa [TokenCall.exec] using h.transferFrom
  | burn owner amount =>
    obtain rfl : _ = d := by simpa [he] using hc
    simpa [TokenCall.exec] using h.burn
  | burnFrom spender owner amount =>
    obtain rfl : _ = d := by simpa [he] using hc
    simpa [TokenCall.exec] using h.burnFrom

/-- A committed call of the storage, read as a call of the token. -/
theorem Stores.exec (h : Stores st t) (hx : c.exec N st = .ok st') :
    (c.call? = none ∧ Stores st' t) ∨
      ∃ d t', c.call? = some d ∧ d.exec t = .ok t' ∧ Stores st' t' := by
  cases hc : c.call? with
  | none =>
    obtain ⟨s, hs, hstores, -⟩ := c.exec_read (N := N) hc h
    obtain rfl := Except.ok.inj (hs.symm.trans hx)
    exact .inl ⟨rfl, hstores⟩
  | some d =>
    have hfollows := c.exec_follows (N := N) hc h
    rw [Follows, hx] at hfollows
    cases hy : d.exec t with
    | error e =>
      rw [hy] at hfollows
      cases hfollows
    | ok t' =>
      rw [hy] at hfollows
      cases hfollows with
      | done hR => exact .inr ⟨d, t', rfl, hy, hR⟩

theorem TokenInvocation.exec_only (hst : st.Within N c.sequence.val) (hshort : ¬ c.TooLong N) :
    FailsOnly (· ≠ .pastMaxLiveUntil) (c.exec N st) := by
  have hbump : (st.bumpInstance N c.sequence).Within N c.sequence.val := hst
  unfold TokenInvocation.exec TokenInvocation.invoke
  unfold TokenInvocation.TooLong at hshort
  refine FailsOnly.bind ?_ fun _ => .pure _
  cases he : c.entrypoint with
  | allowance owner spender | balance id | decimals | name | symbol => exact .pure _
  | mint payee amount =>
    refine FailsOnly.bind ?_ fun _ => .pure _
    exact (hosted_only _).bind fun _ => (hosted_only _).bind fun _ =>
      (hosted_only _).bind fun _ => receiveBalance_only
  | setAdmin newAdmin =>
    refine FailsOnly.bind ?_ fun _ => .pure _
    exact (hosted_only _).bind fun _ => (hosted_only _).bind fun _ => .pure _
  | approve owner spender amount expirationLedger =>
    simp only [he, not_and, not_lt] at hshort
    refine FailsOnly.bind ?_ fun _ => .pure _
    refine (hosted_only _).bind fun _ => (hosted_only _).bind fun _ => ?_
    refine (writeAllowance_only fun hpos => ?_).bind fun _ => .pure _
    have := hshort hpos
    omega
  | transfer payer payee amount =>
    refine FailsOnly.bind ?_ fun _ => .pure _
    exact (hosted_only _).bind fun _ => (hosted_only _).bind fun _ =>
      spendBalance_only.bind fun _ => receiveBalance_only.bind fun _ => .pure _
  | transferFrom spender payer payee amount =>
    refine FailsOnly.bind ?_ fun _ => .pure _
    exact (hosted_only _).bind fun _ => (hosted_only _).bind fun _ =>
      (spendAllowance_only hbump).bind fun _ => spendBalance_only.bind fun _ =>
        receiveBalance_only.bind fun _ => .pure _
  | burn owner amount =>
    refine FailsOnly.bind ?_ fun _ => .pure _
    exact (hosted_only _).bind fun _ => (hosted_only _).bind fun _ =>
      spendBalance_only.bind fun _ => .pure _
  | burnFrom spender owner amount =>
    refine FailsOnly.bind ?_ fun _ => .pure _
    exact (hosted_only _).bind fun _ => (hosted_only _).bind fun _ =>
      (spendAllowance_only hbump).bind fun _ => spendBalance_only.bind fun _ => .pure _

theorem TokenInvocation.exec_tooLong (hlong : c.TooLong N) : ∀ st', c.exec N st ≠ .ok st' := by
  intro st' h
  unfold TokenInvocation.TooLong at hlong
  cases he : c.entrypoint with
  | approve owner spender amount expirationLedger =>
    simp only [TokenInvocation.exec, TokenInvocation.invoke, he, TokenStorage.approve,
      bind_eq_ok] at h
    obtain ⟨_, ⟨_, ⟨-, -, -, -, s, hwrite, -⟩, -⟩, -⟩ := h
    simp only [he] at hlong
    have hreach := (writeAllowance_ok hwrite).1 hlong.1
    omega
  | _ => simp [he] at hlong

theorem TokenInvocation.exec_within (hst : st.Within N c.sequence.val)
    (h : c.exec N st = .ok st') : st'.Within N c.sequence.val := by
  have hbump : (st.bumpInstance N c.sequence).Within N c.sequence.val := hst
  simp only [TokenInvocation.exec, TokenInvocation.invoke, bind_eq_ok, pure_eq_ok] at h
  obtain ⟨r, h, rfl⟩ := h
  cases he : c.entrypoint with
  | decimals | name | symbol =>
    simp only [he, pure_eq_ok] at h
    exact h ▸ hst
  | allowance owner spender =>
    simp only [he, pure_eq_ok] at h
    exact h ▸ hbump
  | balance id =>
    simp only [he, pure_eq_ok] at h
    exact h ▸ hbump.congr readBalance_allowances
  | mint payee amount =>
    simp only [he, mint, bind_eq_ok, pure_eq_ok] at h
    obtain ⟨s, ⟨-, -, -, -, -, -, hs⟩, rfl⟩ := h
    exact hbump.congr (receiveBalance_allowances hs)
  | setAdmin newAdmin =>
    simp only [he, setAdmin, bind_eq_ok, pure_eq_ok] at h
    obtain ⟨s, ⟨-, -, -, -, rfl⟩, rfl⟩ := h
    exact hbump
  | approve owner spender amount expirationLedger =>
    simp only [he, approve, bind_eq_ok, pure_eq_ok] at h
    obtain ⟨s, ⟨-, -, -, -, m, hm, rfl⟩, rfl⟩ := h
    exact (hbump.writeAllowance hm).congr rfl
  | transfer payer payee amount =>
    simp only [he, transfer, bind_eq_ok, pure_eq_ok] at h
    obtain ⟨s, ⟨-, -, -, -, m, hm, n, hn, rfl⟩, rfl⟩ := h
    have hpaid := (hbump.congr (spendBalance_allowances hm)).congr (receiveBalance_allowances hn)
    exact hpaid.congr rfl
  | transferFrom spender payer payee amount =>
    simp only [he, transferFrom, bind_eq_ok, pure_eq_ok] at h
    obtain ⟨s, ⟨-, -, -, -, l, hl, m, hm, n, hn, rfl⟩, rfl⟩ := h
    have hspent := (hbump.spendAllowance hl).congr (spendBalance_allowances hm)
    exact (hspent.congr (receiveBalance_allowances hn)).congr rfl
  | burn owner amount =>
    simp only [he, burn, bind_eq_ok, pure_eq_ok] at h
    obtain ⟨s, ⟨-, -, -, -, m, hm, rfl⟩, rfl⟩ := h
    exact (hbump.congr (spendBalance_allowances hm)).congr rfl
  | burnFrom spender owner amount =>
    simp only [he, burnFrom, bind_eq_ok, pure_eq_ok] at h
    obtain ⟨s, ⟨-, -, -, -, l, hl, m, hm, rfl⟩, rfl⟩ := h
    exact ((hbump.spendAllowance hl).congr (spendBalance_allowances hm)).congr rfl

end Invocation

/-- The balance-level call a call amounts to: none if it only reads, or if its
approval is too long. -/
def TokenInvocation.token? (N : EntryLimits) (c : TokenInvocation) : Option TokenCall :=
  if c.TooLong N then none else c.call?

def TokenInvocation.ledger (c : TokenInvocation) : ℕ := c.sequence.val

section Runs

variable {N : EntryLimits} {st : TokenStorage} {t : Token} {c : TokenInvocation}

/-- What relates the two levels between calls. -/
def StoresWithin (N : EntryLimits) (n : ℕ) (st : TokenStorage) (t : Token) : Prop :=
  Stores st t ∧ st.Within N n

theorem StoresWithin.step {d : TokenCall} (h : StoresWithin N c.ledger st t)
    (hc : c.token? N = some d) :
    StoresWithin N c.ledger (Foundations.step (TokenInvocation.exec N) st c)
      (Foundations.step (fun t d => TokenCall.exec t d) t d) := by
  unfold TokenInvocation.token? at hc
  split_ifs at hc with hlong
  have hfollows := c.exec_follows (N := N) hc h.1
  have honly := c.exec_only h.2 hlong
  generalize hx : c.exec N st = x at hfollows
  cases hy : d.exec t with
  | error e =>
    rw [hy] at hfollows
    cases hfollows with
    | stopped => exact absurd rfl (honly _ hx)
    | failed => rwa [step_of_error hx, step_of_error hy]
  | ok u =>
    rw [hy] at hfollows
    cases hfollows with
    | stopped => exact absurd rfl (honly _ hx)
    | done hR =>
      rw [step_of_ok hx, step_of_ok hy]
      exact ⟨hR, c.exec_within h.2 hx⟩

theorem StoresWithin.skip (h : StoresWithin N c.ledger st t) (hc : c.token? N = none) :
    StoresWithin N c.ledger (Foundations.step (TokenInvocation.exec N) st c) t := by
  unfold TokenInvocation.token? at hc
  split_ifs at hc with hlong
  · cases hx : c.exec N st with
    | error e => rwa [step_of_error hx]
    | ok s => exact absurd hx (c.exec_tooLong hlong s)
  · obtain ⟨s, hs, hstores, hallow⟩ := c.exec_read (N := N) hc h.1
    rw [step_of_ok hs]
    exact ⟨hstores, h.2.congr hallow⟩

theorem StoresWithin.of_run {n m : ℕ} {calls : List TokenInvocation} (h : StoresWithin N n st t)
    (htime : calls.Pairwise fun a b => a.ledger ≤ b.ledger) (hn : ∀ c ∈ calls, n ≤ c.ledger)
    (hm : ∀ c ∈ calls, c.ledger ≤ m) (hnm : n ≤ m) :
    StoresWithin N m (run (TokenInvocation.exec N) st calls)
      (run (fun t d => TokenCall.exec t d) t (calls.filterMap (TokenInvocation.token? N))) := by
  refine run_simulation (R := StoresWithin N) ?_ ?_ ?_ htime hn hm hnm h
  · exact fun _ _ _ _ hnm h => ⟨h.1, h.2.mono hnm⟩
  · exact fun _ _ _ _ h hc => h.step hc
  · exact fun _ _ _ h hc => h.skip hc

theorem StoresWithin.construct {now : U32} {admin : Address} {decimal : U32} {name symbol : String}
    (hst : TokenStorage.construct N now admin decimal name symbol = .ok st)
    (ht : Token.construct admin decimal name symbol = .ok t) : StoresWithin N 0 st t := by
  simp only [TokenStorage.construct, bind_eq_ok, pure_eq_ok] at hst
  simp only [Token.construct, bind_eq_ok, pure_eq_ok] at ht
  obtain ⟨-, -, rfl⟩ := hst
  obtain ⟨-, -, rfl⟩ := ht
  refine ⟨⟨rfl, rfl, fun _ => rfl, fun _ => rfl, ?_, ?_⟩, ?_⟩ <;>
  · intro k e he
    simp at he

/-- The token kept in expiring entries is the token of balances and allowances.
In every run at nondecreasing ledgers both read the same after every call, and
each call ends alike in both, but for approvals longer than the network allows,
which fail. -/
theorem token_storage_refines {now : U32} {admin : Address} {decimal : U32} {name symbol : String}
    (hst : TokenStorage.construct N now admin decimal name symbol = .ok st)
    (ht : Token.construct admin decimal name symbol = .ok t) (calls : List TokenInvocation)
    (htime : calls.Pairwise fun a b => a.sequence ≤ b.sequence) (i : ℕ) :
    let st' := stateAt (TokenInvocation.exec N) st calls i
    let t' := run (fun t d => TokenCall.exec t d) t
      ((calls.take i).filterMap (TokenInvocation.token? N))
    (∀ now a, (st'.readBalance N now a).1 = t'.readBalance a) ∧
    (∀ now owner spender, (st'.readAllowance now owner spender).amount =
      (t'.readAllowance now owner spender).amount) ∧
    ∀ c, calls[i]? = some c →
      (c.TooLong N → ∀ s, c.exec N st' ≠ .ok s) ∧
      (c.call? = none → ∃ s, c.exec N st' = .ok s) ∧
      ∀ d, ¬ c.TooLong N → c.call? = some d →
        ∀ f, c.exec N st' = .error f ↔ hosted (d.exec t') = .error f := by
  intro st' t'
  have hbefore : (calls.take i).Pairwise fun a b => a.ledger ≤ b.ledger :=
    (htime.imp fun h => Fin.le_def.mp h).sublist (List.take_sublist i calls)
  have hrun (m : ℕ) (hm : ∀ c ∈ calls.take i, c.ledger ≤ m) : StoresWithin N m st' t' :=
    (StoresWithin.construct hst ht).of_run hbefore (fun _ _ => Nat.zero_le _) hm (Nat.zero_le _)
  have hstores : Stores st' t' := (hrun (2 ^ 32) fun c _ => c.sequence.isLt.le).1
  refine ⟨fun now a => (hstores.readBalance N now a).1,
    fun now owner spender => (hstores.readAllowance now owner spender).1, ?_⟩
  intro c hc
  refine ⟨fun hlong => c.exec_tooLong hlong, fun hread => ?_, fun d hshort hd => ?_⟩
  · obtain ⟨s, hs, -⟩ := c.exec_read (N := N) hread hstores
    exact ⟨s, hs⟩
  -- the calls before `c` are at its ledger at the latest
  · have hlast : ∀ b ∈ calls.take i, b.ledger ≤ c.ledger := by
      intro b hb
      obtain ⟨j, hj⟩ := List.mem_iff_getElem?.mp hb
      have hji : j < i := by
        have := (List.getElem?_eq_some_iff.mp hj).1
        rw [List.length_take] at this
        omega
      rw [List.getElem?_take_of_lt hji] at hj
      exact time_le (htime.imp fun h => Fin.le_def.mp h) hji.le hj hc
    have honly := c.exec_only (hrun _ hlast).2 hshort
    have hfollows := c.exec_follows (N := N) hd hstores
    unfold Follows at hfollows
    generalize hx : c.exec N st' = x at hfollows ⊢
    generalize hosted (d.exec t') = y at hfollows ⊢
    intro f
    cases hfollows with
    | stopped => exact absurd rfl (honly _ hx)
    | failed e => simp only [Except.error.injEq]
    | done hR => simp

end Runs

def sampleLimits : EntryLimits := ⟨4095, 15, 3110399⟩

def sampleStored : TokenStorage :=
  ⟨some (sampleAccount 1), ⟨7, "Test", "TST"⟩, 4195, ∅, ∅, []⟩

theorem sampleStored_constructed :
    TokenStorage.construct sampleLimits 100 (sampleAccount 1) 7 "Test" "TST" = .ok sampleStored :=
  rfl

def sampleApproval : List TokenInvocation :=
  [⟨100, fun a => a = sampleAccount 1, .mint (sampleAccount 5) (.ofByte 100)⟩,
    ⟨101, fun a => a = sampleAccount 5,
      .approve (sampleAccount 5) (sampleAccount 6) (.ofByte 30) 110⟩,
    ⟨105, fun a => a = sampleAccount 6,
      .transferFrom (sampleAccount 6) (sampleAccount 5) (sampleAccount 7) (.ofByte 10)⟩]

theorem token_storage_refines_sampleApproval :
    let st := stateAt (TokenInvocation.exec sampleLimits) sampleStored sampleApproval 3
    let t := run (fun t d => TokenCall.exec t d)
      ⟨some (sampleAccount 1), ⟨7, "Test", "TST"⟩, ∅, ∅⟩
      ((sampleApproval.take 3).filterMap (TokenInvocation.token? sampleLimits))
    (st.readAllowance 110 (sampleAccount 5) (sampleAccount 6)).amount.toInt = 20 ∧
      (st.readBalance sampleLimits 110 (sampleAccount 7)).1 = t.readBalance (sampleAccount 7) ∧
      (st.readAllowance 111 (sampleAccount 5) (sampleAccount 6)).amount =
        (t.readAllowance 111 (sampleAccount 5) (sampleAccount 6)).amount := by
  obtain ⟨hbalance, hallowance, -⟩ := token_storage_refines (N := sampleLimits)
    sampleStored_constructed rfl sampleApproval (by decide) 3
  exact ⟨by decide +kernel, hbalance 110 _, hallowance 111 _ _⟩

end Moonlight
