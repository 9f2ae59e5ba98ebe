import Moonlight.Channel

namespace Moonlight
open Foundations

structure AllowanceValue where
  amount : I128
  expirationLedger : U32
deriving DecidableEq

structure TokenMetadata where
  decimal : U32
  name : String
  symbol : String

/-- Storage of the token: the instance keys, the persistent balances and the
temporary allowances. -/
structure Token where
  admin : Option Address
  metadata : TokenMetadata
  balances : Finmap fun _ : Address => I128
  allowances : Finmap fun _ : Address × Address => AllowanceValue

namespace Token

def checkNonnegativeAmount (amount : I128) : Except Failure Unit :=
  ensure (¬ amount.toInt < 0) (.token (.negativeAmount amount.toInt))

def readBalance (t : Token) (addr : Address) : I128 := (t.balances.lookup addr).getD 0

def writeBalance (t : Token) (addr : Address) (amount : I128) : Token :=
  { t with balances := t.balances.insert addr amount }

def receiveBalance (t : Token) (addr : Address) (amount : I128) : Except Failure Token := do
  let balance ← (t.readBalance addr).add amount
  pure (t.writeBalance addr balance)

def spendBalance (t : Token) (addr : Address) (amount : I128) : Except Failure Token := do
  ensure (¬ (t.readBalance addr).toInt < amount.toInt) (.token .insufficientBalance)
  let balance ← (t.readBalance addr).sub amount
  pure (t.writeBalance addr balance)

def readAllowance (t : Token) (now : U32) (owner spender : Address) : AllowanceValue :=
  match t.allowances.lookup (owner, spender) with
  | some allowance =>
    if allowance.expirationLedger < now then ⟨0, allowance.expirationLedger⟩ else allowance
  | none => ⟨0, 0⟩

def writeAllowance (t : Token) (now : U32) (owner spender : Address) (amount : I128)
    (expirationLedger : U32) : Except Failure Token := do
  ensure (¬ (0 < amount.toInt ∧ expirationLedger < now)) (.token .expirationBeforeLedger)
  pure { t with allowances := t.allowances.insert (owner, spender) ⟨amount, expirationLedger⟩ }

def spendAllowance (t : Token) (now : U32) (owner spender : Address) (amount : I128) :
    Except Failure Token := do
  let allowance := t.readAllowance now owner spender
  ensure (¬ allowance.amount.toInt < amount.toInt) (.token .insufficientAllowance)
  if 0 < amount.toInt then
    let rest ← allowance.amount.sub amount
    t.writeAllowance now owner spender rest allowance.expirationLedger
  else
    pure t

def construct (admin : Address) (decimal : U32) (name symbol : String) : Except Failure Token := do
  ensure (¬ 18 < decimal.val) (.token .decimalTooLarge)
  pure ⟨some admin, ⟨decimal, name, symbol⟩, ∅, ∅⟩

def mint (t : Token) (auth : Address → Bool) (payee : Address) (amount : I128) :
    Except Failure Token := do
  checkNonnegativeAmount amount
  let admin ← okOr t.admin .unwrapNone
  ensure (auth admin = true) .unauthorized
  t.receiveBalance payee amount

def setAdmin (t : Token) (auth : Address → Bool) (newAdmin : Address) : Except Failure Token := do
  let admin ← okOr t.admin .unwrapNone
  ensure (auth admin = true) .unauthorized
  pure { t with admin := some newAdmin }

def approve (t : Token) (now : U32) (auth : Address → Bool) (owner spender : Address)
    (amount : I128) (expirationLedger : U32) : Except Failure Token := do
  ensure (auth owner = true) .unauthorized
  checkNonnegativeAmount amount
  t.writeAllowance now owner spender amount expirationLedger

def transfer (t : Token) (auth : Address → Bool) (x : Transfer) : Except Failure Token := do
  ensure (auth x.payer = true) .unauthorized
  checkNonnegativeAmount x.amount
  let t ← t.spendBalance x.payer x.amount
  t.receiveBalance x.payee x.amount

def transferFrom (t : Token) (now : U32) (auth : Address → Bool) (spender : Address)
    (x : Transfer) : Except Failure Token := do
  ensure (auth spender = true) .unauthorized
  checkNonnegativeAmount x.amount
  let t ← t.spendAllowance now x.payer spender x.amount
  let t ← t.spendBalance x.payer x.amount
  t.receiveBalance x.payee x.amount

def burn (t : Token) (auth : Address → Bool) (owner : Address) (amount : I128) :
    Except Failure Token := do
  ensure (auth owner = true) .unauthorized
  checkNonnegativeAmount amount
  t.spendBalance owner amount

def burnFrom (t : Token) (now : U32) (auth : Address → Bool) (spender owner : Address)
    (amount : I128) : Except Failure Token := do
  ensure (auth spender = true) .unauthorized
  checkNonnegativeAmount amount
  let t ← t.spendAllowance now owner spender amount
  t.spendBalance owner amount

end Token

inductive TokenOperation
  | mint (payee : Address) (amount : I128)
  | setAdmin (newAdmin : Address)
  | approve (owner spender : Address) (amount : I128) (expirationLedger : U32)
  | transfer (x : Transfer)
  | transferFrom (spender : Address) (x : Transfer)
  | burn (owner : Address) (amount : I128)
  | burnFrom (spender owner : Address) (amount : I128)

/-- A call of the token from outside, with the addresses that authorized it. -/
structure TokenCall where
  sequence : U32
  auth : Address → Bool
  op : TokenOperation

def TokenCall.exec (t : Token) (c : TokenCall) : Except Failure Token :=
  match c.op with
  | .mint payee amount => t.mint c.auth payee amount
  | .setAdmin newAdmin => t.setAdmin c.auth newAdmin
  | .approve owner spender amount expirationLedger =>
    t.approve c.sequence c.auth owner spender amount expirationLedger
  | .transfer x => t.transfer c.auth x
  | .transferFrom spender x => t.transferFrom c.sequence c.auth spender x
  | .burn owner amount => t.burn c.auth owner amount
  | .burnFrom spender owner amount => t.burnFrom c.sequence c.auth spender owner amount

namespace Token

def balance (t : Token) (addr : Address) : ℤ := (t.readBalance addr).toInt

variable {t t' : Token} {addr : Address} {amount : I128}

theorem balance_writeBalance (a : I128) (y : Address) :
    (t.writeBalance addr a).balance y = if y = addr then a.toInt else t.balance y := by
  by_cases hy : y = addr
  · subst hy
    simp [balance, readBalance, writeBalance]
  · simp [balance, readBalance, writeBalance, hy, Finmap.lookup_insert_of_ne]

theorem receiveBalance_ok (h : t.receiveBalance addr amount = .ok t') :
    (∀ y, t'.balance y = t.balance y + if y = addr then amount.toInt else 0) ∧
      t'.allowances = t.allowances := by
  simp only [receiveBalance, bind_eq_ok, pure_eq_ok, I128.add_eq_ok] at h
  obtain ⟨b, hb, rfl⟩ := h
  refine ⟨?_, rfl⟩
  intro y
  rw [balance_writeBalance]
  split_ifs with hy
  · rw [hb, hy, balance]
  · rw [add_zero]

theorem spendBalance_ok (h : t.spendBalance addr amount = .ok t') :
    amount.toInt ≤ t.balance addr ∧
      (∀ y, t'.balance y = t.balance y - if y = addr then amount.toInt else 0) ∧
      t'.allowances = t.allowances := by
  simp only [spendBalance, bind_eq_ok, pure_eq_ok, ensure_eq_ok, I128.sub_eq_ok] at h
  obtain ⟨-, hle, b, hb, rfl⟩ := h
  refine ⟨not_lt.mp hle, ?_, rfl⟩
  intro y
  rw [balance_writeBalance]
  split_ifs with hy
  · rw [hb, hy, balance]
  · rw [sub_zero]

theorem transfer_ok {auth : Address → Bool} {x : Transfer} (h : t.transfer auth x = .ok t') :
    auth x.payer = true ∧ 0 ≤ x.amount.toInt ∧
      (∀ y, t'.balance y = (t.balance y - if y = x.payer then x.amount.toInt else 0) +
        if y = x.payee then x.amount.toInt else 0) ∧
      t'.allowances = t.allowances := by
  simp only [transfer, checkNonnegativeAmount, bind_eq_ok, ensure_eq_ok] at h
  obtain ⟨-, hauth, -, hpos, s, hspend, hreceive⟩ := h
  obtain ⟨-, hdebit, hallow⟩ := spendBalance_ok hspend
  obtain ⟨hcredit, hallow'⟩ := receiveBalance_ok hreceive
  refine ⟨hauth, not_lt.mp hpos, ?_, hallow'.trans hallow⟩
  intro y
  rw [hcredit, hdebit]

theorem receiveBalance_exists_iff (hpos : 0 ≤ amount.toInt) :
    (∃ t', t.receiveBalance addr amount = .ok t') ↔ t.balance addr + amount.toInt < 2 ^ 127 := by
  simp only [receiveBalance, bind_eq_ok, pure_eq_ok, I128.add_eq_ok]
  constructor
  · rintro ⟨-, b, hb, -⟩
    have hup := b.upper
    rw [hb] at hup
    exact hup
  · intro hfit
    have hlow := (t.readBalance addr).lower
    exact ⟨_, ⟨(t.readBalance addr).toInt + amount.toInt, by omega, hfit⟩, rfl, rfl⟩

theorem spendBalance_exists_iff (hpos : 0 ≤ amount.toInt) :
    (∃ t', t.spendBalance addr amount = .ok t') ↔ amount.toInt ≤ t.balance addr := by
  simp only [spendBalance, bind_eq_ok, pure_eq_ok, ensure_eq_ok, I128.sub_eq_ok]
  constructor
  · rintro ⟨-, -, hle, -⟩
    exact not_lt.mp hle
  · intro hle
    have hup := (t.readBalance addr).upper
    have hle' : amount.toInt ≤ (t.readBalance addr).toInt := hle
    exact ⟨_, (), not_lt.mpr hle, ⟨(t.readBalance addr).toInt - amount.toInt, by omega, by omega⟩,
      rfl, rfl⟩

/-- When a transfer goes through: a payer who has signed and has the funds, and
a payee whose balance stays in range. -/
theorem transfer_exists_iff {auth : Address → Bool} {x : Transfer} :
    (∃ t', t.transfer auth x = .ok t') ↔
      auth x.payer = true ∧ 0 ≤ x.amount.toInt ∧ x.amount.toInt ≤ t.balance x.payer ∧
        (x.payee ≠ x.payer → t.balance x.payee + x.amount.toInt < 2 ^ 127) := by
  constructor
  · rintro ⟨t', h⟩
    simp only [transfer, checkNonnegativeAmount, bind_eq_ok, ensure_eq_ok] at h
    obtain ⟨-, hauth, -, hpos, s, hspend, hreceive⟩ := h
    obtain ⟨hle, hdebit, -⟩ := spendBalance_ok hspend
    refine ⟨hauth, not_lt.mp hpos, hle, ?_⟩
    intro hne
    have hfit := (receiveBalance_exists_iff (not_lt.mp hpos)).mp ⟨t', hreceive⟩
    rw [hdebit, if_neg hne, sub_zero] at hfit
    exact hfit
  · rintro ⟨hauth, hpos, hle, hfit⟩
    obtain ⟨s, hspend⟩ := (spendBalance_exists_iff hpos).mpr hle
    obtain ⟨-, hdebit, -⟩ := spendBalance_ok hspend
    obtain ⟨t', hreceive⟩ : ∃ t', s.receiveBalance x.payee x.amount = .ok t' := by
      rw [receiveBalance_exists_iff hpos, hdebit]
      split_ifs with he
      · -- to oneself the credit only restores the debit
        rw [sub_add_cancel]
        exact (t.readBalance x.payee).upper
      · rw [sub_zero]
        exact hfit he
    simp only [transfer, checkNonnegativeAmount, bind_eq_ok, ensure_eq_ok]
    exact ⟨t', (), hauth, (), not_lt.mpr hpos, s, hspend, hreceive⟩

def NoAllowance (t : Token) (owner : Address) : Prop :=
  ∀ spender, t.allowances.lookup (owner, spender) = none

theorem writeAllowance_ok {now e : U32} {owner spender : Address}
    (h : t.writeAllowance now owner spender amount e = .ok t') :
    t'.balances = t.balances ∧ ∀ o, o ≠ owner → t.NoAllowance o → t'.NoAllowance o := by
  simp only [writeAllowance, bind_eq_ok, pure_eq_ok, ensure_eq_ok] at h
  obtain ⟨-, -, rfl⟩ := h
  refine ⟨rfl, ?_⟩
  intro o hne ho s
  rw [Finmap.lookup_insert_of_ne]
  · exact ho s
  · intro he
    exact hne (Prod.mk.inj he).1

theorem spendAllowance_ok {now : U32} {owner spender : Address}
    (h : t.spendAllowance now owner spender amount = .ok t') :
    t'.balances = t.balances ∧
      ∀ o, t.NoAllowance o → t'.NoAllowance o ∧ (o = owner → amount.toInt ≤ 0) := by
  simp only [spendAllowance, bind_eq_ok, ensure_eq_ok] at h
  obtain ⟨-, hle, h⟩ := h
  have hzero (ho : t.NoAllowance owner) : amount.toInt ≤ 0 := by
    simpa [readAllowance, ho spender] using hle
  split_ifs at h with hpos
  · obtain ⟨rest, -, hwrite⟩ := bind_eq_ok.mp h
    obtain ⟨hbal, hkeep⟩ := writeAllowance_ok hwrite
    refine ⟨hbal, ?_⟩
    intro o ho
    have hne : o ≠ owner := by
      rintro rfl
      have := hzero ho
      omega
    exact ⟨hkeep o hne ho, fun he => absurd he hne⟩
  · obtain rfl := pure_eq_ok.mp h
    exact ⟨rfl, fun o ho => ⟨ho, fun he => hzero (he ▸ ho)⟩⟩

theorem balance_congr (h : t'.balances = t.balances) (y : Address) :
    t'.balance y = t.balance y := by
  rw [balance, balance, readBalance, readBalance, h]

theorem NoAllowance.congr {o : Address} (h : t.NoAllowance o)
    (he : t'.allowances = t.allowances) : t'.NoAllowance o := by
  intro spender
  rw [he]
  exact h spender

/-- What an address that neither signs nor has approved anyone keeps through a
call: its balance does not fall, and it still has approved no one. -/
structure Untouched (t t' : Token) (o : Address) : Prop where
  balance : t.balance o ≤ t'.balance o
  noAllowance : t'.NoAllowance o

theorem Untouched.of_receive {o : Address} (ho : t.NoAllowance o) (hpos : 0 ≤ amount.toInt)
    (h : t.receiveBalance addr amount = .ok t') : t.Untouched t' o := by
  obtain ⟨hbal, hallow⟩ := receiveBalance_ok h
  refine ⟨?_, ho.congr hallow⟩
  rw [hbal]
  split_ifs <;> omega

theorem Untouched.of_spend {o : Address} (ho : t.NoAllowance o)
    (hne : o = addr → amount.toInt ≤ 0) (h : t.spendBalance addr amount = .ok t') :
    t.Untouched t' o := by
  obtain ⟨-, hbal, hallow⟩ := spendBalance_ok h
  refine ⟨?_, ho.congr hallow⟩
  rw [hbal]
  split_ifs with heq
  · have := hne heq
    omega
  · omega

theorem Untouched.trans {t'' : Token} {o : Address} (h : t.Untouched t' o)
    (h' : t'.Untouched t'' o) : t.Untouched t'' o :=
  ⟨h.balance.trans h'.balance, h'.noAllowance⟩

end Token

theorem TokenCall.untouched {t t' : Token} {c : TokenCall} {o : Address} (ho : t.NoAllowance o)
    (hauth : c.auth o = false) (h : c.exec t = .ok t') : t.Untouched t' o := by
  have hne {x : Address} (hx : c.auth x = true) : o ≠ x := by
    rintro rfl
    rw [hauth] at hx
    cases hx
  unfold TokenCall.exec at h
  cases hop : c.op with
  | mint payee amount =>
    simp only [hop, Token.mint, Token.checkNonnegativeAmount, bind_eq_ok, ensure_eq_ok,
      okOr_eq_ok] at h
    obtain ⟨-, hpos, admin, -, -, -, hreceive⟩ := h
    exact .of_receive ho (not_lt.mp hpos) hreceive
  | setAdmin newAdmin =>
    simp only [hop, Token.setAdmin, bind_eq_ok, ensure_eq_ok, okOr_eq_ok, pure_eq_ok] at h
    obtain ⟨admin, -, -, -, rfl⟩ := h
    exact ⟨le_rfl, ho⟩
  | approve owner spender amount expirationLedger =>
    simp only [hop, Token.approve, Token.checkNonnegativeAmount, bind_eq_ok, ensure_eq_ok] at h
    obtain ⟨-, howner, -, -, hwrite⟩ := h
    obtain ⟨hbal, hkeep⟩ := Token.writeAllowance_ok hwrite
    exact ⟨(Token.balance_congr hbal o).ge, hkeep o (hne howner) ho⟩
  | transfer x =>
    simp only [hop, Token.transfer, Token.checkNonnegativeAmount, bind_eq_ok, ensure_eq_ok] at h
    obtain ⟨-, hpayer, -, hpos, s, hspend, hreceive⟩ := h
    have hs := Token.Untouched.of_spend ho (fun he => absurd he (hne hpayer)) hspend
    exact hs.trans (.of_receive hs.noAllowance (not_lt.mp hpos) hreceive)
  | transferFrom spender x =>
    simp only [hop, Token.transferFrom, Token.checkNonnegativeAmount, bind_eq_ok,
      ensure_eq_ok] at h
    obtain ⟨-, -, -, hpos, r, hallow, s, hspend, hreceive⟩ := h
    obtain ⟨hbal, hkeep⟩ := Token.spendAllowance_ok hallow
    have hr : t.Untouched r o := ⟨(Token.balance_congr hbal o).ge, (hkeep o ho).1⟩
    have hs := hr.trans (.of_spend hr.noAllowance (hkeep o ho).2 hspend)
    exact hs.trans (.of_receive hs.noAllowance (not_lt.mp hpos) hreceive)
  | burn owner amount =>
    simp only [hop, Token.burn, Token.checkNonnegativeAmount, bind_eq_ok, ensure_eq_ok] at h
    obtain ⟨-, howner, -, -, hspend⟩ := h
    exact .of_spend ho (fun he => absurd he (hne howner)) hspend
  | burnFrom spender owner amount =>
    simp only [hop, Token.burnFrom, Token.checkNonnegativeAmount, bind_eq_ok, ensure_eq_ok] at h
    obtain ⟨-, -, -, -, r, hallow, hspend⟩ := h
    obtain ⟨hbal, hkeep⟩ := Token.spendAllowance_ok hallow
    have hr : t.Untouched r o := ⟨(Token.balance_congr hbal o).ge, (hkeep o ho).1⟩
    exact hr.trans (.of_spend hr.noAllowance (hkeep o ho).2 hspend)

end Moonlight
