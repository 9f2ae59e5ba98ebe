import Moonlight.Allowances
import Moonlight.Settlement

namespace Moonlight
open Foundations

/-- What an event says about the balance of `y`. -/
def TokenEvent.delta (y : Address) : TokenEvent → ℤ
  | transfer payer payee _ amount => (⟨payer, payee, amount⟩ : Transfer).delta y
  | burn owner amount => if y = owner then -amount.toInt else 0
  | _ => 0

def TokenEvent.burned : TokenEvent → ℤ
  | burn _ amount => amount.toInt
  | _ => 0

def TokenInvocation.minted (y : Address) (c : TokenInvocation) : ℤ :=
  match c.entrypoint with
  | .mint payee amount => if y = payee then amount.toInt else 0
  | _ => 0

def TokenInvocation.mintedTotal (c : TokenInvocation) : ℤ :=
  match c.entrypoint with
  | .mint _ amount => amount.toInt
  | _ => 0

namespace TokenStorage

/-- The stored balance, `0` without an entry. -/
def held (st : TokenStorage) (y : Address) : ℤ :=
  (((st.balances.lookup y).map Entry.amount).getD 0).toInt

def moved (st : TokenStorage) (y : Address) : ℤ := (st.events.map (TokenEvent.delta y)).sum

variable {N : EntryLimits} {now : U32} {st st' : TokenStorage} {a y : Address} {amount : I128}

@[simp] theorem held_bumpInstance : (st.bumpInstance N now).held y = st.held y := rfl

@[simp] theorem moved_bumpInstance : (st.bumpInstance N now).moved y = st.moved y := rfl

@[simp] theorem held_publish (e : TokenEvent) : (st.publish e).held y = st.held y := rfl

@[simp] theorem moved_publish (e : TokenEvent) :
    (st.publish e).moved y = st.moved y + e.delta y := by
  simp [moved, publish]

@[simp] theorem held_bumpBalance : (st.bumpBalance N now a).held y = st.held y := by
  unfold bumpBalance held
  cases he : st.balances.lookup a with
  | none => rfl
  | some e =>
    by_cases hy : y = a
    · subst hy
      simp [he]
    · simp [hy, Finmap.lookup_insert_of_ne]

@[simp] theorem held_setBalance :
    (st.setBalance N now a amount).held y = if y = a then amount.toInt else st.held y := by
  unfold setBalance held
  by_cases hy : y = a
  · subst hy
    simp
  · simp [hy, Finmap.lookup_insert_of_ne]

@[simp] theorem events_bumpBalance : (st.bumpBalance N now a).events = st.events := by
  unfold bumpBalance
  cases st.balances.lookup a <;> rfl

theorem readBalance_held :
    (st.readBalance N now a).1.toInt = st.held a ∧
      (∀ y, (st.readBalance N now a).2.held y = st.held y) ∧
      (st.readBalance N now a).2.events = st.events := by
  unfold readBalance
  cases he : st.balances.lookup a with
  | none => exact ⟨by simp [held, he], fun _ => rfl, rfl⟩
  | some e => exact ⟨by simp [held, he], fun _ => held_bumpBalance, events_bumpBalance⟩

theorem balance_held : (st.balance N now y).1.toInt = st.held y := readBalance_held.1

structure Shifted (st st' : TokenStorage) (a : Address) (d : ℤ) : Prop where
  held : ∀ y, st'.held y = st.held y + if y = a then d else 0
  events : st'.events = st.events

theorem Shifted.moved {d : ℤ} (h : Shifted st st' a d) (y : Address) :
    st'.moved y = st.moved y := by
  rw [TokenStorage.moved, h.events, TokenStorage.moved]

theorem Shifted.of_write {d : ℤ} {b : I128} (hb : b.toInt = st.held a + d) :
    Shifted st ((st.readBalance N now a).2.writeBalance N now a b) a d := by
  obtain ⟨-, hheld, hevents⟩ : _ ∧ (∀ y, (st.readBalance N now a).2.held y = st.held y) ∧
      (st.readBalance N now a).2.events = st.events := readBalance_held
  refine ⟨fun y => ?_, ?_⟩
  · rw [writeBalance, held_bumpBalance, held_setBalance, hheld]
    split_ifs with hy
    · rw [hb, hy]
    · rw [add_zero]
  · rw [writeBalance, events_bumpBalance]
    exact hevents

theorem receiveBalance_shifted (h : st.receiveBalance N now a amount = .ok st') :
    Shifted st st' a amount.toInt := by
  simp only [receiveBalance, bind_eq_ok, pure_eq_ok, hosted_eq_ok, I128.add_eq_ok] at h
  obtain ⟨b, hb, rfl⟩ := h
  rw [readBalance_held.1] at hb
  exact .of_write hb

theorem spendBalance_shifted (h : st.spendBalance N now a amount = .ok st') :
    amount.toInt ≤ st.held a ∧ Shifted st st' a (-amount.toInt) := by
  simp only [spendBalance, bind_eq_ok, pure_eq_ok, hosted_eq_ok, ensure_eq_ok,
    I128.sub_eq_ok] at h
  obtain ⟨-, hle, b, hb, rfl⟩ := h
  rw [readBalance_held.1] at hle hb
  exact ⟨not_lt.mp hle, .of_write hb⟩

theorem writeAllowance_shifted {owner spender : Address} {e : U32}
    (h : st.writeAllowance N now owner spender amount e = .ok st') : Shifted st st' a 0 := by
  simp only [writeAllowance, bind_eq_ok] at h
  obtain ⟨-, -, h⟩ := h
  have hsame : st'.balances = st.balances ∧ st'.events = st.events := by
    split_ifs at h with hpos
    · simp only [extendAllowance, setAllowance, Finmap.lookup_insert] at h
      split_ifs at h with hmax
      exact Except.ok.inj h ▸ ⟨rfl, rfl⟩
    · exact pure_eq_ok.mp h ▸ ⟨rfl, rfl⟩
  refine ⟨fun y => ?_, hsame.2⟩
  rw [held, hsame.1, held]
  split_ifs <;> rw [add_zero]

theorem spendAllowance_shifted {owner spender : Address}
    (h : st.spendAllowance N now owner spender amount = .ok st') : Shifted st st' a 0 := by
  simp only [spendAllowance, bind_eq_ok] at h
  obtain ⟨-, -, h⟩ := h
  split_ifs at h with hpos
  · obtain ⟨rest, -, hwrite⟩ := bind_eq_ok.mp h
    exact writeAllowance_shifted hwrite
  · obtain rfl := pure_eq_ok.mp h
    exact ⟨fun y => by split_ifs <;> rw [add_zero], rfl⟩

end TokenStorage

/-- A call changes balances by what it mints and what it publishes, and leaves
no debt. -/
structure BooksStep (c : TokenInvocation) (st st' : TokenStorage) : Prop where
  held : ∀ y, st'.held y - st'.moved y = st.held y - st.moved y + c.minted y
  nonneg : (∀ y, 0 ≤ st.held y) → ∀ y, 0 ≤ st'.held y

section Step

open TokenStorage

variable {N : EntryLimits} {now : U32} {st st' : TokenStorage} {c : TokenInvocation}

theorem BooksStep.of_same (hc : ∀ y, c.minted y = 0) (hheld : ∀ y, st'.held y = st.held y)
    (hmoved : ∀ y, st'.moved y = st.moved y) : BooksStep c st st' := by
  refine ⟨fun y => ?_, fun h y => ?_⟩
  · rw [hheld, hmoved, hc, add_zero]
  · rw [hheld]
    exact h y

theorem BooksStep.of_transfer {payer payee : Address} {id : Option (Fin (2 ^ 64))} {amount : I128}
    {r m : TokenStorage} (hc : ∀ y, c.minted y = 0) (hnonneg : 0 ≤ amount.toInt)
    (hr : ∀ y, r.held y = st.held y ∧ r.moved y = st.moved y)
    (hm : r.spendBalance N now payer amount = .ok m)
    (h : m.receiveBalance N now payee amount = .ok st') :
    BooksStep c st (st'.publish (.transfer payer payee id amount)) := by
  obtain ⟨hle, hdebit⟩ := spendBalance_shifted hm
  have hcredit := receiveBalance_shifted h
  have hheld (y : Address) : st'.held y = st.held y + (if y = payer then -amount.toInt else 0) +
      if y = payee then amount.toInt else 0 := by
    rw [hcredit.held, hdebit.held, (hr y).1]
  refine ⟨fun y => ?_, fun hst y => ?_⟩
  · rw [held_publish, moved_publish, hheld, hcredit.moved, hdebit.moved, (hr y).2, hc,
      TokenEvent.delta, Transfer.delta]
    simp only
    split_ifs <;> omega
  · have hy := hst y
    rw [(hr payer).1] at hle
    rw [held_publish, hheld]
    split_ifs with hpayer hpayee
    · omega
    · rw [hpayer]
      omega
    · omega
    · omega

theorem BooksStep.of_burn {owner : Address} {amount : I128} {r : TokenStorage}
    (hc : ∀ y, c.minted y = 0) (hr : ∀ y, r.held y = st.held y ∧ r.moved y = st.moved y)
    (h : r.spendBalance N now owner amount = .ok st') :
    BooksStep c st (st'.publish (.burn owner amount)) := by
  obtain ⟨hle, hdebit⟩ := spendBalance_shifted h
  refine ⟨fun y => ?_, fun hst y => ?_⟩
  · rw [held_publish, moved_publish, hdebit.held, hdebit.moved, (hr y).1, (hr y).2, hc,
      TokenEvent.delta]
    split_ifs <;> omega
  · have hy := hst y
    rw [held_publish, hdebit.held, (hr y).1]
    split_ifs with howner
    · rw [howner, ← (hr owner).1]
      omega
    · omega

theorem Shifted.quiet {a : Address} {m : TokenStorage} (h : Shifted (st.bumpInstance N now) m a 0)
    (y : Address) : m.held y = st.held y ∧ m.moved y = st.moved y := by
  refine ⟨?_, h.moved y⟩
  rw [h.held, held_bumpInstance]
  split_ifs <;> rw [add_zero]

theorem TokenInvocation.booksStep (h : c.exec N st = .ok st') : BooksStep c st st' := by
  simp only [TokenInvocation.exec, TokenInvocation.invoke, bind_eq_ok, pure_eq_ok] at h
  obtain ⟨r, h, rfl⟩ := h
  cases he : c.entrypoint with
  | decimals | name | symbol =>
    simp only [he, pure_eq_ok] at h
    subst h
    exact .of_same (by simp [TokenInvocation.minted, he]) (fun _ => rfl) fun _ => rfl
  | allowance owner spender =>
    simp only [he, pure_eq_ok] at h
    subst h
    exact .of_same (by simp [TokenInvocation.minted, he]) (fun _ => rfl) fun _ => rfl
  | balance id =>
    simp only [he, pure_eq_ok] at h
    subst h
    obtain ⟨-, hheld, hevents⟩ : _ ∧ (∀ y, (st.balance N c.sequence id).2.held y = st.held y) ∧
        (st.balance N c.sequence id).2.events = st.events := readBalance_held
    refine .of_same (by simp [TokenInvocation.minted, he]) hheld fun y => ?_
    rw [TokenStorage.moved, hevents, TokenStorage.moved]
  | mint payee amount =>
    simp only [he, mint, Token.checkNonnegativeAmount, bind_eq_ok, pure_eq_ok, hosted_eq_ok,
      ensure_eq_ok] at h
    obtain ⟨s, ⟨-, hnonneg, -, -, -, -, hs⟩, rfl⟩ := h
    have hcredit := receiveBalance_shifted hs
    have hminted (y : Address) : c.minted y = if y = payee then amount.toInt else 0 := by
      simp [TokenInvocation.minted, he]
    refine ⟨fun y => ?_, fun hst y => ?_⟩
    · rw [hcredit.held, hcredit.moved, held_bumpInstance, moved_bumpInstance, hminted]
      omega
    · have hy := hst y
      rw [hcredit.held, held_bumpInstance]
      split_ifs <;> omega
  | setAdmin newAdmin =>
    simp only [he, setAdmin, bind_eq_ok, pure_eq_ok] at h
    obtain ⟨s, ⟨-, -, -, -, rfl⟩, rfl⟩ := h
    refine .of_same (by simp [TokenInvocation.minted, he]) (fun _ => rfl) fun y => ?_
    rw [moved_publish]
    exact add_zero _
  | approve owner spender amount expirationLedger =>
    simp only [he, approve, bind_eq_ok, pure_eq_ok] at h
    obtain ⟨s, ⟨-, -, -, -, m, hm, rfl⟩, rfl⟩ := h
    have hquiet := Shifted.quiet (writeAllowance_shifted (a := owner) hm)
    refine .of_same (by simp [TokenInvocation.minted, he]) (fun y => (hquiet y).1) fun y => ?_
    rw [moved_publish, (hquiet y).2]
    exact add_zero _
  | transfer payer payee amount =>
    simp only [he, transfer, Token.checkNonnegativeAmount, bind_eq_ok, pure_eq_ok, hosted_eq_ok,
      ensure_eq_ok] at h
    obtain ⟨s, ⟨-, -, -, hnonneg, m, hm, n, hn, rfl⟩, rfl⟩ := h
    exact .of_transfer (r := st.bumpInstance N c.sequence) (by simp [TokenInvocation.minted, he])
      (not_lt.mp hnonneg) (fun _ => ⟨rfl, rfl⟩) hm hn
  | transferFrom spender payer payee amount =>
    simp only [he, transferFrom, Token.checkNonnegativeAmount, bind_eq_ok, pure_eq_ok,
      hosted_eq_ok, ensure_eq_ok] at h
    obtain ⟨s, ⟨-, -, -, hnonneg, l, hl, m, hm, n, hn, rfl⟩, rfl⟩ := h
    exact .of_transfer (by simp [TokenInvocation.minted, he]) (not_lt.mp hnonneg)
      (Shifted.quiet (spendAllowance_shifted (a := payer) hl)) hm hn
  | burn owner amount =>
    simp only [he, burn, bind_eq_ok, pure_eq_ok] at h
    obtain ⟨s, ⟨-, -, -, -, m, hm, rfl⟩, rfl⟩ := h
    exact .of_burn (r := st.bumpInstance N c.sequence) (by simp [TokenInvocation.minted, he])
      (fun _ => ⟨rfl, rfl⟩) hm
  | burnFrom spender owner amount =>
    simp only [he, burnFrom, bind_eq_ok, pure_eq_ok] at h
    obtain ⟨s, ⟨-, -, -, -, l, hl, m, hm, rfl⟩, rfl⟩ := h
    exact .of_burn (by simp [TokenInvocation.minted, he])
      (Shifted.quiet (spendAllowance_shifted (a := owner) hl)) hm

end Step

section Runs

variable {N : EntryLimits} {st : TokenStorage} {now₀ : U32} {admin : Address} {decimal : U32}
  {name symbol : String}

theorem TokenStorage.construct_empty
    (h : TokenStorage.construct N now₀ admin decimal name symbol = .ok st) :
    (∀ y, st.held y = 0) ∧ st.events = [] := by
  simp only [TokenStorage.construct, bind_eq_ok, pure_eq_ok] at h
  obtain ⟨-, -, rfl⟩ := h
  exact ⟨fun _ => rfl, rfl⟩

theorem held_nonneg (h : TokenStorage.construct N now₀ admin decimal name symbol = .ok st)
    (calls : List TokenInvocation) (y : Address) :
    0 ≤ (run (TokenInvocation.exec N) st calls).held y := by
  have hall : ∀ y, 0 ≤ (run (TokenInvocation.exec N) st calls).held y := by
    apply run_invariant (I := fun st : TokenStorage => ∀ y, 0 ≤ st.held y)
    · intro s t c _ hs hx
      exact (c.booksStep hx).nonneg hs
    · intro y
      exact ((TokenStorage.construct_empty h).1 y).ge
  exact hall y

theorem held_eq (h : TokenStorage.construct N now₀ admin decimal name symbol = .ok st)
    (calls : List TokenInvocation) (y : Address) :
    let st' := run (TokenInvocation.exec N) st calls
    st'.held y = ((succeeded (TokenInvocation.exec N) st calls).map
      (TokenInvocation.minted y)).sum + st'.moved y := by
  intro st'
  have hsum : st'.held y - st'.moved y = st.held y - st.moved y + _ :=
    run_sum (fun st : TokenStorage => st.held y - st.moved y) (TokenInvocation.minted y)
      fun s c t hx => (c.booksStep hx).held y
  obtain ⟨hheld, hevents⟩ := TokenStorage.construct_empty h
  have hmoved : st.moved y = 0 := by rw [TokenStorage.moved, hevents]; rfl
  rw [hheld, hmoved] at hsum
  omega

def TokenEvent.parties : TokenEvent → Finset Address
  | transfer payer payee _ _ => {payer, payee}
  | burn owner _ => {owner}
  | _ => ∅

def TokenInvocation.payees (c : TokenInvocation) : Finset Address :=
  match c.entrypoint with
  | .mint payee _ => {payee}
  | _ => ∅

theorem TokenEvent.sum_delta {e : TokenEvent} {S : Finset Address} (h : e.parties ⊆ S) :
    ∑ y ∈ S, e.delta y = -e.burned := by
  cases e with
  | setAdmin admin newAdmin => simp [TokenEvent.delta, TokenEvent.burned]
  | approve owner spender amount expirationLedger => simp [TokenEvent.delta, TokenEvent.burned]
  | transfer payer payee id amount =>
    have hpayer : payer ∈ S := h (by simp [TokenEvent.parties])
    have hpayee : payee ∈ S := h (by simp [TokenEvent.parties])
    simp [TokenEvent.delta, Transfer.delta, TokenEvent.burned, hpayer, hpayee]
  | burn owner amount =>
    have howner : owner ∈ S := h (by simp [TokenEvent.parties])
    simp [TokenEvent.delta, TokenEvent.burned, howner]

theorem TokenInvocation.sum_minted {c : TokenInvocation} {S : Finset Address} (h : c.payees ⊆ S) :
    ∑ y ∈ S, c.minted y = c.mintedTotal := by
  unfold TokenInvocation.minted TokenInvocation.mintedTotal
  unfold TokenInvocation.payees at h
  cases he : c.entrypoint with
  | mint payee amount =>
    simp only [he, Finset.singleton_subset_iff] at h
    simp [h]
  | _ => simp

def TokenStorage.circulation (st : TokenStorage) : ℤ := ∑ y ∈ st.balances.keys, st.held y

theorem TokenStorage.circulation_eq {st : TokenStorage} {S : Finset Address}
    (h : st.balances.keys ⊆ S) : st.circulation = ∑ y ∈ S, st.held y := by
  apply Finset.sum_subset h
  intro y _ hy
  have hnone : st.balances.lookup y = none := by
    rw [Finmap.lookup_eq_none]
    exact fun hmem => hy (Finmap.mem_keys.mpr hmem)
  simp [TokenStorage.held, hnone]

/-- After any run each balance is what was minted to it and what the published
events have moved, none is negative, and together they are what was minted
less what was burned. -/
theorem token_books_balance
    (h : TokenStorage.construct N now₀ admin decimal name symbol = .ok st)
    (calls : List TokenInvocation) :
    let st' := run (TokenInvocation.exec N) st calls
    let committed := succeeded (TokenInvocation.exec N) st calls
    (∀ now y, (st'.balance N now y).1.toInt =
      (committed.map (TokenInvocation.minted y)).sum +
        (st'.events.map (TokenEvent.delta y)).sum) ∧
    (∀ now y, 0 ≤ (st'.balance N now y).1.toInt) ∧
    st'.circulation = (committed.map TokenInvocation.mintedTotal).sum -
      (st'.events.map TokenEvent.burned).sum := by
  intro st' committed
  refine ⟨fun now y => ?_, fun now y => ?_, ?_⟩
  · rw [TokenStorage.balance_held]
    exact held_eq h calls y
  · rw [TokenStorage.balance_held]
    exact held_nonneg h calls y
  -- a set of accounts wide enough for every mint and every event
  · let S := st'.balances.keys ∪ unionAll (committed.map TokenInvocation.payees) ∪
      unionAll (st'.events.map TokenEvent.parties)
    have hkeys : st'.balances.keys ⊆ S := fun y hy => by simp [S, hy]
    have hminted : ∀ c ∈ committed, ∑ y ∈ S, c.minted y = c.mintedTotal := by
      intro c hc
      apply TokenInvocation.sum_minted
      intro y hy
      simp only [S, Finset.mem_union, mem_unionAll, List.mem_map]
      exact .inl (.inr ⟨_, ⟨c, hc, rfl⟩, hy⟩)
    have hmoved : ∀ e ∈ st'.events, ∑ y ∈ S, e.delta y = -e.burned := by
      intro e he
      apply TokenEvent.sum_delta
      intro y hy
      simp only [S, Finset.mem_union, mem_unionAll, List.mem_map]
      exact .inr ⟨_, ⟨e, he, rfl⟩, hy⟩
    have hheld (y : Address) : st'.held y = (committed.map (TokenInvocation.minted y)).sum +
        (st'.events.map (TokenEvent.delta y)).sum := held_eq h calls y
    have hneg : (st'.events.map fun e => -e.burned).sum =
        -(st'.events.map TokenEvent.burned).sum := by
      simpa using Multiset.sum_map_neg (m := (st'.events : Multiset TokenEvent))
    rw [TokenStorage.circulation_eq hkeys, Finset.sum_congr rfl fun y _ => hheld y,
      Finset.sum_add_distrib, sum_sum_map S TokenInvocation.minted,
      sum_sum_map S TokenEvent.delta, List.map_congr_left hminted, List.map_congr_left hmoved,
      hneg, sub_eq_add_neg]

end Runs

theorem token_books_sampleApproval :
    let st := run (TokenInvocation.exec sampleLimits) sampleStored sampleApproval
    st.circulation = 100 ∧ (st.balance sampleLimits 105 (sampleAccount 7)).1.toInt = 10 := by
  obtain ⟨hheld, _, hall⟩ := token_books_balance sampleStored_constructed sampleApproval
  exact ⟨hall.trans (by decide +kernel), (hheld 105 _).trans (by decide +kernel)⟩

section Overflow

open TokenStorage

variable {N : EntryLimits} {now : U32} {st r m : TokenStorage} {a b : Address} {amount : I128}

theorem hosted_eq_error {α : Type} {x : Except Failure α} {f : Failure} :
    hosted x = .error (.failure f) ↔ x = .error f := by
  cases x <;> simp [hosted]

theorem hosted_not_overflow {α : Type} {x : Except Failure α} (h : x ≠ .error .overflow) :
    FailsOnly (· ≠ .failure .overflow) (hosted x) := by
  rintro e he rfl
  exact h (hosted_eq_error.mp he)

theorem ensure_not_overflow {p : Prop} [Decidable p] {f : Failure} (hf : f ≠ .overflow) :
    FailsOnly (· ≠ .failure .overflow) (hosted (ensure p f)) := by
  apply hosted_not_overflow
  intro h
  exact hf (ensure_eq_error.mp h).2

theorem okOr_not_overflow {α : Type} {x : Option α} {f : Failure} (hf : f ≠ .overflow) :
    FailsOnly (· ≠ .failure .overflow) (hosted (okOr x f)) := by
  apply hosted_not_overflow
  intro h
  exact hf (okOr_eq_error.mp h).2

theorem receiveBalance_overflow_iff :
    st.receiveBalance N now a amount = .error (.failure .overflow) ↔
      st.held a + amount.toInt < -2 ^ 127 ∨ 2 ^ 127 ≤ st.held a + amount.toInt := by
  have hpure (x : I128) : (pure ((st.readBalance N now a).2.writeBalance N now a x) :
      Except TokenTrap TokenStorage) ≠ .error (.failure .overflow) := by
    intro h
    cases h
  simp only [receiveBalance, bind_eq_error, hosted_eq_error, I128.add_eq_error,
    readBalance_held.1, hpure, and_false, exists_false, or_false, and_true]

theorem spendBalance_not_overflow (hnonneg : 0 ≤ amount.toInt) :
    FailsOnly (· ≠ .failure .overflow) (st.spendBalance N now a amount) := by
  intro e h
  rcases bind_eq_error.mp h with h | ⟨_, hle, h⟩
  · exact ensure_not_overflow (by decide) e h
  rcases bind_eq_error.mp h with h | ⟨_, _, h⟩
  · have hle := ensure_eq_ok.mp (hosted_eq_ok.mp hle)
    have hup := (st.readBalance N now a).1.upper
    rintro rfl
    have hrange := (I128.sub_eq_error.mp (hosted_eq_error.mp h)).1
    omega
  · cases h

theorem writeAllowance_not_overflow {owner spender : Address} {e : U32} :
    FailsOnly (· ≠ .failure .overflow) (st.writeAllowance N now owner spender amount e) := by
  refine (ensure_not_overflow (by decide)).bind fun _ => ?_
  split_ifs with hpos
  · simp only [extendAllowance, setAllowance, Finmap.lookup_insert]
    split_ifs with hmax
    · rintro f hf rfl
      cases hf
    · exact .pure _
  · exact .pure _

theorem spendAllowance_not_overflow {owner spender : Address} :
    FailsOnly (· ≠ .failure .overflow) (st.spendAllowance N now owner spender amount) := by
  intro e h
  rcases bind_eq_error.mp h with h | ⟨_, hle, h⟩
  · exact ensure_not_overflow (by decide) e h
  have hle := ensure_eq_ok.mp (hosted_eq_ok.mp hle)
  split_ifs at h with hpos
  · rcases bind_eq_error.mp h with h | ⟨_, _, h⟩
    · have hup := (st.readAllowance now owner spender).amount.upper
      rintro rfl
      have hrange := (I128.sub_eq_error.mp (hosted_eq_error.mp h)).1
      omega
    · exact writeAllowance_not_overflow e h
  · cases h

theorem add_held_le (hst : ∀ y, 0 ≤ st.held y) (hne : a ≠ b) :
    st.held a + st.held b ≤ st.circulation := by
  have hkeys : st.balances.keys ⊆ st.balances.keys ∪ {a, b} := Finset.subset_union_left
  rw [circulation_eq hkeys, ← Finset.sum_pair hne]
  exact Finset.sum_le_sum_of_subset_of_nonneg Finset.subset_union_right fun y _ _ => hst y

theorem held_le (hst : ∀ y, 0 ≤ st.held y) (a : Address) : st.held a ≤ st.circulation := by
  have hkeys : st.balances.keys ⊆ st.balances.keys ∪ {a} := Finset.subset_union_left
  rw [circulation_eq hkeys]
  apply Finset.single_le_sum (fun y _ => hst y)
  simp

/-- What one account pays out, another can take while the circulation fits. -/
theorem credit_not_overflow (hst : ∀ y, 0 ≤ st.held y) (hfit : st.circulation < 2 ^ 127)
    (hnonneg : 0 ≤ amount.toInt) (hr : ∀ y, r.held y = st.held y)
    (hm : r.spendBalance N now a amount = .ok m) :
    m.receiveBalance N now b amount ≠ .error (.failure .overflow) := by
  obtain ⟨hle, hdebit⟩ := spendBalance_shifted hm
  rw [hr] at hle
  rw [ne_eq, receiveBalance_overflow_iff, hdebit.held, hr]
  have hb := hst b
  split_ifs with hba
  · have := held_le hst b
    omega
  · have := add_held_le hst (fun h => hba h.symm)
    omega

theorem payment_not_overflow {f : TokenStorage → TokenStorage} (hst : ∀ y, 0 ≤ st.held y)
    (hfit : st.circulation < 2 ^ 127) (hnonneg : 0 ≤ amount.toInt)
    (hr : ∀ y, r.held y = st.held y) :
    FailsOnly (· ≠ .failure .overflow) (do
      let s ← r.spendBalance N now a amount
      let s ← s.receiveBalance N now b amount
      pure (f s)) := by
  intro e h
  rcases bind_eq_error.mp h with h | ⟨m, hm, h⟩
  · exact spendBalance_not_overflow hnonneg e h
  rcases bind_eq_error.mp h with h | ⟨n, _, h⟩
  · rintro rfl
    exact credit_not_overflow hst hfit hnonneg hr hm h
  · cases h

theorem check_not_overflow :
    FailsOnly (· ≠ .failure .overflow) (hosted (Token.checkNonnegativeAmount amount)) :=
  ensure_not_overflow (by simp)

/-- Every call but a mint: the amounts it adds and subtracts are already there. -/
theorem TokenInvocation.exec_not_overflow {c : TokenInvocation} (hst : ∀ y, 0 ≤ st.held y)
    (hfit : st.circulation < 2 ^ 127) (hc : ∀ payee amount, c.entrypoint ≠ .mint payee amount) :
    FailsOnly (· ≠ .failure .overflow) (c.exec N st) := by
  unfold TokenInvocation.exec TokenInvocation.invoke
  refine FailsOnly.bind ?_ fun _ => .pure _
  cases he : c.entrypoint with
  | mint payee amount => exact absurd he (hc payee amount)
  | allowance owner spender | balance id | decimals | name | symbol => exact .pure _
  | setAdmin newAdmin =>
    refine FailsOnly.bind ?_ fun _ => .pure _
    exact (okOr_not_overflow (by decide)).bind fun _ =>
      (ensure_not_overflow (by decide)).bind fun _ => .pure _
  | approve owner spender amount expirationLedger =>
    refine FailsOnly.bind ?_ fun _ => .pure _
    exact (ensure_not_overflow (by decide)).bind fun _ => check_not_overflow.bind fun _ =>
      writeAllowance_not_overflow.bind fun _ => .pure _
  | transfer payer payee amount =>
    refine FailsOnly.bind ?_ fun _ => .pure _
    refine (ensure_not_overflow (by decide)).bind fun _ => ?_
    intro e h
    rcases bind_eq_error.mp h with h | ⟨_, hcheck, h⟩
    · exact check_not_overflow e h
    · have hnonneg := not_lt.mp (ensure_eq_ok.mp (hosted_eq_ok.mp hcheck))
      exact payment_not_overflow (r := st.bumpInstance N c.sequence) (a := payer)
        (b := payee.address)
        (f := fun s => s.publish (.transfer payer payee.address payee.id amount)) hst hfit hnonneg
        (fun _ => rfl) e h
  | transferFrom spender payer payee amount =>
    refine FailsOnly.bind ?_ fun _ => .pure _
    refine (ensure_not_overflow (by decide)).bind fun _ => ?_
    intro e h
    rcases bind_eq_error.mp h with h | ⟨_, hcheck, h⟩
    · exact check_not_overflow e h
    have hnonneg := not_lt.mp (ensure_eq_ok.mp (hosted_eq_ok.mp hcheck))
    rcases bind_eq_error.mp h with h | ⟨r, hr, h⟩
    · exact spendAllowance_not_overflow e h
    · have hquiet := Shifted.quiet (spendAllowance_shifted (a := payer) hr)
      exact payment_not_overflow (r := r) (a := payer) (b := payee)
        (f := fun s => s.publish (.transfer payer payee none amount)) hst hfit hnonneg
        (fun y => (hquiet y).1) e h
  | burn owner amount =>
    refine FailsOnly.bind ?_ fun _ => .pure _
    refine (ensure_not_overflow (by decide)).bind fun _ => ?_
    intro e h
    rcases bind_eq_error.mp h with h | ⟨_, hcheck, h⟩
    · exact check_not_overflow e h
    · have hnonneg := not_lt.mp (ensure_eq_ok.mp (hosted_eq_ok.mp hcheck))
      exact (spendBalance_not_overflow hnonneg).bind (fun _ => .pure _) e h
  | burnFrom spender owner amount =>
    refine FailsOnly.bind ?_ fun _ => .pure _
    refine (ensure_not_overflow (by decide)).bind fun _ => ?_
    intro e h
    rcases bind_eq_error.mp h with h | ⟨_, hcheck, h⟩
    · exact check_not_overflow e h
    · have hnonneg := not_lt.mp (ensure_eq_ok.mp (hosted_eq_ok.mp hcheck))
      exact (spendAllowance_not_overflow.bind fun _ =>
        (spendBalance_not_overflow hnonneg).bind fun _ => .pure _) e h

theorem mint_overflow_iff {auth : Address → Bool} (hst : ∀ y, 0 ≤ st.held y) :
    st.mint N now auth a amount = .error (.failure .overflow) ↔
      0 ≤ amount.toInt ∧ (∃ admin, st.admin = some admin ∧ auth admin = true) ∧
        2 ^ 127 ≤ st.held a + amount.toInt := by
  have ha := hst a
  simp only [mint, Token.checkNonnegativeAmount, bind_eq_error, hosted_eq_error, hosted_eq_ok,
    ensure_eq_error, ensure_eq_ok, okOr_eq_error, okOr_eq_ok, receiveBalance_overflow_iff,
    reduceCtorEq, and_false, false_or, held_bumpInstance]
  constructor
  · rintro ⟨-, hnonneg, admin, hadmin, -, hauth, hrange⟩
    exact ⟨not_lt.mp hnonneg, ⟨admin, hadmin, hauth⟩, by omega⟩
  · rintro ⟨hnonneg, ⟨admin, hadmin, hauth⟩, hrange⟩
    exact ⟨(), not_lt.mpr hnonneg, admin, hadmin, (), hauth, .inr hrange⟩

/-- As long as what is in circulation fits an `i128`, no call of the token
traps on arithmetic but a mint of the admin that fills one account beyond it. -/
theorem token_overflow_iff {now₀ : U32} {admin₀ : Address} {decimal : U32} {name symbol : String}
    {st₀ : TokenStorage}
    (h : TokenStorage.construct N now₀ admin₀ decimal name symbol = .ok st₀)
    (calls : List TokenInvocation)
    (hfit : (run (TokenInvocation.exec N) st₀ calls).circulation < 2 ^ 127) (c : TokenInvocation) :
    let st := run (TokenInvocation.exec N) st₀ calls
    c.exec N st = .error (.failure .overflow) ↔
      ∃ payee amount, c.entrypoint = .mint payee amount ∧ 0 ≤ amount.toInt ∧
        (∃ admin, st.admin = some admin ∧ c.auth admin = true) ∧
        2 ^ 127 ≤ (st.balance N c.sequence payee).1.toInt + amount.toInt := by
  intro st
  have hst : ∀ y, 0 ≤ st.held y := held_nonneg h calls
  constructor
  · intro herr
    by_cases hc : ∀ payee amount, c.entrypoint ≠ .mint payee amount
    · exact absurd rfl (TokenInvocation.exec_not_overflow hst hfit hc _ herr)
    · push Not at hc
      obtain ⟨payee, amount, hc⟩ := hc
      have hmint : st.mint N c.sequence c.auth payee amount = .error (.failure .overflow) := by
        simpa [TokenInvocation.exec, TokenInvocation.invoke, hc, bind_eq_error, pure_eq_ok]
          using herr
      obtain ⟨hnonneg, hadmin, hrange⟩ := (mint_overflow_iff hst).mp hmint
      have hheld : (st.balance N c.sequence payee).1.toInt = st.held payee := balance_held
      rw [← hheld] at hrange
      exact ⟨payee, amount, hc, hnonneg, hadmin, hrange⟩
  · rintro ⟨payee, amount, hc, hnonneg, hadmin, hrange⟩
    rw [balance_held] at hrange
    have hmint : st.mint N c.sequence c.auth payee amount = .error (.failure .overflow) :=
      (mint_overflow_iff hst).mpr ⟨hnonneg, hadmin, hrange⟩
    simp only [TokenInvocation.exec, TokenInvocation.invoke, hc, hmint]
    rfl

theorem token_overflow_sampleApproval :
    TokenInvocation.exec sampleLimits
        (run (TokenInvocation.exec sampleLimits) sampleStored sampleApproval)
        ⟨106, fun a => a = sampleAccount 1,
          .mint (sampleAccount 7) ⟨2 ^ 127 - 1, by decide, by decide⟩⟩ =
      .error (.failure .overflow) := by
  apply (token_overflow_iff sampleStored_constructed sampleApproval (by decide +kernel) _).mpr
  exact ⟨_, _, rfl, by decide, ⟨sampleAccount 1, by decide +kernel, rfl⟩, by decide +kernel⟩

end Overflow

end Moonlight
