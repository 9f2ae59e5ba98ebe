import Moonlight.TokenRefinement

namespace Moonlight
open Foundations

def TokenOperation.spends (owner spender : Address) : TokenOperation → ℤ
  | transferFrom s x => if x.payer = owner ∧ s = spender then x.amount.toInt else 0
  | burnFrom s o amount => if o = owner ∧ s = spender then amount.toInt else 0
  | _ => 0

/-- What an operation does to one allowance. -/
inductive AllowanceStep (d : TokenCall) (owner spender : Address)
    (old new : Option AllowanceValue) : Prop
  | approved (amount : I128) (e : U32) (hop : d.op = .approve owner spender amount e)
      (hauth : d.auth owner = true) (hnonneg : 0 ≤ amount.toInt) (hnew : new = some ⟨amount, e⟩)
  | spent (hop : ∀ amount e, d.op ≠ .approve owner spender amount e)
      (hpos : 0 < d.op.spends owner spender) (a b : I128) (e : U32) (hold : old = some ⟨a, e⟩)
      (hlive : d.sequence ≤ e) (hb : b.toInt = a.toInt - d.op.spends owner spender)
      (hleft : 0 ≤ b.toInt) (hnew : new = some ⟨b, e⟩)
  | kept (hop : ∀ amount e, d.op ≠ .approve owner spender amount e)
      (hzero : d.op.spends owner spender = 0) (hsame : new = old)

namespace Token

variable {t t' : Token} {now e : U32} {owner spender : Address} {amount : I128}

theorem receiveBalance_allowances {addr : Address} (h : t.receiveBalance addr amount = .ok t') :
    t'.allowances = t.allowances := (receiveBalance_ok h).2

theorem spendBalance_allowances {addr : Address} (h : t.spendBalance addr amount = .ok t') :
    t'.allowances = t.allowances := (spendBalance_ok h).2.2

theorem writeAllowance_lookup (h : t.writeAllowance now owner spender amount e = .ok t') :
    t'.allowances.lookup (owner, spender) = some ⟨amount, e⟩ ∧
      ∀ k, k ≠ (owner, spender) → t'.allowances.lookup k = t.allowances.lookup k := by
  simp only [writeAllowance, bind_eq_ok, pure_eq_ok] at h
  obtain ⟨-, -, rfl⟩ := h
  exact ⟨Finmap.lookup_insert _, fun k hk => Finmap.lookup_insert_of_ne _ hk⟩

theorem spendAllowance_lookup (h : t.spendAllowance now owner spender amount = .ok t') :
    (∀ k, k ≠ (owner, spender) → t'.allowances.lookup k = t.allowances.lookup k) ∧
      if 0 < amount.toInt then
        ∃ a b e, t.allowances.lookup (owner, spender) = some ⟨a, e⟩ ∧ now ≤ e ∧
          b.toInt = a.toInt - amount.toInt ∧ 0 ≤ b.toInt ∧
          t'.allowances.lookup (owner, spender) = some ⟨b, e⟩
      else t'.allowances.lookup (owner, spender) = t.allowances.lookup (owner, spender) := by
  simp only [spendAllowance, bind_eq_ok, ensure_eq_ok] at h
  obtain ⟨-, hle, h⟩ := h
  split_ifs at h ⊢ with hpos
  · obtain ⟨rest, hrest, hwrite⟩ := bind_eq_ok.mp h
    obtain ⟨hnew, hframe⟩ := writeAllowance_lookup hwrite
    refine ⟨hframe, ?_⟩
    have hrest := I128.sub_eq_ok.mp hrest
    have hread : 0 < (t.readAllowance now owner spender).amount.toInt := by omega
    unfold readAllowance at hread hle hrest hnew
    cases hv : t.allowances.lookup (owner, spender) with
    | none => simp [hv] at hread
    | some v =>
      simp only [hv] at hread hle hrest hnew
      by_cases hexp : v.expirationLedger < now
      · simp [hexp] at hread
      · rw [if_neg hexp] at hle hrest hnew
        exact ⟨v.amount, rest, v.expirationLedger, rfl, not_lt.mp hexp, hrest, by omega, hnew⟩
  · obtain rfl := pure_eq_ok.mp h
    exact ⟨fun _ _ => rfl, rfl⟩

theorem spendAllowance_step {d : TokenCall} {s o : Address} {amount : I128}
    (hop : ∀ amount e, d.op ≠ .approve owner spender amount e)
    (hspends : d.op.spends owner spender = if o = owner ∧ s = spender then amount.toInt else 0)
    (hnonneg : 0 ≤ amount.toInt) (h : t.spendAllowance d.sequence o s amount = .ok t') :
    AllowanceStep d owner spender (t.allowances.lookup (owner, spender))
      (t'.allowances.lookup (owner, spender)) := by
  obtain ⟨hframe, hdraw⟩ := spendAllowance_lookup h
  by_cases hkey : o = owner ∧ s = spender
  · obtain ⟨rfl, rfl⟩ := hkey
    rw [if_pos ⟨rfl, rfl⟩] at hspends
    split_ifs at hdraw with hpos
    · obtain ⟨a, b, e, hold, hlive, hb, hleft, hnew⟩ := hdraw
      exact .spent hop (by omega) a b e hold hlive (by omega) hleft hnew
    · exact .kept hop (by omega) hdraw
  · rw [if_neg hkey] at hspends
    refine .kept hop hspends (hframe _ fun he => hkey ?_)
    exact ⟨(Prod.mk.inj he).1.symm, (Prod.mk.inj he).2.symm⟩

end Token

section Call

variable {d : TokenCall} {t t' : Token} {owner spender : Address}

theorem AllowanceStep.of_eq (hop : ∀ amount e, d.op ≠ .approve owner spender amount e)
    (hzero : d.op.spends owner spender = 0) (h : t'.allowances = t.allowances) :
    AllowanceStep d owner spender (t.allowances.lookup (owner, spender))
      (t'.allowances.lookup (owner, spender)) := .kept hop hzero (by rw [h])

theorem TokenCall.allowanceStep (h : d.exec t = .ok t') (owner spender : Address) :
    AllowanceStep d owner spender (t.allowances.lookup (owner, spender))
      (t'.allowances.lookup (owner, spender)) := by
  unfold TokenCall.exec at h
  cases hop : d.op with
  | mint payee amount =>
    simp only [hop, Token.mint, bind_eq_ok] at h
    obtain ⟨-, -, -, -, -, -, h⟩ := h
    exact .of_eq (by simp [hop]) (by rw [hop]; rfl) (Token.receiveBalance_allowances h)
  | setAdmin newAdmin =>
    simp only [hop, Token.setAdmin, bind_eq_ok, pure_eq_ok] at h
    obtain ⟨-, -, -, -, rfl⟩ := h
    exact .of_eq (by simp [hop]) (by rw [hop]; rfl) rfl
  | transfer x =>
    simp only [hop] at h
    exact .of_eq (by simp [hop]) (by rw [hop]; rfl) (Token.transfer_ok h).2.2.2
  | burn o amount =>
    simp only [hop, Token.burn, bind_eq_ok] at h
    obtain ⟨-, -, -, -, h⟩ := h
    exact .of_eq (by simp [hop]) (by rw [hop]; rfl) (Token.spendBalance_allowances h)
  | approve o s amount e =>
    simp only [hop, Token.approve, Token.checkNonnegativeAmount, bind_eq_ok, ensure_eq_ok] at h
    obtain ⟨-, hauth, -, hnonneg, h⟩ := h
    obtain ⟨hnew, hframe⟩ := Token.writeAllowance_lookup h
    by_cases hkey : o = owner ∧ s = spender
    · obtain ⟨rfl, rfl⟩ := hkey
      exact .approved amount e hop hauth (not_lt.mp hnonneg) hnew
    · refine .kept ?_ (by rw [hop]; rfl) (hframe _ fun he => hkey ?_)
      · intro a f he
        rw [hop, TokenOperation.approve.injEq] at he
        exact hkey ⟨he.1, he.2.1⟩
      · exact ⟨(Prod.mk.inj he).1.symm, (Prod.mk.inj he).2.symm⟩
  | transferFrom s x =>
    simp only [hop, Token.transferFrom, Token.checkNonnegativeAmount, bind_eq_ok,
      ensure_eq_ok] at h
    obtain ⟨-, -, -, hnonneg, r, hr, m, hm, h⟩ := h
    have hsame := (Token.receiveBalance_allowances h).trans (Token.spendBalance_allowances hm)
    rw [hsame]
    exact Token.spendAllowance_step (by simp [hop]) (by rw [hop]; rfl) (not_lt.mp hnonneg) hr
  | burnFrom s o amount =>
    simp only [hop, Token.burnFrom, Token.checkNonnegativeAmount, bind_eq_ok, ensure_eq_ok] at h
    obtain ⟨-, -, -, hnonneg, r, hr, h⟩ := h
    rw [Token.spendBalance_allowances h]
    exact Token.spendAllowance_step (by simp [hop]) (by rw [hop]; rfl) (not_lt.mp hnonneg) hr

end Call

def committedCalls (N : EntryLimits) (st : TokenStorage) (calls : List TokenInvocation) :
    List TokenCall := (succeeded (TokenInvocation.exec N) st calls).filterMap TokenInvocation.call?

/-- What is left of an approval, and when it expires. -/
abbrev Approval := Option (ℤ × U32)

def Approval.readAt (now : U32) (left : Approval) : ℤ :=
  match left with
  | none => 0
  | some l => if l.2 < now then 0 else l.1

def TokenCall.recordApproval (owner spender : Address) (left : Approval) (d : TokenCall) :
    Approval :=
  match d.op with
  | .approve o s amount e => if o = owner ∧ s = spender then some (amount.toInt, e) else left
  | op => left.map fun l => (l.1 - op.spends owner spender, l.2)

def TokenInvocation.recordApproval (owner spender : Address) (left : Approval)
    (c : TokenInvocation) : Approval :=
  match c.call? with
  | some d => d.recordApproval owner spender left
  | none => left

def AllowanceValue.approval (v : AllowanceValue) : ℤ × U32 := (v.amount.toInt, v.expirationLedger)

section Records

variable {d : TokenCall} {t t' : Token} {owner spender : Address} {left : Approval}

theorem TokenCall.recordApproval_other (hop : ∀ amount e, d.op ≠ .approve owner spender amount e) :
    d.recordApproval owner spender left =
      left.map fun l => (l.1 - d.op.spends owner spender, l.2) := by
  unfold TokenCall.recordApproval
  cases h : d.op with
  | approve o s amount e =>
    have hkey : ¬ (o = owner ∧ s = spender) := by
      rintro ⟨rfl, rfl⟩
      exact hop amount e h
    simp [hkey, TokenOperation.spends]
  | _ => rfl

theorem TokenCall.recordApproval_ok (h : d.exec t = .ok t')
    (ht : (t.allowances.lookup (owner, spender)).map AllowanceValue.approval = left) :
    (t'.allowances.lookup (owner, spender)).map AllowanceValue.approval =
      d.recordApproval owner spender left := by
  cases d.allowanceStep h owner spender with
  | approved amount e hop hauth hnonneg hnew =>
    rw [hnew, TokenCall.recordApproval, hop]
    simp [AllowanceValue.approval]
  | spent hop hpos a b e hold hlive hb hleft hnew =>
    rw [TokenCall.recordApproval_other hop, ← ht, hold, hnew]
    simp [AllowanceValue.approval, hb]
  | kept hop hzero hsame =>
    rw [TokenCall.recordApproval_other hop, ← ht, hsame, hzero]
    cases t.allowances.lookup (owner, spender) <;> simp

theorem foldl_recordApproval {ds : List TokenCall}
    (hds : ∀ d ∈ ds, ∀ amount e, d.op ≠ .approve owner spender amount e) :
    ds.foldl (fun l d => d.recordApproval owner spender l) left =
      left.map fun l => (l.1 - (ds.map fun d => d.op.spends owner spender).sum, l.2) := by
  induction ds generalizing left with
  | nil => cases left <;> simp
  | cons d ds ih =>
    rw [List.foldl_cons, ih fun d hd => hds d (List.mem_cons_of_mem _ hd),
      TokenCall.recordApproval_other (hds d List.mem_cons_self)]
    cases left with
    | none => rfl
    | some l =>
      simp only [Option.map_some, List.map_cons, List.sum_cons, sub_sub]

theorem Token.readAllowance_toInt {now : U32}
    (ht : (t.allowances.lookup (owner, spender)).map AllowanceValue.approval = left) :
    (t.readAllowance now owner spender).amount.toInt = Approval.readAt now left := by
  rw [← ht]
  unfold Token.readAllowance
  cases t.allowances.lookup (owner, spender) with
  | none => rfl
  | some v =>
    simp only [Option.map_some, AllowanceValue.approval, Approval.readAt]
    split_ifs with hexp <;> rfl

end Records

section Runs

variable {N : EntryLimits} {st : TokenStorage} {now₀ : U32} {admin : Address} {decimal : U32}
  {name symbol : String} {owner spender : Address}

theorem Stores.construct (h : TokenStorage.construct N now₀ admin decimal name symbol = .ok st) :
    ∃ t, Token.construct admin decimal name symbol = .ok t ∧ Stores st t := by
  obtain ⟨t, ht⟩ : ∃ t, Token.construct admin decimal name symbol = .ok t := by
    simp only [TokenStorage.construct, bind_eq_ok, hosted_eq_ok, ensure_eq_ok] at h
    obtain ⟨-, hdecimal, -⟩ := h
    simp only [Token.construct, bind_eq_ok, ensure_eq_ok, pure_eq_ok]
    exact ⟨_, (), hdecimal, rfl⟩
  exact ⟨t, ht, (StoresWithin.construct h ht).1⟩

theorem Stores.of_run (h : TokenStorage.construct N now₀ admin decimal name symbol = .ok st)
    (calls : List TokenInvocation) : ∃ t, Stores (run (TokenInvocation.exec N) st calls) t := by
  apply run_invariant (I := fun st => ∃ t, Stores st t)
  · rintro s s' c - ⟨t, ht⟩ hx
    rcases ht.exec hx with ⟨-, ht'⟩ | ⟨d, t', -, -, ht'⟩
    · exact ⟨t, ht'⟩
    · exact ⟨t', ht'⟩
  · exact (Stores.construct h).imp fun _ ht => ht.2

theorem Stores.allowance {st : TokenStorage} {t : Token} (h : Stores st t) (now : U32) :
    (st.allowance N now owner spender).1 = (t.readAllowance now owner spender).amount :=
  (h.bumpInstance.readAllowance now owner spender).1

/-- The storage keeps `left` of an approval. -/
def Keeps (owner spender : Address) (st : TokenStorage) (left : Approval) : Prop :=
  ∃ t, Stores st t ∧ (t.allowances.lookup (owner, spender)).map AllowanceValue.approval = left

theorem allowance_recorded
    (h : TokenStorage.construct N now₀ admin decimal name symbol = .ok st)
    (calls : List TokenInvocation) (now : U32) :
    ((run (TokenInvocation.exec N) st calls).allowance N now owner spender).1.toInt =
      Approval.readAt now ((committedCalls N st calls).foldl
        (fun l d => d.recordApproval owner spender l) none) := by
  obtain ⟨t₀, ht₀, hstores⟩ := Stores.construct h
  have hnone : (t₀.allowances.lookup (owner, spender)).map AllowanceValue.approval = none := by
    simp only [Token.construct, bind_eq_ok, pure_eq_ok] at ht₀
    obtain ⟨-, -, rfl⟩ := ht₀
    rfl
  have hfold : (committedCalls N st calls).foldl
      (fun l d => d.recordApproval owner spender l) none =
      (succeeded (TokenInvocation.exec N) st calls).foldl
        (TokenInvocation.recordApproval owner spender) none := by
    rw [committedCalls, List.foldl_filterMap]
    congr 1
    funext l c
    unfold TokenInvocation.recordApproval
    cases c.call? <;> rfl
  have hstep (s : TokenStorage) (l : Approval) (c : TokenInvocation) (s' : TokenStorage)
      (hs : Keeps owner spender s l) (hx : c.exec N s = .ok s') :
      Keeps owner spender s' (c.recordApproval owner spender l) := by
    obtain ⟨t, ht, hl⟩ := hs
    unfold TokenInvocation.recordApproval
    rcases ht.exec hx with ⟨hc, ht'⟩ | ⟨d, t', hc, hd, ht'⟩
    · rw [hc]
      exact ⟨t, ht', hl⟩
    · rw [hc]
      exact ⟨t', ht', TokenCall.recordApproval_ok hd hl⟩
  obtain ⟨t, ht, hl⟩ := run_replay _ (fun s l s' c _ => hstep s l c s') ⟨t₀, hstores, hnone⟩
  rw [hfold, ht.allowance, Token.readAllowance_toInt hl]

/-- After any run, an allowance that no committed call approved is `0`. After
the latest approval it is the approved amount less what has been spent from it
since, until the expiration has passed, and `0` from then on, although the
entry that holds it is temporary. -/
theorem allowance_is_approval_less_spent
    (h : TokenStorage.construct N now₀ admin decimal name symbol = .ok st)
    (calls : List TokenInvocation) (owner spender : Address) (now : U32) :
    let left := ((run (TokenInvocation.exec N) st calls).allowance N now owner spender).1.toInt
    ((∀ d ∈ committedCalls N st calls, ∀ amount e, d.op ≠ .approve owner spender amount e) →
      left = 0) ∧
    ∀ before d after amount e, committedCalls N st calls = before ++ d :: after →
      d.op = .approve owner spender amount e →
      (∀ d ∈ after, ∀ amount e, d.op ≠ .approve owner spender amount e) →
      left = if e < now then 0
        else amount.toInt - (after.map fun d => d.op.spends owner spender).sum := by
  intro left
  have hleft : left = _ := allowance_recorded h calls now
  constructor
  · intro hnone
    rw [hleft, foldl_recordApproval hnone]
    rfl
  · intro before d after amount e hcalls hop hafter
    rw [hleft, hcalls, List.foldl_append, List.foldl_cons, foldl_recordApproval hafter,
      TokenCall.recordApproval, hop]
    simp [Approval.readAt]

end Runs

theorem allowance_sampleApproval :
    let st := run (TokenInvocation.exec sampleLimits) sampleStored sampleApproval
    (st.allowance sampleLimits 110 (sampleAccount 5) (sampleAccount 6)).1.toInt = 20 ∧
      (st.allowance sampleLimits 111 (sampleAccount 5) (sampleAccount 6)).1.toInt = 0 := by
  intro st
  have hcalls : committedCalls sampleLimits sampleStored sampleApproval =
      [⟨100, fun a => a = sampleAccount 1, .mint (sampleAccount 5) (.ofByte 100)⟩] ++
        ⟨101, fun a => a = sampleAccount 5,
          .approve (sampleAccount 5) (sampleAccount 6) (.ofByte 30) 110⟩ ::
        [⟨105, fun a => a = sampleAccount 6,
          .transferFrom (sampleAccount 6) ⟨sampleAccount 5, sampleAccount 7, .ofByte 10⟩⟩] := by
    have hsucceeded : succeeded (TokenInvocation.exec sampleLimits) sampleStored sampleApproval =
        sampleApproval := by rfl
    rw [committedCalls, hsucceeded]
    rfl
  have hafter : ∀ d ∈ [(⟨105, fun a => a = sampleAccount 6,
      .transferFrom (sampleAccount 6) ⟨sampleAccount 5, sampleAccount 7, .ofByte 10⟩⟩ : TokenCall)],
      ∀ amount e, d.op ≠ .approve (sampleAccount 5) (sampleAccount 6) amount e := by
    simp
  refine ⟨?_, ?_⟩
  · refine ((allowance_is_approval_less_spent (N := sampleLimits) sampleStored_constructed
      sampleApproval _ _ 110).2 _ _ _ _ _ hcalls rfl hafter).trans ?_
    decide +kernel
  · exact (allowance_is_approval_less_spent (N := sampleLimits) sampleStored_constructed
      sampleApproval _ _ 111).2 _ _ _ _ _ hcalls rfl hafter

namespace Token

/-- What `spender` may take from `owner` at ledger `n`. -/
def allowed (t : Token) (n : U32) (owner spender : Address) : ℤ :=
  (t.readAllowance n owner spender).amount.toInt

end Token

section Unsigned

variable {d : TokenCall} {t t' : Token} {n : U32} {o : Address}

/-- A call `o` has not signed takes from `o` at most what it takes from one
allowance over `o`. -/
theorem TokenCall.debit (hauth : d.auth o = false) (h : d.exec t = .ok t') :
    ∃ s, (∀ s', s' ≠ s → d.op.spends o s' = 0) ∧
      t.balance o - d.op.spends o s ≤ t'.balance o := by
  have hne {x : Address} (hx : d.auth x = true) : o ≠ x := by
    rintro rfl
    rw [hauth] at hx
    cases hx
  unfold TokenCall.exec at h
  cases hop : d.op with
  | mint payee amount =>
    simp only [hop, Token.mint, Token.checkNonnegativeAmount, bind_eq_ok, ensure_eq_ok] at h
    obtain ⟨-, hnonneg, -, -, -, -, h⟩ := h
    obtain ⟨hbal, -⟩ := Token.receiveBalance_ok h
    refine ⟨o, fun _ _ => rfl, ?_⟩
    show t.balance o - 0 ≤ _
    rw [hbal]
    split_ifs <;> omega
  | setAdmin newAdmin =>
    simp only [hop, Token.setAdmin, bind_eq_ok, pure_eq_ok] at h
    obtain ⟨-, -, -, -, rfl⟩ := h
    exact ⟨o, fun _ _ => rfl, (sub_zero _).le⟩
  | approve p s amount e =>
    simp only [hop, Token.approve, bind_eq_ok] at h
    obtain ⟨-, -, -, -, h⟩ := h
    have hbal := Token.balance_congr (Token.writeAllowance_ok h).1 o
    exact ⟨o, fun _ _ => rfl, by rw [hbal]; exact (sub_zero _).le⟩
  | transfer x =>
    simp only [hop] at h
    obtain ⟨hpayer, hnonneg, hbal, -⟩ := Token.transfer_ok h
    refine ⟨o, fun _ _ => rfl, ?_⟩
    show t.balance o - 0 ≤ _
    rw [hbal, if_neg (hne hpayer)]
    split_ifs <;> omega
  | burn p amount =>
    simp only [hop, Token.burn, bind_eq_ok, ensure_eq_ok] at h
    obtain ⟨-, hp, -, -, h⟩ := h
    obtain ⟨-, hbal, -⟩ := Token.spendBalance_ok h
    exact ⟨o, fun _ _ => rfl, by rw [hbal, if_neg (hne hp)]; exact le_rfl⟩
  | transferFrom s x =>
    simp only [hop, Token.transferFrom, Token.checkNonnegativeAmount, bind_eq_ok,
      ensure_eq_ok] at h
    obtain ⟨-, -, -, hnonneg, r, hr, m, hm, h⟩ := h
    have hsame := Token.balance_congr (Token.spendAllowance_ok hr).1 o
    obtain ⟨-, hdebit, -⟩ := Token.spendBalance_ok hm
    obtain ⟨hcredit, -⟩ := Token.receiveBalance_ok h
    refine ⟨s, fun s' hs' => if_neg fun hboth => hs' hboth.2.symm, ?_⟩
    rw [hcredit, hdebit, hsame, TokenOperation.spends]
    by_cases ho : o = x.payer
    · rw [if_pos ho, if_pos ⟨ho.symm, rfl⟩]
      split_ifs <;> omega
    · rw [if_neg ho, if_neg fun hboth => ho hboth.1.symm]
      split_ifs <;> omega
  | burnFrom s p amount =>
    simp only [hop, Token.burnFrom, bind_eq_ok] at h
    obtain ⟨-, -, -, -, r, hr, h⟩ := h
    have hsame := Token.balance_congr (Token.spendAllowance_ok hr).1 o
    obtain ⟨-, hdebit, -⟩ := Token.spendBalance_ok h
    refine ⟨s, fun s' hs' => if_neg fun hboth => hs' hboth.2.symm, ?_⟩
    rw [hdebit, hsame, TokenOperation.spends]
    by_cases ho : o = p
    · rw [if_pos ho, if_pos ⟨ho.symm, rfl⟩]
    · rw [if_neg ho, if_neg fun hboth => ho hboth.1.symm]

theorem TokenCall.spends_nonneg (h : d.exec t = .ok t') (o s : Address) :
    0 ≤ d.op.spends o s := by
  cases d.allowanceStep h o s with
  | approved amount e hop hauth hnonneg hnew =>
    rw [hop]
    exact le_rfl
  | spent hop hpos a b e hold hlive hb hleft hnew => exact hpos.le
  | kept hop hzero hsame => exact hzero.ge

/-- Seen from a fixed ledger, an allowance the owner does not renew falls by
what is spent from it, and no lower than `0`. -/
theorem TokenCall.allowed_step (hauth : d.auth o = false) (hn : n ≤ d.sequence)
    (h : d.exec t = .ok t') (s : Address) :
    t'.allowed n o s = t.allowed n o s - d.op.spends o s ∧
      (0 ≤ t.allowed n o s → 0 ≤ t'.allowed n o s) := by
  unfold Token.allowed Token.readAllowance
  cases d.allowanceStep h o s with
  | approved amount e hop howner hnonneg hnew =>
    rw [hauth] at howner
    cases howner
  | spent hop hpos a b e hold hlive hb hleft hnew =>
    have hexp : ¬ e < n := not_lt.mpr (hn.trans hlive)
    rw [hold, hnew]
    simp only [if_neg hexp]
    exact ⟨hb, fun _ => hleft⟩
  | kept hop hzero hsame =>
    rw [hsame, hzero, sub_zero]
    exact ⟨rfl, id⟩

/-- `floor` is below the balance of `o` less all that may be taken from it, and
only `S` may take from it. -/
structure Exposed (n : U32) (o : Address) (S : Finset Address) (floor : ℤ) (t : Token) : Prop where
  floor_le : floor ≤ t.balance o - ∑ s ∈ S, t.allowed n o s
  others : ∀ s, s ∉ S → t.allowed n o s = 0
  nonneg : ∀ s, 0 ≤ t.allowed n o s

theorem Exposed.step {S : Finset Address} {floor : ℤ} (ht : Exposed n o S floor t)
    (hauth : d.auth o = false) (hn : n ≤ d.sequence) (h : d.exec t = .ok t') :
    Exposed n o S floor t' := by
  have hallowed := fun s => (TokenCall.allowed_step hauth hn h s).1
  have hnonneg := fun s => (TokenCall.allowed_step hauth hn h s).2 (ht.nonneg s)
  obtain ⟨s, hother, hdebit⟩ := TokenCall.debit hauth h
  -- who is outside `S` has nothing to take
  have hzero : ∀ s', s' ∉ S → d.op.spends o s' = 0 := by
    intro s' hs'
    have hdraw := TokenCall.spends_nonneg h o s'
    have hleft := hnonneg s'
    rw [hallowed, ht.others s' hs'] at hleft
    omega
  have hsum : ∑ s' ∈ S, d.op.spends o s' = d.op.spends o s := by
    by_cases hs : s ∈ S
    · exact Finset.sum_eq_single_of_mem s hs fun s' _ hne => hother s' hne
    · rw [hzero s hs]
      exact Finset.sum_eq_zero fun s' hs' => hother s' fun he => hs (he ▸ hs')
  refine ⟨?_, fun s' hs' => ?_, hnonneg⟩
  · have hfloor := ht.floor_le
    simp only [hallowed, Finset.sum_sub_distrib, hsum]
    omega
  · rw [hallowed, ht.others s' hs', hzero s' hs']
    rfl

end Unsigned

theorem TokenInvocation.call?_eq_some {c : TokenInvocation} {d : TokenCall}
    (h : c.call? = some d) : d.sequence = c.sequence ∧ d.auth = c.auth := by
  unfold TokenInvocation.call? at h
  cases he : c.entrypoint with
  | allowance owner spender | balance id | decimals | name | symbol => simp [he] at h
  | _ =>
    simp only [he, Option.some.injEq] at h
    subst h
    exact ⟨rfl, rfl⟩

def TokenStorage.spenders (st : TokenStorage) (owner : Address) : Finset Address :=
  (st.allowances.keys.filter fun k => k.1 = owner).image Prod.snd

section Runs

variable {N : EntryLimits} {st : TokenStorage} {t : Token} {now₀ : U32} {admin : Address}
  {decimal : U32} {name symbol : String} {o : Address}

theorem Stores.balance (h : Stores st t) (now : U32) (a : Address) :
    (st.balance N now a).1.toInt = t.balance a := by
  rw [TokenStorage.balance, (h.bumpInstance.readBalance N now a).1, Token.balance]

theorem Stores.allowed (h : Stores st t) (now : U32) (s : Address) :
    (st.allowance N now o s).1.toInt = t.allowed now o s := congrArg _ (h.allowance now)

theorem Stores.exposed (h : Stores st t) (n : U32) (o : Address) :
    Exposed n o (st.spenders o) (t.balance o - ∑ s ∈ st.spenders o, t.allowed n o s) t := by
  refine ⟨le_rfl, fun s hs => ?_, fun s => ?_⟩
  · have hnone : st.allowances.lookup (o, s) = none := by
      rw [Finmap.lookup_eq_none]
      intro hmem
      apply hs
      rw [TokenStorage.spenders, Finset.mem_image]
      exact ⟨(o, s), Finset.mem_filter.mpr ⟨Finmap.mem_keys.mpr hmem, rfl⟩, rfl⟩
    have hval := h.allowances (o, s)
    rw [hnone] at hval
    rw [Token.allowed, Token.readAllowance, ← hval]
    rfl
  · have hval := h.allowances (o, s)
    rw [Token.allowed, Token.readAllowance, ← hval]
    cases he : st.allowances.lookup (o, s) with
    | none => exact le_rfl
    | some e =>
      have hnonneg := h.nonneg _ e he
      simp only [Option.map_some]
      split_ifs
      · exact le_rfl
      · exact hnonneg

/-- In any part of a run in which an owner signs no call, its balance falls at
most by what its allowances had left to spend at the first of those ledgers. -/
theorem unsigned_loss_bounded
    (h : TokenStorage.construct N now₀ admin decimal name symbol = .ok st)
    (calls : List TokenInvocation) {i j : ℕ} (hij : i ≤ j) (n : U32) (o : Address)
    (hcalls : ∀ k c, i ≤ k → k < j → calls[k]? = some c → n ≤ c.sequence ∧ c.auth o = false) :
    let before := stateAt (TokenInvocation.exec N) st calls i
    let after := stateAt (TokenInvocation.exec N) st calls j
    (before.balance N n o).1.toInt - ∑ s ∈ before.spenders o, (before.allowance N n o s).1.toInt ≤
      (after.balance N n o).1.toInt := by
  intro before after
  obtain ⟨t, ht⟩ : ∃ t, Stores before t := Stores.of_run h (calls.take i)
  have hfloor : ∃ t', Stores after t' ∧ Exposed n o (before.spenders o)
      (t.balance o - ∑ s ∈ before.spenders o, t.allowed n o s) t' := by
    refine stateAt_between (I := fun st => ∃ t', Stores st t' ∧ Exposed n o (before.spenders o)
      (t.balance o - ∑ s ∈ before.spenders o, t.allowed n o s) t') hij ⟨t, ht, ht.exposed n o⟩ ?_
    rintro k hik hkj c s hc ⟨u, hu, hexposed⟩
    obtain ⟨hn, hauth⟩ := hcalls k c hik hkj hc.1
    rcases hu.exec hc.2 with ⟨-, hu'⟩ | ⟨d, u', hd, hx, hu'⟩
    · exact ⟨u, hu', hexposed⟩
    · obtain ⟨hseq, hsign⟩ := TokenInvocation.call?_eq_some hd
      rw [← hseq] at hn
      rw [← hsign] at hauth
      exact ⟨u', hu', hexposed.step hauth hn hx⟩
  obtain ⟨t', ht', hend⟩ := hfloor
  have hleft : 0 ≤ ∑ s ∈ before.spenders o, t'.allowed n o s :=
    Finset.sum_nonneg fun s _ => hend.nonneg s
  have hle := hend.floor_le
  rw [ht.balance, ht'.balance]
  simp only [ht.allowed]
  omega

end Runs

/-- Account 5 has 100 and has approved 30; the spender's call takes 10. -/
theorem unsigned_loss_sampleApproval :
    let before := stateAt (TokenInvocation.exec sampleLimits) sampleStored sampleApproval 2
    let after := stateAt (TokenInvocation.exec sampleLimits) sampleStored sampleApproval 3
    (after.balance sampleLimits 105 (sampleAccount 5)).1.toInt = 90 ∧
      (before.balance sampleLimits 105 (sampleAccount 5)).1.toInt -
          ∑ s ∈ before.spenders (sampleAccount 5),
            (before.allowance sampleLimits 105 (sampleAccount 5) s).1.toInt ≤
        (after.balance sampleLimits 105 (sampleAccount 5)).1.toInt := by
  refine ⟨by decide +kernel, ?_⟩
  apply unsigned_loss_bounded (N := sampleLimits) sampleStored_constructed sampleApproval (by omega)
  intro k c hk hk' hc
  obtain rfl : k = 2 := by omega
  obtain rfl := Option.some.inj hc
  decide +kernel

end Moonlight
