import Moonlight.Acceptance
import Moonlight.Solvency

namespace Moonlight
open Foundations

variable {Digest : Type}

def Transfer.delta (x : Transfer) (y : Address) : ℤ :=
  (if y = x.payee then x.amount.toInt else 0) - if y = x.payer then x.amount.toInt else 0

theorem Token.balance_transfer {t t' : Token} {auth : Address → Bool} {x : Transfer}
    (h : t.transfer auth x = .ok t') (y : Address) : t'.balance y = t.balance y + x.delta y := by
  obtain ⟨-, -, hbalance, -⟩ := Token.transfer_ok h
  rw [hbalance, Transfer.delta]
  ring

/-- The amount a list of deposits or withdraws has for `x`; `0` if `x` is not
listed. -/
def listed (l : List (Address × I128 × List Condition)) (x : Address) : ℤ :=
  ((l.filter fun e => e.1 = x).map fun e => e.2.1.toInt).sum

section Listed

variable {l : List (Address × I128 × List Condition)} {self y : Address}

theorem listed_cons (e : Address × I128 × List Condition) :
    listed (e :: l) y = (if y = e.1 then e.2.1.toInt else 0) + listed l y := by
  unfold listed
  by_cases h : y = e.1
  · simp [h]
  · simp [h, Ne.symm h]

theorem listed_eq_zero (h : y ∉ l.map Prod.fst) : listed l y = 0 := by
  induction l with
  | nil => rfl
  | cons e l ih =>
    rw [List.map_cons, List.mem_cons, not_or] at h
    rw [listed_cons, if_neg h.1, ih h.2, add_zero]

theorem listed_pos (hpos : ∀ e ∈ l, 0 < e.2.1.toInt) (h : y ∈ l.map Prod.fst) : 0 < listed l y := by
  have hfilter : ∀ e ∈ l.filter fun e => e.1 = y, 0 < e.2.1.toInt := by
    intro e he
    exact hpos e (List.mem_filter.mp he).1
  have hne : l.filter (fun e => e.1 = y) ≠ [] := by
    obtain ⟨e, he, rfl⟩ := List.mem_map.mp h
    exact List.ne_nil_of_mem (List.mem_filter.mpr ⟨he, by simp⟩)
  have hzero : listed l y ≠ 0 := fun h0 => hne ((sum_eq_zero_iff_nil hfilter).mp h0)
  have hnonneg : 0 ≤ listed l y := sum_nonneg_of_pos hfilter
  omega

theorem deposits_delta :
    (l.map fun e => (⟨e.1, self, e.2.1⟩ : Transfer).delta y).sum =
      (if y = self then (l.map fun e => e.2.1.toInt).sum else 0) - listed l y := by
  induction l with
  | nil => simp [listed]
  | cons e l ih =>
    rw [List.map_cons, List.sum_cons, ih, listed_cons, List.map_cons, List.sum_cons]
    simp only [Transfer.delta]
    split_ifs <;> omega

theorem withdraws_delta :
    (l.map fun e => (⟨self, e.1, e.2.1⟩ : Transfer).delta y).sum =
      listed l y - if y = self then (l.map fun e => e.2.1.toInt).sum else 0 := by
  induction l with
  | nil => simp [listed]
  | cons e l ih =>
    rw [List.map_cons, List.sum_cons, ih, listed_cons, List.map_cons, List.sum_cons]
    simp only [Transfer.delta]
    split_ifs <;> omega

end Listed

theorem transfers_delta (op : ChannelOperation) (self y : Address) :
    ((op.transfers self).map fun x => x.delta y).sum =
      listed op.withdraw y - listed op.deposit y +
        if y = self then op.depositTotal - op.withdrawTotal else 0 := by
  rw [ChannelOperation.transfers, List.map_append, List.sum_append, List.map_map, List.map_map]
  simp only [Function.comp_def, deposits_delta, withdraws_delta, ChannelOperation.depositTotal,
    ChannelOperation.withdrawTotal]
  split_ifs <;> omega

section Token

variable {sequence : U32} {requireAuth : RequireAuth} {auth : Transfer → Address → Bool}
  {asset : Address} {t t' : Token}

theorem transferAll_balance {ts : List Transfer}
    (h : (tokenInvocation sequence requireAuth auth).transferAll asset ts t = .ok t')
    (y : Address) : t'.balance y = t.balance y + (ts.map fun x => x.delta y).sum := by
  apply foldlM_sum (fun t : Token => t.balance y) (fun x : Transfer => x.delta y) _ h
  intro t x t' hx
  exact Token.balance_transfer hx y

variable [DecidableEq Digest] {H : Host Digest} {w w' : World Digest Token} {op : ChannelOperation}

theorem transact_balance (h : transact H (tokenInvocation sequence requireAuth auth) w op = .ok w')
    (y : Address) : w'.assetState.balance y = w.assetState.balance y +
      ((op.transfers w.self).map fun x => x.delta y).sum := by
  obtain ⟨c, w₁, -, hw₁, rfl⟩ := transact_phases h
  obtain ⟨-, asset, -, htransfers⟩ := executeExternalOperations_transfers hw₁
  exact transferAll_balance htransfers y

/-- The balances have moved as the operation lists them, and the channel's by
what `supply` has moved by, so that it holds no more unbacked tokens than
before. -/
structure SettledAsListed (w w' : World Digest Token) (op : ChannelOperation) : Prop where
  others : ∀ x, x ≠ w.self → w'.assetState.balance x - w.assetState.balance x =
    listed op.withdraw x - listed op.deposit x
  channel : w'.assetState.balance w.self - w.assetState.balance w.self =
    op.depositTotal - op.withdrawTotal
  supply : w'.assetState.balance w.self - w.assetState.balance w.self =
    w'.channel.readSupply.toInt - w.channel.readSupply.toInt
  backed : w'.assetState.balance w.self - w'.channel.utxo.store.total =
    w.assetState.balance w.self - w.channel.utxo.store.total

theorem Accepted.self_not_deposits {inv : Invocation Token} (h : Accepted H inv w op w')
    (hself : ∀ args, inv.requireAuth w.self args = false) : w.self ∉ op.deposit.map Prod.fst := by
  intro hmem
  obtain ⟨e, he, hes⟩ := List.mem_map.mp hmem
  have hauth := h.depositors e he
  rw [hes, hself] at hauth
  cases hauth

/-- A transfer from the channel to itself moves nothing, yet it counts against
`supply`: the balances settle as listed exactly when no withdraw is paid to
the channel. -/
theorem settledAsListed_iff (hself : ∀ args, requireAuth w.self args = false)
    (h : transact H (tokenInvocation sequence requireAuth auth) w op = .ok w') :
    SettledAsListed w w' op ↔ w.self ∉ op.withdraw.map Prod.fst := by
  have hacc := transact_ok h
  have hdeposit := listed_eq_zero (hacc.self_not_deposits hself)
  have hbalance (y : Address) := transact_balance h y
  simp only [transfers_delta] at hbalance
  have hchannel := hbalance w.self
  rw [if_pos rfl, hdeposit] at hchannel
  have hsupply := hacc.supply
  have htotal := hacc.bundle.total
  constructor
  -- paid to itself, the channel keeps the tokens that `supply` no longer counts
  · intro hs hmem
    have hpos := listed_pos hacc.pre.withdraw_pos hmem
    have := hs.channel
    omega
  · intro hnot
    rw [listed_eq_zero hnot] at hchannel
    refine ⟨?_, by omega, by omega, by omega⟩
    intro x hx
    rw [hbalance x, if_neg hx]
    ring

end Token

def tokenCalls (signed : List (BytesN 65 × List Condition)) : List SystemCall :=
  [.transact 100 (sampleCall signed sampleDeposit).inv.requireAuth (fun _ _ => true) sampleDeposit]

def tokenFunded (signed : List (BytesN 65 × List Condition)) : World Bytes Token :=
  run (SystemCall.exec (sampleHost signed)) (sampleWorld (sampleHost signed) sampleToken)
    (tokenCalls signed)

theorem tokenCalls_refuseSelf (signed : List (BytesN 65 × List Condition)) :
    ∀ c ∈ tokenCalls signed, c.RefusesSelf (sampleContract 1) := by
  intro c hc
  rw [List.mem_singleton.mp hc]
  intro args
  rfl

def tokenCall (signed : List (BytesN 65 × List Condition)) (op : ChannelOperation) :
    Invocation Token :=
  tokenInvocation 100 (sampleCall signed op).inv.requireAuth fun _ _ => true

theorem settledAsListed_sampleSpend :
    ∃ w', transact (sampleHost sampleSigned) (tokenCall sampleSigned sampleSpend)
        (tokenFunded sampleSigned) sampleSpend = .ok w' ∧
      SettledAsListed (tokenFunded sampleSigned) w' sampleSpend := by
  obtain ⟨w', h⟩ := exists_ok (x := transact (sampleHost sampleSigned)
    (tokenCall sampleSigned sampleSpend) (tokenFunded sampleSigned) sampleSpend) (by decide +kernel)
  have hself : (tokenFunded sampleSigned).self = sampleContract 1 := by decide +kernel
  refine ⟨w', h, (settledAsListed_iff ?_ h).mpr ?_⟩
  · intro args
    rw [hself]
    rfl
  · rw [hself]
    decide

def selfWithdraw : ChannelOperation :=
  ⟨[(sampleKey 1,
      [.create (sampleKey 2) (.ofByte 60), .extWithdraw (sampleContract 1) (.ofByte 40)])],
    [(sampleKey 2, .ofByte 60)], [], [(sampleContract 1, .ofByte 40, [])]⟩

/-- The channel keeps its 100 tokens; `supply` and the UTXOs are down to 60. -/
theorem selfWithdraw_strands_tokens :
    let w := tokenFunded selfWithdraw.spend
    ∃ w', transact (sampleHost selfWithdraw.spend) (tokenCall selfWithdraw.spend selfWithdraw) w
        selfWithdraw = .ok w' ∧
      w'.assetState.balance w.self = 100 ∧ w'.channel.readSupply.toInt = 60 ∧
      w'.channel.utxo.store.total = 60 ∧ ¬ SettledAsListed w w' selfWithdraw := by
  intro w
  obtain ⟨w', h⟩ := exists_ok (x := transact (sampleHost selfWithdraw.spend)
    (tokenCall selfWithdraw.spend selfWithdraw) w selfWithdraw) (by decide +kernel)
  have hw : w.assetState.balance w.self = 100 ∧ w.channel.readSupply.toInt = 100 ∧
      w.channel.utxo.store.total = 100 ∧ w.self = sampleContract 1 := by decide +kernel
  have hacc := transact_ok h
  have hbalance := transact_balance h w.self
  have hdelta : ((selfWithdraw.transfers w.self).map fun x => x.delta w.self).sum = 0 := by
    rw [hw.2.2.2]
    decide +kernel
  have htotals : selfWithdraw.depositTotal = 0 ∧ selfWithdraw.withdrawTotal = 40 := by
    decide +kernel
  have hsupply := hacc.supply
  have htotal := hacc.bundle.total
  refine ⟨w', h, by omega, by omega, by omega, ?_⟩
  intro hs
  have := hs.channel
  omega

section Payable

variable {sequence : U32} {requireAuth : RequireAuth} {auth : Transfer → Address → Bool}
  {asset self : Address} {t : Token}

/-- Deposits by distinct addresses do not get in each other's way: each needs
its own funds, and the channel room for all of them. -/
theorem depositTransfers_exists_iff {l : List (Address × I128 × List Condition)}
    (hpos : ∀ e ∈ l, 0 < e.2.1.toInt) (hnodup : (l.map Prod.fst).Nodup)
    (hself : self ∉ l.map Prod.fst) :
    (∃ t', (tokenInvocation sequence requireAuth auth).transferAll asset
        (l.map fun e => ⟨e.1, self, e.2.1⟩) t = .ok t') ↔
      (∀ e ∈ l, auth ⟨e.1, self, e.2.1⟩ e.1 = true ∧ e.2.1.toInt ≤ t.balance e.1) ∧
        t.balance self + (l.map fun e => e.2.1.toInt).sum < 2 ^ 127 := by
  induction l generalizing t with
  | nil =>
    have hup : t.balance self < 2 ^ 127 := (t.readBalance self).upper
    simpa [Invocation.transferAll, pure_eq_ok] using hup
  | cons e l ih =>
    rw [List.map_cons, List.nodup_cons] at hnodup
    rw [List.map_cons, List.mem_cons, not_or] at hself
    obtain ⟨hpos₁, hpos⟩ := List.forall_mem_cons.mp hpos
    have hrest := sum_nonneg_of_pos hpos
    -- the head leaves the other depositors alone and raises the channel's balance
    have hnext {t' : Token}
        (h : t.transfer (auth ⟨e.1, self, e.2.1⟩) ⟨e.1, self, e.2.1⟩ = .ok t') :
        (∀ d ∈ l, t'.balance d.1 = t.balance d.1) ∧
          t'.balance self = t.balance self + e.2.1.toInt := by
      constructor
      · intro d hd
        have hne : d.1 ≠ e.1 := fun he => hnodup.1 (he ▸ List.mem_map_of_mem hd)
        have hne' : d.1 ≠ self := fun he => hself.2 (he ▸ List.mem_map_of_mem hd)
        rw [Token.balance_transfer h]
        simp [Transfer.delta, hne, hne']
      · rw [Token.balance_transfer h]
        simp [Transfer.delta, hself.1]
    simp only [List.map_cons, Invocation.transferAll, foldlM_cons_ok, List.forall_mem_cons,
      List.sum_cons]
    constructor
    · rintro ⟨t', m, hm, hrun⟩
      obtain ⟨hauth, -, hle, hfit⟩ := Token.transfer_exists_iff.mp ⟨m, hm⟩
      obtain ⟨hsame, hchannel⟩ := hnext hm
      obtain ⟨hall, hsum⟩ := (ih hpos hnodup.2 hself.2).mp ⟨t', hrun⟩
      refine ⟨⟨⟨hauth, hle⟩, ?_⟩, by omega⟩
      intro d hd
      rw [← hsame d hd]
      exact hall d hd
    · rintro ⟨⟨⟨hauth, hle⟩, hall⟩, hsum⟩
      obtain ⟨m, hm⟩ : ∃ m, t.transfer (auth ⟨e.1, self, e.2.1⟩) ⟨e.1, self, e.2.1⟩ = .ok m := by
        refine Token.transfer_exists_iff.mpr ⟨hauth, hpos₁.le, hle, ?_⟩
        intro _
        show t.balance self + e.2.1.toInt < 2 ^ 127
        omega
      obtain ⟨hsame, hchannel⟩ := hnext hm
      obtain ⟨t', hrun⟩ := (ih hpos hnodup.2 hself.2).mpr ⟨fun d hd => by
        rw [hsame d hd]
        exact hall d hd, by omega⟩
      exact ⟨t', m, hm, hrun⟩

theorem withdrawTransfers_exists_iff {l : List (Address × I128 × List Condition)}
    (hpos : ∀ e ∈ l, 0 < e.2.1.toInt) (hnodup : (l.map Prod.fst).Nodup)
    (hfunds : (l.map fun e => e.2.1.toInt).sum ≤ t.balance self) :
    (∃ t', (tokenInvocation sequence requireAuth auth).transferAll asset
        (l.map fun e => ⟨self, e.1, e.2.1⟩) t = .ok t') ↔
      ∀ e ∈ l, auth ⟨self, e.1, e.2.1⟩ self = true ∧
        (e.1 ≠ self → t.balance e.1 + e.2.1.toInt < 2 ^ 127) := by
  induction l generalizing t with
  | nil => simp [Invocation.transferAll, pure_eq_ok]
  | cons e l ih =>
    rw [List.map_cons, List.nodup_cons] at hnodup
    obtain ⟨hpos₁, hpos⟩ := List.forall_mem_cons.mp hpos
    have hrest := sum_nonneg_of_pos hpos
    rw [List.map_cons, List.sum_cons] at hfunds
    have hnext {t' : Token}
        (h : t.transfer (auth ⟨self, e.1, e.2.1⟩) ⟨self, e.1, e.2.1⟩ = .ok t') :
        (∀ d ∈ l, d.1 ≠ self → t'.balance d.1 = t.balance d.1) ∧
          (l.map fun e => e.2.1.toInt).sum ≤ t'.balance self := by
      constructor
      · intro d hd hne'
        have hne : d.1 ≠ e.1 := fun he => hnodup.1 (he ▸ List.mem_map_of_mem hd)
        rw [Token.balance_transfer h]
        simp [Transfer.delta, hne, hne']
      · rw [Token.balance_transfer h]
        simp only [Transfer.delta, ↓reduceIte]
        split_ifs <;> omega
    simp only [List.map_cons, Invocation.transferAll, foldlM_cons_ok, List.forall_mem_cons]
    constructor
    · rintro ⟨t', m, hm, hrun⟩
      obtain ⟨hauth, -, -, hfit⟩ := Token.transfer_exists_iff.mp ⟨m, hm⟩
      obtain ⟨hsame, hleft⟩ := hnext hm
      refine ⟨⟨hauth, hfit⟩, ?_⟩
      intro d hd
      obtain ⟨hauth', hfit'⟩ := (ih hpos hnodup.2 hleft).mp ⟨t', hrun⟩ d hd
      refine ⟨hauth', ?_⟩
      intro hne
      rw [← hsame d hd hne]
      exact hfit' hne
    · rintro ⟨⟨hauth, hfit⟩, hall⟩
      obtain ⟨m, hm⟩ : ∃ m, t.transfer (auth ⟨self, e.1, e.2.1⟩) ⟨self, e.1, e.2.1⟩ = .ok m := by
        refine Token.transfer_exists_iff.mpr ⟨hauth, hpos₁.le, ?_, hfit⟩
        show e.2.1.toInt ≤ t.balance self
        omega
      obtain ⟨hsame, hleft⟩ := hnext hm
      obtain ⟨t', hrun⟩ := (ih hpos hnodup.2 hleft).mpr fun d hd => by
        refine ⟨(hall d hd).1, ?_⟩
        intro hne
        rw [hsame d hd hne]
        exact (hall d hd).2 hne
      exact ⟨t', m, hm, hrun⟩

/-- What the transfers of an operation ask of the token, in no order: every
payer has authorized its transfer and has the funds, and every payee has
room. The channel's own funds are not asked about. -/
structure Payable (auth : Transfer → Address → Bool) (channel : Address) (t : Token)
    (op : ChannelOperation) : Prop where
  deposits : ∀ e ∈ op.deposit,
    auth ⟨e.1, channel, e.2.1⟩ e.1 = true ∧ e.2.1.toInt ≤ t.balance e.1
  room : t.balance channel + op.depositTotal < 2 ^ 127
  withdraws : ∀ e ∈ op.withdraw, auth ⟨channel, e.1, e.2.1⟩ channel = true ∧
    (e.1 ≠ channel → t.balance e.1 - listed op.deposit e.1 + e.2.1.toInt < 2 ^ 127)

theorem transferAll_exists_iff {H : Host Digest} {op : ChannelOperation} (hpre : PreProcessed H op)
    (hself : self ∉ op.deposit.map Prod.fst)
    (hfunds : op.withdrawTotal ≤ t.balance self + op.depositTotal) :
    (∃ t', (tokenInvocation sequence requireAuth auth).transferAll asset (op.transfers self) t =
      .ok t') ↔ Payable auth self t op := by
  have hmid {m : Token} (h : (tokenInvocation sequence requireAuth auth).transferAll asset
      (op.deposit.map fun e => ⟨e.1, self, e.2.1⟩) t = .ok m) (y : Address) : m.balance y =
        t.balance y + ((if y = self then op.depositTotal else 0) - listed op.deposit y) := by
    rw [transferAll_balance h, List.map_map]
    exact congrArg _ deposits_delta
  have hchannel {m : Token} (h : (tokenInvocation sequence requireAuth auth).transferAll asset
      (op.deposit.map fun e => ⟨e.1, self, e.2.1⟩) t = .ok m) :
      op.withdrawTotal ≤ m.balance self := by
    rw [hmid h, if_pos rfl, listed_eq_zero hself]
    omega
  simp only [ChannelOperation.transfers, Invocation.transferAll, foldlM_append_ok]
  constructor
  · rintro ⟨t', m, hm, hrun⟩
    obtain ⟨hdep, hroom⟩ :=
      (depositTransfers_exists_iff hpre.deposit_pos hpre.deposit_nodup hself).mp ⟨m, hm⟩
    refine ⟨hdep, hroom, ?_⟩
    intro e he
    obtain ⟨hauth, hfit⟩ := (withdrawTransfers_exists_iff hpre.withdraw_pos hpre.withdraw_nodup
      (hchannel hm)).mp ⟨t', hrun⟩ e he
    refine ⟨hauth, ?_⟩
    intro hne
    have := hfit hne
    rw [hmid hm, if_neg hne] at this
    omega
  · intro h
    obtain ⟨m, hm⟩ : ∃ m, (tokenInvocation sequence requireAuth auth).transferAll asset
        (op.deposit.map fun e => ⟨e.1, self, e.2.1⟩) t = .ok m :=
      (depositTransfers_exists_iff hpre.deposit_pos hpre.deposit_nodup hself).mpr
        ⟨h.deposits, h.room⟩
    obtain ⟨t', hrun⟩ := (withdrawTransfers_exists_iff hpre.withdraw_pos hpre.withdraw_nodup
      (hchannel hm)).mpr fun e he => by
        refine ⟨(h.withdraws e he).1, ?_⟩
        intro hne
        have := (h.withdraws e he).2 hne
        rw [hmid hm, if_neg hne]
        omega
    exact ⟨t', m, hm, hrun⟩

end Payable

section Reachable

variable [DecidableEq Digest] {H : Host Digest}

/-- What holds of the system between two calls. -/
structure AtRest (channel : Address) (w : World Digest Token) : Prop where
  solvent : Solvent w
  guard : w.channel.guard = false
  address : w.self = channel
  auth : ∃ a, w.channel.utxo.auth = some a
  asset : ∃ a, w.channel.asset = some a

theorem AtRest.of_run {w₀ : World Digest Token} (h₀ : Deployed H w₀)
    (ht : TokenBefore w₀.self w₀.assetState) {calls : List SystemCall}
    (hself : ∀ c ∈ calls, c.RefusesSelf w₀.self) :
    AtRest w₀.self (run (SystemCall.exec H) w₀ calls) := by
  apply run_invariant (I := AtRest w₀.self)
  · intro w w' c hc hw h
    have hsolvent : Solvent w' := by
      apply hw.solvent.exec _ h
      rw [hw.address]
      exact hself c hc
    cases c with
    | transact sequence requireAuth auth op =>
      have hacc := transact_ok h
      refine ⟨hsolvent, transact_guard h, hacc.self.trans hw.address, ?_, ?_⟩
      · rw [hacc.bundle.auth]
        exact hw.auth
      · rw [hacc.asset]
        exact hw.asset
    | token c =>
      simp only [SystemCall.exec, bind_eq_ok, pure_eq_ok] at h
      obtain ⟨t, -, rfl⟩ := h
      exact ⟨hsolvent, hw.guard, hw.address, hw.auth, hw.asset⟩
  · have hguard : w₀.channel.guard = false := guard_of_run h₀ []
    have hsolvent : Solvent w₀ := .of_deployed h₀ ht
    obtain ⟨-, now, admin, authContract, asset, hc⟩ := h₀
    simp only [construct, bind_eq_ok, ensure_eq_ok, pure_eq_ok] at hc
    obtain ⟨-, -, hc⟩ := hc
    exact ⟨hsolvent, hguard, rfl, ⟨authContract, by rw [← hc]⟩, asset, by rw [← hc]⟩

end Reachable

end Moonlight
