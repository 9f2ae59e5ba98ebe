import Moonlight.Approval
import Moonlight.Settlement

namespace Moonlight
open Foundations

variable {Digest : Type} [DecidableEq Digest] {H : Host Digest}

def ChannelOperation.touched (op : ChannelOperation) : List (BytesN 65) :=
  op.spend.map Prod.fst ++ op.create.map Prod.fst

/-- Equal UTXO amounts, supply and token balances. -/
structure SameFunds (w v : World Digest Token) : Prop where
  utxos : ∀ d, w.channel.utxo.store.get d = v.channel.utxo.store.get d
  supply : w.channel.readSupply = v.channel.readSupply
  balances : ∀ y, w.assetState.balance y = v.assetState.balance y

theorem Store.get_eq_of_ledger_eq {st st' : Store Digest} (h : st.ledger = st'.ledger)
    (d : Digest) : st.get d = st'.get d :=
  Option.map_injective I128.toInt_injective (congrFun h d)

section Bundles

variable {s₁ s₂ s₁' s₂' : U32} {r₁ r₂ r₁' r₂' : RequireAuth}
  {a₁ a₂ a₁' a₂' : Transfer → Address → Bool} {op₁ op₂ : ChannelOperation}
  {w m m' u v : World Digest Token}

omit [DecidableEq Digest] in
theorem touched_digest {op : ChannelOperation} {k : BytesN 65} (hk : k ∈ op.touched) :
    Store.utxoKey H k ∈ (digestBundle H (op.spend.map Prod.fst) op.create).touched := by
  rcases List.mem_append.mp hk with hs | hc
  · exact List.mem_append_left _ (List.mem_map_of_mem hs)
  · apply List.mem_append_right
    obtain ⟨p, hp, rfl⟩ := List.mem_map.mp hc
    rw [digestBundle, List.map_map]
    exact List.mem_map.mpr ⟨p, hp, rfl⟩

/-- Two operations that commit in both orders touch no common key and lead to
the same funds. The host may decide differently in each of the four calls. -/
theorem operations_confluent
    (h₁ : transact H (tokenInvocation s₁ r₁ a₁) w op₁ = .ok m)
    (h₂ : transact H (tokenInvocation s₂ r₂ a₂) m op₂ = .ok u)
    (h₂' : transact H (tokenInvocation s₂' r₂' a₂') w op₂ = .ok m')
    (h₁' : transact H (tokenInvocation s₁' r₁' a₁') m' op₁ = .ok v) :
    SameFunds u v ∧ ∀ k ∈ op₁.touched, k ∉ op₂.touched := by
  have happ₁ := (transact_ok h₁).bundle.applies
  have happ₂ := (transact_ok h₂).bundle.applies
  have happ₂' := (transact_ok h₂').bundle.applies
  have happ₁' := (transact_ok h₁').bundle.applies
  refine ⟨⟨?_, ?_, ?_⟩, ?_⟩
  · exact Store.get_eq_of_ledger_eq (happ₁.confluent happ₂ happ₂' happ₁')
  · apply I128.toInt_injective
    rw [(transact_ok h₂).supply, (transact_ok h₁).supply, (transact_ok h₁').supply,
      (transact_ok h₂').supply]
    ring
  · -- what an operation adds to a balance does not depend on the state
    intro y
    rw [transact_balance h₂, transact_balance h₁, transact_balance h₁', transact_balance h₂',
      (transact_ok h₁).self, (transact_ok h₂').self]
    ring
  · intro k hk₁ hk₂
    exact happ₁.disjoint_of_both_orders happ₂ happ₂' happ₁' (touched_digest hk₁)
      (touched_digest hk₂)

end Bundles

def smallDeposit : ChannelOperation :=
  ⟨[], [(sampleKey 3, .ofByte 7)], [(sampleAccount 5, .ofByte 7, [])], []⟩

theorem operations_confluent_sampleSpend :
    let H := sampleHost sampleSigned
    let inv := tokenCall sampleSigned
    ∃ m m' u v, transact H (inv sampleSpend) (tokenFunded sampleSigned) sampleSpend = .ok m ∧
      transact H (inv smallDeposit) m smallDeposit = .ok u ∧
      transact H (inv smallDeposit) (tokenFunded sampleSigned) smallDeposit = .ok m' ∧
      transact H (inv sampleSpend) m' sampleSpend = .ok v ∧ SameFunds u v := by
  intro H inv
  obtain ⟨u, hu⟩ := exists_ok (x := transact H (inv sampleSpend) (tokenFunded sampleSigned)
    sampleSpend >>= fun m => transact H (inv smallDeposit) m smallDeposit) (by decide +kernel)
  obtain ⟨v, hv⟩ := exists_ok (x := transact H (inv smallDeposit) (tokenFunded sampleSigned)
    smallDeposit >>= fun m => transact H (inv sampleSpend) m sampleSpend) (by decide +kernel)
  obtain ⟨m, h₁, h₂⟩ := bind_eq_ok.mp hu
  obtain ⟨m', h₂', h₁'⟩ := bind_eq_ok.mp hv
  exact ⟨m, m', u, v, h₁, h₂, h₂', h₁', (operations_confluent h₁ h₂ h₂' h₁').1⟩

/-- `op'` lists what `op` lists, in another order. -/
structure ChannelOperation.Reordered (op op' : ChannelOperation) : Prop where
  spend : op.spend.Perm op'.spend
  create : op.create.Perm op'.create
  deposit : op.deposit.Perm op'.deposit
  withdraw : op.withdraw.Perm op'.withdraw

namespace ChannelOperation.Reordered

variable {op op' : ChannelOperation} (h : op.Reordered op')
include h

theorem symm : op'.Reordered op := ⟨h.spend.symm, h.create.symm, h.deposit.symm, h.withdraw.symm⟩

theorem depositTotal_eq : op'.depositTotal = op.depositTotal := (h.deposit.map _).sum_eq.symm

theorem withdrawTotal_eq : op'.withdrawTotal = op.withdrawTotal := (h.withdraw.map _).sum_eq.symm

theorem conditions : op.conditions.Perm op'.conditions :=
  ((h.spend.flatMap_right _).append (h.deposit.flatMap_right _)).append
    (h.withdraw.flatMap_right _)

theorem bound : op.bound.Perm op'.bound :=
  ((h.spend.flatMap_right _).append (h.deposit.flatMap_right _)).filter _

theorem executed : op.executed.Perm op'.executed := (h.create.map _).append (h.withdraw.map _)

theorem transfers (self : Address) : (op.transfers self).Perm (op'.transfers self) :=
  (h.deposit.map _).append (h.withdraw.map _)

theorem listed_deposit (x : Address) : listed op'.deposit x = listed op.deposit x :=
  ((h.deposit.filter _).map _).sum_eq.symm

omit [DecidableEq Digest] in
theorem preProcessed (hpre : PreProcessed H op) : PreProcessed H op' where
  conflictFree := by
    rw [opHasNoConflictingConditions_iff, ← h.conditions.pairwise_iff Compatible.symm,
      ← opHasNoConflictingConditions_iff]
    exact hpre.conflictFree
  deposit_pos e he := hpre.deposit_pos e (h.deposit.mem_iff.mpr he)
  withdraw_pos e he := hpre.withdraw_pos e (h.withdraw.mem_iff.mpr he)
  deposit_nodup := (h.deposit.map _).nodup_iff.mp hpre.deposit_nodup
  withdraw_nodup := (h.withdraw.map _).nodup_iff.mp hpre.withdraw_nodup
  bound c hc := (h.executed.map _).mem_iff.mp (hpre.bound c (h.bound.mem_iff.mpr hc))

theorem requirements_eq (hnodup : (op.spend.map Prod.fst).Nodup) :
    calculateAuthRequirements op'.spend = calculateAuthRequirements op.spend := by
  have hnodup' : (op'.spend.map Prod.fst).Nodup := (h.spend.map _).nodup_iff.mp hnodup
  apply Finmap.ext_lookup
  intro k
  apply Option.ext
  intro cs
  rw [calculateAuthRequirements_lookup hnodup, calculateAuthRequirements_lookup hnodup']
  refine exists_congr fun pk => and_congr_right fun _ => ?_
  exact h.spend.symm.mem_iff

theorem payable {auth : Transfer → Address → Bool} {channel : Address} {t : Token}
    (hpay : Payable auth channel t op) : Payable auth channel t op' where
  deposits e he := hpay.deposits e (h.deposit.mem_iff.mpr he)
  room := by
    rw [h.depositTotal_eq]
    exact hpay.room
  withdraws e he := by
    rw [h.listed_deposit]
    exact hpay.withdraws e (h.withdraw.mem_iff.mpr he)

end ChannelOperation.Reordered

section Lists

variable {sequence : U32} {requireAuth : RequireAuth} {auth : Transfer → Address → Bool}
  {self : Address} {w w' w'' : World Digest Token} {op op' : ChannelOperation}

/-- Nothing that `transact` checks on a solvent channel depends on the order of
a list. -/
theorem Admissible.reordered (hw : AtRest self w) (hself : ∀ args, requireAuth self args = false)
    (hperm : op.Reordered op')
    (h : Admissible H (tokenInvocation sequence requireAuth auth) w op) :
    Admissible H (tokenInvocation sequence requireAuth auth) w op' := by
  have hpre := hperm.preProcessed h.pre
  have hnodup : (op.spend.map Prod.fst).Nodup := h.enabled.spend_nodup.of_map
  -- a solvent channel has the tokens for its withdraws in any order
  have hfunds : op.withdrawTotal ≤ w.assetState.balance w.self + op.depositTotal := by
    have hcovered := hw.solvent.covered.supply
    have hle := h.withdraw_le hw.solvent.backed
    omega
  -- the channel authorizes no deposit, so it is not a depositor
  have hnot {op : ChannelOperation}
      (hd : ∀ e ∈ op.deposit, requireAuth e.1 [.conditions e.2.2] = true) :
      w.self ∉ op.deposit.map Prod.fst := by
    intro hmem
    obtain ⟨e, he, hes⟩ := List.mem_map.mp hmem
    have hauth := hd e he
    rw [hes, hw.address, hself] at hauth
    cases hauth
  have hdepositors : ∀ e ∈ op'.deposit, requireAuth e.1 [.conditions e.2.2] = true :=
    fun e he => h.depositors e (hperm.deposit.mem_iff.mpr he)
  refine ⟨hpre, ?_, ?_, ?_, ?_, ?_, ?_, ?_, hdepositors, ?_⟩
  · rw [hperm.depositTotal_eq]
    exact h.deposit_fits
  · rw [hperm.withdrawTotal_eq]
    exact h.withdraw_fits
  · intro d hd e he
    exact h.sequences d (hperm.deposit.mem_iff.mpr hd) e (hperm.withdraw.mem_iff.mpr he)
  · exact h.enabled.perm ((hperm.spend.map _).map _) (hperm.create.map _)
  · rw [hperm.depositTotal_eq, hperm.withdrawTotal_eq,
      ← ((hperm.spend.map Prod.fst).map (w.channel.utxo.store.value H)).sum_eq,
      ← (hperm.create.map fun p => p.2.toInt).sum_eq]
    exact h.balanced
  · rw [hperm.depositTotal_eq]
    exact h.supply_fits
  · rw [hperm.requirements_eq hnodup]
    exact h.authorized
  · obtain ⟨asset, hasset, htransfers⟩ := h.transfers
    refine ⟨asset, hasset, ?_⟩
    rw [transferAll_exists_iff hpre (hnot hdepositors)]
    · exact hperm.payable ((transferAll_exists_iff h.pre (hnot h.depositors) hfunds).mp htransfers)
    · rw [hperm.depositTotal_eq, hperm.withdrawTotal_eq]
      exact hfunds

theorem sameFunds_of_reordered (hperm : op.Reordered op')
    (h : transact H (tokenInvocation sequence requireAuth auth) w op = .ok w')
    (h' : transact H (tokenInvocation sequence requireAuth auth) w op' = .ok w'') :
    SameFunds w' w'' := by
  have hacc := transact_ok h
  have hacc' := transact_ok h'
  refine ⟨?_, ?_, ?_⟩
  -- `op'` applies what `op` applies, and a bundle leads to one ledger
  · have happ : (digestBundle H (op'.spend.map Prod.fst) op'.create).Applies _ _ :=
      hacc.bundle.applies.perm ((hperm.spend.map _).map _) (hperm.create.map _)
    exact Store.get_eq_of_ledger_eq (happ.unique hacc'.bundle.applies)
  · apply I128.toInt_injective
    rw [hacc.supply, hacc'.supply, hperm.depositTotal_eq, hperm.withdrawTotal_eq]
  · intro y
    rw [transact_balance h, transact_balance h', ((hperm.transfers w.self).map _).sum_eq]

end Lists

/-- In every reachable state of the channel and the token, an operation and any
reordering of its four lists are accepted or refused together, and lead to the
same funds. -/
theorem list_order_irrelevant (w₀ : World Digest Token) (h₀ : Deployed H w₀)
    (ht : TokenBefore w₀.self w₀.assetState) (calls : List SystemCall)
    (hcalls : ∀ c ∈ calls, c.RefusesSelf w₀.self) (sequence : U32) (requireAuth : RequireAuth)
    (auth : Transfer → Address → Bool) (hself : ∀ args, requireAuth w₀.self args = false)
    (op op' : ChannelOperation) (hperm : op.Reordered op') :
    let w := run (SystemCall.exec H) w₀ calls
    let inv := tokenInvocation sequence requireAuth auth
    ((∃ w', transact H inv w op = .ok w') ↔ ∃ w'', transact H inv w op' = .ok w'') ∧
      ∀ w' w'', transact H inv w op = .ok w' → transact H inv w op' = .ok w'' →
        SameFunds w' w'' := by
  intro w inv
  have hw : AtRest w₀.self w := AtRest.of_run h₀ ht hcalls
  constructor
  · rw [transact_exists_iff hw.solvent.backed hw.guard,
      transact_exists_iff hw.solvent.backed hw.guard]
    constructor
    · exact Admissible.reordered hw hself hperm
    · exact Admissible.reordered hw hself hperm.symm
  · intro w' w'' h h'
    exact sameFunds_of_reordered hperm h h'

def splitDeposit : ChannelOperation :=
  ⟨[], [(sampleKey 3, .ofByte 3), (sampleKey 4, .ofByte 4)], [(sampleAccount 5, .ofByte 7, [])], []⟩

def splitDepositSwapped : ChannelOperation :=
  ⟨[], [(sampleKey 4, .ofByte 4), (sampleKey 3, .ofByte 3)], [(sampleAccount 5, .ofByte 7, [])], []⟩

theorem list_order_irrelevant_splitDeposit :
    let H := sampleHost sampleSigned
    let inv := tokenCall sampleSigned splitDeposit
    ∃ w' w'', transact H inv (tokenFunded sampleSigned) splitDeposit = .ok w' ∧
      transact H inv (tokenFunded sampleSigned) splitDepositSwapped = .ok w'' ∧
      SameFunds w' w'' := by
  intro H inv
  have hperm : splitDeposit.Reordered splitDepositSwapped :=
    ⟨.rfl, .swap _ _ _, .rfl, .rfl⟩
  obtain ⟨hiff, hsame⟩ := list_order_irrelevant (sampleWorld H sampleToken)
    (sampleWorld_deployed H sampleToken) sampleToken_before (tokenCalls sampleSigned)
    (tokenCalls_refuseSelf sampleSigned) 100
    (sampleCall sampleSigned splitDeposit).inv.requireAuth (fun _ _ => true) (fun _ => rfl)
    splitDeposit splitDepositSwapped hperm
  obtain ⟨w', h⟩ := exists_ok (x := transact H inv (tokenFunded sampleSigned) splitDeposit)
    (by decide +kernel)
  obtain ⟨w'', h'⟩ := hiff.mp ⟨w', h⟩
  exact ⟨w', w'', h, h', hsame w' w'' h h'⟩

end Moonlight
