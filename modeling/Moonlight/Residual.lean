import Moonlight.Foundations.Sums
import Moonlight.Stellar
import Moonlight.TransactSpec

namespace Moonlight
open Foundations

variable {Digest W : Type} [DecidableEq Digest]

def Condition.amount : Condition → I128
  | create _ amount => amount
  | extDeposit _ amount => amount
  | extWithdraw _ amount => amount
  | extIntegration _ _ amount => amount

/-- The distinct `Create` and `ExtWithdraw` conditions of a list. -/
def boundSet (cs : List Condition) : Finset Condition := (cs.filter isExecutionBound).toFinset

/-- What a list of conditions claims, each condition once. -/
def claimed (S : Finset Condition) : ℤ := ∑ c ∈ S, c.amount.toInt

namespace ChannelOperation

def signedLists (op : ChannelOperation) : List (List Condition) :=
  op.spend.map Prod.snd ++ op.deposit.map fun e => e.2.2

/-- What the spends held before the call, and what is deposited. -/
def inputs (H : Host Digest) (st : Store Digest) (op : ChannelOperation) : ℤ :=
  (op.spend.map fun e => st.value H e.1).sum + op.depositTotal

variable {op : ChannelOperation}

theorem bound_eq : op.bound = op.signedLists.flatten.filter isExecutionBound := by
  simp [bound, signedLists, List.flatMap_def]

theorem mem_bound {c : Condition} :
    c ∈ op.bound ↔ (∃ cs ∈ op.signedLists, c ∈ cs) ∧ isExecutionBound c = true := by
  rw [bound_eq, List.mem_filter, List.mem_flatten]

theorem bound_toFinset : op.bound.toFinset = unionAll (op.signedLists.map boundSet) := by
  ext c
  rw [List.mem_toFinset, mem_bound, mem_unionAll]
  constructor
  · rintro ⟨⟨cs, hcs, hc⟩, hb⟩
    exact ⟨boundSet cs, List.mem_map_of_mem hcs, by simp [boundSet, hc, hb]⟩
  · rintro ⟨s, hs, hc⟩
    obtain ⟨cs, hcs, rfl⟩ := List.mem_map.mp hs
    simp only [boundSet, List.mem_toFinset, List.mem_filter] at hc
    exact ⟨⟨cs, hcs, hc.1⟩, hc.2⟩

theorem create_mem_executed {u : BytesN 65} {a : I128} :
    .create u a ∈ op.executed ↔ (u, a) ∈ op.create := by
  simp [executed]

theorem extWithdraw_mem_executed {x : Address} {a : I128} :
    .extWithdraw x a ∈ op.executed ↔ ∃ cs, (x, a, cs) ∈ op.withdraw := by
  simp [executed]

theorem executed_sum : (op.executed.map fun c => c.amount.toInt).sum =
    (op.create.map fun e => e.2.toInt).sum + op.withdrawTotal := by
  simp only [executed, List.map_append, List.map_map, List.sum_append]
  rfl

theorem forall_executed {P : Condition → Prop} :
    (∀ c ∈ op.executed, P c) ↔
      (∀ e ∈ op.create, P (.create e.1 e.2)) ∧ ∀ e ∈ op.withdraw, P (.extWithdraw e.1 e.2.1) := by
  simp only [executed, List.forall_mem_append, List.forall_mem_map]

end ChannelOperation

variable {H : Host Digest} {inv : Invocation W} {w w' : World Digest W} {op : ChannelOperation}

namespace Accepted

variable (h : Accepted H inv w op w')
include h

theorem executed_nodup : op.executed.Nodup := by
  apply List.Nodup.append
  · apply nodup_map_of_keys _ h.bundle.create_nodup
    intro x y he
    exact (Condition.create.inj he).1
  · apply nodup_map_of_keys _ h.pre.withdraw_nodup
    intro x y he
    exact (Condition.extWithdraw.inj he).1
  · intro c hc hw
    obtain ⟨x, -, rfl⟩ := List.mem_map.mp hc
    obtain ⟨y, -, he⟩ := List.mem_map.mp hw
    cases he

theorem executed_pos (c : Condition) (hc : c ∈ op.executed) : 0 < c.amount.toInt := by
  rcases List.mem_append.mp hc with hc | hc
  · obtain ⟨e, he, rfl⟩ := List.mem_map.mp hc
    exact h.bundle.applies.positive _ (List.mem_map_of_mem he)
  · obtain ⟨e, he, rfl⟩ := List.mem_map.mp hc
    exact h.pre.withdraw_pos e he

theorem inputs_eq : op.inputs H w.channel.utxo.store =
    (op.executed.map fun c => c.amount.toInt).sum := by
  have hbal := h.bundle.balanced
  rw [ChannelOperation.executed_sum, ChannelOperation.inputs, add_comm]
  simpa [ChannelOperation.internal, Function.comp_def] using hbal

theorem created_balance {u : BytesN 65} {a : I128} (hu : (u, a) ∈ op.create) (now : U32) :
    (utxoBalance H now w'.channel.utxo u).1 = a := by
  apply I128.toInt_injective
  have hcreated := h.bundle.applies.created _ (List.mem_map_of_mem hu)
  rw [utxoBalance_toInt, Store.value, hcreated, Option.getD_some]

section Faithful

variable (hxdr : Function.Injective H.conditionToXdr)
include hxdr

theorem residual_eq :
    ((op.executed.filter (· ∉ op.bound.toFinset)).map fun c => c.amount.toInt).sum =
      op.inputs H w.channel.utxo.store - claimed op.bound.toFinset := by
  -- every signed effect is executed, so the executed ones split into signed and rest
  have hcover : ∀ c ∈ op.bound.toFinset, c ∈ op.executed := by
    intro c hc
    exact h.pre.bound_executed hxdr (List.mem_toFinset.mp hc)
  rw [h.inputs_eq, sum_eq_sum_add_rest h.executed_nodup hcover, claimed, add_sub_cancel_left]

theorem residual_nonneg : claimed op.bound.toFinset ≤ op.inputs H w.channel.utxo.store := by
  have hsum := h.residual_eq hxdr
  have : 0 ≤ ((op.executed.filter (· ∉ op.bound.toFinset)).map fun c => c.amount.toInt).sum := by
    apply List.sum_nonneg
    simp only [List.forall_mem_map]
    intro c hc
    exact (h.executed_pos c (List.mem_filter.mp hc).1).le
  omega

theorem executed_subset_iff :
    (∀ c ∈ op.executed, c ∈ op.bound) ↔
      claimed op.bound.toFinset = op.inputs H w.channel.utxo.store := by
  have hzero := sum_eq_zero_iff_nil (l := op.executed.filter (· ∉ op.bound.toFinset))
    (f := fun c => c.amount.toInt) fun c hc => h.executed_pos c (List.mem_filter.mp hc).1
  rw [h.residual_eq hxdr, sub_eq_zero, eq_comm] at hzero
  rw [hzero, List.filter_eq_nil_iff]
  simp

end Faithful

end Accepted

/-- The channel has no `__check_auth`, so the host grants nothing in its name. -/
def Invocation.RefusesSelf (inv : Invocation W) (self : Address) : Prop :=
  ∀ args, inv.requireAuth self args = false

/-- The creates and withdraws that nobody signed for sum to the inputs less the
signed set. The signed set never exceeds the inputs, and where it reaches them
there is nothing unsigned. -/
theorem provider_take_eq_residual (hxdr : Function.Injective H.conditionToXdr)
    (h : transact H inv w op = .ok w') :
    ((op.create.filter fun e => .create e.1 e.2 ∉ op.bound.toFinset).map fun e => e.2.toInt).sum +
        ((op.withdraw.filter fun e => .extWithdraw e.1 e.2.1 ∉ op.bound.toFinset).map
          fun e => e.2.1.toInt).sum =
      op.inputs H w.channel.utxo.store - claimed op.bound.toFinset ∧
    claimed op.bound.toFinset ≤ op.inputs H w.channel.utxo.store ∧
    (claimed op.bound.toFinset = op.inputs H w.channel.utxo.store →
      (∀ e ∈ op.create, .create e.1 e.2 ∈ op.bound.toFinset) ∧
        ∀ e ∈ op.withdraw, .extWithdraw e.1 e.2.1 ∈ op.bound.toFinset) := by
  have hacc := transact_ok h
  refine ⟨?_, hacc.residual_nonneg hxdr, ?_⟩
  · rw [← hacc.residual_eq hxdr, ChannelOperation.executed]
    simp only [List.filter_append, List.filter_map, List.map_append, List.map_map, List.sum_append,
      Function.comp_def, Condition.amount]
  · intro heq
    have hall := (hacc.executed_subset_iff hxdr).mpr heq
    simpa using ChannelOperation.forall_executed.mp hall

def sampleFee : ChannelOperation :=
  ⟨[], [(sampleKey 1, .ofByte 90), (sampleKey 3, .ofByte 10)],
    [(sampleAccount 5, .ofByte 100, [.create (sampleKey 1) (.ofByte 90)])], []⟩

theorem provider_take_eq_residual_sampleFee :
    ∃ w', transact (sampleHost []) (sampleCall [] sampleFee).inv (sampleWorld (sampleHost []) ())
        sampleFee = .ok w' ∧
      sampleFee.inputs (sampleHost []) ∅ - claimed sampleFee.bound.toFinset = 10 := by
  obtain ⟨w', h⟩ := exists_ok (x := transact (sampleHost []) (sampleCall [] sampleFee).inv
    (sampleWorld (sampleHost []) ()) sampleFee) (by decide +kernel)
  refine ⟨w', h, ?_⟩
  exact (provider_take_eq_residual Condition.toXdr_injective h).1.symm.trans (by decide +kernel)

/-- Every spend entry claims what its UTXO holds and every deposit entry what
it brings, each distinct condition counted once. -/
def FullyClaimed (H : Host Digest) (st : Store Digest) (op : ChannelOperation) : Prop :=
  (∀ e ∈ op.spend, claimed (boundSet e.2) = st.value H e.1) ∧
    ∀ e ∈ op.deposit, claimed (boundSet e.2.2) = e.2.1.toInt

theorem FullyClaimed.inputs_eq {st : Store Digest} (h : FullyClaimed H st op) :
    op.inputs H st = ((op.signedLists.map boundSet).map claimed).sum := by
  simp only [ChannelOperation.inputs, ChannelOperation.depositTotal, ChannelOperation.signedLists,
    List.map_append, List.map_map, List.sum_append, Function.comp_def]
  rw [List.map_congr_left h.1, List.map_congr_left h.2]

/-- When every signer has claimed all they bring, nothing unsigned is executed
exactly when no condition is listed by two of them. -/
theorem no_unsigned_effect_iff (hxdr : Function.Injective H.conditionToXdr)
    (h : transact H inv w op = .ok w') (hfull : FullyClaimed H w.channel.utxo.store op) :
    ((∀ e ∈ op.create, .create e.1 e.2 ∈ op.bound) ∧
        ∀ e ∈ op.withdraw, .extWithdraw e.1 e.2.1 ∈ op.bound) ↔
      (op.signedLists.map boundSet).Pairwise Disjoint := by
  have hacc := transact_ok h
  have hpos : ∀ s ∈ op.signedLists.map boundSet, ∀ c ∈ s, 0 < c.amount.toInt := by
    intro s hs c hc
    have hmem : c ∈ unionAll (op.signedLists.map boundSet) := mem_unionAll.mpr ⟨s, hs, hc⟩
    rw [← ChannelOperation.bound_toFinset, List.mem_toFinset] at hmem
    exact hacc.executed_pos c (hacc.pre.bound_executed hxdr hmem)
  rw [← ChannelOperation.forall_executed, hacc.executed_subset_iff hxdr, hfull.inputs_eq,
    ChannelOperation.bound_toFinset]
  exact sum_unionAll_eq_iff hpos

theorem no_unsigned_effect_iff_sampleSpend :
    FullyClaimed (sampleHost sampleSigned) sampleFunded.channel.utxo.store sampleSpend ∧
      (((∀ e ∈ sampleSpend.create, .create e.1 e.2 ∈ sampleSpend.bound) ∧
          ∀ e ∈ sampleSpend.withdraw, .extWithdraw e.1 e.2.1 ∈ sampleSpend.bound) ↔
        (sampleSpend.signedLists.map boundSet).Pairwise Disjoint) := by
  obtain ⟨w', h⟩ := sampleSpend_commits
  have hfull : FullyClaimed (sampleHost sampleSigned) sampleFunded.channel.utxo.store sampleSpend :=
    ⟨by decide +kernel, by decide +kernel⟩
  exact ⟨hfull, no_unsigned_effect_iff Condition.toXdr_injective h hfull⟩

def sharedSigned : List (BytesN 65 × List Condition) :=
  [(sampleKey 1, [.create (sampleKey 7) (.ofByte 100)]),
    (sampleKey 2, [.create (sampleKey 7) (.ofByte 100)])]

def sharedFunded : World Bytes Unit :=
  run (Call.exec (sampleHost sharedSigned)) (sampleWorld (sampleHost sharedSigned) ())
    [sampleCall sharedSigned
      ⟨[], [(sampleKey 1, .ofByte 100), (sampleKey 2, .ofByte 100)],
        [(sampleAccount 5, .ofByte 200, [])], []⟩]

def sharedSpend : ChannelOperation :=
  ⟨sharedSigned, [(sampleKey 7, .ofByte 100), (sampleKey 8, .ofByte 100)], [], []⟩

/-- Neither owner leaves a residual, and yet an output nobody signed for is
executed: the set holds their common condition once. -/
theorem shared_output_leaves_residual :
    Reachable (sampleHost sharedSigned) sharedFunded ∧
      FullyClaimed (sampleHost sharedSigned) sharedFunded.channel.utxo.store sharedSpend ∧
      (∃ w', transact (sampleHost sharedSigned) (sampleCall sharedSigned sharedSpend).inv
        sharedFunded sharedSpend = .ok w') ∧
      (sampleKey 8, .ofByte 100) ∈ sharedSpend.create ∧
      .create (sampleKey 8) (.ofByte 100) ∉ sharedSpend.bound :=
  ⟨⟨_, sampleWorld_deployed _ (), _, rfl⟩, ⟨by decide +kernel, by decide +kernel⟩,
    exists_ok (by decide +kernel), by decide +kernel, by decide +kernel⟩

end Moonlight
