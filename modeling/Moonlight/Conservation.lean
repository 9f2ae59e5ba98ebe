import Moonlight.Stellar
import Moonlight.TransactSpec

namespace Moonlight
open Foundations

variable {Digest W : Type} [DecidableEq Digest]

/-- `supply` is the sum of the entries, and no entry is negative. -/
structure Backed (c : Channel Digest) : Prop where
  supply : c.readSupply.toInt = c.utxo.store.total
  nonneg : ∀ d a, c.utxo.store.ledger d = some a → 0 ≤ a

variable {H : Host Digest} {w w' : World Digest W}

theorem Backed.of_deployed (h : Deployed H w) : Backed w.channel := by
  obtain ⟨hstore, hsupply⟩ := h.storage
  refine ⟨?_, ?_⟩
  · rw [Channel.readSupply, hsupply, hstore]
    rfl
  · intro d a ha
    simp [hstore, Store.ledger, Store.get] at ha

theorem Accepted.backed {inv : Invocation W} {op : ChannelOperation} (h : Accepted H inv w op w')
    (hw : Backed w.channel) : Backed w'.channel := by
  refine ⟨?_, h.bundle.applies.nonneg hw.nonneg⟩
  rw [h.supply, h.bundle.total, hw.supply]
  ring

theorem Backed.of_run {w₀ : World Digest W} (h₀ : Deployed H w₀) (calls : List (Call W)) :
    Backed (run (Call.exec H) w₀ calls).channel := by
  apply run_invariant (I := fun w : World Digest W => Backed w.channel)
  · intro w w' c _ hw h
    exact (transact_ok h).backed hw
  · exact Backed.of_deployed h₀

theorem supply_of_run {w₀ : World Digest W} (h₀ : Deployed H w₀) (calls : List (Call W)) :
    (run (Call.exec H) w₀ calls).channel.readSupply.toInt =
      ((succeeded (Call.exec H) w₀ calls).map fun c => c.op.depositTotal).sum -
        ((succeeded (Call.exec H) w₀ calls).map fun c => c.op.withdrawTotal).sum := by
  have hstart : w₀.channel.readSupply.toInt = 0 := by
    rw [Channel.readSupply, h₀.storage.2]
    rfl
  have hstep (w : World Digest W) (c : Call W) (w' : World Digest W)
      (h : Call.exec H w c = .ok w') : w'.channel.readSupply.toInt =
        w.channel.readSupply.toInt + (c.op.depositTotal - c.op.withdrawTotal) :=
    (transact_ok h).supply
  rw [run_sum (fun w : World Digest W => w.channel.readSupply.toInt) _ hstep, hstart, zero_add]
  simpa using Multiset.sum_map_sub (m := (succeeded (Call.exec H) w₀ calls : Multiset (Call W)))

/-- The withdraw loop counts `supply` down to the new sum of the entries, so it
stays at or above that sum after any number of its passes. -/
theorem withdrawLoop_supply_nonneg {inv : Invocation W} {op : ChannelOperation}
    {c : Channel Digest} {n : ℕ} (hw : Backed w.channel)
    (hc : processOperation H inv.sequence inv.requireAuth w.channel op = .ok c)
    (hx : executeExternalOperations inv.requireAuth inv.asset { w with channel := c } op.deposit
      (op.withdraw.take n) = .ok w') :
    0 ≤ w'.channel.readSupply.toInt := by
  obtain ⟨hpre, hbundle, hsupply, -⟩ := processOperation_ok hc
  have hmoved := (executeExternalOperations_ok hx).2.supply
  -- the bundle has already moved the entries to where `supply` will end up
  have htotal := hbundle.total
  have hnonneg := Store.total_nonneg (hbundle.applies.nonneg hw.nonneg)
  have hold : c.readSupply.toInt = w.channel.utxo.store.total := by
    rw [← hw.supply, Channel.readSupply, hsupply]
    rfl
  -- what is still to be withdrawn is not negative
  have hrest : 0 ≤ ((op.withdraw.drop n).map fun e => e.2.1.toInt).sum :=
    sum_nonneg_of_pos fun e he => hpre.withdraw_pos e (List.mem_of_mem_drop he)
  have hsplit : op.withdrawTotal = ((op.withdraw.take n).map fun e => e.2.1.toInt).sum +
      ((op.withdraw.drop n).map fun e => e.2.1.toInt).sum := by
    rw [← List.sum_append, ← List.map_append, List.take_append_drop]
    rfl
  have hdep : op.depositTotal = (op.deposit.map fun e => e.2.1.toInt).sum := rfl
  have hchannel : ({ w with channel := c } : World Digest W).channel = c := rfl
  rw [hchannel] at hmoved
  omega

/-- In every state reached from a deployment `supply` is the sum of the UTXO
entries, is not negative, and is what the committed calls have deposited less
what they have withdrawn; and it is not negative at any point of the withdraw
loop of the next call either. -/
theorem supply_conserved (w₀ : World Digest W) (h₀ : Deployed H w₀) (calls : List (Call W)) :
    let w := run (Call.exec H) w₀ calls
    let done := succeeded (Call.exec H) w₀ calls
    w.channel.readSupply.toInt = w.channel.utxo.store.total ∧
      0 ≤ w.channel.readSupply.toInt ∧
      w.channel.readSupply.toInt =
        (done.map fun c => c.op.depositTotal).sum - (done.map fun c => c.op.withdrawTotal).sum ∧
      ∀ (inv : Invocation W) (op : ChannelOperation) (c : Channel Digest) (n : ℕ)
        (m : World Digest W),
        processOperation H inv.sequence inv.requireAuth w.channel op = .ok c →
        executeExternalOperations inv.requireAuth inv.asset { w with channel := c } op.deposit
          (op.withdraw.take n) = .ok m →
        0 ≤ m.channel.readSupply.toInt := by
  intro w done
  have hw : Backed w.channel := Backed.of_run h₀ calls
  refine ⟨hw.supply, ?_, ?_, ?_⟩
  · rw [hw.supply]
    exact Store.total_nonneg hw.nonneg
  · exact supply_of_run h₀ calls
  · intro inv op c n m hc hm
    exact withdrawLoop_supply_nonneg hw hc hm

theorem supply_conserved_sampleCalls :
    let w := run (Call.exec (sampleHost sampleSigned)) (sampleWorld (sampleHost sampleSigned) ())
      sampleCalls
    w.channel.readSupply.toInt = 60 ∧ w.channel.readSupply.toInt = w.channel.utxo.store.total :=
  ⟨by decide +kernel, (supply_conserved _ (sampleWorld_deployed _ ()) sampleCalls).1⟩

end Moonlight
