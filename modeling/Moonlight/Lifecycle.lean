import Moonlight.Stellar
import Moonlight.TransactSpec

namespace Moonlight
open Foundations

variable {Digest W : Type} [DecidableEq Digest] (H : Host Digest) (w₀ : World Digest W)
  (calls : List (Call W))

/-- What `utxo_balance` reports for `k` before call `i`, read at ledger `now`. -/
def balanceAt (k : BytesN 65) (now : U32) (i : ℕ) : ℤ :=
  (utxoBalance H now (stateAt (Call.exec H) w₀ calls i).channel.utxo k).1.toInt

def CreatesAt (k : BytesN 65) (i : ℕ) (a : ℤ) : Prop :=
  ∃ c w', CommitsAt (Call.exec H) w₀ calls i c w' ∧ ∃ x : I128, (k, x) ∈ c.op.create ∧ x.toInt = a

def SpendsAt (k : BytesN 65) (i : ℕ) : Prop :=
  ∃ c w', CommitsAt (Call.exec H) w₀ calls i c w' ∧ k ∈ c.op.spend.map Prod.fst

variable {H} {w₀} {calls}

section Digests

variable (hsep : H.SeparatesKeys) {spend : List (BytesN 65)} {create : List (BytesN 65 × I128)}
include hsep

omit [DecidableEq Digest] in
theorem mem_digestBundle_spend {k : BytesN 65} :
    Store.utxoKey H k ∈ (digestBundle H spend create).spend ↔ k ∈ spend := by
  refine List.mem_map.trans ⟨?_, fun hk => ⟨k, hk, rfl⟩⟩
  rintro ⟨j, hj, he⟩
  rwa [← hsep j k he]

omit [DecidableEq Digest] in
theorem mem_digestBundle_create {k : BytesN 65} {a : ℤ} :
    (Store.utxoKey H k, a) ∈ (digestBundle H spend create).create ↔
      ∃ x : I128, (k, x) ∈ create ∧ x.toInt = a := by
  refine List.mem_map.trans ⟨?_, ?_⟩
  · rintro ⟨⟨j, x⟩, hj, he⟩
    obtain ⟨hkey, hamount⟩ := Prod.mk.inj he
    rw [hsep j k hkey] at hj
    exact ⟨x, hj, hamount⟩
  · rintro ⟨x, hx, rfl⟩
    exact ⟨(k, x), hx, rfl⟩

end Digests

theorem commitsAt_unique {i : ℕ} {c c' : Call W} {w w' : World Digest W}
    (h : CommitsAt (Call.exec H) w₀ calls i c w) (h' : CommitsAt (Call.exec H) w₀ calls i c' w') :
    c = c' := Option.some.inj (h.1.symm.trans h'.1)

theorem keyStep_of_run (hsep : H.SeparatesKeys) (k : BytesN 65) (now : ℕ → U32) {i : ℕ}
    (hi : i < calls.length) :
    KeyStep (balanceAt H w₀ calls k (now i) i) (balanceAt H w₀ calls k (now (i + 1)) (i + 1))
      (CreatesAt H w₀ calls k i) (SpendsAt H w₀ calls k i) := by
  have hget : calls[i]? = some calls[i] := List.getElem?_eq_getElem hi
  simp only [balanceAt, utxoBalance_toInt]
  cases hexec : Call.exec H (stateAt (Call.exec H) w₀ calls i) calls[i] with
  | error e =>
    -- rolled back: this call created and spent nothing
    have hnone (c : Call W) (w' : World Digest W) : ¬ CommitsAt (Call.exec H) w₀ calls i c w' := by
      intro hc
      rw [← Option.some.inj (hget.symm.trans hc.1)] at hc
      exact absurd (hexec.symm.trans hc.2) (by simp)
    refine .untouched ?_ ?_ ?_
    · rw [stateAt_succ hget, step_of_error hexec]
    · rintro a ⟨c, w', hc, -⟩
      exact hnone c w' hc
    · rintro ⟨c, w', hc, -⟩
      exact hnone c w' hc
  | ok w' =>
    have hcommit : CommitsAt (Call.exec H) w₀ calls i calls[i] w' := ⟨hget, hexec⟩
    -- committed: what the bundle does to the digest of `k` it does to `k`
    have happ := (transact_ok hexec).bundle.applies.keyStep (Store.utxoKey H k)
    have hcreate : CreatesAt H w₀ calls k i = fun a => (Store.utxoKey H k, a) ∈
        (digestBundle H calls[i].op.internal.spend calls[i].op.internal.create).create := by
      funext a
      apply propext
      rw [mem_digestBundle_create hsep]
      constructor
      · rintro ⟨c, w'', hc, hx⟩
        rwa [commitsAt_unique hc hcommit] at hx
      · intro hx
        exact ⟨_, _, hcommit, hx⟩
    have hspend : SpendsAt H w₀ calls k i = (Store.utxoKey H k ∈
        (digestBundle H calls[i].op.internal.spend calls[i].op.internal.create).spend) := by
      apply propext
      rw [mem_digestBundle_spend hsep]
      constructor
      · rintro ⟨c, w'', hc, hx⟩
        rwa [commitsAt_unique hc hcommit] at hx
      · intro hx
        exact ⟨_, _, hcommit, hx⟩
    rw [hcreate, hspend, hcommit.stateAt_succ]
    exact happ

theorem lifecycle_of_run (hsep : H.SeparatesKeys) (h₀ : Deployed H w₀) (calls : List (Call W))
    (k : BytesN 65) (now : ℕ → U32) :
    Lifecycle (fun i => balanceAt H w₀ calls k (now i) i) (CreatesAt H w₀ calls k)
      (SpendsAt H w₀ calls k) calls.length := by
  apply lifecycle_of_steps
  · rw [balanceAt, utxoBalance_toInt, stateAt_zero, h₀.storage.1]
    rfl
  · intro i hi
    exact keyStep_of_run hsep k now hi

/-- A committed operation with a spend or a create never commits again. -/
theorem replay_fails (hsep : H.SeparatesKeys) (h₀ : Deployed H w₀) {i j : ℕ} {c : Call W}
    {w' : World Digest W} (h : CommitsAt (Call.exec H) w₀ calls i c w')
    (hne : c.op.spend ≠ [] ∨ c.op.create ≠ []) (hij : i < j) (hj : j ≤ calls.length)
    (inv : Invocation W) (w'' : World Digest W) :
    transact H inv (stateAt (Call.exec H) w₀ calls j) c.op ≠ .ok w'' := by
  intro hreplay
  -- the run cut at `j` and continued with the replay
  let calls' := calls.take j ++ [⟨inv, c.op⟩]
  have hlen : calls'.length = j + 1 := by simp [calls', hj]
  have hfirst : CommitsAt (Call.exec H) w₀ calls' i c w' := h.take_append hij _
  have hsecond : CommitsAt (Call.exec H) w₀ calls' j ⟨inv, c.op⟩ w'' := by
    refine ⟨by simp [calls', hj], ?_⟩
    rw [stateAt, List.take_append_of_le_length (by simp [hj]), List.take_take, min_self]
    exact hreplay
  have hlife (k : BytesN 65) := lifecycle_of_run hsep h₀ calls' k fun _ => 0
  have heq : i = j := by
    rcases hne with hspend | hcreate
    · obtain ⟨e, he⟩ := List.exists_mem_of_ne_nil _ hspend
      exact (hlife e.1).spend_once (by omega) (by omega)
        ⟨_, _, hfirst, List.mem_map_of_mem he⟩ ⟨_, _, hsecond, List.mem_map_of_mem he⟩
    · obtain ⟨e, he⟩ := List.exists_mem_of_ne_nil _ hcreate
      exact (hlife e.1).create_once (by omega) (by omega)
        ⟨_, _, hfirst, e.2, he, rfl⟩ ⟨_, _, hsecond, e.2, he, rfl⟩
  omega

/-- Over every run a key reports `-1`, then the amount of its only creation,
then `0` from its only spend on. No call both spends and creates it, it is
spent at most once, and no operation that spends or creates commits twice. -/
theorem utxo_lifecycle (hsep : H.SeparatesKeys) (w₀ : World Digest W) (h₀ : Deployed H w₀)
    (calls : List (Call W)) (k : BytesN 65) (now : ℕ → U32) :
    Lifecycle (fun i => balanceAt H w₀ calls k (now i) i) (CreatesAt H w₀ calls k)
        (SpendsAt H w₀ calls k) calls.length ∧
      (∀ i a, ¬ (SpendsAt H w₀ calls k i ∧ CreatesAt H w₀ calls k i a)) ∧
      (∀ i j, SpendsAt H w₀ calls k i → SpendsAt H w₀ calls k j → i = j) ∧
      ∀ i c w', CommitsAt (Call.exec H) w₀ calls i c w' → c.op.spend ≠ [] ∨ c.op.create ≠ [] →
        ∀ j, i < j → j ≤ calls.length → ∀ inv w'',
          transact H inv (stateAt (Call.exec H) w₀ calls j) c.op ≠ .ok w'' := by
  have hlife := lifecycle_of_run hsep h₀ calls k now
  have hlt {i : ℕ} (h : SpendsAt H w₀ calls k i) : i < calls.length := by
    obtain ⟨c, w', hc, -⟩ := h
    exact (List.getElem?_eq_some_iff.mp hc.1).1
  refine ⟨hlife, ?_, ?_, ?_⟩
  · rintro i a ⟨hs, hc⟩
    cases keyStep_of_run hsep k now (hlt hs) with
    | untouched _ _ hs' => exact hs' hs
    | create _ _ _ _ _ hs' => exact hs' hs
    | spend _ _ hc' _ => exact hc' a hc
  · intro i j hi hj
    exact hlife.spend_once (hlt hi) (hlt hj) hi hj
  · intro i c w' hc hne j hij hj inv w''
    exact replay_fails hsep h₀ hc hne hij hj inv w''

theorem utxo_lifecycle_sampleCalls :
    let H := sampleHost sampleSigned
    let w := sampleWorld H ()
    (fun i : Fin 3 => balanceAt H w sampleCalls (sampleKey 1) 100 i) = ![-1, 100, 0] ∧
      Lifecycle (fun i => balanceAt H w sampleCalls (sampleKey 1) 100 i)
        (CreatesAt H w sampleCalls (sampleKey 1)) (SpendsAt H w sampleCalls (sampleKey 1)) 2 :=
  ⟨by decide +kernel, (utxo_lifecycle (idealHost_separatesKeys _ _) _ (sampleWorld_deployed _ ())
    sampleCalls (sampleKey 1) fun _ => 100).1⟩

end Moonlight
