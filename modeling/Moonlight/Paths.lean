import Moonlight.Journal
import Moonlight.UtxoSpec

namespace Moonlight
open Foundations

variable {Digest : Type} [DecidableEq Digest]

/-- The two loops of `process_bundle`: the state and the running balance they
end with. -/
def bundleLoops (H : Host Digest) (F : Features) (now : U32) (s : UtxoState Digest)
    (bundle : InternalBundle) (incomingAmount : I128) :
    Except Failure (UtxoState Digest × I128) := do
  let spent ← bundle.spend.foldlM (spendStep H F now) (s, incomingAmount)
  bundle.create.foldlM (createStep H F now) spent

def singleSpend (H : Host Digest) (F : Features) (now : U32)
    (acc : UtxoState Digest × List I128) (utxo : BytesN 65) :
    Except Failure (UtxoState Digest × List I128) := do
  let spent ← acc.1.spend H F now utxo
  pure (spent.2, acc.2 ++ [spent.1])

/-- `spend` on each key in order and then `create` on each entry in order: the
final state and the amounts that `spend` returned. -/
def singlePath (H : Host Digest) (F : Features) (now : U32) (s : UtxoState Digest)
    (bundle : InternalBundle) : Except Failure (UtxoState Digest × List I128) := do
  let spent ← bundle.spend.foldlM (singleSpend H F now) (s, [])
  let s ← bundle.create.foldlM (fun s entry => s.create H F now entry.2 entry.1) spent.1
  pure (s, spent.2)

variable {H : Host Digest} {F : Features} {now : U32} {s : UtxoState Digest} {b : InternalBundle}
  {incoming outgoing : I128}

def SpendsAgree (incoming : I128) (acc : UtxoState Digest × I128)
    (single : UtxoState Digest × List I128) : Prop :=
  acc.1 = single.1 ∧ acc.2.toInt = incoming.toInt + (single.2.map I128.toInt).sum

theorem spendStep_agrees (acc : UtxoState Digest × I128) (single : UtxoState Digest × List I128)
    (u : BytesN 65) (h : SpendsAgree incoming acc single) :
    AgreeUnless .overflow (SpendsAgree incoming) (spendStep H F now acc u)
      (singleSpend H F now single u) := by
  rw [spendStep_eq, singleSpend, h.1]
  apply (AgreeUnless.refl .overflow (single.1.spend H F now u)).bind
  intro spent _ he
  subst he
  cases ht : acc.2.add spent.1 with
  | error f =>
    rw [← (I128.add_eq_error.mp ht).2]
    exact .stopped _
  | ok total =>
    refine .done ⟨rfl, ?_⟩
    rw [I128.add_eq_ok.mp ht, h.2, List.map_append, List.sum_append]
    simp [add_assoc]

theorem createStep_agrees (acc : UtxoState Digest × I128) (s : UtxoState Digest)
    (entry : BytesN 65 × I128) (h : acc.1 = s) :
    AgreeUnless .overflow (fun (acc : UtxoState Digest × I128) s => acc.1 = s)
      (createStep H F now acc entry) (s.create H F now entry.2 entry.1) := by
  rw [createStep_eq, h]
  cases s.create H F now entry.2 entry.1 with
  | error f => exact .failed f
  | ok created =>
    cases ht : acc.2.sub entry.2 with
    | ok total => exact .done rfl
    | error f =>
      rw [← (I128.sub_eq_error.mp ht).2]
      exact .stopped _

/-- The two paths end in the same state or with the same failure, and then the
balance is what went in less what went out. -/
theorem bundleLoops_agree :
    AgreeUnless .overflow
      (fun (acc : UtxoState Digest × I128) (single : UtxoState Digest × List I128) =>
        acc.1 = single.1 ∧ acc.2.toInt = incoming.toInt + (single.2.map I128.toInt).sum -
          (b.create.map fun p => p.2.toInt).sum)
      (bundleLoops H F now s b incoming) (singlePath H F now s b) := by
  have hspend : AgreeUnless .overflow (SpendsAgree incoming)
      (b.spend.foldlM (spendStep H F now) (s, incoming))
      (b.spend.foldlM (singleSpend H F now) (s, [])) :=
    AgreeUnless.foldlM spendStep_agrees ⟨rfl, by simp⟩
  apply hspend.bind
  intro acc single h
  have hcreate : AgreeUnless .overflow (fun (acc : UtxoState Digest × I128) s => acc.1 = s)
      (b.create.foldlM (createStep H F now) acc)
      (b.create.foldlM (fun s entry => s.create H F now entry.2 entry.1) single.1) :=
    AgreeUnless.foldlM createStep_agrees h.1
  apply hcreate.map_right
  intro acc' s' hloop hs
  -- the creates take their sum off the balance that the spends have left
  have hsum : acc'.2.toInt = acc.2.toInt - (b.create.map fun p => p.2.toInt).sum :=
    (createLoop_ok hloop).2.1
  exact ⟨hs, by rw [hsum, h.2]⟩

variable {requireAuth : RequireAuth}

theorem processBundle_eq (hspend : b.spend.Nodup) (hcreate : (b.create.map Prod.fst).Nodup)
    {auth : Address} (hauth : s.auth = some auth)
    (hgranted : requireAuth auth (authArgs b.req) = true) :
    processBundle H F now requireAuth s b incoming outgoing = (do
      let created ← bundleLoops H F now s b incoming
      assertWithError (created.2 = outgoing) .unbalancedBundle
      pure (created.2, created.1.publishBundle F b incoming outgoing)) := by
  have hs : assertWithError (noDuplicateKeys b.spend id = true) .repeatedSpendUtxo = .ok () :=
    assertWithError_eq_ok.mpr (noDuplicateKeys_iff.mpr (by simpa using hspend))
  have hc : assertWithError (noDuplicateKeys b.create Prod.fst = true) .repeatedCreateUtxo =
      .ok () := assertWithError_eq_ok.mpr (noDuplicateKeys_iff.mpr hcreate)
  have ha : ensure (requireAuth auth (authArgs b.req) = true) .unauthorized = .ok () :=
    ensure_eq_ok.mpr hgranted
  rw [processBundle, bind_of_ok hs, bind_of_ok hc, bind_of_ok (okOr_eq_ok.mpr hauth),
    bind_of_ok ha, bundleLoops, bind_assoc]

/-- The two paths agree: the loops of `process_bundle` end like the operations
called one by one, and the call succeeds when these complete and balance. -/
theorem bundle_path_agrees (hspend : b.spend.Nodup) (hcreate : (b.create.map Prod.fst).Nodup)
    {auth : Address} (hauth : s.auth = some auth)
    (hgranted : requireAuth auth (authArgs b.req) = true)
    (hrange : bundleLoops H F now s b incoming ≠ .error .overflow) (outgoing : I128) :
    (bundleLoops H F now s b incoming).map Prod.fst = (singlePath H F now s b).map Prod.fst ∧
      ∀ r s', processBundle H F now requireAuth s b incoming outgoing = .ok (r, s') ↔
        ∃ s₁ amounts, singlePath H F now s b = .ok (s₁, amounts) ∧
          incoming.toInt + (amounts.map I128.toInt).sum - (b.create.map fun p => p.2.toInt).sum =
            outgoing.toInt ∧
          r = outgoing ∧ s' = s₁.publishBundle F b incoming outgoing := by
  have hagree : AgreeUnless .overflow _ (bundleLoops H F now s b incoming)
    (singlePath H F now s b) := bundleLoops_agree
  rw [processBundle_eq hspend hcreate hauth hgranted]
  generalize bundleLoops H F now s b incoming = loops at hagree hrange
  generalize singlePath H F now s b = single at hagree
  cases hagree with
  | stopped => exact absurd rfl hrange
  | failed e =>
    refine ⟨rfl, fun r s' => ?_⟩
    constructor
    · intro h
      cases h
    · rintro ⟨s₁, amounts, h, -⟩
      cases h
  | @done acc single h =>
    refine ⟨congrArg Except.ok h.1, fun r s' => ?_⟩
    obtain ⟨hstate, hbalance⟩ := h
    rw [bind_of_ok rfl]
    simp only [bind_eq_ok, assertWithError_eq_ok, pure_eq_ok, Prod.mk.injEq, Except.ok.injEq]
    constructor
    · rintro ⟨-, hout, rfl, rfl⟩
      exact ⟨single.1, single.2, rfl, by rw [← hbalance, hout], hout, by rw [hstate]⟩
    · rintro ⟨s₁, amounts, rfl, heq, rfl, rfl⟩
      have hout : acc.2 = r := I128.toInt_injective (hbalance.trans heq)
      exact ⟨(), hout, hout, by rw [hstate]⟩

def sampleBundle : InternalBundle := ⟨[sampleKey 1], [(sampleKey 2, .ofByte 60)], ∅⟩

theorem bundle_path_sampleBundle :
    let H := sampleHost sampleSigned
    let s := sampleFunded.channel.utxo
    ∃ s₁ amounts, singlePath H eventsOn 100 s sampleBundle = .ok (s₁, amounts) ∧
      (I128.ofByte 0).toInt + (amounts.map I128.toInt).sum - 60 = 40 ∧
      processBundle H eventsOn 100 (fun _ _ => true) s sampleBundle (.ofByte 0) (.ofByte 40) =
        .ok (.ofByte 40, s₁.publishBundle eventsOn sampleBundle (.ofByte 0) (.ofByte 40)) := by
  intro H s
  obtain ⟨acc, hloops⟩ := exists_ok
    (x := bundleLoops H eventsOn 100 s sampleBundle (.ofByte 0)) (by decide +kernel)
  obtain ⟨⟨r, s'⟩, h⟩ := exists_ok (x := processBundle H eventsOn 100 (fun _ _ => true) s
    sampleBundle (.ofByte 0) (.ofByte 40)) (by decide +kernel)
  have hrange : bundleLoops H eventsOn 100 s sampleBundle (.ofByte 0) ≠ .error .overflow := by
    rw [hloops]
    exact nofun
  have hauth : s.auth = some (sampleContract 2) := by decide +kernel
  obtain ⟨s₁, amounts, hsingle, hbalance, rfl, rfl⟩ :=
    ((bundle_path_agrees (by decide) (by decide) hauth rfl hrange (.ofByte 40)).2 r s').mp h
  exact ⟨s₁, amounts, hsingle, hbalance, h⟩

end Moonlight
