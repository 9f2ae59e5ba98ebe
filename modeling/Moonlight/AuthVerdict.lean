import Moonlight.OwnerAuth

namespace Moonlight
open Foundations

variable {Digest : Type} {H : Host Digest} {now : U32} {st : ChannelAuth} {payload : Digest}
  {sigs : Signatures} {contexts : List Context}

/-- What `handle_utxo_auth` asks of one context: a contract call, and if it has
arguments, requirements that are all met. -/
def ContextSatisfied (H : Host Digest) (now : U32) (sigs : Signatures) (c : Context) : Prop :=
  ∃ cc, c = .contract cc ∧ ∀ v rest, cc.args = v :: rest → ∃ reqs, v.toRequirements? = some reqs ∧
    ∀ signer conds, reqs.lookup signer = some conds →
      conds ≠ [] ∧ ∀ pk, signer = .p256 pk → P256Signed H now sigs cc.contract pk conds

/-- Some context requires a P-256 signature of `pk`. -/
def RequiresKey (contexts : List Context) (pk : BytesN 65) : Prop :=
  ∃ cc v rest reqs, .contract cc ∈ contexts ∧ cc.args = v :: rest ∧ v.toRequirements? = some reqs ∧
    .p256 pk ∈ reqs

theorem checkContext_satisfied {c : Context} :
    checkContext H now sigs c = .ok () ↔ ContextSatisfied H now sigs c := by
  cases c with
  | contract cc =>
    rw [checkContext_ok]
    constructor
    · intro h
      refine ⟨cc, rfl, ?_⟩
      intro v rest hargs
      exact h v (by rw [hargs]; rfl)
    · rintro ⟨_, he, h⟩ v hv
      obtain rfl := Context.contract.inj he
      obtain ⟨rest, hargs⟩ := List.head?_eq_some_iff.mp hv
      exact h v rest hargs
  | createContractHostFn => simp [checkContext, ContextSatisfied]
  | createContractWithCtorHostFn => simp [checkContext, ContextSatisfied]

theorem checkAuth_exists_iff :
    (∃ st', checkAuth H now st payload sigs contexts = .ok st') ↔
      (∃ pk, .provider pk ∈ sigs) ∧
        (∀ pk, .provider pk ∈ sigs → ProviderSigned H now st payload sigs pk) ∧
        ∀ c ∈ contexts, ContextSatisfied H now sigs c := by
  rw [checkAuth_ok]
  simp only [checkContext_satisfied]

section Entries

variable {sigs' : Signatures}

theorem P256Signed.congr {contract : Address} {pk : BytesN 65} {conds : List Condition}
    (he : sigs'.lookup (.p256 pk) = sigs.lookup (.p256 pk)) :
    P256Signed H now sigs' contract pk conds ↔ P256Signed H now sigs contract pk conds := by
  rw [P256Signed, he, P256Signed]

theorem ProviderSigned.congr {pk : BytesN 32}
    (he : sigs'.lookup (.provider pk) = sigs.lookup (.provider pk)) :
    ProviderSigned H now st payload sigs' pk ↔ ProviderSigned H now st payload sigs pk := by
  rw [ProviderSigned, he, ProviderSigned]

theorem ContextSatisfied.of_entries {c : Context} (hc : c ∈ contexts)
    (he : ∀ pk, RequiresKey contexts pk → sigs'.lookup (.p256 pk) = sigs.lookup (.p256 pk))
    (h : ContextSatisfied H now sigs c) : ContextSatisfied H now sigs' c := by
  obtain ⟨cc, rfl, hcc⟩ := h
  refine ⟨cc, rfl, ?_⟩
  intro v rest hargs
  obtain ⟨reqs, hreqs, hall⟩ := hcc v rest hargs
  refine ⟨reqs, hreqs, ?_⟩
  intro signer conds hlook
  obtain ⟨hne, hsigned⟩ := hall signer conds hlook
  refine ⟨hne, ?_⟩
  rintro pk rfl
  rw [P256Signed.congr]
  · exact hsigned pk rfl
  · exact he pk ⟨cc, v, rest, reqs, hc, hargs, hreqs, Finmap.mem_of_lookup_eq_some hlook⟩

theorem checkAuth_of_entries
    (hprovider : ∀ pk, sigs'.lookup (.provider pk) = sigs.lookup (.provider pk))
    (he : ∀ pk, RequiresKey contexts pk → sigs'.lookup (.p256 pk) = sigs.lookup (.p256 pk))
    (h : ∃ st', checkAuth H now st payload sigs contexts = .ok st') :
    ∃ st', checkAuth H now st payload sigs' contexts = .ok st' := by
  -- equal entries are also present or missing together
  have hmem (pk : BytesN 32) : SignerKey.provider pk ∈ sigs' ↔ SignerKey.provider pk ∈ sigs := by
    rw [Finmap.mem_iff, Finmap.mem_iff, hprovider]
  rw [checkAuth_exists_iff] at h ⊢
  obtain ⟨⟨pk, hpk⟩, hall, hctx⟩ := h
  refine ⟨⟨pk, (hmem pk).mpr hpk⟩, ?_, ?_⟩
  · intro pk hpk
    rw [ProviderSigned.congr (hprovider pk)]
    exact hall pk ((hmem pk).mp hpk)
  · intro c hc
    exact (hctx c hc).of_entries hc he

end Entries

/-- Exact acceptance of `__check_auth`, and what its verdict does not depend
on: the order of the contexts, the order in which the maps are iterated, and
the entries that no check looks at. -/
theorem checkAuth_exact (H : Host Digest) (now : U32) (st : ChannelAuth) (payload : Digest)
    (sigs : Signatures) (contexts : List Context) :
    ((∃ st', checkAuth H now st payload sigs contexts = .ok st') ↔
      (∃ pk, .provider pk ∈ sigs) ∧
        (∀ pk, .provider pk ∈ sigs → ProviderSigned H now st payload sigs pk) ∧
        ∀ c ∈ contexts, ContextSatisfied H now sigs c) ∧
    (∀ contexts', contexts'.Perm contexts →
      ((∃ st', checkAuth H now st payload sigs contexts' = .ok st') ↔
        ∃ st', checkAuth H now st payload sigs contexts = .ok st')) ∧
    (∀ ks : List SignerKey, ks.Perm (sortedKeys sigs) →
      ((∃ quorum, ks.foldlM (providerStep H now st payload sigs) 0 = .ok quorum ∧
          ¬ quorum < providerThreshold) ↔ requireProvider H now st payload sigs = .ok ())) ∧
    (∀ (reqs : AuthRequirements) (ks : List SignerKey) contract, ks.Perm (sortedKeys reqs) →
      (ks.forM (checkSigner H now sigs contract reqs) = .ok () ↔
        (sortedKeys reqs).forM (checkSigner H now sigs contract reqs) = .ok ())) ∧
    ∀ sigs' : Signatures,
      (∀ pk, sigs'.lookup (.provider pk) = sigs.lookup (.provider pk)) →
      (∀ pk, RequiresKey contexts pk → sigs'.lookup (.p256 pk) = sigs.lookup (.p256 pk)) →
      ((∃ st', checkAuth H now st payload sigs' contexts = .ok st') ↔
        ∃ st', checkAuth H now st payload sigs contexts = .ok st') := by
  refine ⟨checkAuth_exists_iff, ?_, ?_, ?_, ?_⟩
  · intro contexts' hperm
    rw [checkAuth_exists_iff, checkAuth_exists_iff]
    simp only [hperm.mem_iff]
  · intro ks hperm
    simp only [requireProvider, bind_eq_ok, assertWithError_eq_ok, providerLoop_ok, hperm.mem_iff,
      hperm.countP_eq]
  · intro reqs ks contract hperm
    rw [forM_ok_iff, forM_ok_iff]
    simp only [hperm.mem_iff]
  · intro sigs' hprovider he
    constructor
    · exact checkAuth_of_entries (fun pk => (hprovider pk).symm) fun pk hpk => (he pk hpk).symm
    · exact checkAuth_of_entries hprovider he

/-- In a check of `contexts`, the bytes `sig`, valid until `validUntil`, are what
the map holds for the key `pk` that a context of `contract` requires. -/
def SatisfiedBy (sigs : Signatures) (contexts : List Context) (pk : BytesN 65) (sig : BytesN 64)
    (contract : Address) (validUntil : U32) : Prop :=
  sigs.lookup (.p256 pk) = some (.p256 sig, validUntil) ∧
    ∃ cc v rest reqs, .contract cc ∈ contexts ∧ cc.contract = contract ∧ cc.args = v :: rest ∧
      v.toRequirements? = some reqs ∧ .p256 pk ∈ reqs

theorem SatisfiedBy.verified {pk : BytesN 65} {sig : BytesN 64} {contract : Address}
    {validUntil : U32} (hs : SatisfiedBy sigs contexts pk sig contract validUntil)
    (h : handleUtxoAuth H now sigs contexts = .ok ()) : ∃ conds, H.secp256r1Verify pk
      (hashPayload H ⟨conds, validUntil⟩ (H.addressToString contract)) sig = true := by
  obtain ⟨hlook, cc, v, rest, reqs, hcc, rfl, hargs, hreqs, hmem⟩ := hs
  obtain ⟨_, he, hsat⟩ := checkContext_satisfied.mp (forM_ok_iff.mp h _ hcc)
  obtain rfl := Context.contract.inj he
  obtain ⟨reqs', hreqs', hall⟩ := hsat v rest hargs
  obtain rfl := Option.some.inj (hreqs.symm.trans hreqs')
  obtain ⟨conds, hconds⟩ := Finmap.mem_iff.mp hmem
  obtain ⟨sig', v', hlook', -, hverify⟩ := (hall _ conds hconds).2 pk rfl
  obtain ⟨hsig, hv⟩ := Prod.mk.inj (Option.some.inj (hlook.symm.trans hlook'))
  obtain rfl := Signature.p256.inj hsig
  subst hv
  exact ⟨conds, hverify⟩

/-- Two accepted checks in which the same bytes satisfy the same key are for one
contract and one expiry, whatever conditions they were presented with. -/
theorem signature_tied_to_channel_and_expiry (hH : H.RendersAddresses) (hsha : H.SeparatesPayloads)
    (honce : ∀ pk sig d d', H.secp256r1Verify pk d sig = true → H.secp256r1Verify pk d' sig = true →
      d = d')
    {now₁ now₂ : U32} {sigs₁ sigs₂ : Signatures} {contexts₁ contexts₂ : List Context}
    (h₁ : handleUtxoAuth H now₁ sigs₁ contexts₁ = .ok ())
    (h₂ : handleUtxoAuth H now₂ sigs₂ contexts₂ = .ok ())
    {pk : BytesN 65} {sig : BytesN 64} {c₁ c₂ : Address} {v₁ v₂ : U32}
    (hs₁ : SatisfiedBy sigs₁ contexts₁ pk sig c₁ v₁)
    (hs₂ : SatisfiedBy sigs₂ contexts₂ pk sig c₂ v₂) : c₁ = c₂ ∧ v₁ = v₂ := by
  obtain ⟨conds₁, hverify₁⟩ := hs₁.verified h₁
  obtain ⟨conds₂, hverify₂⟩ := hs₂.verified h₂
  -- one signature, so one digest, so one string: its two ends are what is tied
  have hdigest := honce pk sig _ _ hverify₁ hverify₂
  obtain ⟨hc, -, hv⟩ := payloadBytes_ends hH (hsha _ _ _ _ hdigest)
  exact ⟨hc, hv⟩

def sampleContexts : List Context :=
  [.contract ⟨sampleContract 1, authArgs (calculateAuthRequirements sampleSigned)⟩]

theorem signature_tied_sampleContexts :
    let H := sampleHost sampleSigned
    handleUtxoAuth H 100 (sampleSignatures sampleSigned) sampleContexts = .ok () ∧
      handleUtxoAuth H 150 (sampleSignatures sampleSigned) sampleContexts = .ok () ∧
      ∀ c v, SatisfiedBy (sampleSignatures sampleSigned) sampleContexts (sampleKey 1)
        sampleSignature c v → c = sampleContract 1 ∧ v = 200 := by
  intro H
  have h₁ : handleUtxoAuth H 100 (sampleSignatures sampleSigned) sampleContexts = .ok () := by
    decide +kernel
  have h₂ : handleUtxoAuth H 150 (sampleSignatures sampleSigned) sampleContexts = .ok () := by
    decide +kernel
  have honce : ∀ pk sig d d', H.secp256r1Verify pk d sig = true →
      H.secp256r1Verify pk d' sig = true → d = d' := by
    intro pk sig d d' hd hd'
    have hmem := List.mem_singleton.mp (of_decide_eq_true hd)
    have hmem' := List.mem_singleton.mp (of_decide_eq_true hd')
    exact (Prod.mk.inj hmem).2.trans (Prod.mk.inj hmem').2.symm
  have hsat : SatisfiedBy (sampleSignatures sampleSigned) sampleContexts (sampleKey 1)
      sampleSignature (sampleContract 1) 200 := by
    refine ⟨by decide +kernel, ⟨sampleContract 1, _⟩, _, _, _, List.mem_cons_self, rfl, rfl, rfl,
      ?_⟩
    decide +kernel
  refine ⟨h₁, h₂, ?_⟩
  intro c v hs
  exact signature_tied_to_channel_and_expiry (idealHost_rendersAddresses _ _)
    (sampleHost_separatesPayloads sampleSigned) honce h₁ h₂ hs hsat

end Moonlight
