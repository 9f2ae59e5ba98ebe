import Moonlight.Primitives

namespace Moonlight
open Foundations

variable {Digest : Type}

/-- The host traps on a bad signature, so the wrapper has nothing to inspect. -/
def verifyP256Signature (H : Host Digest) (publicKey : BytesN 65) (signature : BytesN 64)
    (payloadHash : Digest) : Except Failure Unit :=
  ensure (H.secp256r1Verify publicKey payloadHash signature = true) .badSignature

def verifyEd25519Signature (H : Host Digest) (publicKey : BytesN 32) (signature : BytesN 64)
    (payloadHash : Digest) : Except Failure Unit :=
  ensure (H.ed25519Verify publicKey payloadHash signature = true) .badSignature

def verifySignature (H : Host Digest) (signer : SignerKey) (signature : Signature)
    (payloadHash : Digest) : Except Failure Unit :=
  match signer, signature with
  | .p256 pk, .p256 sig => verifyP256Signature H pk sig payloadHash
  | .provider pk, .ed25519 sig => verifyEd25519Signature H pk sig payloadHash
  | .ed25519 pk, .ed25519 sig => verifyEd25519Signature H pk sig payloadHash
  | _, _ => .error (.contract .invalidSignatureFormat)

structure ContractContext where
  contract : Address
  args : List Val

inductive Context
  | contract (cc : ContractContext)
  | createContractHostFn
  | createContractWithCtorHostFn

/-- `v_req.try_into_val(e)` at type `AuthRequirements`. -/
def Val.toRequirements? : Val → Option AuthRequirements
  | requirements r => some r
  | _ => none

/-- The inner loop body of `handle_utxo_auth`, for one signer of a context. -/
def checkSigner (H : Host Digest) (now : U32) (sigMap : Signatures) (callerContractBytes : Bytes)
    (inner : AuthRequirements) (signer : SignerKey) : Except Failure Unit := do
  let conds ← okOr (inner.lookup signer) .unwrapNone
  assertWithError (conds ≠ []) .noConditions
  match signer with
  | .p256 _ =>
    let entry ← okOr (sigMap.lookup signer) (.contract .missingSignature)
    assertWithError (¬ entry.2 < now) .signatureExpired
    verifySignature H signer entry.1 (hashPayload H ⟨conds, entry.2⟩ callerContractBytes)
  | _ => pure ()

/-- The outer loop body of `handle_utxo_auth`. A context without arguments
skips only itself. -/
def checkContext (H : Host Digest) (now : U32) (signatures : Signatures) :
    Context → Except Failure Unit
  | .contract cc =>
    match cc.args with
    | [] => pure ()
    | v :: _ => do
      let reqs ← okOr v.toRequirements? (.contract .badArg)
      (sortedKeys reqs).forM
        (checkSigner H now signatures (H.addressToString cc.contract) reqs)
  | _ => .error (.contract .unexpectedContext)

def handleUtxoAuth (H : Host Digest) (now : U32) (signatures : Signatures)
    (contexts : List Context) : Except Failure Unit :=
  contexts.forM (checkContext H now signatures)

/-- The events of Channel Auth, and those of Ownable as the host encodes them. -/
inductive AuthEvent
  | contractInitialized (admin : Address)
  | providerAdded (provider : Address)
  | providerRemoved (provider : Address)
  | channelStateChanged (channel asset : Address) (enabled : Bool)
  | upgraded (wasmHash : BytesN 32)
  | ownable (event : Bytes)
deriving DecidableEq

/-- Instance storage of Channel Auth: one `AuthorizedProvider` key per
provider, with the events published so far and the life of the instance. -/
structure ChannelAuth where
  providers : Finset Address
  events : List AuthEvent
  liveUntil : ℕ

namespace ChannelAuth

/-- `__constructor`. The owner it sets is Ownable's to keep. -/
def construct (H : Host Digest) (now : U32) (admin : Address) : ChannelAuth where
  providers := ∅
  events := [.contractInitialized admin]
  liveUntil := bumpInstanceTtl now (now.val + H.newPersistentLife)

def isProvider (st : ChannelAuth) (provider : Address) : Bool := provider ∈ st.providers

def registerProvider (st : ChannelAuth) (provider : Address) : Except Failure ChannelAuth := do
  assertWithError (¬ st.isProvider provider = true) .providerAlreadyRegistered
  pure { st with providers := insert provider st.providers }

def deregisterProvider (st : ChannelAuth) (provider : Address) : Except Failure ChannelAuth := do
  assertWithError (st.isProvider provider = true) .providerNotRegistered
  pure { st with providers := st.providers.erase provider }

/-- `add_provider`; `ownerAuth` is the verdict of `enforce_owner_auth`. -/
def addProvider (st : ChannelAuth) (ownerAuth : Bool) (provider : Address) :
    Except Failure ChannelAuth := do
  ensure (ownerAuth = true) .unauthorized
  let st ← st.registerProvider provider
  pure { st with events := st.events ++ [.providerAdded provider] }

def removeProvider (st : ChannelAuth) (ownerAuth : Bool) (provider : Address) :
    Except Failure ChannelAuth := do
  ensure (ownerAuth = true) .unauthorized
  let st ← st.deregisterProvider provider
  pure { st with events := st.events ++ [.providerRemoved provider] }

/-- `enable_channel` and `disable_channel` record a decision and store nothing. -/
def setChannelState (st : ChannelAuth) (ownerAuth : Bool) (channel asset : Address)
    (enabled : Bool) : Except Failure ChannelAuth := do
  ensure (ownerAuth = true) .unauthorized
  pure { st with events := st.events ++ [.channelStateChanged channel asset enabled] }

def enableChannel (st : ChannelAuth) (ownerAuth : Bool) (channel asset : Address) :
    Except Failure ChannelAuth := st.setChannelState ownerAuth channel asset true

def disableChannel (st : ChannelAuth) (ownerAuth : Bool) (channel asset : Address) :
    Except Failure ChannelAuth := st.setChannelState ownerAuth channel asset false

/-- `upgrade`; `update` is how `upgradeable::upgrade` ends. -/
def upgrade (st : ChannelAuth) (ownerAuth : Bool) (update : Except Failure Unit)
    (wasmHash : BytesN 32) : Except Failure ChannelAuth := do
  ensure (ownerAuth = true) .unauthorized
  let st := { st with events := st.events ++ [.upgraded wasmHash] }
  update
  pure st

end ChannelAuth

def providerThreshold : ℕ := 1

/-- The loop body of `require_provider`, counting `provider_quorum`. -/
def providerStep (H : Host Digest) (now : U32) (st : ChannelAuth) (payload : Digest)
    (sigMap : Signatures) (quorum : ℕ) (signer : SignerKey) : Except Failure ℕ :=
  match signer with
  | .provider pk32 => do
    assertWithError (st.isProvider (addressFromEd25519PkBytes pk32) = true) .providerNotRegistered
    let entry ← okOr (sigMap.lookup signer) (.contract .missingSignature)
    assertWithError (¬ entry.2 < now) .signatureExpired
    verifySignature H signer entry.1 payload
    pure (quorum + 1)
  | _ => pure quorum

def requireProvider (H : Host Digest) (now : U32) (st : ChannelAuth) (payload : Digest)
    (signatures : Signatures) : Except Failure Unit := do
  let quorum ← (sortedKeys signatures).foldlM (providerStep H now st payload signatures) 0
  assertWithError (¬ quorum < providerThreshold) .providerThresholdNotMet

/-- `__check_auth`. -/
def checkAuth (H : Host Digest) (now : U32) (st : ChannelAuth) (payload : Digest)
    (signatures : Signatures) (contexts : List Context) : Except Failure ChannelAuth := do
  let st := { st with liveUntil := bumpInstanceTtl now st.liveUntil }
  requireProvider H now st payload signatures
  handleUtxoAuth H now signatures contexts
  pure st

/-- The map holds, under `pk`, an unexpired P-256 signature over exactly
`conds` for this contract. -/
def P256Signed (H : Host Digest) (now : U32) (sigs : Signatures) (contract : Address)
    (pk : BytesN 65) (conds : List Condition) : Prop :=
  ∃ sig validUntil, sigs.lookup (.p256 pk) = some (.p256 sig, validUntil) ∧ now ≤ validUntil ∧
    H.secp256r1Verify pk
      (hashPayload H ⟨conds, validUntil⟩ (H.addressToString contract)) sig = true

/-- The map holds, under the provider key `pk`, an unexpired Ed25519 signature
over the host's payload, and `pk` is registered. -/
def ProviderSigned (H : Host Digest) (now : U32) (st : ChannelAuth) (payload : Digest)
    (sigs : Signatures) (pk : BytesN 32) : Prop :=
  ∃ sig validUntil, sigs.lookup (.provider pk) = some (.ed25519 sig, validUntil) ∧
    st.isProvider (addressFromEd25519PkBytes pk) = true ∧ now ≤ validUntil ∧
    H.ed25519Verify pk payload sig = true

def SignerKey.isProvider : SignerKey → Bool
  | provider _ => true
  | _ => false

variable {H : Host Digest} {now : U32} {st : ChannelAuth} {payload : Digest} {sigs : Signatures}

theorem verifySignature_p256 {pk : BytesN 65} {sig : Signature} {d : Digest} {u : Unit} :
    verifySignature H (.p256 pk) sig d = .ok u ↔
      ∃ s, sig = .p256 s ∧ H.secp256r1Verify pk d s = true := by
  cases sig <;> simp [verifySignature, verifyP256Signature]

theorem verifySignature_provider {pk : BytesN 32} {sig : Signature} {d : Digest} {u : Unit} :
    verifySignature H (.provider pk) sig d = .ok u ↔
      ∃ s, sig = .ed25519 s ∧ H.ed25519Verify pk d s = true := by
  cases sig <;> simp [verifySignature, verifyEd25519Signature]

/-- A requirement entry passes when it has conditions and, for a P-256 key, a
signature over them. Other signers only need conditions. -/
theorem checkSigner_ok {contract : Address} {inner : AuthRequirements} {signer : SignerKey} :
    checkSigner H now sigs (H.addressToString contract) inner signer = .ok () ↔
      ∃ conds, inner.lookup signer = some conds ∧ conds ≠ [] ∧
        ∀ pk, signer = .p256 pk → P256Signed H now sigs contract pk conds := by
  simp only [checkSigner, bind_eq_ok, okOr_eq_ok, assertWithError_eq_ok]
  constructor
  · rintro ⟨conds, hlook, -, hne, hmatch⟩
    refine ⟨conds, hlook, hne, ?_⟩
    rintro pk rfl
    simp only [bind_eq_ok, okOr_eq_ok, assertWithError_eq_ok, verifySignature_p256] at hmatch
    obtain ⟨⟨sig, v⟩, hsig, -, hv, s, rfl, hverify⟩ := hmatch
    exact ⟨s, v, hsig, not_lt.mp hv, hverify⟩
  · rintro ⟨conds, hlook, hne, hsigned⟩
    refine ⟨conds, hlook, (), hne, ?_⟩
    cases signer with
    | p256 pk =>
      obtain ⟨s, v, hsig, hv, hverify⟩ := hsigned pk rfl
      simp only [bind_eq_ok, okOr_eq_ok, assertWithError_eq_ok, verifySignature_p256]
      exact ⟨(.p256 s, v), hsig, (), not_lt.mpr hv, s, rfl, hverify⟩
    | ed25519 pk => rfl
    | provider pk => rfl

theorem checkContext_ok {cc : ContractContext} :
    checkContext H now sigs (.contract cc) = .ok () ↔
      ∀ v ∈ cc.args.head?, ∃ reqs, v.toRequirements? = some reqs ∧
        ∀ signer conds, reqs.lookup signer = some conds →
          conds ≠ [] ∧ ∀ pk, signer = .p256 pk → P256Signed H now sigs cc.contract pk conds := by
  cases hargs : cc.args with
  | nil => simp [checkContext, hargs, pure_eq_ok]
  | cons v vs =>
    simp only [checkContext, hargs, bind_eq_ok, okOr_eq_ok, forM_ok_iff, mem_sortedKeys,
      checkSigner_ok, List.head?_cons, Option.mem_some_iff, forall_eq']
    refine exists_congr fun reqs => and_congr_right fun _ => ?_
    constructor
    · intro h signer conds hlook
      obtain ⟨conds', hlook', hne, hsigned⟩ := h signer (Finmap.mem_of_lookup_eq_some hlook)
      obtain rfl : conds' = conds := by simpa [hlook] using hlook'.symm
      exact ⟨hne, hsigned⟩
    · intro h signer hmem
      obtain ⟨conds, hlook⟩ := Finmap.mem_iff.mp hmem
      exact ⟨conds, hlook, h signer conds hlook⟩

theorem providerStep_ok {q q' : ℕ} {signer : SignerKey} :
    providerStep H now st payload sigs q signer = .ok q' ↔
      (∀ pk, signer = .provider pk → ProviderSigned H now st payload sigs pk) ∧
        (if signer.isProvider then q + 1 else q) = q' := by
  cases signer with
  | p256 pk => simp [providerStep, pure_eq_ok, SignerKey.isProvider]
  | ed25519 pk => simp [providerStep, pure_eq_ok, SignerKey.isProvider]
  | provider pk =>
    simp only [providerStep, bind_eq_ok, okOr_eq_ok, assertWithError_eq_ok,
      verifySignature_provider, pure_eq_ok, SignerKey.provider.injEq, forall_eq',
      SignerKey.isProvider, ↓reduceIte]
    constructor
    · rintro ⟨-, hreg, ⟨sig, v⟩, hsig, -, hv, -, ⟨s, rfl, hverify⟩, rfl⟩
      exact ⟨⟨s, v, hsig, hreg, not_lt.mp hv, hverify⟩, rfl⟩
    · rintro ⟨⟨s, v, hsig, hreg, hv, hverify⟩, rfl⟩
      exact ⟨(), hreg, (.ed25519 s, v), hsig, (), not_lt.mpr hv, (), ⟨s, rfl, hverify⟩, rfl⟩

theorem providerLoop_ok {ks : List SignerKey} {q q' : ℕ} :
    ks.foldlM (providerStep H now st payload sigs) q = .ok q' ↔
      (∀ pk, .provider pk ∈ ks → ProviderSigned H now st payload sigs pk) ∧
        q + ks.countP SignerKey.isProvider = q' := by
  induction ks generalizing q with
  | nil => simp [pure_eq_ok]
  | cons k ks ih =>
    simp only [foldlM_cons_ok, providerStep_ok, ih, List.mem_cons, List.countP_cons]
    constructor
    · rintro ⟨m, ⟨hk, rfl⟩, hks, rfl⟩
      refine ⟨?_, by split_ifs <;> omega⟩
      rintro pk (he | hmem)
      · exact hk pk he.symm
      · exact hks pk hmem
    · rintro ⟨hall, rfl⟩
      exact ⟨_, ⟨fun pk he => hall pk (.inl he.symm), rfl⟩, fun pk hmem => hall pk (.inr hmem),
        by split_ifs <;> omega⟩

theorem requireProvider_ok {u : Unit} :
    requireProvider H now st payload sigs = .ok u ↔
      (∃ pk, .provider pk ∈ sigs) ∧
        ∀ pk, .provider pk ∈ sigs → ProviderSigned H now st payload sigs pk := by
  have hcount : ¬ (sortedKeys sigs).countP SignerKey.isProvider < providerThreshold ↔
      ∃ pk, .provider pk ∈ sigs := by
    rw [providerThreshold, Nat.lt_one_iff, List.countP_eq_zero]
    simp only [mem_sortedKeys, not_forall]
    constructor
    · rintro ⟨k, hk, hp⟩
      cases k <;> simp [SignerKey.isProvider] at hp
      exact ⟨_, hk⟩
    · rintro ⟨pk, hpk⟩
      exact ⟨_, hpk, by simp [SignerKey.isProvider]⟩
  simp only [requireProvider, bind_eq_ok, assertWithError_eq_ok, providerLoop_ok, mem_sortedKeys,
    zero_add]
  rw [← hcount]
  constructor
  · rintro ⟨quorum, ⟨hall, rfl⟩, hquorum⟩
    exact ⟨hquorum, hall⟩
  · rintro ⟨hquorum, hall⟩
    exact ⟨_, ⟨hall, rfl⟩, hquorum⟩

theorem checkAuth_ok {contexts : List Context} :
    (∃ st', checkAuth H now st payload sigs contexts = .ok st') ↔
      (∃ pk, .provider pk ∈ sigs) ∧
        (∀ pk, .provider pk ∈ sigs → ProviderSigned H now st payload sigs pk) ∧
        ∀ c ∈ contexts, checkContext H now sigs c = .ok () := by
  simp only [checkAuth, bind_eq_ok, pure_eq_ok, requireProvider_ok]
  constructor
  · rintro ⟨st', u, ⟨hex, hall⟩, u', hutxo, -⟩
    exact ⟨hex, hall, forM_ok_iff.mp hutxo⟩
  · rintro ⟨hex, hall, hctx⟩
    exact ⟨_, (), ⟨hex, hall⟩, (), forM_ok_iff.mpr hctx, rfl⟩

end Moonlight
