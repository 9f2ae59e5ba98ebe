import Moonlight.Host

namespace Moonlight

variable {Digest : Type}

/-- `Condition::conflicts_with`. Only conditions of one kind can conflict. -/
def Condition.conflictsWith : Condition → Condition → Bool
  | create utxo₁ amount₁, create utxo₂ amount₂ => utxo₁ = utxo₂ ∧ amount₁ ≠ amount₂
  | extDeposit addr₁ amount₁, extDeposit addr₂ amount₂ => addr₁ = addr₂ ∧ amount₁ ≠ amount₂
  | extWithdraw addr₁ amount₁, extWithdraw addr₂ amount₂ => addr₁ = addr₂ ∧ amount₁ ≠ amount₂
  | extIntegration adapter₁ utxos₁ amount₁, extIntegration adapter₂ utxos₂ amount₂ =>
    if adapter₁ ≠ adapter₂ then
      utxos₁.any fun utxo => utxo ∈ utxos₂
    else if amount₁ ≠ amount₂ then
      true
    else if utxos₁.length ≠ utxos₂.length then
      true
    else if utxos₁.any fun utxo => utxo ∉ utxos₂ then
      true
    else
      utxos₂.any fun utxo => utxo ∉ utxos₁
  | _, _ => false

structure AuthPayload where
  conditions : List Condition
  liveUntilLedger : U32
deriving DecidableEq

/-- The four buffers that `hash_payload` fills side by side. -/
structure PayloadBuffers where
  create : Bytes
  deposit : Bytes
  withdraw : Bytes
  integrate : Bytes

def PayloadBuffers.append (H : Host Digest) (b : PayloadBuffers) : Condition → PayloadBuffers
  | .create utxo amount => { b with create := b.create ++ (utxo.val ++ amount.toLeBytes) }
  | .extDeposit addr amount =>
    { b with deposit := b.deposit ++ (H.addressToString addr ++ amount.toLeBytes) }
  | .extWithdraw addr amount =>
    { b with withdraw := b.withdraw ++ (H.addressToString addr ++ amount.toLeBytes) }
  | .extIntegration adapter utxos amount =>
    { b with
      integrate := b.integrate ++
        (H.addressToString adapter ++ utxos.flatMap Subtype.val ++ amount.toLeBytes) }

/-- The byte string that `hash_payload` feeds to SHA-256. -/
def payloadBytes (H : Host Digest) (p : AuthPayload) (contract : Bytes) : Bytes :=
  let b := p.conditions.foldl (PayloadBuffers.append H) ⟨[], [], [], []⟩
  contract ++ b.create ++ b.deposit ++ b.withdraw ++ b.integrate ++
    U32.toLeBytes p.liveUntilLedger

def hashPayload (H : Host Digest) (p : AuthPayload) (contract : Bytes) : Digest :=
  H.sha256 (payloadBytes H p contract)

/-- The loop shared by `no_duplicate_keys` and `no_duplicate_addresses`. -/
def noDuplicates {K : Type*} [DecidableEq K] (seen : Finset K) : List K → Bool
  | [] => true
  | k :: ks => if k ∈ seen then false else noDuplicates (insert k seen) ks

def noDuplicateKeys {α : Type*} (l : List α) (keyFn : α → BytesN 65) : Bool :=
  noDuplicates ∅ (l.map keyFn)

def noDuplicateAddresses {α : Type*} (l : List α) (keyFn : α → Address) : Bool :=
  noDuplicates ∅ (l.map keyFn)

/-- The paired walk of `equal_condition_sequence`, on XDR bytes. -/
def equalXdr (H : Host Digest) : List Condition → List Condition → Bool
  | [], _ => true
  | _ :: _, [] => false
  | a :: as, b :: bs =>
    if H.conditionToXdr a ≠ H.conditionToXdr b then false else equalXdr H as bs

def equalConditionSequence (H : Host Digest) (a b : List Condition) : Bool :=
  if a.length ≠ b.length then false else equalXdr H a b

def conditionDoesNotConflictWithSet (condition : Condition) (set : List Condition) : Bool :=
  set.all fun cond => !cond.conflictsWith condition

def hasNoConflictingConditionsInSets (a b : List Condition) : Bool :=
  a.all fun cond => conditionDoesNotConflictWithSet cond b

theorem noDuplicates_iff {K : Type*} [DecidableEq K] (seen : Finset K) (l : List K) :
    noDuplicates seen l = true ↔ l.Nodup ∧ ∀ k ∈ l, k ∉ seen := by
  induction l generalizing seen with
  | nil => simp [noDuplicates]
  | cons k ks ih =>
    by_cases hk : k ∈ seen
    · simp [noDuplicates, hk]
    · simp only [noDuplicates, hk, ↓reduceIte, ih, List.nodup_cons, List.forall_mem_cons,
        Finset.mem_insert, not_or]
      constructor
      · rintro ⟨hnd, hseen⟩
        exact ⟨⟨fun hmem => (hseen k hmem).1 rfl, hnd⟩, not_false, fun x hx => (hseen x hx).2⟩
      · rintro ⟨⟨hmem, hnd⟩, -, hseen⟩
        exact ⟨hnd, fun x hx => ⟨fun he => hmem (he ▸ hx), hseen x hx⟩⟩

theorem noDuplicateKeys_iff {α : Type*} {l : List α} {keyFn : α → BytesN 65} :
    noDuplicateKeys l keyFn = true ↔ (l.map keyFn).Nodup := by
  simp [noDuplicateKeys, noDuplicates_iff]

theorem noDuplicateAddresses_iff {α : Type*} {l : List α} {keyFn : α → Address} :
    noDuplicateAddresses l keyFn = true ↔ (l.map keyFn).Nodup := by
  simp [noDuplicateAddresses, noDuplicates_iff]

theorem equalConditionSequence_iff {H : Host Digest} (hxdr : Function.Injective H.conditionToXdr)
    {a b : List Condition} : equalConditionSequence H a b = true ↔ a = b := by
  have hwalk (a b : List Condition) (hlen : a.length = b.length) :
      equalXdr H a b = true ↔ a = b := by
    induction a generalizing b with
    | nil => simp [equalXdr, List.length_eq_zero_iff.mp hlen.symm]
    | cons c cs ih =>
      cases b with
      | nil => simp at hlen
      | cons d ds =>
        simp only [equalXdr, ne_eq, ite_not, hxdr.eq_iff, List.cons.injEq]
        split_ifs with hcd
        · rw [ih ds (by simpa using hlen)]
          simp [hcd]
        · simp [hcd]
  unfold equalConditionSequence
  split_ifs with hlen
  · simp only [false_iff]
    intro he
    exact hlen (congrArg List.length he)
  · exact hwalk a b (not_not.mp hlen)

end Moonlight
