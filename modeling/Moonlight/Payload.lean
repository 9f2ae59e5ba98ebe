import Moonlight.Stellar

namespace Moonlight
open Foundations

variable {Digest : Type}

namespace Condition

def asCreate : Condition → Option (BytesN 65 × I128)
  | create utxo amount => some (utxo, amount)
  | _ => none

def asDeposit : Condition → Option (Address × I128)
  | extDeposit addr amount => some (addr, amount)
  | _ => none

def asWithdraw : Condition → Option (Address × I128)
  | extWithdraw addr amount => some (addr, amount)
  | _ => none

def asIntegration : Condition → Option (Address × List (BytesN 65) × I128)
  | extIntegration adapter utxos amount => some (adapter, utxos, amount)
  | _ => none

end Condition

structure Sequences where
  creates : List (BytesN 65 × I128)
  deposits : List (Address × I128)
  withdraws : List (Address × I128)
  integrations : List (Address × List (BytesN 65) × I128)
deriving DecidableEq

def sequences (cs : List Condition) : Sequences :=
  ⟨cs.filterMap Condition.asCreate, cs.filterMap Condition.asDeposit,
    cs.filterMap Condition.asWithdraw, cs.filterMap Condition.asIntegration⟩

/-- How many conditions of each kind there are, and how many keys each
integration names. -/
structure PayloadShape where
  creates : ℕ
  deposits : ℕ
  withdraws : ℕ
  integrationKeys : List ℕ
deriving DecidableEq

def payloadShape (cs : List Condition) : PayloadShape :=
  ⟨cs.countP fun c => c.asCreate.isSome, cs.countP fun c => c.asDeposit.isSome,
    cs.countP fun c => c.asWithdraw.isSome,
    cs.filterMap fun c => c.asIntegration.map fun r => r.2.1.length⟩

def createRecord (r : BytesN 65 × I128) : Bytes := r.1.val ++ r.2.toLeBytes

def externalRecord (H : Host Digest) (r : Address × I128) : Bytes :=
  H.addressToString r.1 ++ r.2.toLeBytes

def integrationRecord (H : Host Digest) (r : Address × List (BytesN 65) × I128) : Bytes :=
  H.addressToString r.1 ++ r.2.1.flatMap Subtype.val ++ r.2.2.toLeBytes

variable {H : Host Digest}

theorem foldl_append (cs : List Condition) (b : PayloadBuffers) :
    cs.foldl (PayloadBuffers.append H) b =
      ⟨b.create ++ (sequences cs).creates.flatMap createRecord,
        b.deposit ++ (sequences cs).deposits.flatMap (externalRecord H),
        b.withdraw ++ (sequences cs).withdraws.flatMap (externalRecord H),
        b.integrate ++ (sequences cs).integrations.flatMap (integrationRecord H)⟩ := by
  induction cs generalizing b with
  | nil => simp [sequences]
  | cons c cs ih =>
    rw [List.foldl_cons, ih]
    cases c <;>
      simp [sequences, List.filterMap_cons, PayloadBuffers.append, Condition.asCreate,
        Condition.asDeposit, Condition.asWithdraw, Condition.asIntegration, createRecord,
        externalRecord, integrationRecord]

/-- The records between the contract and the expiry. -/
def payloadBody (H : Host Digest) (cs : List Condition) : Bytes :=
  (sequences cs).creates.flatMap createRecord ++
    ((sequences cs).deposits.flatMap (externalRecord H) ++
      ((sequences cs).withdraws.flatMap (externalRecord H) ++
        (sequences cs).integrations.flatMap (integrationRecord H)))

theorem payloadBytes_eq (p : AuthPayload) (contract : Bytes) :
    payloadBytes H p contract =
      contract ++ (payloadBody H p.conditions ++ U32.toLeBytes p.liveUntilLedger) := by
  simp [payloadBytes, payloadBody, foldl_append]

theorem createRecord_length (r : BytesN 65 × I128) : (createRecord r).length = 81 := by
  simp [createRecord, r.1.property]

theorem createRecord_injective : Function.Injective createRecord := by
  intro r s h
  obtain ⟨hkey, hamount⟩ := List.append_inj h (r.1.property.trans s.1.property.symm)
  exact Prod.ext (Subtype.ext hkey) (I128.toLeBytes_injective hamount)

section Rendered

variable (hH : H.RendersAddresses)
include hH

theorem externalRecord_length (r : Address × I128) : (externalRecord H r).length = 72 := by
  simp [externalRecord, hH.length]

theorem externalRecord_injective : Function.Injective (externalRecord H) := by
  intro r s h
  obtain ⟨haddr, hamount⟩ := List.append_inj h ((hH.length r.1).trans (hH.length s.1).symm)
  exact Prod.ext (hH.injective haddr) (I128.toLeBytes_injective hamount)

theorem integrationRecord_length (r : Address × List (BytesN 65) × I128) :
    (integrationRecord H r).length = 72 + 65 * r.2.1.length := by
  have hkeys : (r.2.1.flatMap Subtype.val).length = 65 * r.2.1.length := by
    rw [List.length_flatMap, List.map_congr_left fun k _ => k.property]
    simp [mul_comm]
  simp only [integrationRecord, List.length_append, hH.length, hkeys, I128.toLeBytes_length]
  omega

/-- An integration record is only readable once the number of its keys is
known. -/
theorem integrationRecord_inj {r s : Address × List (BytesN 65) × I128}
    (hlen : r.2.1.length = s.2.1.length) (h : integrationRecord H r = integrationRecord H s) :
    r = s := by
  simp only [integrationRecord, List.append_assoc] at h
  obtain ⟨haddr, hrest⟩ := List.append_inj h ((hH.length r.1).trans (hH.length s.1).symm)
  obtain ⟨hkeys, hamount⟩ :=
    fixed_records_append_inj (f := Subtype.val) (fun k => k.property) Subtype.val_injective hlen
      hrest
  exact Prod.ext (hH.injective haddr) (Prod.ext hkeys (I128.toLeBytes_injective hamount))

end Rendered

theorem payloadShape_eq (cs : List Condition) :
    payloadShape cs = ⟨(sequences cs).creates.length, (sequences cs).deposits.length,
      (sequences cs).withdraws.length, (sequences cs).integrations.map fun r => r.2.1.length⟩ := by
  simp [payloadShape, sequences, List.countP_eq_length_filter, List.length_filterMap_eq_countP,
    List.map_filterMap]

/-- The two ends of a payload have fixed widths, so the contract and the expiry
can be read off whatever stands between them. -/
theorem payloadBytes_ends (hH : H.RendersAddresses) {p q : AuthPayload} {a b : Address}
    (h : payloadBytes H p (H.addressToString a) = payloadBytes H q (H.addressToString b)) :
    a = b ∧ payloadBody H p.conditions = payloadBody H q.conditions ∧
      p.liveUntilLedger = q.liveUntilLedger := by
  rw [payloadBytes_eq, payloadBytes_eq] at h
  obtain ⟨haddr, hrest⟩ := List.append_inj h ((hH.length a).trans (hH.length b).symm)
  obtain ⟨hbody, hlive⟩ := List.append_inj' hrest (by simp)
  exact ⟨hH.injective haddr, hbody, U32.toLeBytes_injective hlive⟩

theorem payloadBody_inj (hH : H.RendersAddresses) {cs ds : List Condition}
    (hc : (sequences cs).creates.length = (sequences ds).creates.length)
    (hd : (sequences cs).deposits.length = (sequences ds).deposits.length)
    (hw : (sequences cs).withdraws.length = (sequences ds).withdraws.length)
    (h : payloadBody H cs = payloadBody H ds) :
    (sequences cs).creates = (sequences ds).creates ∧
      (sequences cs).deposits = (sequences ds).deposits ∧
      (sequences cs).withdraws = (sequences ds).withdraws ∧
      (sequences cs).integrations.flatMap (integrationRecord H) =
        (sequences ds).integrations.flatMap (integrationRecord H) := by
  rw [payloadBody, payloadBody] at h
  -- a kind with fixed-width records ends where its count says
  obtain ⟨hcreates, h⟩ :=
    fixed_records_append_inj createRecord_length createRecord_injective hc h
  obtain ⟨hdeposits, h⟩ :=
    fixed_records_append_inj (externalRecord_length hH) (externalRecord_injective hH) hd h
  obtain ⟨hwithdraws, h⟩ :=
    fixed_records_append_inj (externalRecord_length hH) (externalRecord_injective hH) hw h
  exact ⟨hcreates, hdeposits, hwithdraws, h⟩

theorem sequences_eq_of_shape (hH : H.RendersAddresses) {cs ds : List Condition}
    (hshape : payloadShape cs = payloadShape ds) (h : payloadBody H cs = payloadBody H ds) :
    sequences cs = sequences ds := by
  rw [payloadShape_eq, payloadShape_eq, PayloadShape.mk.injEq] at hshape
  obtain ⟨hc, hd, hw, hi⟩ := hshape
  obtain ⟨hcreates, hdeposits, hwithdraws, hrest⟩ := payloadBody_inj hH hc hd hw h
  have hintegrations : (sequences cs).integrations = (sequences ds).integrations := by
    apply records_inj _ _ hi hrest
    · intro r s hrs
      rw [integrationRecord_length hH, integrationRecord_length hH, hrs]
    · intro r s hrs
      exact integrationRecord_inj hH hrs
  rw [sequences, sequences, Sequences.mk.injEq]
  exact ⟨hcreates, hdeposits, hwithdraws, hintegrations⟩

/-- Equal payload bytes mean equal sequences of every kind exactly when the
two lists have the same number of conditions of each kind and, integration by
integration, the same number of keys. -/
theorem sequences_eq_iff_payloadShape_eq (hH : H.RendersAddresses) (contract : Address)
    (live : U32) (cs ds : List Condition)
    (h : payloadBytes H ⟨cs, live⟩ (H.addressToString contract) =
      payloadBytes H ⟨ds, live⟩ (H.addressToString contract)) :
    sequences cs = sequences ds ↔ payloadShape cs = payloadShape ds := by
  constructor
  · intro hseq
    rw [payloadShape_eq, payloadShape_eq, hseq]
  · intro hshape
    exact sequences_eq_of_shape hH hshape (payloadBytes_ends hH h).2.1

theorem sequences_eq_of_reordered :
    let H := idealHost [] []
    let c := Condition.create (sampleKey 1) (.ofByte 5)
    let w := Condition.extWithdraw (sampleAccount 2) (.ofByte 7)
    payloadBytes H ⟨[c, w], 100⟩ (H.addressToString (sampleContract 1)) =
      payloadBytes H ⟨[w, c], 100⟩ (H.addressToString (sampleContract 1)) ∧
    (sequences [c, w] = sequences [w, c] ↔ payloadShape [c, w] = payloadShape [w, c]) :=
  ⟨rfl, sequences_eq_iff_payloadShape_eq (idealHost_rendersAddresses [] []) (sampleContract 1) 100
    _ _ rfl⟩

/-- Without a count of the deposits, a signed withdraw reads as a deposit. -/
theorem payload_withdraw_reads_as_deposit :
    let H := idealHost [] []
    let w := Condition.extWithdraw (sampleAccount 2) (.ofByte 100)
    let d := Condition.extDeposit (sampleAccount 2) (.ofByte 100)
    payloadBytes H ⟨[w], 100⟩ (H.addressToString (sampleContract 1)) =
      payloadBytes H ⟨[d], 100⟩ (H.addressToString (sampleContract 1)) ∧
    (sequences [w]).withdraws ≠ (sequences [d]).withdraws ∧
    (sequences [w]).deposits ≠ (sequences [d]).deposits := by
  refine ⟨rfl, ?_, ?_⟩ <;> decide

end Moonlight
