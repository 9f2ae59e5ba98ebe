import Moonlight.Auth
import Moonlight.Channel

namespace Moonlight
open Foundations

/-- CRC-16/XMODEM, the checksum of a strkey. -/
def crc16 (bytes : Bytes) : ℕ :=
  bytes.foldl
    (fun crc byte =>
      (List.range 8).foldl
        (fun crc _ => if crc < 2 ^ 15 then crc * 2 else crc * 2 % 2 ^ 16 ^^^ 0x1021)
        (crc ^^^ byte.val * 256))
    0

def base32Char (d : Fin 32) : Byte :=
  if d.val < 26 then Fin.ofNat 256 (65 + d.val) else Fin.ofNat 256 (24 + d.val)

/-- Version byte, payload and checksum, in base 32. -/
def strkeyBytes (version : Byte) (payload : Bytes) : Bytes :=
  version :: payload ++ digitsLE 256 2 (crc16 (version :: payload))

def strkey (version : Byte) (payload : Bytes) : Bytes :=
  let number := Nat.ofDigits 256 ((strkeyBytes version payload).map Fin.val).reverse
  ((digitsLE 32 56 number).map base32Char).reverse

def Address.strkey : Address → Bytes
  | account pk => Moonlight.strkey 48 pk.val
  | contract id => Moonlight.strkey 16 id.val

theorem base32Char_injective : Function.Injective base32Char := by decide

theorem strkey_injective {v v' : Byte} {p p' : BytesN 32}
    (h : strkey v p.val = strkey v' p'.val) : v = v' ∧ p = p' := by
  have hlen (v : Byte) (p : BytesN 32) :
      ((strkeyBytes v p.val).map Fin.val).reverse.length = 35 := by
    simp [strkeyBytes, p.property]
  have hdigit (v : Byte) (p : BytesN 32) :
      ∀ d ∈ ((strkeyBytes v p.val).map Fin.val).reverse, d < 256 := by
    simp only [List.mem_reverse, List.mem_map, forall_exists_index, and_imp,
      forall_apply_eq_imp_iff₂]
    intro b _
    exact b.isLt
  -- 35 bytes are 280 bits, which is exactly 56 digits
  have hlt (v : Byte) (p : BytesN 32) :
      Nat.ofDigits 256 ((strkeyBytes v p.val).map Fin.val).reverse < 32 ^ 56 := by
    have := Nat.ofDigits_lt_base_pow_length (by norm_num) (hdigit v p)
    rw [hlen] at this
    exact this
  have hdigits := List.map_injective_iff.mpr base32Char_injective (List.reverse_injective h)
  have hnumber := digitsLE_injective (hlt v p) (hlt v' p') hdigits
  have hbytes := Nat.ofDigits_inj_of_len_eq (by norm_num) ((hlen v p).trans (hlen v' p').symm)
    (hdigit v p) (hdigit v' p') hnumber
  have hraw := List.map_injective_iff.mpr Fin.val_injective (List.reverse_injective hbytes)
  simp only [strkeyBytes, List.cons_append, List.cons.injEq] at hraw
  refine ⟨hraw.1, Subtype.ext ?_⟩
  exact (List.append_inj hraw.2 (by rw [p.property, p'.property])).1

theorem Address.strkey_length (a : Address) : a.strkey.length = 56 := by
  cases a <;> simp [Address.strkey, Moonlight.strkey]

theorem Address.strkey_injective : Function.Injective Address.strkey := by
  intro a b h
  cases a <;> cases b <;> obtain ⟨hv, hp⟩ := Moonlight.strkey_injective h
  · rw [hp]
  · exact absurd hv (by decide)
  · exact absurd hv (by decide)
  · rw [hp]

def xdrU32 (n : ℕ) : Bytes := (digitsLE 256 4 n).reverse

def xdrI128 (a : I128) : Bytes := xdrU32 10 ++ a.toLeBytes.reverse

def xdrKey (k : BytesN 65) : Bytes := xdrU32 13 ++ xdrU32 65 ++ k.val ++ [0, 0, 0]

def xdrAddress : Address → Bytes
  | .account pk => xdrU32 18 ++ xdrU32 0 ++ xdrU32 0 ++ pk.val
  | .contract id => xdrU32 18 ++ xdrU32 1 ++ id.val

def xdrVec (n : ℕ) : Bytes := xdrU32 16 ++ xdrU32 1 ++ xdrU32 n

def xdrSymbol (name : Bytes) : Bytes :=
  xdrU32 15 ++ xdrU32 name.length ++ name ++ List.replicate (3 - (name.length + 3) % 4) 0

/-- `to_xdr` of a condition: the vector of its variant's name and fields. -/
def Condition.toXdr : Condition → Bytes
  -- "Create"
  | create utxo amount =>
    xdrVec 3 ++ xdrSymbol [67, 114, 101, 97, 116, 101] ++ (xdrKey utxo ++ xdrI128 amount)
  -- "ExtDeposit"
  | extDeposit addr amount =>
    xdrVec 3 ++ xdrSymbol [69, 120, 116, 68, 101, 112, 111, 115, 105, 116] ++
      (xdrAddress addr ++ xdrI128 amount)
  -- "ExtWithdraw"
  | extWithdraw addr amount =>
    xdrVec 3 ++ xdrSymbol [69, 120, 116, 87, 105, 116, 104, 100, 114, 97, 119] ++
      (xdrAddress addr ++ xdrI128 amount)
  -- "ExtIntegration"
  | extIntegration adapter utxos amount =>
    xdrVec 4 ++ xdrSymbol [69, 120, 116, 73, 110, 116, 101, 103, 114, 97, 116, 105, 111, 110] ++
      (xdrAddress adapter ++ (xdrVec utxos.length ++ utxos.flatMap xdrKey ++ xdrI128 amount))

@[simp] theorem xdrU32_length (n : ℕ) : (xdrU32 n).length = 4 := by simp [xdrU32]

@[simp] theorem xdrVec_length (n : ℕ) : (xdrVec n).length = 12 := by simp [xdrVec]

@[simp] theorem xdrI128_length (a : I128) : (xdrI128 a).length = 20 := by simp [xdrI128]

@[simp] theorem xdrKey_length (k : BytesN 65) : (xdrKey k).length = 76 := by
  simp [xdrKey, k.property]

theorem xdrI128_injective : Function.Injective xdrI128 := by
  intro a b h
  exact I128.toLeBytes_injective (List.reverse_injective (List.append_cancel_left h))

theorem xdrKey_injective : Function.Injective xdrKey := by
  intro k k' h
  exact Subtype.ext (List.append_cancel_left (List.append_cancel_right h))

/-- The eighth byte tells accounts from contracts, so an address ends where it
ends whatever follows it. -/
theorem xdrAddress_append_inj {a b : Address} {r s : Bytes}
    (h : xdrAddress a ++ r = xdrAddress b ++ s) : a = b ∧ r = s := by
  have hkind := congrArg (fun l : Bytes => l[7]?) h
  cases a with
  | account pk =>
    cases b with
    | account pk' =>
      obtain ⟨hhead, hrest⟩ := List.append_inj h (by simp [xdrAddress, pk.property, pk'.property])
      exact ⟨by rw [Subtype.ext (List.append_cancel_left hhead)], hrest⟩
    | contract id =>
      simp [xdrAddress, xdrU32, digitsLE] at hkind
      exact absurd hkind (by decide)
  | contract id =>
    cases b with
    | account pk => simp [xdrAddress, xdrU32, digitsLE] at hkind
    | contract id' =>
      obtain ⟨hhead, hrest⟩ := List.append_inj h (by simp [xdrAddress, id.property, id'.property])
      exact ⟨by rw [Subtype.ext (List.append_cancel_left hhead)], hrest⟩

theorem xdrKeys_inj {us vs : List (BytesN 65)} {a b : I128}
    (h : us.flatMap xdrKey ++ xdrI128 a = vs.flatMap xdrKey ++ xdrI128 b) : us = vs ∧ a = b := by
  obtain ⟨hkeys, hamount⟩ := List.append_inj' h (by simp)
  have hlen := congrArg List.length hkeys
  simp only [List.length_flatMap, xdrKey_length, List.map_const', List.sum_replicate,
    smul_eq_mul] at hlen
  exact ⟨fixed_records_inj xdrKey_length xdrKey_injective (by omega) hkeys,
    xdrI128_injective hamount⟩

theorem Condition.toXdr_injective : Function.Injective Condition.toXdr := by
  intro c d h
  have hkind := congrArg (fun l : Bytes => l[19]?) h
  cases c <;> cases d
  case create.create u a v b =>
    obtain ⟨hkey, hamount⟩ := List.append_inj (List.append_cancel_left h) (by simp)
    rw [xdrKey_injective hkey, xdrI128_injective hamount]
  case extDeposit.extDeposit x a y b =>
    obtain ⟨haddr, hamount⟩ := xdrAddress_append_inj (List.append_cancel_left h)
    rw [haddr, xdrI128_injective hamount]
  case extWithdraw.extWithdraw x a y b =>
    obtain ⟨haddr, hamount⟩ := xdrAddress_append_inj (List.append_cancel_left h)
    rw [haddr, xdrI128_injective hamount]
  case extIntegration.extIntegration x us a y vs b =>
    obtain ⟨haddr, hrest⟩ := xdrAddress_append_inj (List.append_cancel_left h)
    rw [List.append_assoc, List.append_assoc] at hrest
    obtain ⟨hkeys, hamount⟩ := xdrKeys_inj (List.append_inj hrest (by simp)).2
    rw [haddr, hkeys, hamount]
  all_goals simp [toXdr, xdrVec, xdrSymbol, xdrU32, digitsLE] at hkind

/-- A host whose hash has no collisions and whose verifiers accept, under each
key, exactly the digests listed for it. -/
def idealHost (p256 : List (BytesN 65 × Bytes)) (ed25519 : List (BytesN 32 × Bytes)) :
    Host Bytes where
  sha256 := id
  secp256r1Verify pk digest _ := (pk, digest) ∈ p256
  ed25519Verify pk digest _ := (pk, digest) ∈ ed25519
  addressToString := Address.strkey
  conditionToXdr := Condition.toXdr
  newPersistentLife := 4095

theorem idealHost_rendersAddresses (p256 : List (BytesN 65 × Bytes))
    (ed25519 : List (BytesN 32 × Bytes)) : (idealHost p256 ed25519).RendersAddresses :=
  ⟨Address.strkey_length, Address.strkey_injective⟩

theorem idealHost_separatesKeys (p256 : List (BytesN 65 × Bytes))
    (ed25519 : List (BytesN 32 × Bytes)) : (idealHost p256 ed25519).SeparatesKeys := by
  intro k k' h
  exact Subtype.ext h

/-- An uncompressed point starts with `4`; the rest is filler that tells keys
apart. -/
def sampleKey (n : Byte) : BytesN 65 := ⟨4 :: List.replicate 64 n, by simp⟩

def sampleAccount (n : Byte) : Address := .account ⟨List.replicate 32 n, by simp⟩

def sampleContract (n : Byte) : Address := .contract ⟨List.replicate 32 n, by simp⟩

def I128.ofByte (n : Byte) : I128 := ⟨n.val, by omega, by omega⟩

/-- The host's answer to `require_auth_for_args` in a transaction that carries
the map `sigs`: the auth contract is asked through `__check_auth` with one
context, and every other address has signed, save the channel's own. -/
def hostAuth {Digest : Type} (H : Host Digest) (now : U32) (self authContract : Address)
    (st : ChannelAuth) (payload : Digest) (sigs : Signatures) : RequireAuth := fun a args =>
  if a = authContract then
    match checkAuth H now st payload sigs [.contract ⟨self, args⟩] with
    | .ok _ => true
    | .error _ => false
  else
    a ≠ self

theorem hostAuth_checks {Digest : Type} {H : Host Digest} {now : U32} {self authContract : Address}
    {st : ChannelAuth} {payload : Digest} {sigs : Signatures} {args : List Val}
    (h : hostAuth H now self authContract st payload sigs authContract args = true) :
    ∃ st', checkAuth H now st payload sigs [.contract ⟨self, args⟩] = .ok st' := by
  rw [hostAuth, if_pos rfl] at h
  cases hcheck : checkAuth H now st payload sigs [.contract ⟨self, args⟩] with
  | error e => simp [hcheck] at h
  | ok st' => exact ⟨st', rfl⟩

def sampleWorld {W : Type} (H : Host Bytes) (assetState : W) : World Bytes W where
  self := sampleContract 1
  channel :=
    { utxo := ⟨∅, some (sampleContract 2), []⟩
      owner := some (sampleAccount 1)
      asset := some (sampleContract 3)
      supply := none
      liveUntil := bumpInstanceTtl 100 (100 + H.newPersistentLife)
      guard := false }
  assetState := assetState
  transfers := []

theorem sampleWorld_deployed {W : Type} (H : Host Bytes) (assetState : W) :
    Deployed H (sampleWorld H assetState) :=
  ⟨rfl, 100, sampleAccount 1, sampleContract 2, sampleContract 3, rfl⟩

def sampleProvider : BytesN 32 := ⟨List.replicate 32 9, by simp⟩

def samplePayload : Bytes := [7]

def sampleAuth : ChannelAuth := ⟨{addressFromEd25519PkBytes sampleProvider}, [], 0⟩

/-- Each key has signed its list for the sample channel until ledger `200`; the
provider has signed the transaction. -/
def sampleHost (signed : List (BytesN 65 × List Condition)) : Host Bytes :=
  idealHost
    (signed.map fun e =>
      (e.1, payloadBytes (idealHost [] []) ⟨e.2, 200⟩ (sampleContract 1).strkey))
    [(sampleProvider, samplePayload)]

def sampleSignatures (signed : List (BytesN 65 × List Condition)) : Signatures :=
  signed.foldl (fun sigs e => sigs.insert (.p256 e.1) (.p256 ⟨List.replicate 64 0, by simp⟩, 200))
    (Finmap.singleton (.provider sampleProvider) (.ed25519 ⟨List.replicate 64 0, by simp⟩, 200))

def sampleSignature : BytesN 64 := ⟨List.replicate 64 0, by simp⟩

/-- A transaction of the sample channel whose asset has every balance it is
asked for. -/
def sampleCall (signed : List (BytesN 65 × List Condition)) (op : ChannelOperation) :
    Call Unit where
  inv :=
    { sequence := 100
      requireAuth := hostAuth (sampleHost signed) 100 (sampleContract 1) (sampleContract 2)
        sampleAuth samplePayload (sampleSignatures signed)
      transfer := fun _ _ s => .ok s }
  op := op

/-- The owner of key 1 sends 60 to key 2 and withdraws 40. -/
def sampleConditions : List Condition :=
  [.create (sampleKey 2) (.ofByte 60), .extWithdraw (sampleAccount 6) (.ofByte 40)]

def sampleSigned : List (BytesN 65 × List Condition) := [(sampleKey 1, sampleConditions)]

def sampleDeposit : ChannelOperation :=
  ⟨[], [(sampleKey 1, .ofByte 100)],
    [(sampleAccount 5, .ofByte 100, [.create (sampleKey 1) (.ofByte 100)])], []⟩

def sampleSpend : ChannelOperation :=
  ⟨sampleSigned, [(sampleKey 2, .ofByte 60)], [], [(sampleAccount 6, .ofByte 40, [])]⟩

def sampleCalls : List (Call Unit) :=
  [sampleCall sampleSigned sampleDeposit, sampleCall sampleSigned sampleSpend]

def sampleFunded : World Bytes Unit :=
  run (Call.exec (sampleHost sampleSigned)) (sampleWorld (sampleHost sampleSigned) ())
    [sampleCall sampleSigned sampleDeposit]

theorem sampleSpend_commits :
    ∃ w', transact (sampleHost sampleSigned) (sampleCall sampleSigned sampleSpend).inv sampleFunded
      sampleSpend = .ok w' :=
  exists_ok (by decide +kernel)

end Moonlight
