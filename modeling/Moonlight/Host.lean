import Moonlight.Types
import Moonlight.Foundations.Maps

namespace Moonlight

/-- Host functions. A verifier returns `false` where the host traps. Digests
are an abstract type so that an ideal, collision-free hash exists. A new
persistent entry lives `newPersistentLife` ledgers beyond the current one, which
is one less than the network's minimum. -/
structure Host (Digest : Type) where
  sha256 : Bytes → Digest
  secp256r1Verify : BytesN 65 → Digest → BytesN 64 → Bool
  ed25519Verify : BytesN 32 → Digest → BytesN 64 → Bool
  addressToString : Address → Bytes
  conditionToXdr : Condition → Bytes
  newPersistentLife : ℕ

/-- `extend_ttl(threshold, extend_to)` at ledger `now`, on an entry that lives
until ledger `liveUntil`, where the network lets entries live `extendTo` ledgers
ahead. -/
def extendTtl (now threshold extendTo liveUntil : ℕ) : ℕ :=
  if liveUntil - now ≤ threshold then now + extendTo else liveUntil

theorem lt_extendTtl {now threshold extendTo : ℕ} (h : threshold < extendTo) (liveUntil : ℕ) :
    now + threshold < extendTtl now threshold extendTo liveUntil := by
  unfold extendTtl
  split_ifs with hleft
  · omega
  · omega

theorem le_extendTtl {now threshold extendTo : ℕ} (h : threshold ≤ extendTo) (liveUntil : ℕ) :
    liveUntil ≤ extendTtl now threshold extendTo liveUntil := by
  unfold extendTtl
  split_ifs with hleft
  · omega
  · exact le_rfl

/-- `extend_ttl` where no entry may live more than `longestLife` ledgers ahead: the
host cuts the extension there, and shortens no life. -/
def extendTtlUpTo (longestLife now threshold extendTo liveUntil : ℕ) : ℕ :=
  if liveUntil - now ≤ threshold then max liveUntil (now + min extendTo longestLife) else liveUntil

/-- A network that allows the extension does not cut it. -/
theorem extendTtlUpTo_eq {longestLife now threshold extendTo : ℕ} (h : threshold ≤ extendTo)
    (hlongest : extendTo ≤ longestLife) (liveUntil : ℕ) :
    extendTtlUpTo longestLife now threshold extendTo liveUntil =
      extendTtl now threshold extendTo liveUntil := by
  unfold extendTtlUpTo extendTtl
  split_ifs with hleft
  · rw [Nat.min_eq_left hlongest]
    omega
  · rfl

def dayInLedgers : ℕ := 17280

def instanceBumpAmount : ℕ := 7 * dayInLedgers

def instanceLifetimeThreshold : ℕ := instanceBumpAmount - dayInLedgers

def bumpInstanceTtl (now : U32) (liveUntil : ℕ) : ℕ :=
  extendTtl now.val instanceLifetimeThreshold instanceBumpAmount liveUntil

theorem lt_bumpInstanceTtl (now : U32) (liveUntil : ℕ) :
    now.val + instanceLifetimeThreshold < bumpInstanceTtl now liveUntil :=
  lt_extendTtl (by decide) liveUntil

theorem le_bumpInstanceTtl (now : U32) (liveUntil : ℕ) :
    liveUntil ≤ bumpInstanceTtl now liveUntil :=
  le_extendTtl (by decide) liveUntil

variable {Digest : Type}

/-- Addresses render as distinct strings of 56 bytes. -/
structure Host.RendersAddresses (H : Host Digest) : Prop where
  length : ∀ a, (H.addressToString a).length = 56
  injective : Function.Injective H.addressToString

/-- SHA-256 separates the 65-byte keys. -/
def Host.SeparatesKeys (H : Host Digest) : Prop :=
  ∀ k k' : BytesN 65, H.sha256 k.val = H.sha256 k'.val → k = k'

end Moonlight
