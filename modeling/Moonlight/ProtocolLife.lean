import Moonlight.Protocol
import Moonlight.Foundations.Leases

namespace Moonlight
open Foundations

variable {Digest W : Type}

def ChannelEntrypoint.transacts : ChannelEntrypoint → Bool
  | .entrypoint (.transact _) => true
  | _ => false

def AuthEntrypoint.checks : AuthEntrypoint Digest → Bool
  | checkAuth _ _ _ => true
  | _ => false

namespace ProtocolCall

def ledger : ProtocolCall Digest W → ℕ
  | channel s _ => s.inv.sequence.val
  | auth c => c.inv.sequence.val
  | asset sequence _ => sequence.val

def transacts : ProtocolCall Digest W → Bool
  | channel _ e => e.transacts
  | _ => false

/-- The calls in which `__check_auth` runs. -/
def checks : ProtocolCall Digest W → Bool
  | channel _ e => e.transacts
  | auth c => c.entrypoint.checks
  | asset _ _ => false

end ProtocolCall

theorem AuthCall.exec_liveUntil {H : Host Digest} {c : AuthCall Digest} {st st' : ChannelAuth}
    (h : c.exec H st = .ok st') : st'.liveUntil =
      if c.entrypoint.checks = true then bumpInstanceTtl c.inv.sequence st.liveUntil
      else st.liveUntil := by
  unfold AuthCall.exec at h
  cases hc : c.entrypoint with
  | checkAuth payload signatures contexts =>
    simp only [hc] at h
    rw [checkAuth_state h]
    rfl
  | admin | setAdmin newAdmin | acceptAdmin =>
    simp only [hc, bind_eq_ok, pure_eq_ok] at h
    obtain ⟨-, -, rfl⟩ := h
    rfl
  | upgrade wasmHash =>
    simp only [hc] at h
    rw [upgrade_ok h]
    rfl
  | isProvider provider =>
    simp only [hc, pure_eq_ok] at h
    rw [h]
    rfl
  | addProvider provider =>
    simp only [hc] at h
    rw [(addProvider_ok.mp h).2.2]
    rfl
  | removeProvider provider =>
    simp only [hc] at h
    rw [(removeProvider_ok.mp h).2.2]
    rfl
  | enableChannel channel asset | disableChannel channel asset =>
    simp only [hc] at h
    rw [setChannelState_ok h]
    rfl

variable [DecidableEq Digest] {H : Host Digest} {st₀ st st' : Deployment Digest W}
  {c : ProtocolCall Digest W}

variable {calls : List (ProtocolCall Digest W)}

end Moonlight
