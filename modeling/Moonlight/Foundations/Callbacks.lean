import Mathlib

namespace Foundations

/-- Unknown code with state `σ` that sends requests `Q` and reads replies `R`.
Before a call it stores its state; afterwards it sees the reply or the failure
and the state as the call has left it. `attempt` runs code in a frame of its
own, whose failure is caught. -/
inductive Program (Q R σ ε : Type)
  | ret (state : σ)
  | trap (failure : ε)
  | call (state : σ) (request : Q) (k : Except ε R → σ → Program Q R σ ε)
  | attempt (state : σ) (body : Program Q R σ ε) (k : Except ε Unit → σ → Program Q R σ ε)

namespace Program

variable {Q R σ ε S : Type}

structure Env (Q R σ ε S : Type) where
  get : S → σ
  put : S → σ → S
  exec : S → Q → Except ε (R × S)

/-- A failed call, or a frame that failed, leaves the world as it was before. -/
def run (env : Env Q R σ ε S) : Program Q R σ ε → S → Except ε S
  | ret state, w => .ok (env.put w state)
  | trap failure, _ => .error failure
  | call state request k, w =>
    match env.exec (env.put w state) request with
    | .ok (r, w') => (k (.ok r) (env.get w')).run env w'
    | .error e => (k (.error e) state).run env (env.put w state)
  | attempt state body k, w =>
    match body.run env (env.put w state) with
    | .ok w' => (k (.ok ()) (env.get w')).run env w'
    | .error e => (k (.error e) state).run env (env.put w state)

/-- Every request of a run, also of one that fails or of a frame that is rolled
back, satisfies `P` in the world it is sent in. -/
def Along (env : Env Q R σ ε S) (P : S → Q → Prop) : Program Q R σ ε → S → Prop
  | ret _, _ => True
  | trap _, _ => True
  | call state request k, w =>
    P (env.put w state) request ∧
      match env.exec (env.put w state) request with
      | .ok (r, w') => (k (.ok r) (env.get w')).Along env P w'
      | .error e => (k (.error e) state).Along env P (env.put w state)
  | attempt state body k, w =>
    body.Along env P (env.put w state) ∧
      match body.run env (env.put w state) with
      | .ok w' => (k (.ok ()) (env.get w')).Along env P w'
      | .error e => (k (.error e) state).Along env P (env.put w state)

variable {env : Env Q R σ ε S} {I : S → Prop} {P : S → Q → Prop}
  (hput : ∀ w state, I w → I (env.put w state))
  (hexec : ∀ w q r w', I w → env.exec w q = .ok (r, w') → I w')
include hput hexec

/-- What the program's own writes and every successful request keep, the program
keeps. -/
theorem run_invariant (p : Program Q R σ ε) {w w' : S} (hw : I w) (h : p.run env w = .ok w') :
    I w' := by
  induction p generalizing w w' with
  | ret state =>
    rw [run, Except.ok.injEq] at h
    exact h ▸ hput w state hw
  | trap failure => cases h
  | call state request k ih =>
    have hstored := hput w state hw
    rw [run] at h
    -- on failure the program goes on from the state it had stored
    cases he : env.exec (env.put w state) request with
    | error e =>
      simp only [he] at h
      exact ih _ _ hstored h
    | ok result =>
      simp only [he] at h
      exact ih _ _ (hexec _ _ _ _ hstored he) h
  | attempt state body k ihbody ih =>
    have hstored := hput w state hw
    rw [run] at h
    cases hb : body.run env (env.put w state) with
    | error e =>
      simp only [hb] at h
      exact ih _ _ hstored h
    | ok w₁ =>
      simp only [hb] at h
      exact ih _ _ (ihbody hstored hb) h

theorem along_of_invariant (hP : ∀ w q, I w → P w q) (p : Program Q R σ ε) {w : S} (hw : I w) :
    p.Along env P w := by
  induction p generalizing w with
  | ret state => trivial
  | trap failure => trivial
  | call state request k ih =>
    have hstored := hput w state hw
    rw [Along]
    refine ⟨hP _ _ hstored, ?_⟩
    cases he : env.exec (env.put w state) request with
    | error e => exact ih _ _ hstored
    | ok result => exact ih _ _ (hexec _ _ _ _ hstored he)
  | attempt state body k ihbody ih =>
    have hstored := hput w state hw
    rw [Along]
    refine ⟨ihbody hstored, ?_⟩
    cases hb : body.run env (env.put w state) with
    | error e => exact ih _ _ hstored
    | ok w₁ => exact ih _ _ (run_invariant hput hexec body hstored hb)

end Program

end Foundations
