import Mathlib

namespace Foundations

variable {S A ε : Type*} (exec : S → A → Except ε S)

/-- A failed call leaves the state as it was. -/
def step (s : S) (a : A) : S :=
  match exec s a with
  | .ok t => t
  | .error _ => s

def run (s : S) (as : List A) : S := as.foldl (step exec) s

/-- The calls of a run that committed, in order. -/
def succeeded : S → List A → List A
  | _, [] => []
  | s, a :: as =>
    match exec s a with
    | .ok t => a :: succeeded t as
    | .error _ => succeeded s as

/-- The state before call `i` of a run. -/
def stateAt (s : S) (as : List A) (i : ℕ) : S := run exec s (as.take i)

/-- Call `i` of a run is `a`, and it commits the state `t`. -/
def CommitsAt (s : S) (as : List A) (i : ℕ) (a : A) (t : S) : Prop :=
  as[i]? = some a ∧ exec (stateAt exec s as i) a = .ok t

variable {exec} {s t : S} {a : A} {as : List A}

theorem step_of_ok (h : exec s a = .ok t) : step exec s a = t := by simp [step, h]

theorem step_of_error {e : ε} (h : exec s a = .error e) : step exec s a = s := by simp [step, h]

@[simp] theorem run_nil : run exec s [] = s := rfl

@[simp] theorem run_cons : run exec s (a :: as) = run exec (step exec s a) as := rfl

@[simp] theorem stateAt_zero : stateAt exec s as 0 = s := rfl

theorem stateAt_succ {i : ℕ} (ha : as[i]? = some a) :
    stateAt exec s as (i + 1) = step exec (stateAt exec s as i) a := by
  rw [stateAt, List.take_add_one, ha, run, List.foldl_append]
  rfl

theorem CommitsAt.stateAt_succ {i : ℕ} (h : CommitsAt exec s as i a t) :
    stateAt exec s as (i + 1) = t := by
  rw [Foundations.stateAt_succ h.1, step_of_ok h.2]

theorem CommitsAt.take_append {i j : ℕ} (hij : i < j) (h : CommitsAt exec s as i a t)
    (bs : List A) : CommitsAt exec s (as.take j ++ bs) i a t := by
  have hlen : i < (as.take j).length := by
    have := (List.getElem?_eq_some_iff.mp h.1).1
    rw [List.length_take]
    omega
  refine ⟨?_, ?_⟩
  · rw [List.getElem?_append_left hlen, List.getElem?_take_of_lt hij, h.1]
  · rw [stateAt, List.take_append_of_le_length hlen.le, List.take_take, min_eq_left hij.le]
    exact h.2

theorem step_invariant {I : S → Prop} (hexec : ∀ t, exec s a = .ok t → I t) (hs : I s) :
    I (step exec s a) := by
  cases h : exec s a with
  | error e => rwa [step_of_error h]
  | ok t =>
    rw [step_of_ok h]
    exact hexec t h

/-- What every committed call keeps, every run keeps. -/
theorem run_invariant {I : S → Prop} (hexec : ∀ s t, ∀ a ∈ as, I s → exec s a = .ok t → I t)
    (hs : I s) : I (run exec s as) := by
  induction as generalizing s with
  | nil => exact hs
  | cons a as ih =>
    apply ih
    · intro s t b hb
      exact hexec s t b (List.mem_cons_of_mem _ hb)
    · exact step_invariant (fun t h => hexec s t a List.mem_cons_self hs h) hs

theorem stateAt_succ_cases {I : S → Prop} {i : ℕ} (hi : I (stateAt exec s as i))
    (hexec : ∀ a t, CommitsAt exec s as i a t → I t) : I (stateAt exec s as (i + 1)) := by
  cases ha : as[i]? with
  | none =>
    have hlast : stateAt exec s as (i + 1) = stateAt exec s as i := by
      rw [stateAt, List.take_add_one, ha, Option.toList_none, List.append_nil, stateAt]
    rwa [hlast]
  | some a =>
    rw [stateAt_succ ha]
    exact step_invariant (fun t h => hexec a t ⟨ha, h⟩) hi

/-- What state `i` has and every call committed from `i` to `j` keeps, state `j`
has. -/
theorem stateAt_between {I : S → Prop} {i j : ℕ} (hij : i ≤ j) (hi : I (stateAt exec s as i))
    (hexec : ∀ k, i ≤ k → k < j → ∀ a t, CommitsAt exec s as k a t → I (stateAt exec s as k) →
      I t) : I (stateAt exec s as j) := by
  induction j, hij using Nat.le_induction with
  | base => exact hi
  | succ j hij ih =>
    -- the hypothesis on calls before `j + 1` covers the ones before `j`
    have hj := ih fun k hik hkj => hexec k hik (by omega)
    exact stateAt_succ_cases hj fun a t h => hexec j hij (by omega) a t h hj

/-- What holds now and did not at first, a committed call has brought about, and
it has held ever since. -/
theorem stateAt_origin {I : S → Prop} (hs : ¬ I s) {i : ℕ} (hi : I (stateAt exec s as i)) :
    ∃ j a t, j < i ∧ CommitsAt exec s as j a t ∧ ¬ I (stateAt exec s as j) ∧ I t ∧
      ∀ k, j < k → k ≤ i → I (stateAt exec s as k) := by
  induction i with
  | zero => exact absurd hi hs
  | succ i ih =>
    by_cases hprev : I (stateAt exec s as i)
    · obtain ⟨j, a, t, hj, hc, hbefore, hafter, hsince⟩ := ih hprev
      refine ⟨j, a, t, by omega, hc, hbefore, hafter, fun k hjk hk => ?_⟩
      by_cases hki : k = i + 1
      · rwa [hki]
      · exact hsince k hjk (by omega)
    -- the last call is the one, since a call that fails changes nothing
    · have hcommit : ∃ a t, CommitsAt exec s as i a t := by
        by_contra hnone
        push Not at hnone
        exact stateAt_succ_cases (I := fun t => ¬ I t) hprev
          (fun a t hc => absurd hc (hnone a t)) hi
      obtain ⟨a, t, hc⟩ := hcommit
      have ht : I t := by rwa [← hc.stateAt_succ]
      refine ⟨i, a, t, Nat.lt_succ_self i, hc, hprev, ht, fun k hik hk => ?_⟩
      have hk1 : k = i + 1 := by omega
      rwa [hk1]

/-- A quantity moved by `d a` in each committed call `a` accumulates over the
committed calls of the run and no others. -/
theorem run_sum {M : Type*} [AddCommMonoid M] (m : S → M) (d : A → M)
    (hexec : ∀ s a t, exec s a = .ok t → m t = m s + d a) :
    m (run exec s as) = m s + ((succeeded exec s as).map d).sum := by
  induction as generalizing s with
  | nil => simp [succeeded]
  | cons a as ih =>
    rw [run_cons, ih]
    cases h : exec s a with
    | error e => simp [succeeded, h, step_of_error h]
    | ok t => simp [succeeded, h, step_of_ok h, hexec s a t h, add_assoc]

theorem run_sum_on {M : Type*} [AddCommMonoid M] {I : S → Prop} (m : S → M) (d : A → M)
    (hexec : ∀ s t, ∀ a ∈ as, I s → exec s a = .ok t → I t ∧ m t = m s + d a) (hs : I s) :
    m (run exec s as) = m s + ((succeeded exec s as).map d).sum := by
  induction as generalizing s with
  | nil => simp [succeeded]
  | cons a as ih =>
    have hlater : ∀ s t, ∀ b ∈ as, I s → exec s b = .ok t → I t ∧ m t = m s + d b :=
      fun s t b hb => hexec s t b (List.mem_cons_of_mem _ hb)
    rw [run_cons]
    cases h : exec s a with
    | error e =>
      rw [step_of_error h, ih hlater hs]
      simp [succeeded, h]
    | ok t =>
      obtain ⟨ht, hm⟩ := hexec s t a List.mem_cons_self hs h
      rw [step_of_ok h, ih hlater ht, hm]
      simp [succeeded, h, add_assoc]

/-- A log that every committed call extends by itself describes the state it
was written beside. -/
theorem run_replay {L : Type*} (record : L → A → L) {R : S → L → Prop}
    (hexec : ∀ s l t, ∀ a ∈ as, R s l → exec s a = .ok t → R t (record l a)) {l : L} (hR : R s l) :
    R (run exec s as) ((succeeded exec s as).foldl record l) := by
  induction as generalizing s l with
  | nil => exact hR
  | cons a as ih =>
    have hlater : ∀ s l t, ∀ b ∈ as, R s l → exec s b = .ok t → R t (record l b) :=
      fun s l t b hb => hexec s l t b (List.mem_cons_of_mem _ hb)
    rw [run_cons]
    cases h : exec s a with
    | error e =>
      simp only [succeeded, h, step_of_error h]
      exact ih hlater hR
    | ok t =>
      simp only [succeeded, h, step_of_ok h, List.foldl_cons]
      exact ih hlater (hexec s l t a List.mem_cons_self hR h)

theorem run_history {R : S → List A → Prop}
    (hexec : ∀ s l a t, R s l → exec s a = .ok t → R t (l ++ [a])) (hs : R s []) :
    R (run exec s as) (succeeded exec s as) := by
  have h : R (run exec s as) ((succeeded exec s as).foldl (fun l a => l ++ [a]) []) :=
    run_replay _ (fun s l t a _ => hexec s l a t) hs
  rwa [List.foldl_append_eq_append (f := fun a => [a]), List.nil_append, ← List.flatMap_def,
    List.flatMap_singleton'] at h

theorem run_log {E : Type*} (log : S → List E) (entries : A → List E)
    (hexec : ∀ s a t, exec s a = .ok t → log t = log s ++ entries a) :
    log (run exec s as) = log s ++ (succeeded exec s as).flatMap entries := by
  induction as generalizing s with
  | nil => simp [succeeded]
  | cons a as ih =>
    rw [run_cons, ih]
    cases h : exec s a with
    | error e => simp [succeeded, h, step_of_error h]
    | ok t => simp [succeeded, h, step_of_ok h, hexec s a t h]

theorem exec_of_mem_succeeded (h : a ∈ succeeded exec s as) : ∃ u t, exec u a = .ok t := by
  induction as generalizing s with
  | nil => cases h
  | cons b as ih =>
    cases hb : exec s b with
    | error e =>
      simp only [succeeded, hb] at h
      exact ih h
    | ok t =>
      simp only [succeeded, hb, List.mem_cons] at h
      rcases h with rfl | h
      · exact ⟨s, t, hb⟩
      · exact ih h

section Simulation

variable {T B ε' : Type*} {exec' : T → B → Except ε' T} {erase : A → Option B} {time : A → ℕ}
  {R : ℕ → S → T → Prop}

/-- A run follows another one in which some of its calls are left out and the
others are read as calls of the second machine. The relation may refer to the
time, which the calls move forward. -/
theorem run_simulation (hmono : ∀ n m s t, n ≤ m → R n s t → R m s t)
    (hstep : ∀ s t a b, R (time a) s t → erase a = some b →
      R (time a) (step exec s a) (step exec' t b))
    (hskip : ∀ s t a, R (time a) s t → erase a = none → R (time a) (step exec s a) t)
    (htime : as.Pairwise fun a b => time a ≤ time b) {n m : ℕ} {t : T}
    (hn : ∀ a ∈ as, n ≤ time a) (hm : ∀ a ∈ as, time a ≤ m) (hnm : n ≤ m) (hR : R n s t) :
    R m (run exec s as) (run exec' t (as.filterMap erase)) := by
  induction as generalizing n s t with
  | nil => exact hmono n m s t hnm hR
  | cons a as ih =>
    obtain ⟨hlater, htime⟩ := List.pairwise_cons.mp htime
    have hnow : R (time a) s t := hmono _ _ s t (hn a List.mem_cons_self) hR
    have hlast : ∀ b ∈ as, time b ≤ m := fun b hb => hm b (List.mem_cons_of_mem _ hb)
    have ham : time a ≤ m := hm a List.mem_cons_self
    cases ha : erase a with
    | none =>
      rw [List.filterMap_cons_none ha]
      exact ih htime hlater hlast ham (hskip s t a hnow ha)
    | some b =>
      rw [List.filterMap_cons_some ha]
      exact ih htime hlater hlast ham (hstep s t a b hnow ha)

theorem run_erasing {Q : S → T → Prop}
    (hstep : ∀ s t a b, Q s t → erase a = some b → Q (step exec s a) (step exec' t b))
    (hskip : ∀ s t a, Q s t → erase a = none → Q (step exec s a) t) {t : T} (hQ : Q s t) :
    Q (run exec s as) (run exec' t (as.filterMap erase)) := by
  let clock : A → ℕ := fun _ => 0
  have htime : as.Pairwise fun a b => clock a ≤ clock b :=
    List.pairwise_of_forall fun _ _ => le_rfl
  exact run_simulation (R := fun _ => Q) (fun _ _ _ _ _ h => h) hstep hskip htime
    (fun _ _ => le_rfl) (fun _ _ => le_rfl) le_rfl hQ

end Simulation

end Foundations
