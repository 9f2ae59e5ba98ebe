import Moonlight.Foundations.Runs

namespace Foundations

variable {S A ε : Type*} (exec : S → A → Except ε S) (time : A → ℕ)

/-- A moment of a run that ends at time `last`: the first `i` calls are done, the
others are still to come, and the time is `n`. -/
structure Moment (as : List A) (last i n : ℕ) : Prop where
  past : ∀ j a, j < i → as[j]? = some a → time a ≤ n
  future : ∀ j a, i ≤ j → as[j]? = some a → n ≤ time a
  inside : n ≤ last

/-- Whenever the resource exists, one of the next `window` units of time holds a
committed renewal, unless the run ends first. -/
def RenewedEvery (window : ℕ) (renews : A → Prop) (expiry : S → Option ℕ) (s : S) (as : List A)
    (last : ℕ) : Prop :=
  ∀ i n, Moment time as last i n → expiry (stateAt exec s as i) ≠ none → n + window ≤ last →
    ∃ j a t, CommitsAt exec s as j a t ∧ renews a ∧ n < time a ∧ time a ≤ n + window

variable {exec time} {window : ℕ} {renews : A → Prop} {expiry : S → Option ℕ} {s : S} {as : List A}

/-- Call `j`, before call `i`, renews the resource, and no call between them
does. -/
structure LatestRenewal (exec : S → A → Except ε S) (renews : A → Prop) (s : S) (as : List A)
    (i j : ℕ) (a : A) : Prop where
  before : j < i
  renewed : renews a
  latest : ∀ k, j < k → k < i → ∀ b u, CommitsAt exec s as k b u → ¬ renews b

theorem LatestRenewal.succ {i j : ℕ} {a : A} (h : LatestRenewal exec renews s as i j a)
    (hquiet : ∀ b u, CommitsAt exec s as i b u → ¬ renews b) :
    LatestRenewal exec renews s as (i + 1) j a := by
  refine ⟨Nat.lt_succ_of_lt h.before, h.renewed, fun k hjk hk => ?_⟩
  by_cases hki : k = i
  · subst hki
    exact hquiet
  · exact h.latest k hjk (by omega)

theorem time_le {j k : ℕ} {a b : A} (htime : as.Pairwise fun a b => time a ≤ time b) (hjk : j ≤ k)
    (ha : as[j]? = some a) (hb : as[k]? = some b) : time a ≤ time b := by
  obtain ⟨hj, rfl⟩ := List.getElem?_eq_some_iff.mp ha
  obtain ⟨hk, rfl⟩ := List.getElem?_eq_some_iff.mp hb
  by_cases h : j = k
  · subst h
    exact le_rfl
  · exact List.pairwise_iff_getElem.mp htime j k hj hk (by omega)

theorem latest_renewal (hs : expiry s = none)
    (hrenew : ∀ s a t l, exec s a = .ok t → renews a → expiry t = some l → time a + window < l)
    (hframe : ∀ s a t, exec s a = .ok t → ¬ renews a → expiry t = expiry s) {i l : ℕ}
    (hl : expiry (stateAt exec s as i) = some l) :
    ∃ j a t, CommitsAt exec s as j a t ∧ expiry t ≠ none ∧ time a + window < l ∧
      LatestRenewal exec renews s as i j a := by
  induction i with
  | zero =>
    rw [stateAt_zero, hs] at hl
    cases hl
  | succ i ih =>
    -- a renewal found before call `i` stays the latest one if call `i` renews nothing
    have hold (h : expiry (stateAt exec s as i) = some l)
        (hquiet : ∀ b u, CommitsAt exec s as i b u → ¬ renews b) :
        ∃ j a t, CommitsAt exec s as j a t ∧ expiry t ≠ none ∧ time a + window < l ∧
          LatestRenewal exec renews s as (i + 1) j a := by
      obtain ⟨j, a, t, hc, ht, hlife, hlatest⟩ := ih h
      exact ⟨j, a, t, hc, ht, hlife, hlatest.succ hquiet⟩
    by_cases hcommit : ∃ a t, CommitsAt exec s as i a t
    · obtain ⟨a, t, hc⟩ := hcommit
      rw [hc.stateAt_succ] at hl
      by_cases ha : renews a
      · refine ⟨i, a, t, hc, by simp [hl], hrenew _ a t l hc.2 ha hl, by omega, ha, ?_⟩
        intro k hik hk
        omega
      · rw [hframe _ a t hc.2 ha] at hl
        refine hold hl fun b u hb => ?_
        rwa [← Option.some.inj (hc.1.symm.trans hb.1)]
    · push Not at hcommit
      refine hold ?_ fun b u hb => absurd hb (hcommit b u)
      -- no call commits here, so the state is the one before
      exact stateAt_succ_cases (I := fun t => expiry t = some l → _) id
        (fun a t hc => absurd hc (hcommit a t)) hl

/-- After the latest renewal the next window holds another one, unless it is
still open. -/
theorem LatestRenewal.outlives (htime : as.Pairwise fun a b => time a ≤ time b)
    {last i n j l : ℕ} {a : A} {t : S} (hlatest : LatestRenewal exec renews s as i j a)
    (hc : CommitsAt exec s as j a t) (ht : expiry t ≠ none) (hlife : time a + window < l)
    (hwindow : RenewedEvery exec time window renews expiry s as last)
    (hnow : Moment time as last i n) : n < l := by
  by_contra hexpired
  have han : time a ≤ n := hnow.past j a hlatest.before hc.1
  have hlast := hnow.inside
  -- the window that opens right after the latest renewal has closed by now
  have hopen : Moment time as last (j + 1) (time a) := by
    refine ⟨fun k b hk hb => ?_, fun k b hk hb => ?_, by omega⟩
    · exact time_le htime (by omega) hb hc.1
    · exact time_le htime (by omega) hc.1 hb
  obtain ⟨k, b, u, hb, hrenews, hlt, hle⟩ := hwindow (j + 1) (time a) hopen
    (by rwa [hc.stateAt_succ]) (by omega)
  -- it held a renewal, which is later than the latest one and not in the future
  have hki : k < i := by
    by_contra hki
    have hfuture := hnow.future k b (by omega) hb.1
    omega
  have hjk : j < k := by
    by_contra hjk
    have hpast := time_le htime (by omega) hb.1 hc.1
    omega
  exact hlatest.latest k hjk hki b u hb hrenews

/-- A renewed lease never expires: at every moment some life is left. -/
theorem lease_outlives (htime : as.Pairwise fun a b => time a ≤ time b) (hs : expiry s = none)
    (hrenew : ∀ s a t l, exec s a = .ok t → renews a → expiry t = some l → time a + window < l)
    (hframe : ∀ s a t, exec s a = .ok t → ¬ renews a → expiry t = expiry s) {last : ℕ}
    (hwindow : RenewedEvery exec time window renews expiry s as last) {i n l : ℕ}
    (hnow : Moment time as last i n) (hl : expiry (stateAt exec s as i) = some l) : n < l := by
  obtain ⟨j, a, t, hc, ht, hlife, hlatest⟩ := latest_renewal hs hrenew hframe hl
  exact hlatest.outlives htime hc ht hlife hwindow hnow

end Foundations
