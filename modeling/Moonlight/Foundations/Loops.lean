import Mathlib

namespace Foundations

universe u

variable {ε α σ : Type*}

theorem bind_eq_ok {α β : Type u} {x : Except ε α} {f : α → Except ε β} {r : β} :
    (x >>= f) = .ok r ↔ ∃ a, x = .ok a ∧ f a = .ok r := by
  cases x with
  | error e => simp [bind, Except.bind]
  | ok a => simp [bind, Except.bind]

theorem bind_of_ok {α β : Type u} {x : Except ε α} {f : α → Except ε β} {a : α} (h : x = .ok a) :
    (x >>= f) = f a := by
  rw [h]
  rfl

theorem bind_eq_error {α β : Type u} {x : Except ε α} {f : α → Except ε β} {e : ε} :
    (x >>= f) = .error e ↔ x = .error e ∨ ∃ a, x = .ok a ∧ f a = .error e := by
  cases x with
  | error e => simp [bind, Except.bind]
  | ok a => simp [bind, Except.bind]

theorem pure_eq_ok {a b : α} : (pure a : Except ε α) = .ok b ↔ a = b := by
  simp [pure, Except.pure]

@[simp] theorem mapError_eq_ok {ε' : Type*} {x : Except ε α} {f : ε → ε'} {a : α} :
    x.mapError f = .ok a ↔ x = .ok a := by
  cases x <;> simp [Except.mapError]

theorem exists_ok {x : Except ε α} (h : x.isOk = true) : ∃ a, x = .ok a := by
  cases x with
  | error e => simp [Except.isOk, Except.toBool] at h
  | ok a => exact ⟨a, rfl⟩

theorem foldlM_cons_ok {f : σ → α → Except ε σ} {x : α} {xs : List α} {s t : σ} :
    (x :: xs).foldlM f s = .ok t ↔ ∃ m, f s x = .ok m ∧ xs.foldlM f m = .ok t := by
  rw [List.foldlM_cons, bind_eq_ok]

theorem foldlM_append_ok {f : σ → α → Except ε σ} {xs ys : List α} {s t : σ} :
    (xs ++ ys).foldlM f s = .ok t ↔ ∃ m, xs.foldlM f s = .ok m ∧ ys.foldlM f m = .ok t := by
  rw [List.foldlM_append, bind_eq_ok]

theorem foldlM_eq_error {σ : Type u} {f : σ → α → Except ε σ} {xs : List α} {s : σ} {e : ε} :
    xs.foldlM f s = .error e ↔
      ∃ done x rest m, xs = done ++ x :: rest ∧ done.foldlM f s = .ok m ∧ f m x = .error e := by
  induction xs generalizing s with
  | nil => simp [pure, Except.pure]
  | cons x xs ih =>
    rw [List.foldlM_cons, bind_eq_error]
    constructor
    · intro h
      rcases h with h | ⟨m, hm, hrest⟩
      · exact ⟨[], x, xs, s, rfl, rfl, h⟩
      · obtain ⟨done, y, rest, n, rfl, hn, hy⟩ := ih.mp hrest
        exact ⟨x :: done, y, rest, n, rfl, foldlM_cons_ok.mpr ⟨m, hm, hn⟩, hy⟩
    · rintro ⟨done, y, rest, n, hxs, hn, hy⟩
      cases done with
      | nil =>
        rw [List.foldlM_nil, pure_eq_ok] at hn
        obtain ⟨rfl, rfl⟩ := List.cons.inj hxs
        exact .inl (hn ▸ hy)
      | cons z done =>
        obtain ⟨rfl, rfl⟩ := List.cons.inj hxs
        obtain ⟨m, hm, hn⟩ := foldlM_cons_ok.mp hn
        exact .inr ⟨m, hm, ih.mpr ⟨done, y, rest, n, rfl, hn, hy⟩⟩

/-- When a loop stops with `o`: some front part of its list, which stops for
nothing else (`E`), would cross a limit (`X`) that no completed part crosses. -/
theorem foldlM_stops_iff {σ : Type u} {f : σ → α → Except ε σ} {E X : List α → Prop} {s : σ} {o : ε}
    (hdone : ∀ done m, done.foldlM f s = .ok m → ¬ X done)
    (hstop : ∀ done x m, done.foldlM f s = .ok m → f m x = .error o →
      E (done ++ [x]) ∧ X (done ++ [x]))
    (honly : ∀ done e, E done → done.foldlM f s = .error e → e = o) {xs : List α} :
    xs.foldlM f s = .error o ↔ ∃ done rest, xs = done ++ rest ∧ E done ∧ X done := by
  constructor
  · intro h
    obtain ⟨done, x, rest, m, rfl, hm, hx⟩ := foldlM_eq_error.mp h
    exact ⟨done ++ [x], rest, by simp, hstop done x m hm hx⟩
  · rintro ⟨done, rest, rfl, hE, hX⟩
    rw [List.foldlM_append, bind_eq_error]
    left
    cases hloop : done.foldlM f s with
    | ok m => exact absurd hX (hdone done m hloop)
    | error e => rw [honly done e hE hloop]

/-- A computation that fails with nothing but `P`. -/
def FailsOnly (P : ε → Prop) (x : Except ε α) : Prop := ∀ e, x = .error e → P e

theorem FailsOnly.pure {P : ε → Prop} (a : α) : FailsOnly P (pure a : Except ε α) := by
  intro e h
  cases h

theorem FailsOnly.bind {α β : Type u} {P : ε → Prop} {x : Except ε α} {f : α → Except ε β}
    (hx : FailsOnly P x) (hf : ∀ a, FailsOnly P (f a)) : FailsOnly P (x >>= f) := by
  intro e h
  rcases bind_eq_error.mp h with h | ⟨a, -, h⟩
  · exact hx e h
  · exact hf a e h

theorem FailsOnly.foldlM {σ : Type u} {P : ε → Prop} {f : σ → α → Except ε σ}
    (hf : ∀ s x, FailsOnly P (f s x)) (xs : List α) (s : σ) : FailsOnly P (xs.foldlM f s) := by
  intro e h
  obtain ⟨-, x, -, m, -, -, hx⟩ := foldlM_eq_error.mp h
  exact hf m x e hx

theorem FailsOnly.forM {P : ε → Prop} {f : α → Except ε PUnit.{u + 1}}
    (hf : ∀ x, FailsOnly P (f x)) (xs : List α) : FailsOnly P (xs.forM f) := by
  induction xs with
  | nil => exact FailsOnly.pure _
  | cons x xs ih => exact (hf x).bind fun _ => ih

/-- A property kept by every iteration that succeeds holds after the loop. -/
theorem foldlM_invariant {f : σ → α → Except ε σ} {I : σ → Prop} {xs : List α} {s t : σ}
    (hstep : ∀ s t, ∀ x ∈ xs, I s → f s x = .ok t → I t)
    (hs : I s) (h : xs.foldlM f s = .ok t) : I t := by
  induction xs generalizing s with
  | nil =>
    rw [List.foldlM_nil, pure_eq_ok] at h
    exact h ▸ hs
  | cons x xs ih =>
    obtain ⟨m, hm, hrest⟩ := foldlM_cons_ok.mp h
    have hI : I m := hstep s m x List.mem_cons_self hs hm
    exact ih (fun s t y hy => hstep s t y (List.mem_cons_of_mem _ hy)) hI hrest

/-- A quantity that every iteration moves by an amount of its own moves by
their sum over the loop. -/
theorem foldlM_sum {M : Type*} [AddCommMonoid M] {f : σ → α → Except ε σ} (m : σ → M) (d : α → M)
    (hstep : ∀ s x t, f s x = .ok t → m t = m s + d x) {xs : List α} {s t : σ}
    (h : xs.foldlM f s = .ok t) : m t = m s + (xs.map d).sum := by
  induction xs generalizing s with
  | nil =>
    rw [List.foldlM_nil, pure_eq_ok] at h
    simp [h]
  | cons x xs ih =>
    obtain ⟨u, hu, hrest⟩ := foldlM_cons_ok.mp h
    rw [ih hrest, hstep s x u hu, List.map_cons, List.sum_cons, add_assoc]

theorem foldlM_mem_ok {f : σ → α → Except ε σ} {xs : List α} {s t : σ}
    (h : xs.foldlM f s = .ok t) {x : α} (hx : x ∈ xs) : ∃ u v, f u x = .ok v := by
  obtain ⟨l, r, rfl⟩ := List.append_of_mem hx
  obtain ⟨u, -, hr⟩ := foldlM_append_ok.mp h
  obtain ⟨v, hv, -⟩ := foldlM_cons_ok.mp hr
  exact ⟨u, v, hv⟩

/-- A loop succeeds when an invariant of the state and the rest of the list
lets every pass succeed and is kept by it. -/
theorem foldlM_progress {f : σ → α → Except ε σ} {I : List α → σ → Prop}
    (hstep : ∀ x xs s, I (x :: xs) s → ∃ t, f s x = .ok t ∧ I xs t) {xs : List α} {s : σ}
    (hs : I xs s) : ∃ t, xs.foldlM f s = .ok t ∧ I [] t := by
  induction xs generalizing s with
  | nil => exact ⟨s, rfl, hs⟩
  | cons x xs ih =>
    obtain ⟨m, hm, hI⟩ := hstep x xs s hs
    obtain ⟨t, ht, hend⟩ := ih hI
    exact ⟨t, foldlM_cons_ok.mpr ⟨m, hm, ht⟩, hend⟩

/-- Two loops over one list run in step: what the first does from `s` the
second does from any state related to `s`. -/
theorem foldlM_simulation {τ ε' : Type*} {f : σ → α → Except ε σ} {g : τ → α → Except ε' τ}
    {R : σ → τ → Prop}
    (hstep : ∀ s t x s', R s t → f s x = .ok s' → ∃ t', g t x = .ok t' ∧ R s' t')
    {xs : List α} {s s' : σ} {t : τ} (hR : R s t) (h : xs.foldlM f s = .ok s') :
    ∃ t', xs.foldlM g t = .ok t' ∧ R s' t' := by
  induction xs generalizing s t with
  | nil =>
    rw [List.foldlM_nil, pure_eq_ok] at h
    exact ⟨t, rfl, h ▸ hR⟩
  | cons x xs ih =>
    obtain ⟨m, hm, hrest⟩ := foldlM_cons_ok.mp h
    obtain ⟨n, hn, hRn⟩ := hstep s t x m hR hm
    obtain ⟨t', ht', hend⟩ := ih hRn hrest
    exact ⟨t', foldlM_cons_ok.mpr ⟨n, hn, ht'⟩, hend⟩

/-- The first computation does what the second does, up to `R`, and fails where
and as it fails, unless it stops with `o`. -/
inductive AgreeUnless {τ : Type*} (o : ε) (R : σ → τ → Prop) : Except ε σ → Except ε τ → Prop
  | stopped (y : Except ε τ) : AgreeUnless o R (.error o) y
  | failed (e : ε) : AgreeUnless o R (.error e) (.error e)
  | done {s : σ} {t : τ} (h : R s t) : AgreeUnless o R (.ok s) (.ok t)

theorem AgreeUnless.refl (o : ε) (x : Except ε σ) : AgreeUnless o Eq x x := by
  cases x with
  | error e => exact .failed e
  | ok s => exact .done rfl

theorem AgreeUnless.bind {σ σ' τ τ' : Type u} {o : ε} {R : σ → τ → Prop}
    {R' : σ' → τ' → Prop} {x : Except ε σ} {y : Except ε τ} {f : σ → Except ε σ'}
    {g : τ → Except ε τ'} (h : AgreeUnless o R x y)
    (hnext : ∀ s t, R s t → AgreeUnless o R' (f s) (g t)) :
    AgreeUnless o R' (x >>= f) (y >>= g) := by
  cases h with
  | stopped => exact .stopped _
  | failed e => exact .failed e
  | done hR => exact hnext _ _ hR

theorem AgreeUnless.map_right {τ τ' : Type u} {o : ε} {R : σ → τ → Prop} {R' : σ → τ' → Prop}
    {x : Except ε σ} {y : Except ε τ} {g : τ → τ'} (h : AgreeUnless o R x y)
    (hmap : ∀ s t, x = .ok s → R s t → R' s (g t)) :
    AgreeUnless o R' x (y >>= fun t => pure (g t)) := by
  cases h with
  | stopped => exact .stopped _
  | failed e => exact .failed e
  | done hR => exact .done (hmap _ _ rfl hR)

theorem AgreeUnless.foldlM {σ τ : Type u} {o : ε} {f : σ → α → Except ε σ}
    {g : τ → α → Except ε τ} {R : σ → τ → Prop}
    (hstep : ∀ s t x, R s t → AgreeUnless o R (f s x) (g t x)) {xs : List α} {s : σ} {t : τ}
    (hR : R s t) : AgreeUnless o R (xs.foldlM f s) (xs.foldlM g t) := by
  induction xs generalizing s t with
  | nil => exact .done hR
  | cons x xs ih =>
    rw [List.foldlM_cons, List.foldlM_cons]
    exact (hstep s t x hR).bind fun m n hm => ih hm

/-- What one pass adds to a set, the whole loop adds. -/
theorem mem_foldl_iff {g : Finset σ → α → Finset σ} {P : α → σ → Prop}
    (hstep : ∀ s x y, y ∈ g s x ↔ y ∈ s ∨ P x y) {xs : List α} {s : Finset σ} {y : σ} :
    y ∈ xs.foldl g s ↔ y ∈ s ∨ ∃ x ∈ xs, P x y := by
  induction xs generalizing s with
  | nil => simp
  | cons x xs ih =>
    rw [List.foldl_cons, ih, hstep, or_assoc]
    simp only [List.mem_cons, exists_eq_or_imp]

theorem forM_ok_iff {f : α → Except ε PUnit} {xs : List α} :
    xs.forM f = .ok ⟨⟩ ↔ ∀ x ∈ xs, f x = .ok ⟨⟩ := by
  induction xs with
  | nil => simp [pure_eq_ok]
  | cons x xs ih =>
    rw [List.forM_eq_forM, List.forM_cons, bind_eq_ok]
    simp only [List.mem_cons, forall_eq_or_imp]
    rw [← ih, List.forM_eq_forM]
    constructor
    · rintro ⟨_, hx, hxs⟩
      exact ⟨hx, hxs⟩
    · rintro ⟨hx, hxs⟩
      exact ⟨_, hx, hxs⟩

theorem forM_eq_ok {f : α → Except ε PUnit} {xs : List α} {u : PUnit} :
    xs.forM f = .ok u ↔ ∀ x ∈ xs, f x = .ok ⟨⟩ := forM_ok_iff

theorem mapM_eq_ok {α β : Type u} {f : α → Except ε β} {xs : List α} {ys : List β} :
    xs.mapM f = .ok ys ↔ List.Forall₂ (fun x y => f x = .ok y) xs ys := by
  induction xs generalizing ys with
  | nil => rw [List.mapM_nil, pure_eq_ok, List.forall₂_nil_left_iff, eq_comm]
  | cons x xs ih =>
    simp only [List.mapM_cons, bind_eq_ok, pure_eq_ok, List.forall₂_cons_left_iff, ih]
    constructor
    · rintro ⟨y, hy, l, hl, rfl⟩
      exact ⟨y, l, hy, hl, rfl⟩
    · rintro ⟨y, l, hy, hl, rfl⟩
      exact ⟨y, hy, l, hl, rfl⟩

theorem mapM_exists {α β : Type u} {f : α → Except ε β} {xs : List α}
    (h : ∀ x ∈ xs, ∃ y, f x = .ok y) : ∃ ys, xs.mapM f = .ok ys := by
  induction xs with
  | nil => exact ⟨[], rfl⟩
  | cons x xs ih =>
    obtain ⟨hx, hxs⟩ := List.forall_mem_cons.mp h
    obtain ⟨y, hy⟩ := hx
    obtain ⟨ys, hys⟩ := ih hxs
    exact ⟨y :: ys, mapM_eq_ok.mpr (.cons hy (mapM_eq_ok.mp hys))⟩

theorem mapM_mem {α β : Type u} {f : α → Except ε β} {xs : List α} {ys : List β}
    (h : xs.mapM f = .ok ys) :
    (∀ x ∈ xs, ∃ y ∈ ys, f x = .ok y) ∧ ∀ y ∈ ys, ∃ x ∈ xs, f x = .ok y := by
  rw [mapM_eq_ok] at h
  induction h with
  | nil => simp
  | cons hxy _ ih =>
    simp only [List.forall_mem_cons, List.exists_mem_cons_iff]
    exact ⟨⟨.inl hxy, fun x hx => .inr (ih.1 x hx)⟩, .inl hxy, fun y hy => .inr (ih.2 y hy)⟩

theorem mapM_map {α β : Type u} {γ : Type*} {f : α → Except ε β} {g : β → γ} {k : α → γ}
    {xs : List α} {ys : List β} (hf : ∀ x ∈ xs, ∀ y, f x = .ok y → g y = k x)
    (h : xs.mapM f = .ok ys) : ys.map g = xs.map k := by
  rw [mapM_eq_ok] at h
  induction h with
  | nil => rfl
  | cons hxy _ ih =>
    obtain ⟨hhead, htail⟩ := List.forall_mem_cons.mp hf
    rw [List.map_cons, List.map_cons, hhead _ hxy, ih htail]

end Foundations
