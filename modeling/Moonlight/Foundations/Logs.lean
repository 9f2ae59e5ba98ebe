import Mathlib

namespace Foundations

variable {E V : Type*}

/-- `l` alternates between `a` and `b` and starts with `a`. -/
def Alternates (a b : E) (l : List E) : Prop :=
  ∀ (i : ℕ) (e : E), l[i]? = some e → e = if Even i then a else b

namespace Alternates

variable {a b c : E} {l : List E}

theorem nil : Alternates a b [] := by
  intro i e h
  simp at h

theorem append (h : Alternates a b l) (hc : c = if Even l.length then a else b) :
    Alternates a b (l ++ [c]) := by
  intro i e he
  -- an index of the longer log is an old one or the new last one
  have hi : i < l.length ∨ i = l.length := by
    have := (List.getElem?_eq_some_iff.mp he).1
    rw [List.length_append, List.length_singleton] at this
    omega
  rcases hi with hi | rfl
  · rw [List.getElem?_append_left hi] at he
    exact h i e he
  · rw [List.getElem?_concat_length, Option.some.injEq] at he
    rw [← he, hc]

end Alternates

end Foundations
