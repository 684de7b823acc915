import Mathlib.Tactic

set_option autoImplicit false

/-! # Lines of a text

A *line* for a delimiter `d` is a list that ends in `d` and contains it nowhere else. A text is cut
into lines by reading to the first delimiter, so there is only one way to do it: two lines that a
text starts with are equal (`Line.unique`).
-/

namespace Lines

variable {α : Type} {d l l' t : List α}

/-- `l` ends at the first occurrence of `d` in it. -/
structure Line (d l : List α) : Prop where
  ends : d <:+ l
  first : ¬ d <:+: l.dropLast

theorem Line.infix_of_prefix (h : Line d l) (hp : l <+: t) : d <:+: t :=
  h.ends.isInfix.trans hp.isInfix

theorem Line.ne_nil (h : Line d l) : l ≠ [] := by
  rintro rfl
  exact h.first h.ends.isInfix

private theorem Line.eq_of_prefix (h : Line d l) (h' : Line d l') (hp : l <+: l') : l = l' := by
  obtain ⟨rest, rfl⟩ := hp
  cases hrest : rest with
  | nil => simp
  | cons a rest' =>
      have hne : rest ≠ [] := by simp [hrest]
      have hl : l <+: (l ++ rest).dropLast := by
        rw [List.dropLast_append_of_ne_nil hne]
        exact List.prefix_append _ _
      exact absurd (h.infix_of_prefix hl) h'.first

/-- A text starts with at most one line. -/
theorem Line.unique (h : Line d l) (h' : Line d l') (hp : l <+: t) (hp' : l' <+: t) : l = l' := by
  rcases List.prefix_or_prefix_of_prefix hp hp' with hll' | hl'l
  · exact h.eq_of_prefix h' hll'
  · exact (h'.eq_of_prefix h hl'l).symm

/-- The cut is determined: a line and the rest of the text. -/
theorem Line.append_inj {rest rest' : List α} (h : Line d l) (h' : Line d l')
    (heq : l ++ rest = l' ++ rest') : l = l' ∧ rest = rest' := by
  have hl' : l' <+: l ++ rest := by
    rw [heq]
    exact List.prefix_append _ _
  have hl : l = l' := h.unique h' (List.prefix_append _ _) hl'
  subst hl
  exact ⟨rfl, List.append_cancel_left heq⟩

/-- A line is found by reading on while there is no delimiter. -/
theorem line_snoc {c : α} (hfree : ¬ d <:+: l) (h : d <:+ l ++ [c]) : Line d (l ++ [c]) :=
  ⟨h, by rwa [List.dropLast_concat]⟩

theorem not_infix_snoc {c : α} (hfree : ¬ d <:+: l) (h : ¬ d <:+ l ++ [c]) :
    ¬ d <:+: l ++ [c] := by
  rw [List.infix_concat_iff]
  rintro (hs | hi)
  · exact h hs
  · exact hfree hi

/-! ## The place of a letter -/

/-- A letter that is not in the first part of a text is in the second. -/
theorem split_of_not_mem_left {c : α} {x y z w : List α} (hx : c ∉ x) (h : x ++ y = z ++ c :: w) :
    ∃ m, z = x ++ m ∧ y = m ++ c :: w := by
  rcases List.append_eq_append_iff.mp h with ⟨m, rfl, hy⟩ | ⟨m, rfl, hm⟩
  · exact ⟨m, rfl, hy⟩
  · cases m with
    | nil => exact ⟨[], by simp, hm.symm⟩
    | cons d m =>
        obtain ⟨rfl, -⟩ := List.cons.inj hm
        exact absurd (by simp) hx

/-- A letter that is not in the second part of a text is in the first. -/
theorem split_of_not_mem_right {c : α} {x y z w : List α} (hy : c ∉ y) (h : x ++ y = z ++ c :: w) :
    ∃ m, x = z ++ c :: m ∧ w = m ++ y := by
  rcases List.append_eq_append_iff.mp h with ⟨m, rfl, rfl⟩ | ⟨m, rfl, hm⟩
  · exact absurd (by simp) hy
  · cases m with
    | nil =>
        rw [List.nil_append] at hm
        exact absurd (hm ▸ List.mem_cons_self) hy
    | cons d m =>
        obtain ⟨rfl, rfl⟩ := List.cons.inj hm
        exact ⟨m, rfl, rfl⟩

end Lines
