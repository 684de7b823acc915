import DianProtocol.Lib.Lines

set_option autoImplicit false

/-! # Reading a text from front to back

A reader is asked for `n` elements or for everything up to a delimiter. The ideal reader is a cursor
in the text: it answers with the next part of what is left and moves behind it. `Delivers` says what
a sequence of answers must be like so that nothing is lost, repeated or invented, and `Along` makes a
statement about every call at the place where the cursor is when the call is made.
-/

namespace Cursor

open Lines

variable {α : Type}

/-! ## Up to a delimiter -/

/-- `r` is what a text starts with up to the first `d`, or all of it if there is none. -/
def Until (d t r : List α) : Prop := r <+: t ∧ (Line d r ∨ (r = t ∧ ¬ d <:+: t))

/-- There is one way to read up to a delimiter. -/
theorem Until.unique {d t r r' : List α} (h : Until d t r) (h' : Until d t r') : r = r' := by
  rcases h.2 with hline | ⟨rfl, hfree⟩
  · rcases h'.2 with hline' | ⟨rfl, hfree'⟩
    · exact hline.unique hline' h.1 h'.1
    · exact absurd (hline.infix_of_prefix h.1) hfree'
  · rcases h'.2 with hline' | ⟨rfl, -⟩
    · exact absurd (hline'.infix_of_prefix h'.1) hfree
    · rfl

theorem not_infix_nil {d : List α} (hd : d ≠ []) : ¬ d <:+: [] := by
  rwa [List.infix_nil]

section

variable [DecidableEq α] {d l t seen : List α}

/-- `seen`, and what follows it up to the first place where it ends in `d`. -/
def scan (d : List α) : List α → List α → List α
  | seen, [] => seen
  | seen, c :: left => if d <:+ seen ++ [c] then seen ++ [c] else scan d (seen ++ [c]) left

/-- The text up to the first `d`. -/
def cut (d t : List α) : List α := scan d [] t

theorem prefix_scan (d seen left : List α) : scan d seen left <+: seen ++ left := by
  induction left generalizing seen with
  | nil =>
      rw [List.append_nil]
      exact List.prefix_rfl
  | cons c left ih =>
      have happ : seen ++ c :: left = seen ++ [c] ++ left := by simp
      rw [scan, happ]
      split
      · exact List.prefix_append _ _
      · exact ih (seen ++ [c])

theorem prefix_cut (d t : List α) : cut d t <+: t := prefix_scan d [] t

theorem scan_until (hfree : ¬ d <:+: seen) (left : List α) :
    Until d (seen ++ left) (scan d seen left) := by
  induction left generalizing seen with
  | nil =>
      rw [List.append_nil]
      exact ⟨List.prefix_rfl, Or.inr ⟨rfl, hfree⟩⟩
  | cons c left ih =>
      have happ : seen ++ c :: left = seen ++ [c] ++ left := by simp
      rw [scan, happ]
      by_cases hend : d <:+ seen ++ [c]
      · rw [if_pos hend]
        exact ⟨List.prefix_append _ _, Or.inl (line_snoc hfree hend)⟩
      · rw [if_neg hend]
        exact ih (not_infix_snoc hfree hend)

theorem cut_until (hd : d ≠ []) (t : List α) : Until d t (cut d t) :=
  scan_until (not_infix_nil hd) t

theorem Until.eq_cut {r : List α} (h : Until d t r) (hd : d ≠ []) : r = cut d t :=
  h.unique (cut_until hd t)

theorem cut_eq_self (hd : d ≠ []) (h : ¬ d <:+: t) : cut d t = t := by
  have huntil : Until d t t := ⟨List.prefix_rfl, Or.inr ⟨rfl, h⟩⟩
  exact (huntil.eq_cut hd).symm

/-- A text that contains the delimiter is cut behind it. -/
theorem line_cut (hd : d ≠ []) (h : d <:+: t) : Line d (cut d t) := by
  rcases (cut_until hd t).2 with hline | ⟨-, hfree⟩
  · exact hline
  · exact absurd h hfree

theorem cut_append_drop (d t : List α) : cut d t ++ t.drop (cut d t).length = t := by
  have hpre := prefix_cut d t
  generalize cut d t = l at hpre
  obtain ⟨rest, rfl⟩ := hpre
  rw [List.drop_left]

/-- The first part of a text is cut where the whole text is, or not at all. -/
theorem cut_take (hd : d ≠ []) (t : List α) (n : Nat) :
    cut d (t.take n) = (cut d t).take n := by
  refine (Until.eq_cut ?_ hd).symm
  have hpre : (cut d t).take n <+: t.take n := by
    obtain ⟨rest, hrest⟩ := prefix_cut d t
    conv_rhs => rw [← hrest]
    rw [List.take_append]
    exact List.prefix_append _ _
  refine ⟨hpre, ?_⟩
  by_cases hlen : (cut d t).length ≤ n
  · rw [List.take_of_length_le hlen]
    rcases (cut_until hd t).2 with hline | ⟨heq, hfree⟩
    · exact Or.inl hline
    · refine Or.inr ⟨?_, fun hin => hfree (hin.trans (List.take_prefix _ _).isInfix)⟩
      rw [heq, List.take_of_length_le (heq ▸ hlen)]
  · -- the delimiter ends behind the first part
    have hlong : n < (cut d t).length := by omega
    have htake : (cut d t).take n = t.take n := by
      refine hpre.eq_of_length ?_
      have hle := (prefix_cut d t).length_le
      rw [List.length_take, List.length_take]
      omega
    refine Or.inr ⟨htake, fun hin => ?_⟩
    rcases (cut_until hd t).2 with hline | ⟨-, hfree⟩
    · refine hline.first (hin.trans ?_)
      rw [← htake, List.dropLast_eq_take]
      exact (List.take_prefix_take_left (by omega)).isInfix
    · exact hfree (hin.trans (List.take_prefix _ _).isInfix)

end

/-! ## Calls and answers -/

/-- What a reader is asked for. -/
inductive Call (α : Type) where
  | read (n : Nat)
  | readUntil (d : List α)

/-- The call asks for something. -/
def Call.Proper : Call α → Prop
  | .read n => 0 < n
  | .readUntil d => d ≠ []

instance [DecidableEq α] (c : Call α) : Decidable c.Proper :=
  match c with
  | .read n => inferInstanceAs (Decidable (0 < n))
  | .readUntil d => inferInstanceAs (Decidable (d ≠ []))

/-- The answers lose, repeat and invent nothing of `content`. -/
structure Delivers (content : List α) (calls : List (Call α)) (results : List (List α)) :
    Prop where
  length : results.length = calls.length
  before : ∀ i, (results.take i).flatten <+: content
  until_ : ∀ i d r, calls[i]? = some (.readUntil d) → results[i]? = some r →
    Until d (content.drop (results.take i).flatten.length) r
  ended : ∀ i r, results[i]? = some r → (results.take i).flatten = content → r = []

theorem delivers_nil (content : List α) : Delivers content [] [] where
  length := rfl
  before := fun i => by
    rw [List.take_nil]
    exact List.nil_prefix
  until_ := fun i d r h => by cases h
  ended := fun i r h => by cases h

/-- What is left behind the first answer and some more. -/
theorem drop_first (r rest : List α) (rs : List (List α)) :
    (r ++ rest).drop (r :: rs).flatten.length = rest.drop rs.flatten.length := by
  rw [List.flatten_cons, List.length_append, List.drop_length_add_append]

/-- One answer after the other. -/
theorem delivers_cons {content r : List α} {c : Call α} {cs : List (Call α)}
    {rs : List (List α)} :
    Delivers content (c :: cs) (r :: rs) ↔
      r <+: content ∧ (∀ d, c = .readUntil d → Until d content r) ∧
        Delivers (content.drop r.length) cs rs := by
  constructor
  · intro h
    have hr : r <+: content := by simpa using h.before 1
    obtain ⟨rest, rfl⟩ := hr
    have hrest : ∀ i, (rs.take i).flatten <+: rest := fun i => by
      simpa using h.before (i + 1)
    have hleft := fun i => drop_first r rest (rs.take i)
    refine ⟨List.prefix_append _ _, fun d hc => ?_, ?_⟩
    · simpa using h.until_ 0 d r (by rw [hc]; rfl) rfl
    · rw [List.drop_left]
      refine ⟨by simpa using h.length, hrest, fun i d r' hc hr' => ?_, fun i r' hr' hall => ?_⟩
      · have huntil := h.until_ (i + 1) d r' hc hr'
        rwa [List.take_succ_cons, hleft] at huntil
      · exact h.ended (i + 1) r' hr' (by simp [hall])
  · rintro ⟨⟨rest, rfl⟩, huntil, h⟩
    rw [List.drop_left] at h
    refine ⟨by simp [h.length], fun i => ?_, fun i d r' hc hr' => ?_, fun i r' hr' hall => ?_⟩
    · cases i with
      | zero => simp
      | succ i => simpa using h.before i
    · cases i with
      | zero =>
          cases hr'
          simpa using huntil d (by simpa using hc)
      | succ i =>
          rw [List.take_succ_cons, drop_first]
          exact h.until_ i d r' hc hr'
    · cases i with
      | zero =>
          cases hr'
          have hnil : r ++ rest = [] := hall.symm
          exact (List.append_eq_nil_iff.mp hnil).1
      | succ i => exact h.ended i r' hr' (by simpa using hall)

section

variable [DecidableEq α]

/-- The answer of the cursor when `left` is left of the text. -/
def Call.answer (left : List α) : Call α → List α
  | .read n => left.take n
  | .readUntil d => cut d left

theorem Call.prefix_answer (c : Call α) (left : List α) : c.answer left <+: left := by
  cases c with
  | read n => exact List.take_prefix _ _
  | readUntil d => exact prefix_cut d left

/-- `P i left c` holds of the `i`-th call `c`, made when `left` is left, from the number `i` on. -/
def Along (P : Nat → List α → Call α → Prop) : Nat → List α → List (Call α) → Prop
  | _, _, [] => True
  | i, left, c :: cs => P i left c ∧ Along P (i + 1) (left.drop (c.answer left).length) cs

end

end Cursor
