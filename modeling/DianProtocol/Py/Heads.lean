import DianProtocol.Py.Message

set_option autoImplicit false

/-! # Heads are read as they are written

What the three patterns make of the lines that `parse` and `parsehead` write, and that the loop
over the header lines gives back the headers of a message. The `\r` at the end of a line ends up in
the last group of its pattern; `strip` takes it out of a header's value.
-/

namespace DianProtocol.Py

open Regex Lines

/-- A header key that can stand in front of a colon. -/
structure LegalKey (key : Text) : Prop where
  ne_nil : key ≠ []
  stripped : strip key = key
  no_colon : ':' ∉ key
  no_newline : '\n' ∉ key

/-- A header value that fits into a line. -/
structure LegalValue (value : Text) : Prop where
  stripped : strip value = value
  no_newline : '\n' ∉ value

/-- All keys and values are legal. -/
def LegalHeaders (headers : Dict) : Prop :=
  ∀ item ∈ headers.items, LegalKey item.1 ∧ LegalValue item.2

theorem LegalHeaders.set {headers : Dict} {key value : Text} (h : LegalHeaders headers)
    (hkey : LegalKey key) (hvalue : LegalValue value) : LegalHeaders (headers.set key value) := by
  intro item hitem
  rcases Dict.mem_setItems hitem with rfl | hmem
  · exact ⟨hkey, hvalue⟩
  · exact h item hmem

theorem dot_of_not_mem {t : Text} (h : '\n' ∉ t) : ∀ c ∈ t, dot c = true := by
  intro c hc
  have hne : c ≠ '\n' := fun heq => h (heq ▸ hc)
  simp [dot, hne]

theorem dot_line {t : Text} (h : '\n' ∉ t) : ∀ c ∈ t ++ ['\r'], dot c = true := by
  refine dot_of_not_mem fun hmem => ?_
  rcases List.mem_append.mp hmem with hmem | hmem
  · exact h hmem
  · exact absurd hmem (by decide)

/-- The end of every pattern: the last group takes the rest of the line, with the `\r`. -/
theorem head_last (name : String) {t : Text} (h : '\n' ∉ t) :
    (results (.seq (.group name (.rep true 1 dot)) lineEnd) (t ++ ['\r'] ++ ['\n'])).head? =
      some ⟨[(name, t ++ ['\r'])], t ++ ['\r'], ['\n']⟩ := by
  have hend : (results lineEnd ['\n']).head? = some ⟨[], [], ['\n']⟩ := by decide
  rw [head_group_rep name (dot_line h) (by simp) (failsBefore_of_stop (by decide)) hend]
  simp

/-! ## Header lines -/

/-- White space at the end of a stripped text. -/
theorem not_isspace_last {t : Text} {c : Char} (h : strip (t ++ [c]) = t ++ [c]) :
    isspace c = false := by
  by_contra hc
  have hle := strip_length_le t
  have hlen := congrArg List.length h
  rw [strip_concat (by simpa using hc), List.length_append, List.length_singleton] at hlen
  omega

theorem not_isspace_first {t : Text} {c : Char} (h : strip (c :: t) = c :: t) :
    isspace c = false := by
  by_contra hc
  have hle := strip_length_le t
  have hlen := congrArg List.length h
  rw [strip_cons (by simpa using hc), List.length_cons] at hlen
  omega

/-- A stripped text does not end in blanks. -/
theorem not_blank_end {t blanks : Text} (h : strip (t ++ blanks) = t ++ blanks) (hne : blanks ≠ [])
    (hblanks : ∀ c ∈ blanks, decide (c = ' ') = true) : False := by
  obtain ⟨init, last, rfl⟩ := List.eq_nil_or_concat' blanks |>.resolve_left hne
  have hlast : last = ' ' := by simpa using hblanks last (by simp)
  rw [← List.append_assoc] at h
  have hspace := not_isspace_last h
  rw [hlast] at hspace
  exact absurd hspace (by decide)

/-- A key is taken whole: a shorter part is not followed by blanks and a colon. -/
theorem key_failsBefore {key v : Text} {b : Pat Char} (hk : LegalKey key) :
    FailsBefore false 1 dot (.seq (.rep true 0 (· = ' ')) (.seq (.one (· = ':')) b)) key
      (':' :: v) := by
  intro u' v' heq _ _ hlt
  rw [if_neg (by simp)] at hlt
  apply results_eq_nil
  intro x hx
  obtain ⟨y, hy, z, hz, -⟩ := mem_seq.mp hx
  obtain ⟨blanks, w, rfl, hblanks, -, rfl⟩ := mem_rep.mp hy
  obtain ⟨y', hy', -, -, -⟩ := mem_seq.mp hz
  obtain ⟨c, t, rfl, hc, -⟩ := mem_one.mp hy'
  have hc' : c = ':' := by simpa using hc
  subst hc'
  -- the part of the key that is left is blank, or it contains the colon
  obtain ⟨left, rfl, hleft⟩ : ∃ left, key = u' ++ left ∧ left ++ ':' :: v = blanks ++ ':' :: t := by
    rcases List.append_eq_append_iff.mp heq with ⟨more, rfl, -⟩ | ⟨left, hkey, hrest⟩
    · simp only [List.length_append] at hlt
      omega
    · exact ⟨left, hkey, hrest.symm⟩
  have hne : left ≠ [] := by
    rintro rfl
    simp at hlt
  have hcolon : ':' ∉ left := fun hmem => hk.no_colon (List.mem_append_right _ hmem)
  obtain ⟨more, rfl, -⟩ := split_of_not_mem_left hcolon hleft
  exact not_blank_end hk.stripped hne fun c hc => hblanks c (List.mem_append_left _ hc)

/-- A header line, with any number of blanks behind its colon. -/
theorem header_match {key value blanks : Text} (hk : LegalKey key) (hv : LegalValue value)
    (hblanks : ∀ c ∈ blanks, decide (c = ' ') = true) :
    BaseHeader_re.match? (key ++ (':' :: (blanks ++ (value ++ ['\r'] ++ ['\n'])))) =
      some ⟨[("key", key), ("value", value ++ ['\r'])],
        key ++ (':' :: (blanks ++ (value ++ ['\r']))), ['\n']⟩ := by
  -- the blanks after the colon: the value does not start with one
  have hafter : (results (.seq (.rep true 0 (· = ' ')) (.seq (.group "value" (.rep true 1 dot))
      lineEnd)) (blanks ++ (value ++ ['\r'] ++ ['\n']))).head? =
      some ⟨[("value", value ++ ['\r'])], blanks ++ (value ++ ['\r']), ['\n']⟩ := by
    have hfirst : ∃ c rest, value ++ ['\r'] ++ ['\n'] = c :: rest ∧ (c = ' ') = False := by
      cases value with
      | nil => exact ⟨'\r', ['\n'], rfl, by decide⟩
      | cons c value =>
          refine ⟨c, value ++ ['\r'] ++ ['\n'], rfl, ?_⟩
          have hspace := not_isspace_first hv.stripped
          refine eq_false fun hc => ?_
          rw [hc] at hspace
          exact absurd hspace (by decide)
    have hlast := head_last "value" hv.no_newline
    obtain ⟨c, rest, hrest, hc⟩ := hfirst
    rw [hrest] at hlast ⊢
    have hstop : FailsBefore true 0 (· = ' ') (.seq (.group "value" (.rep true 1 dot)) lineEnd)
        blanks (c :: rest) := failsBefore_of_stop (by simp [hc])
    exact head_rep hblanks (Nat.zero_le _) hstop hlast
  have hcolon := head_one (p := (· = ':')) (c := ':') (by decide) hafter
  -- there are none in front of it
  have hbefore : FailsBefore true 0 (· = ' ') (.seq (.one (· = ':')) (.seq (.rep true 0 (· = ' '))
      (.seq (.group "value" (.rep true 1 dot)) lineEnd))) []
      (':' :: (blanks ++ (value ++ ['\r'] ++ ['\n']))) := failsBefore_of_stop (by decide)
  have hmid := head_rep (u := []) (by simp) (by simp) hbefore hcolon
  have hmin : 1 ≤ key.length := List.length_pos_iff.mpr hk.ne_nil
  exact head_group_rep "key" (dot_of_not_mem hk.no_newline) hmin (key_failsBefore hk) hmid

/-! ## The first line of a response -/

/-- `d` is a number in `t`: decimal digits between two blanks, the first of which may be the one in
front of `t`. -/
def NumberAt (t a d b : Text) : Prop :=
  ' ' :: t = a ++ ' ' :: (d ++ ' ' :: b) ∧ d ≠ [] ∧ ∀ c ∈ d, ascii_digit c = true

/-- The number `d` is the last one in `t`. -/
def LastNumber (t d : Text) : Prop :=
  ∃ a b, NumberAt t a d b ∧ ∀ a' d' b', ¬ NumberAt b a' d' b'

theorem NumberAt.last {t a d b : Text} (h : NumberAt t a d b) :
    ∃ a' d' b', NumberAt t a' d' b' ∧ ∀ a d b, ¬ NumberAt b' a d b := by
  by_cases hmore : ∃ a' d' b', NumberAt b a' d' b'
  · -- the last number behind this one is the last of all
    obtain ⟨a', d', b', h'⟩ := hmore
    obtain ⟨a'', d'', b'', h'', hlast⟩ := h'.last
    refine ⟨a ++ ' ' :: (d ++ a''), d'', b'', ⟨?_, h''.2⟩, hlast⟩
    rw [h.1, h''.1]
    simp
  · exact ⟨a, d, b, h, fun a' d' b' h' => hmore ⟨a', d', b', h'⟩⟩
termination_by t.length
decreasing_by
  have hlen := congrArg List.length h.1
  simp only [List.length_cons, List.length_append] at hlen
  omega

theorem blank_not_digit {c : Char} (h : ascii_digit c = true) : c ≠ ' ' := by
  rintro rfl
  exact absurd h (by decide)

/-- A text without digits contains no number. -/
theorem not_numberAt {t a d b : Text} (h : t.any ascii_digit = false) : ¬ NumberAt t a d b := by
  rintro ⟨hsplit, hne, hd⟩
  obtain ⟨c, d, rfl⟩ := List.exists_cons_of_ne_nil hne
  have hc := hd c (by simp)
  have hmem : c ∈ ' ' :: t := by
    rw [hsplit]
    simp
  rcases List.mem_cons.mp hmem with hblank | ht
  · exact blank_not_digit hc hblank
  · exact List.any_eq_false.mp h c ht hc

/-- Behind the version a number follows, and it is the last one of the line. -/
theorem version_failsBefore {version d b : Text} {p : Pat Char}
    (hd : ∀ c ∈ d, ascii_digit c = true) (hlast : ∀ a' d' b', ¬ NumberAt b a' d' b') :
    FailsBefore true 1 dot (.seq (.one (· = ' ')) (.seq (.group "status" (.rep true 1 ascii_digit))
      (.seq (.one (· = ' ')) p))) version (' ' :: (d ++ (' ' :: (b ++ ['\r'] ++ ['\n'])))) := by
  intro u' v' heq _ _ hlt
  rw [if_pos rfl] at hlt
  apply results_eq_nil
  intro x hx
  obtain ⟨y, hy, z, hz, -⟩ := mem_seq.mp hx
  obtain ⟨c, t, rfl, hc, rfl⟩ := mem_one.mp hy
  obtain ⟨status, hstatus, rest, hrest, -⟩ := mem_seq.mp hz
  obtain ⟨digits, hdigits, rfl⟩ := mem_group.mp hstatus
  obtain ⟨d', w, hsplit, hd', hmin, rfl⟩ := mem_rep.mp hdigits
  obtain ⟨blank, hblank, -, -, -⟩ := mem_seq.mp hrest
  obtain ⟨c', t', hw, hc', -⟩ := mem_one.mp hblank
  obtain rfl : c = ' ' := by simpa using hc
  obtain rfl : c' = ' ' := by simpa using hc'
  obtain rfl : w = ' ' :: t' := hw
  obtain rfl : t = d' ++ ' ' :: t' := hsplit
  -- the blank in front of the other number stands behind this one
  obtain ⟨m, rfl, hm⟩ : ∃ m, u' = version ++ ' ' :: (d ++ m) ∧
      ' ' :: (b ++ ['\r'] ++ ['\n']) = m ++ ' ' :: (d' ++ ' ' :: t') := by
    rcases List.append_eq_append_iff.mp heq with ⟨m, rfl, hm⟩ | ⟨m, rfl, -⟩
    · cases m with
      | nil => simp at hlt
      | cons c m =>
          -- it is not one of the digits
          obtain ⟨rfl, htail⟩ := List.cons.inj hm
          have hblank : ' ' ∉ d := fun hmem => blank_not_digit (hd _ hmem) rfl
          obtain ⟨m', rfl, hm'⟩ := split_of_not_mem_left hblank htail
          exact ⟨m', rfl, hm'⟩
    · simp only [List.length_append] at hlt
      omega
  -- and so does the blank behind it, in front of the end of the line
  have hassoc : (' ' :: b) ++ ['\r', '\n'] = (m ++ ' ' :: d') ++ ' ' :: t' := by
    simpa using hm
  obtain ⟨b', hb', -⟩ := split_of_not_mem_right (by decide) hassoc
  have hne : d' ≠ [] := List.ne_nil_of_length_pos hmin
  exact hlast m d' b' ⟨by simpa using hb', hne, hd'⟩

/-- The match of a line with a number after the version. -/
theorem responseHead_match {version d b : Text} (hversion : '\n' ∉ version) (hne : version ≠ [])
    (hd : ∀ c ∈ d, ascii_digit c = true) (hdne : d ≠ []) (hb : '\n' ∉ b)
    (hlast : ∀ a' d' b', ¬ NumberAt b a' d' b') :
    ResponseHead_re.match? (version ++ (' ' :: (d ++ (' ' :: (b ++ ['\r'] ++ ['\n']))))) =
      some ⟨[("version", version), ("status", d), ("status_text", b ++ ['\r'])],
        version ++ (' ' :: (d ++ (' ' :: (b ++ ['\r'])))), ['\n']⟩ := by
  have htext := head_one (p := (· = ' ')) (c := ' ') (by decide) (head_last "status_text" hb)
  have hdmin : 1 ≤ d.length := List.length_pos_iff.mpr hdne
  have hstatus := head_group_rep "status" hd hdmin (failsBefore_of_stop (by decide)) htext
  have hblank := head_one (p := (· = ' ')) (c := ' ') (by decide) hstatus
  have hmin : 1 ≤ version.length := List.length_pos_iff.mpr hne
  exact head_group_rep "version" (dot_of_not_mem hversion) hmin
    (version_failsBefore hd hlast) hblank

/-! ## The first line of a request -/

/-- A version without blanks is what stands behind the last blank of the line. -/
theorem url_failsBefore {url version : Text} {p : Pat Char} (hversion : ' ' ∉ version) :
    FailsBefore true 1 dot (.seq (.one (· = ' ')) p) url
      (' ' :: (version ++ ['\r'] ++ ['\n'])) := by
  intro u' v' heq _ _ hlt
  rw [if_pos rfl] at hlt
  apply results_eq_nil
  intro x hx
  obtain ⟨y, hy, -, -, -⟩ := mem_seq.mp hx
  obtain ⟨c, t, rfl, hc, -⟩ := mem_one.mp hy
  obtain rfl : c = ' ' := by simpa using hc
  rcases List.append_eq_append_iff.mp heq with ⟨m, rfl, hm⟩ | ⟨m, rfl, -⟩
  · cases m with
    | nil => simp at hlt
    | cons c m =>
        -- a longer url would leave a blank in the version
        obtain ⟨rfl, htail⟩ := List.cons.inj hm
        have hmem : ' ' ∈ version ++ ['\r'] ++ ['\n'] := by
          rw [htail]
          simp
        simp [hversion] at hmem
  · simp only [List.length_append] at hlt
    omega

theorem requestHead_match {method url version : Text} (hmethod : ∀ c ∈ method, ascii_upper c = true)
    (hmne : method ≠ []) (hurl : '\n' ∉ url) (hune : url ≠ []) (hversion : '\n' ∉ version)
    (hblank : ' ' ∉ version) :
    RequestHead_re.match? (method ++ (' ' :: (url ++ (' ' :: (version ++ ['\r'] ++ ['\n']))))) =
      some ⟨[("method", method), ("url", url), ("version", version ++ ['\r'])],
        method ++ (' ' :: (url ++ (' ' :: (version ++ ['\r'])))), ['\n']⟩ := by
  have hlast := head_one (p := (· = ' ')) (c := ' ') (by decide) (head_last "version" hversion)
  have hulen : 1 ≤ url.length := List.length_pos_iff.mpr hune
  have hmid := head_group_rep "url" (dot_of_not_mem hurl) hulen (url_failsBefore hblank) hlast
  have hfirst := head_one (p := (· = ' ')) (c := ' ') (by decide) hmid
  have hmlen : 1 ≤ method.length := List.length_pos_iff.mpr hmne
  exact head_group_rep "method" hmethod hmlen (failsBefore_of_stop (by decide)) hfirst

end DianProtocol.Py
