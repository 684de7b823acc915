import DianProtocol.Cpp.Framing

set_option autoImplicit false

/-! # Well-formed heads

What `parseThis` makes of a head whose lines have the words that its scanners look for: it assigns
the words of the first line, inserts the headers in their order, and stops behind the empty line.
The memory in front of the receive buffers is empty here, so that no comparison starts in it.
-/

namespace DianProtocol.Cpp

open Lines

/-- A connection on which `text` arrives, with nothing in front of its receive buffers. -/
def clear (text : Str) : Conn := wire text fun _ => []

/-! ## Words -/

/-- A text that a scanner takes up to the separator `stop`. -/
structure Word (stop : Byte) (w : Str) : Prop where
  no_stop : stop ∉ w
  no_nul : nul ∉ w

theorem Word.headD_ne {stop : Byte} {w rest : Str} (h : Word stop w) (hstop : stop ≠ nul) :
    (w ++ stop :: rest).headD nul ≠ nul := by
  cases w with
  | nil => exact hstop
  | cons c w => exact fun heq => h.no_nul (by simp [show c = nul from heq])

theorem Word.token {stop : Byte} {w rest : Str} (h : Word stop w) (hstop : stop ≠ nul)
    (hrest : rest.headD nul ≠ nul) : token stop (w ++ stop :: rest) = some (w, rest) :=
  token_word hstop h.no_stop h.no_nul hrest

/-- A request line of three words. -/
theorem requestLine_words {method url version : Str} {major minor : Int}
    (hmethod : Word space method)
    (hurl : Word space url) (hversion : Word cr version)
    (hnumbers : sscanf_d_d (cstr version) = some (major, minor)) (base : Base) :
    requestLine base (method ++ space :: (url ++ space :: (version ++ crlf ++ [nul]))) =
      ({ base with method := method, url := url,
                   version := ⟨BitVec.ofInt 4 major, BitVec.ofInt 4 minor⟩ }, none) := by
  have hend : version ++ crlf ++ [nul] = version ++ cr :: [lf, nul] := by simp [crlf]
  rw [hend, requestLine, hmethod.token (by decide) (hurl.headD_ne (by decide))]
  dsimp only
  rw [hurl.token (by decide) (hversion.headD_ne (by decide))]
  dsimp only
  rw [hversion.token (by decide) (by decide)]
  dsimp only
  rw [hnumbers]

/-- A header line with a colon behind its key. -/
theorem headerLine_words {key value : Str} (hkey : Word 58 key) (hvalue : Word cr value)
    (base : Base) :
    headerLine base (key ++ 58 :: (value ++ crlf ++ [nul])) =
      ({ base with headers := base.headers.insert (trim key) (trim value) }, none) := by
  have hend : value ++ crlf ++ [nul] = value ++ cr :: [lf, nul] := by simp [crlf]
  rw [hend, headerLine, hkey.token (by decide) (hvalue.headD_ne (by decide))]
  dsimp only
  rw [hvalue.token (by decide) (by decide)]

/-- `trim` leaves a text without blanks at its ends as it is. -/
theorem trim_of_ends {s : Str} (hfirst : s.head? ≠ some space) (hlast : s.getLast? ≠ some space) :
    trim s = s := by
  have hdrop : s.dropWhile (· = space) = s := by
    cases s with
    | nil => rfl
    | cons c s =>
        have hc : c ≠ space := fun heq => hfirst (by rw [heq]; rfl)
        exact List.dropWhile_cons_of_neg (by simpa using hc)
  rw [trim, hdrop, List.rdropWhile_eq_self_iff]
  intro hne hspace
  exact hlast (by rw [List.getLast?_eq_some_getLast hne, of_decide_eq_true hspace])

/-! ## Lines -/

theorem line_of_not_mem {t : Str} (h : lf ∉ t) : Line crlf (t ++ crlf) := by
  refine ⟨List.suffix_append _ _, fun hinfix => ?_⟩
  have hdrop : (t ++ crlf).dropLast = t ++ [cr] := by
    rw [List.dropLast_append_of_ne_nil (by decide)]
    rfl
  rw [hdrop] at hinfix
  have hmem : lf ∈ t ++ [cr] := hinfix.subset (by decide)
  rcases List.mem_append.mp hmem with hmem | hmem
  · exact h hmem
  · exact absurd hmem (by decide)

/-- Three words with a blank between any two make a first line. -/
theorem words_line {a b c : Str} (h : lf ∉ a ++ b ++ c) :
    Line crlf (a ++ space :: (b ++ space :: (c ++ crlf))) := by
  have hcut : a ++ space :: (b ++ space :: (c ++ crlf)) =
      (a ++ space :: (b ++ space :: c)) ++ crlf := by simp
  have hspace : lf ≠ space := by decide
  simp only [List.mem_append, not_or] at h
  rw [hcut]
  exact line_of_not_mem (by simp [h, hspace])

theorem words_head {a b c : Str} (h : lf ∉ a ++ b ++ c) :
    (a ++ space :: (b ++ space :: (c ++ crlf))).head? ≠ some lf := by
  cases a with
  | nil =>
      have hspace : (some space : Option Byte) ≠ some lf := by decide
      exact hspace
  | cons d a =>
      intro hd
      have hlf : d = lf := Option.some.inj hd
      exact h (by simp [hlf])

theorem words_ne (a b c : Str) : a ++ space :: (b ++ space :: (c ++ crlf)) ≠ crlf := by
  intro heq
  have hmem : space ∈ a ++ space :: (b ++ space :: (c ++ crlf)) := by simp
  rw [heq] at hmem
  exact absurd hmem (by decide)

/-- A piece of text is received as one: no CR lies in front of the buffer. -/
theorem recvUntil_clear {data : Str} (h : Piece data) (rest : Str) :
    (clear (data ++ rest)).recvUntil crlf = .done (data ++ [nul]) (clear rest) := by
  rcases recvUntil_piece h rest fun _ => [] with hrecv | ⟨hcr, -⟩
  · exact hrecv
  · simp at hcr

/-- A line of at most 1024 bytes is received as it is. -/
theorem recvUntil_line {l : Str} (h : Line crlf l) (hle : l.length ≤ 1024) (rest : Str) :
    (clear (l ++ rest)).recvUntil crlf = .done (l ++ [nul]) (clear rest) :=
  recvUntil_clear (Or.inl ⟨h, hle⟩) rest

theorem not_strcmpEq_crlf {l : Str} (h : Line crlf l) (hle : l.length ≤ 1024) (hne : l ≠ crlf) :
    ¬ strcmpEq (l ++ [nul]) crlf = true := fun heq =>
  hne ((strcmpEq_crlf (Or.inl ⟨h, hle⟩)).mp heq)

theorem parseThis_line {l : Str} {base base' : Base} (h : Line crlf l) (hle : l.length ≤ 1024)
    (hne : l ≠ crlf) (hscan : requestLine base (l ++ [nul]) = (base', none)) {rest : Str}
    {heap : Nat → Str} {conn : Conn}
    (hrecv : (wire (l ++ rest) heap).recvUntil crlf = .done (l ++ [nul]) conn) :
    parseThis base (wire (l ++ rest) heap) = readHeaders (l ++ rest).length base' conn := by
  have hcmp := not_strcmpEq_crlf h hle hne
  have hlen : (wire (l ++ rest) heap).recvs.length = (l ++ rest).length := by simp [wire]
  rw [parseThis, hlen, readRequest, hrecv]
  dsimp only
  rw [if_neg hcmp, hscan]

/-- A piece that does not start with an LF is received as one, whatever lies in front of the buffer.
-/
theorem recvUntil_first {data : Str} (h : Piece data) (hfirst : data.head? ≠ some lf) (rest : Str)
    (heap : Nat → Str) :
    (wire (data ++ rest) heap).recvUntil crlf =
      .done (data ++ [nul]) (wire rest fun n => heap (n + 1)) := by
  rcases recvUntil_piece h rest heap with hrecv | ⟨-, tail, heq, -⟩
  · exact hrecv
  · cases data with
    | nil => exact absurd rfl h.ne_nil
    | cons c data =>
        have hc : c = lf := (List.cons.inj heq).1
        exact absurd (congrArg some hc) hfirst

theorem readHeaders_line {l : Str} {base base' : Base} (h : Line crlf l) (hle : l.length ≤ 1024)
    (hfirst : l.head? ≠ some lf) (hne : l ≠ crlf)
    (hscan : headerLine base (l ++ [nul]) = (base', none)) (fuel : Nat) (rest : Str)
    (heap : Nat → Str) :
    readHeaders (fuel + 1) base (wire (l ++ rest) heap) =
      readHeaders fuel base' (wire rest fun n => heap (n + 1)) := by
  have hcmp := not_strcmpEq_crlf h hle hne
  rw [readHeaders, recvUntil_first (Or.inl ⟨h, hle⟩) hfirst]
  dsimp only
  rw [if_neg hcmp, hscan]

/-- The empty line ends the head. -/
theorem readHeaders_end (fuel : Nat) (base : Base) (rest : Str) (heap : Nat → Str) :
    readHeaders (fuel + 1) base (wire (crlf ++ rest) heap) =
      .done base (wire rest fun n => heap (n + 1)) := by
  rw [readHeaders, recvUntil_first piece_crlf (by decide)]
  dsimp only
  rw [if_pos ((strcmpEq_crlf piece_crlf).mpr rfl)]

/-! ## Headers -/

/-- The line of a header: `value` is all that stands behind the colon. -/
def headerText (item : Str × Str) : Str := item.1 ++ 58 :: (item.2 ++ crlf)

/-- A header that makes a line of its own. -/
structure HeaderItem (item : Str × Str) : Prop where
  key : Word 58 item.1
  value : Word cr item.2
  key_line : lf ∉ item.1
  value_line : lf ∉ item.2
  length : (headerText item).length ≤ 1024

theorem HeaderItem.line {item : Str × Str} (h : HeaderItem item) : Line crlf (headerText item) := by
  have hsplit : headerText item = (item.1 ++ 58 :: item.2) ++ crlf := by simp [headerText]
  rw [hsplit]
  have hcolon : lf ≠ 58 := by decide
  exact line_of_not_mem (by simp [h.key_line, h.value_line, hcolon])

/-- Every line takes at least one byte. -/
theorem length_le_lines (items : List (Str × Str)) :
    items.length ≤ (items.flatMap headerText).length := by
  induction items with
  | nil => simp
  | cons item items ih =>
      have hpos : 0 < (headerText item).length := by simp [headerText]
      rw [List.flatMap_cons, List.length_append, List.length_cons]
      omega

/-- The headers after the lines of `items` have been read, in their order. -/
def insertAll (headers : Headers) (items : List (Str × Str)) : Headers :=
  items.foldl (fun headers item => headers.insert (trim item.1) (trim item.2)) headers

theorem headerText_head {item : Str × Str} (h : HeaderItem item) :
    (headerText item).head? ≠ some lf := by
  obtain ⟨key, value⟩ := item
  cases key with
  | nil =>
      have hcolon : (some 58 : Option Byte) ≠ some lf := by decide
      exact hcolon
  | cons c key =>
      intro hc
      have hkey : lf ∉ c :: key := h.key_line
      rw [← Option.some.inj hc] at hkey
      exact hkey List.mem_cons_self

theorem readHeaders_items {items : List (Str × Str)} (hitems : ∀ item ∈ items, HeaderItem item)
    (base : Base) (fuel : Nat) (hfuel : items.length < fuel) (rest : Str) (heap : Nat → Str) :
    readHeaders fuel base (wire (items.flatMap headerText ++ (crlf ++ rest)) heap) =
      .done { base with headers := insertAll base.headers items }
        (wire rest fun n => heap (n + (items.length + 1))) := by
  induction items generalizing base fuel heap with
  | nil =>
      obtain ⟨fuel, rfl⟩ : ∃ n, fuel = n + 1 := ⟨fuel - 1, by simp at hfuel; omega⟩
      exact readHeaders_end fuel base rest heap
  | cons item items ih =>
      rw [List.length_cons] at hfuel
      obtain ⟨fuel, rfl⟩ : ∃ n, fuel = n + 1 := ⟨fuel - 1, by omega⟩
      have hitem := hitems item (by simp)
      have hcolon : headerText item ≠ crlf := by
        intro heq
        have hmem : (58 : Byte) ∈ headerText item := by simp [headerText]
        rw [heq] at hmem
        exact absurd hmem (by decide)
      have hscan := headerLine_words hitem.key hitem.value base
      have hnul : headerText item ++ [nul] = item.1 ++ 58 :: (item.2 ++ crlf ++ [nul]) := by
        simp [headerText]
      rw [← hnul] at hscan
      rw [List.flatMap_cons, List.append_assoc,
        readHeaders_line hitem.line hitem.length (headerText_head hitem) hcolon hscan]
      have hrest := ih (fun item hmem => hitems item (by simp [hmem]))
        { base with headers := base.headers.insert (trim item.1) (trim item.2) } fuel (by omega)
        fun n => heap (n + 1)
      rw [hrest]
      simp only [List.length_cons, Nat.add_assoc]
      rfl

/-- Headers with different keys are found again. -/
theorem getElem?_insertAll {items : List (Str × Str)} (headers : Headers)
    (hnodup : (items.map fun item => trim item.1).Nodup) (k v : Str) :
    (insertAll headers items)[k]? = some v ↔
      (∃ item ∈ items, k = trim item.1 ∧ v = trim item.2) ∨
      (∀ item ∈ items, k ≠ trim item.1) ∧ headers[k]? = some v := by
  induction items generalizing headers with
  | nil => simp [insertAll]
  | cons item items ih =>
      obtain ⟨hnew, hnodup'⟩ := List.nodup_cons.mp hnodup
      have hstep : insertAll headers (item :: items) =
          insertAll (headers.insert (trim item.1) (trim item.2)) items := rfl
      rw [hstep, ih _ hnodup', Map.getElem?_insert]
      by_cases hk : trim item.1 = k
      · -- no later line has this key
        have hlater : ∀ item' ∈ items, k ≠ trim item'.1 := by
          rintro item' hmem heq
          exact hnew (List.mem_map.mpr ⟨item', hmem, (hk.trans heq).symm⟩)
        rw [if_pos hk]
        constructor
        · rintro (⟨item', hmem, heq, -⟩ | ⟨-, hv⟩)
          · exact absurd heq (hlater item' hmem)
          · exact Or.inl ⟨item, by simp, hk.symm, (Option.some.inj hv).symm⟩
        · rintro (⟨item', hmem, heq, hv⟩ | ⟨hnone, -⟩)
          · rcases List.mem_cons.mp hmem with rfl | hmem
            · exact Or.inr ⟨hlater, by rw [hv]⟩
            · exact absurd heq (hlater item' hmem)
          · exact absurd hk.symm (hnone item (by simp))
      · rw [if_neg hk]
        have hne : k ≠ trim item.1 := fun heq => hk heq.symm
        simp only [List.exists_mem_cons_iff, List.forall_mem_cons, hne, false_and, false_or,
          ne_eq, not_false_eq_true, true_and]

end DianProtocol.Cpp
