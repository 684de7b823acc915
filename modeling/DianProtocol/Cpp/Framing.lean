import DianProtocol.Lib.Lines
import DianProtocol.Cpp.Start

set_option autoImplicit false

/-! # The framing of requests

`recvUntil` returns after 1024 bytes whether it has seen a CRLF or not, and the scanners of
`parseThis` accept a bare CR inside a line. So the first 1024 bytes of a longer line can pass for a
line of their own, and the parser goes on with the tail. `framing` says that this is the only way in
which the parser can lose the line structure of the bytes it reads.
-/

namespace DianProtocol.Cpp

open Concurrent Lines

/-- A connection on which `text` arrives. -/
def wire (text : Str) (heap : Nat → Str) : Conn := ⟨text.map .byte, heap⟩

/-! ## `recvUntil` -/

/-- What `recvUntil` can have returned: a line, as many bytes as it takes without a CRLF, or a lone
LF that a CR in front of the buffer has completed. -/
def Received (before : Str) (max : Nat) (data : Str) : Prop :=
  (Line crlf data ∧ data.length ≤ max) ∨ (data.length = max ∧ ¬ crlf <:+: data) ∨
    (data = [lf] ∧ [cr] <:+ before)

theorem crlf_suffix_singleton {c : Byte} {before : Str} (h : crlf <:+ before ++ [c]) :
    c = lf ∧ [cr] <:+ before := by
  obtain ⟨t, ht⟩ := h
  have hsplit : (t ++ [cr]) ++ [lf] = before ++ [c] := by simpa [crlf] using ht
  obtain ⟨hb, hc⟩ := List.append_inj' hsplit rfl
  exact ⟨(List.cons.inj hc).1.symm, ⟨t, hb⟩⟩

theorem recvLoop_spec (before : Str) (left : Nat) (data text : Str) (hfree : ¬ crlf <:+: data) :
    (recvLoop before crlf (some left) data (text.map .byte) = none ∧
      ¬ crlf <:+: data ++ text ∧ text.length < left) ∨
    ∃ data' rest, data ++ text = data' ++ rest ∧ Received before (data.length + left) data' ∧
      recvLoop before crlf (some left) data (text.map .byte) =
        some (.ok data', rest.map .byte) := by
  induction left generalizing data text with
  | zero =>
      refine Or.inr ⟨data, text, rfl, Or.inr (Or.inl ⟨rfl, hfree⟩), ?_⟩
      cases text with
      | nil => rfl
      | cons c text => rfl
  | succ left ih =>
      cases text with
      | nil => exact Or.inl ⟨rfl, by simpa using hfree, by simp⟩
      | cons c text =>
          -- `memcmp` looks at the end of `before ++ (data ++ [c])`, not of `data ++ [c]`
          have hlen : (data ++ [c]).length = data.length + 1 := by simp
          by_cases hend : crlf <:+ before ++ (data ++ [c])
          · refine Or.inr ⟨data ++ [c], text, by simp, ?_, by simp [recvLoop, Recv.value, hend]⟩
            by_cases hdata : data = []
            · -- the window starts in front of the buffer
              subst hdata
              exact Or.inr (Or.inr ⟨by rw [(crlf_suffix_singleton hend).1]; rfl,
                (crlf_suffix_singleton hend).2⟩)
            · have hle : crlf.length ≤ (data ++ [c]).length := by
                have hpos := List.length_pos_of_ne_nil hdata
                rw [hlen]
                show 2 ≤ _
                omega
              have hsuffix : crlf <:+ data ++ [c] :=
                List.suffix_of_suffix_length_le hend (List.suffix_append _ _) hle
              exact Or.inl ⟨line_snoc hfree hsuffix, by omega⟩
          · have hfree' : ¬ crlf <:+: data ++ [c] := by
              refine not_infix_snoc hfree fun hs => hend ?_
              exact hs.trans (List.suffix_append _ _)
            have hstep : recvLoop before crlf (some (left + 1)) data ((c :: text).map .byte) =
                recvLoop before crlf (some left) (data ++ [c]) (text.map .byte) := by
              simp [recvLoop, Recv.value, hend]
            rw [hstep]
            have happ : data ++ c :: text = data ++ [c] ++ text := by simp
            have hsum : data.length + (left + 1) = (data ++ [c]).length + left := by omega
            rw [happ, hsum]
            rcases ih (data ++ [c]) text hfree' with ⟨hnone, hrest, hlt⟩ | hsome
            · exact Or.inl ⟨hnone, hrest, by simp only [List.length_cons]; omega⟩
            · exact Or.inr hsome

/-- What `recvUntil` does with a text that arrives. -/
theorem recvUntil_wire (text : Str) (heap : Nat → Str) :
    ((wire text heap).recvUntil crlf = .blocked ∧ ¬ crlf <:+: text ∧ text.length < 1024) ∨
    ∃ data rest, text = data ++ rest ∧ Received (heap 0) 1024 data ∧
      (wire text heap).recvUntil crlf =
        .done (data ++ [nul]) (wire rest fun n => heap (n + 1)) := by
  have hspec := recvLoop_spec (heap 0) 1024 [] text (by decide)
  have hloop : recvLoop ((wire text heap).heap 0) crlf
      (if (1024 : Int) = -1 then none else some (1024 : Int).toNat) [] (wire text heap).recvs =
      recvLoop (heap 0) crlf (some 1024) [] (text.map .byte) := rfl
  rw [List.nil_append, List.length_nil, Nat.zero_add] at hspec
  unfold Conn.recvUntil
  rw [hloop]
  rcases hspec with ⟨hnone, hfree, hlt⟩ | ⟨data, rest, htext, hdata, hsome⟩
  · refine Or.inl ⟨?_, hfree, hlt⟩
    rw [hnone]
  · refine Or.inr ⟨data, rest, htext, hdata, ?_⟩
    rw [hsome]
    rfl

theorem Received.ne_nil {before data : Str} {max : Nat} (h : Received before max data)
    (hmax : 0 < max) : data ≠ [] := by
  rintro rfl
  rcases h with ⟨hline, -⟩ | ⟨hlen, -⟩ | ⟨hlf, -⟩
  · exact hline.ne_nil rfl
  · simp only [List.length_nil] at hlen
    omega
  · cases hlf

/-- A piece of text that `recvUntil` takes as one, if no CR lies in front of the buffer: a line, or
the first bytes of one that is too long. -/
def Piece (data : Str) : Prop :=
  (Line crlf data ∧ data.length ≤ 1024) ∨ (data.length = 1024 ∧ ¬ crlf <:+: data)

theorem Received.piece_or_lf {before data : Str} (h : Received before 1024 data) :
    Piece data ∨ (data = [lf] ∧ [cr] <:+ before) := by
  rcases h with hline | hlong | hlf
  · exact Or.inl (Or.inl hline)
  · exact Or.inl (Or.inr hlong)
  · exact Or.inr hlf

theorem Piece.ne_nil {data : Str} (h : Piece data) : data ≠ [] := by
  have hreceived : Received [] 1024 data := h.imp_right Or.inl
  exact hreceived.ne_nil (by omega)

/-- A text starts with at most one piece. -/
theorem Piece.append_inj {data data' rest rest' : Str} (h : Piece data) (h' : Piece data')
    (heq : data ++ rest = data' ++ rest') : data = data' ∧ rest = rest' := by
  have hcut : ∀ {data data' rest rest' : Str}, data ++ rest = data' ++ rest' → Line crlf data →
      data.length ≤ 1024 → data'.length = 1024 → crlf <:+: data' := by
    intro data data' rest rest' heq hline hle hlen
    have hprefix : data <+: data' := by
      have hdata : data <+: data' ++ rest' := by
        rw [← heq]
        exact List.prefix_append _ _
      exact List.prefix_of_prefix_length_le hdata (List.prefix_append _ _) (by omega)
    exact hline.infix_of_prefix hprefix
  rcases h with ⟨hline, hle⟩ | ⟨hlen, hfree⟩
  · rcases h' with ⟨hline', hle'⟩ | ⟨hlen', hfree'⟩
    · exact hline.append_inj hline' heq
    · exact absurd (hcut heq hline hle hlen') hfree'
  · rcases h' with ⟨hline', hle'⟩ | ⟨hlen', hfree'⟩
    · exact absurd (hcut heq.symm hline' hle' hlen) hfree
    · exact List.append_inj heq (hlen.trans hlen'.symm)

/-- A piece is received as one, unless it starts with an LF that a CR in front of the buffer
completes. -/
theorem recvUntil_piece {data : Str} (h : Piece data) (rest : Str) (heap : Nat → Str) :
    (wire (data ++ rest) heap).recvUntil crlf =
        .done (data ++ [nul]) (wire rest fun n => heap (n + 1)) ∨
    [cr] <:+ heap 0 ∧ ∃ tail, data ++ rest = lf :: tail ∧
      (wire (data ++ rest) heap).recvUntil crlf =
        .done [lf, nul] (wire tail fun n => heap (n + 1)) := by
  rcases recvUntil_wire (data ++ rest) heap with
    ⟨-, hfree, hlt⟩ | ⟨data', rest', htext, hdata', hrecv⟩
  · -- a text that starts with a piece does not block
    exfalso
    rcases h with ⟨hline, -⟩ | ⟨hlen, -⟩
    · exact hfree (hline.infix_of_prefix (List.prefix_append _ _))
    · simp only [List.length_append] at hlt
      omega
  · rcases hdata'.piece_or_lf with hpiece | ⟨rfl, hcr⟩
    · obtain ⟨rfl, rfl⟩ := h.append_inj hpiece htext
      exact Or.inl hrecv
    · exact Or.inr ⟨hcr, rest', htext, hrecv⟩

/-! ## The lines of a head -/

/-- The two loops of `parseThis`: before and after the request line. -/
inductive Expect where
  | request
  | header
  deriving DecidableEq

/-- `readRequest` and `readHeaders`. -/
def Expect.read : Expect → Nat → Base → Conn → Parse
  | .request => readRequest
  | .header => readHeaders

/-- `requestLine` and `headerLine`. -/
def Expect.scan : Expect → Base → Str → Base × Option Exn
  | .request => requestLine
  | .header => headerLine

/-- The scanner does not throw on a line, or on the piece of one. -/
def Expect.accepts (e : Expect) (data : Str) : Prop := (e.scan {} (data ++ [nul])).2 = none

instance (e : Expect) (data : Str) : Decidable (e.accepts data) :=
  inferInstanceAs (Decidable ((e.scan {} (data ++ [nul])).2 = none))

theorem read_succ (e : Expect) (fuel : Nat) (base : Base) (conn : Conn) :
    e.read (fuel + 1) base conn =
      match conn.recvUntil crlf with
      | .blocked => .blocked
      | .thrown x conn => .thrown x base conn
      | .done line conn =>
          if strcmpEq line crlf then
            match e with
            | .request => readRequest fuel base conn
            | .header => .done base conn
          else match e.scan base line with
            | (base, some x) => .thrown x base conn
            | (base, none) => readHeaders fuel base conn := by
  cases e with
  | request => rfl
  | header => rfl

/-- A scanner throws a parse error or nothing, whatever message has been read so far. -/
theorem scan_snd (e : Expect) (line : Str) :
    (∀ base, (e.scan base line).2 = none) ∨ ∀ base, (e.scan base line).2 = some parseError := by
  cases e with
  | request =>
      simp only [Expect.scan, requestLine]
      rcases token space line with - | ⟨method, tmp⟩
      · exact Or.inr fun _ => rfl
      dsimp only
      rcases token space tmp with - | ⟨url, tmp⟩
      · exact Or.inr fun _ => rfl
      dsimp only
      rcases token cr tmp with - | ⟨version, tmp⟩
      · exact Or.inr fun _ => rfl
      dsimp only
      rcases sscanf_d_d (cstr version) with - | ⟨major, minor⟩
      · exact Or.inr fun _ => rfl
      · exact Or.inl fun _ => rfl
  | header =>
      simp only [Expect.scan, headerLine]
      rcases token 58 line with - | ⟨key, tmp⟩
      · exact Or.inr fun _ => rfl
      dsimp only
      rcases token cr tmp with - | ⟨value, tmp⟩
      · exact Or.inr fun _ => rfl
      · exact Or.inl fun _ => rfl

theorem Expect.accepts.scan {e : Expect} {data : Str} (h : e.accepts data) (base : Base) :
    ∃ base', e.scan base (data ++ [nul]) = (base', none) := by
  rcases scan_snd e (data ++ [nul]) with hnone | hsome
  · exact ⟨_, Prod.ext rfl (hnone base)⟩
  · cases h.symm.trans (hsome {})

theorem scan_of_not_accepts {e : Expect} {data : Str} (h : ¬ e.accepts data) (base : Base) :
    ∃ base', e.scan base (data ++ [nul]) = (base', some parseError) := by
  rcases scan_snd e (data ++ [nul]) with hnone | hsome
  · exact absurd (hnone {}) h
  · exact ⟨_, Prod.ext rfl (hsome base)⟩

theorem line_crlf : Line crlf crlf := ⟨List.suffix_rfl, by decide⟩

theorem piece_crlf : Piece crlf := Or.inl ⟨line_crlf, by decide⟩

/-- The comparison with an empty line. -/
theorem strcmpEq_crlf {data : Str} (h : Piece data) :
    strcmpEq (data ++ [nul]) crlf = true ↔ data = crlf := by
  constructor
  · intro heq
    have hcstr : cstr (data ++ [nul]) = crlf := of_decide_eq_true heq
    have hprefix : crlf <+: data ++ [nul] := by
      rw [← hcstr]
      exact List.takeWhile_prefix _
    rcases h with ⟨hline, -⟩ | ⟨hlen, hfree⟩
    · exact hline.unique line_crlf (List.prefix_append _ _) hprefix
    · refine absurd (List.prefix_of_prefix_length_le hprefix (List.prefix_append _ _) ?_).isInfix
        hfree
      rw [hlen]
      decide
  · rintro rfl
    decide

/-- The positions in a text that `parseThis` comes to by reading complete lines: what it has read,
and what it expects next. -/
inductive Reaches : Str → Expect → Prop where
  | start : Reaches [] .request
  | empty {pre : Str} : Reaches pre .request → Reaches (pre ++ crlf) .request
  | line {pre l : Str} {e : Expect} : Reaches pre e → Line crlf l → l.length ≤ 1024 → l ≠ crlf →
      e.accepts l → Reaches (pre ++ l) .header

/-- The text of a head, from a position on: empty lines and the request line if it is expected,
then header lines and an empty line, where every line runs to its first CRLF. -/
inductive Head : Expect → Str → Prop where
  | last : Head .header crlf
  | empty {head : Str} : Head .request head → Head .request (crlf ++ head)
  | line {e : Expect} {l head : Str} : Line crlf l → l ≠ crlf → Head .header head →
      Head e (l ++ head)

/-- The text is read along its lines, whatever lies in front of the receive buffers: when
`parseThis` returns, it has read exactly one head, and a line of more than 1024 bytes ends in a
parse error, its tail unread. -/
structure WellFramed (text : Str) : Prop where
  head : ∀ heap base conn, parseThis {} (wire text heap) = .done base conn →
    ∃ head rest, text = head ++ rest ∧ conn.recvs = rest.map .byte ∧ Head .request head
  overlong : ∀ pre e chunk rest heap, text = pre ++ (chunk ++ rest) → Reaches pre e →
    chunk.length = 1024 → ¬ crlf <:+: chunk →
    ∃ base conn, parseThis {} (wire text heap) = .thrown parseError base conn ∧
      rest.map Recv.byte <:+ conn.recvs

/-- Wherever the parser comes to a line of more than 1024 bytes, its scanner refuses the first 1024
bytes of it. -/
def OverlongRefused (text : Str) : Prop :=
  ∀ pre e chunk rest, text = pre ++ (chunk ++ rest) → Reaches pre e → chunk.length = 1024 →
    ¬ crlf <:+: chunk → ¬ e.accepts chunk

/-! ## The run of the parser -/

/-- One round of a loop of `parseThis`. -/
theorem read_piece {data : Str} (h : Piece data) (e : Expect) (fuel : Nat) (base : Base)
    (conn conn' : Conn) (hrecv : conn.recvUntil crlf = .done (data ++ [nul]) conn') :
    (data = crlf ∧ e = .request ∧ e.read (fuel + 1) base conn = readRequest fuel base conn') ∨
    (data = crlf ∧ e = .header ∧ e.read (fuel + 1) base conn = .done base conn') ∨
    (data ≠ crlf ∧ e.accepts data ∧ ∃ base',
      e.read (fuel + 1) base conn = readHeaders fuel base' conn') ∨
    (data ≠ crlf ∧ ¬ e.accepts data ∧ ∃ base',
      e.read (fuel + 1) base conn = .thrown parseError base' conn') := by
  rw [read_succ, hrecv]
  dsimp only
  by_cases hcrlf : data = crlf
  · rw [if_pos ((strcmpEq_crlf h).mpr hcrlf)]
    cases e with
    | request => exact Or.inl ⟨hcrlf, rfl, rfl⟩
    | header => exact Or.inr (Or.inl ⟨hcrlf, rfl, rfl⟩)
  · rw [if_neg fun heq => hcrlf ((strcmpEq_crlf h).mp heq)]
    by_cases hacc : e.accepts data
    · obtain ⟨base', hscan⟩ := hacc.scan base
      rw [hscan]
      exact Or.inr (Or.inr (Or.inl ⟨hcrlf, hacc, base', rfl⟩))
    · obtain ⟨base', hscan⟩ := scan_of_not_accepts hacc base
      rw [hscan]
      exact Or.inr (Or.inr (Or.inr ⟨hcrlf, hacc, base', rfl⟩))

/-- A lone LF is refused. -/
theorem read_lf (e : Expect) (fuel : Nat) (base : Base) (conn conn' : Conn)
    (hrecv : conn.recvUntil crlf = .done [lf, nul] conn') :
    e.read (fuel + 1) base conn = .thrown parseError base conn' := by
  rw [read_succ, hrecv]
  cases e with
  | request => rfl
  | header => rfl

/-- **The parser returns at the end of a head**, if no long line has deceived it. -/
theorem read_done {fuel : Nat} {e : Expect} {base base' : Base} {pre text : Str}
    {heap : Nat → Str} {conn : Conn} (hreach : Reaches pre e)
    (hrefused : OverlongRefused (pre ++ text))
    (h : e.read fuel base (wire text heap) = .done base' conn) :
    ∃ head rest, text = head ++ rest ∧ conn.recvs = rest.map .byte ∧ Head e head := by
  induction fuel generalizing e base pre text heap with
  | zero =>
      cases e with
      | request => cases h
      | header => cases h
  | succ fuel ih =>
      rcases recvUntil_wire text heap with ⟨hblocked, -, -⟩ | ⟨data, rest, rfl, hdata, hrecv⟩
      · rw [read_succ, hblocked] at h
        cases h
      · have hassoc : pre ++ (data ++ rest) = pre ++ data ++ rest := by simp
        rcases hdata with hline | hlong | ⟨rfl, -⟩
        · -- a complete line: the next position is reached
          rcases read_piece (Or.inl hline) e fuel base _ _ hrecv with
            ⟨rfl, rfl, hread⟩ | ⟨rfl, rfl, hread⟩ | ⟨hne, hacc, base₁, hread⟩ | ⟨-, -, base₁, hread⟩
          · -- an empty line before the request line
            rw [hassoc] at hrefused
            rw [hread] at h
            obtain ⟨head, rest', rfl, hrest, hhead⟩ := ih hreach.empty hrefused h
            exact ⟨crlf ++ head, rest', by simp, hrest, hhead.empty⟩
          · -- the empty line that ends the head
            rw [hread] at h
            cases h
            exact ⟨crlf, rest, rfl, rfl, .last⟩
          · rw [hassoc] at hrefused
            rw [hread] at h
            obtain ⟨head, rest', rfl, hrest, hhead⟩ :=
              ih (e := .header) (hreach.line hline.1 hline.2 hne hacc) hrefused h
            exact ⟨data ++ head, rest', by simp, hrest, .line hline.1 hne hhead⟩
          · rw [hread] at h
            cases h
        · -- the first bytes of a longer line, which the scanner refuses
          have hnot := hrefused pre e data rest rfl hreach hlong.1 hlong.2
          rcases read_piece (Or.inr hlong) e fuel base _ _ hrecv with
            ⟨rfl, -, -⟩ | ⟨rfl, -, -⟩ | ⟨-, hacc, -⟩ | ⟨-, -, base₁, hread⟩
          · exact absurd List.infix_rfl hlong.2
          · exact absurd List.infix_rfl hlong.2
          · exact absurd hacc hnot
          · rw [hread] at h
            cases h
        · -- a lone LF
          rw [read_lf e fuel base _ _ hrecv] at h
          cases h

/-- A parser that throws has read something. -/
theorem read_thrown {fuel : Nat} {e : Expect} {base base' : Base} {text : Str} {heap : Nat → Str}
    {x : Exn} {conn : Conn} (h : e.read fuel base (wire text heap) = .thrown x base' conn) :
    conn.recvs.length < text.length := by
  induction fuel generalizing e base text heap with
  | zero =>
      cases e with
      | request => cases h
      | header => cases h
  | succ fuel ih =>
      rcases recvUntil_wire text heap with ⟨hblocked, -, -⟩ | ⟨data, rest, rfl, hdata, hrecv⟩
      · rw [read_succ, hblocked] at h
        cases h
      · have hpos : 0 < data.length := List.length_pos_of_ne_nil (hdata.ne_nil (by omega))
        have hlen : (data ++ rest).length = data.length + rest.length := List.length_append
        have hwire : ∀ heap, (wire rest heap).recvs.length = rest.length := by simp [wire]
        rcases hdata.piece_or_lf with hpiece | ⟨rfl, -⟩
        · rcases read_piece hpiece e fuel base _ _ hrecv with
            ⟨-, rfl, hread⟩ | ⟨-, rfl, hread⟩ | ⟨-, -, base₁, hread⟩ | ⟨-, -, base₁, hread⟩
          · have hlt := ih (e := .request) (hread.symm.trans h)
            omega
          · cases hread.symm.trans h
          · have hlt := ih (e := .header) (hread.symm.trans h)
            omega
          · cases hread.symm.trans h
            rw [hwire]
            omega
        · cases (read_lf e fuel base _ _ hrecv).symm.trans h
          rw [hwire]
          omega

section

variable {heap : Nat → Str} {p : Parse} {e : Expect} {data text : Str}

/-- `p` is what the parser does from here on: it has come to `text` and expects `e`. -/
def Continues (heap : Nat → Str) (p : Parse) (e : Expect) (text : Str) : Prop :=
  ∃ fuel base heap', text.length < fuel ∧ (∀ k, ∃ n, heap' k = heap n) ∧
    p = e.read fuel base (wire text heap')

/-- The parser has refused a lone LF, before it has come to `text`. -/
def Stopped (heap : Nat → Str) (p : Parse) (text : Str) : Prop :=
  (∃ n, [cr] <:+ heap n) ∧
    ∃ base conn, p = .thrown parseError base conn ∧ text.map Recv.byte <:+ conn.recvs

/-- Nothing stops the parser when the memory in front of its buffers holds no CR. -/
theorem not_stopped : ¬ Stopped (fun _ => []) p text := by
  rintro ⟨⟨n, hcr⟩, -⟩
  simp at hcr

theorem Stopped.append (h : Stopped heap p (data ++ text)) : Stopped heap p text := by
  obtain ⟨hcr, base, conn, hp, hsuffix⟩ := h
  refine ⟨hcr, base, conn, hp, List.IsSuffix.trans ?_ hsuffix⟩
  rw [List.map_append]
  exact List.suffix_append _ _

theorem Continues.start (heap : Nat → Str) (text : Str) :
    Continues heap (parseThis {} (wire text heap)) .request text :=
  ⟨text.length + 1, {}, heap, by omega, fun k => ⟨k, rfl⟩, by simp [parseThis, wire, Expect.read]⟩

/-- The parser reads one piece. -/
theorem Continues.step (h : Continues heap p e (data ++ text)) (hpiece : Piece data) :
    Stopped heap p text ∨
    (data = crlf ∧ e = .request ∧ Continues heap p .request text) ∨
    (data = crlf ∧ e = .header ∧ ∃ base conn, p = .done base conn ∧ conn.recvs = text.map .byte) ∨
    (data ≠ crlf ∧ e.accepts data ∧ Continues heap p .header text) ∨
    (data ≠ crlf ∧ ¬ e.accepts data ∧
      ∃ base conn, p = .thrown parseError base conn ∧ conn.recvs = text.map .byte) := by
  obtain ⟨fuel, base, heap', hfuel, hheap, rfl⟩ := h
  have hpos : 0 < data.length := List.length_pos_of_ne_nil hpiece.ne_nil
  rw [List.length_append] at hfuel
  obtain ⟨fuel, rfl⟩ : ∃ n, fuel = n + 1 := ⟨fuel - 1, by omega⟩
  have hheap₁ : ∀ k, ∃ n, heap' (k + 1) = heap n := fun k => hheap (k + 1)
  rcases recvUntil_piece hpiece text heap' with hrecv | ⟨hcr, tail, htail, hrecv⟩
  · rcases read_piece hpiece e fuel base _ _ hrecv with
      ⟨hcrlf, he, hread⟩ | ⟨hcrlf, he, hread⟩ | ⟨hne, hacc, base₁, hread⟩ |
      ⟨hne, hacc, base₁, hread⟩
    · exact Or.inr (Or.inl ⟨hcrlf, he, fuel, base, _, by omega, hheap₁, hread⟩)
    · exact Or.inr (Or.inr (Or.inl ⟨hcrlf, he, base, _, hread, rfl⟩))
    · exact Or.inr (Or.inr (Or.inr (Or.inl ⟨hne, hacc, fuel, base₁, _, by omega, hheap₁, hread⟩)))
    · exact Or.inr (Or.inr (Or.inr (Or.inr ⟨hne, hacc, base₁, _, hread, rfl⟩)))
  · -- the LF is the first byte of the piece, so what is left of the text ends in `text`
    obtain ⟨n, hn⟩ := hheap 0
    refine Or.inl ⟨⟨n, hn ▸ hcr⟩, base, _, read_lf e fuel base _ _ hrecv, ?_⟩
    cases data with
    | nil => exact absurd rfl hpiece.ne_nil
    | cons c data =>
        rw [List.cons_append] at htail
        obtain ⟨-, rfl⟩ := List.cons.inj htail
        rw [wire, List.map_append]
        exact List.suffix_append _ _

/-- A position is reached, unless the parser has stopped before it. -/
theorem Reaches.run {pre : Str} (h : Reaches pre e) (heap : Nat → Str) (text : Str) :
    Stopped heap (parseThis {} (wire (pre ++ text) heap)) text ∨
      Continues heap (parseThis {} (wire (pre ++ text) heap)) e text := by
  induction h generalizing text with
  | start => exact Or.inr (.start heap text)
  | @empty pre _ ih =>
      rw [List.append_assoc]
      rcases ih (crlf ++ text) with hstop | hcont
      · exact Or.inl hstop.append
      · rcases hcont.step piece_crlf with hstop | ⟨-, -, hnext⟩ | ⟨-, he, -⟩ | ⟨hne, -⟩ | ⟨hne, -⟩
        · exact Or.inl hstop
        · exact Or.inr hnext
        · cases he
        · exact absurd rfl hne
        · exact absurd rfl hne
  | @line pre l e _ hline hle hne hacc ih =>
      rw [List.append_assoc]
      rcases ih (l ++ text) with hstop | hcont
      · exact Or.inl hstop.append
      · rcases hcont.step (Or.inl ⟨hline, hle⟩) with
          hstop | ⟨heq, -⟩ | ⟨heq, -⟩ | ⟨-, -, hnext⟩ | ⟨-, hnot, -⟩
        · exact Or.inl hstop
        · exact absurd heq hne
        · exact absurd heq hne
        · exact Or.inr hnext
        · exact absurd hacc hnot

end

/-! ## Framing -/

theorem wellFramed_of_refused {text : Str} (h : OverlongRefused text) : WellFramed text where
  head := fun heap base conn hdone => by
    obtain ⟨fuel, base₀, heap', -, -, hread⟩ := Continues.start heap text
    exact read_done .start h (hread.symm.trans hdone)
  overlong := fun pre e chunk rest heap htext hreach hlen hfree => by
    subst htext
    have hne : chunk ≠ crlf := by
      rintro rfl
      exact hfree List.infix_rfl
    rcases hreach.run heap (chunk ++ rest) with hstop | hcont
    · exact hstop.append.2
    · rcases hcont.step (Or.inr ⟨hlen, hfree⟩) with
        hstop | ⟨heq, -⟩ | ⟨heq, -⟩ | ⟨-, hacc, -⟩ | ⟨-, -, base, conn, hthrown, hrest⟩
      · exact hstop.2
      · exact absurd heq hne
      · exact absurd heq hne
      · exact absurd hacc (h pre e chunk rest rfl hreach hlen hfree)
      · exact ⟨base, conn, hthrown, hrest ▸ List.suffix_rfl⟩

theorem refused_of_wellFramed {text : Str} (h : WellFramed text) : OverlongRefused text := by
  intro pre e chunk rest htext hreach hlen hfree hacc
  obtain ⟨base, conn, hthrown, hsuffix⟩ :=
    h.overlong pre e chunk rest (fun _ => []) htext hreach hlen hfree
  subst htext
  rcases hreach.run (fun _ => []) (chunk ++ rest) with hstop | hcont
  · exact not_stopped hstop
  rcases hcont.step (Or.inr ⟨hlen, hfree⟩) with
    hstop | ⟨rfl, -⟩ | ⟨rfl, -⟩ | ⟨-, -, fuel, base', heap', -, -, hread⟩ | ⟨-, hnot, -⟩
  · exact not_stopped hstop
  · exact hfree List.infix_rfl
  · exact hfree List.infix_rfl
  · -- the parser has gone on with the tail of the line
    have hlt := read_thrown (hread.symm.trans hthrown)
    have hle := hsuffix.length_le
    rw [List.length_map] at hle
    omega
  · exact hnot hacc

/-- The parser follows the lines of a text if and only if the first 1024 bytes of every longer line
it comes to are refused by its scanner. -/
theorem framing (text : Str) : WellFramed text ↔ OverlongRefused text :=
  ⟨refused_of_wellFramed, wellFramed_of_refused⟩

/-! ### A head that ends inside a line -/

/-- The request line of a PLAY. -/
def playLine : Str := str "PLAY u 0.5\r\n"

/-- The first 1024 bytes of a header line with a bare CR in its value. -/
def bareCR : Str := str "a:b\rc" ++ List.replicate 1019 120

theorem playLine_line : Line crlf playLine := ⟨by decide, by decide⟩

theorem playLine_reaches : Reaches playLine .header :=
  Reaches.start.line playLine_line (by decide) (by decide) (by decide)

theorem bareCR_length : bareCR.length = 1024 := by
  rw [bareCR, List.length_append, List.length_replicate]
  rfl

theorem bareCR_free : ¬ crlf <:+: bareCR := by
  intro h
  have hmem : lf ∈ bareCR := h.subset (by decide)
  rcases List.mem_append.mp hmem with hmem | hmem
  · exact absurd hmem (by decide)
  · exact absurd (List.eq_of_mem_replicate hmem) (by decide)

/-- The two bytes after the first 1024 of a header line are taken for the empty line that ends the
head. -/
theorem bareCR_ends_head : ¬ WellFramed (playLine ++ (bareCR ++ crlf)) ∧
    ∃ base conn, parseThis {} (wire (playLine ++ (bareCR ++ crlf)) fun _ => []) = .done base conn ∧
      conn.recvs = [] := by
  have haccepts : Expect.header.accepts bareCR := by decide
  have hlong : Piece bareCR := Or.inr ⟨bareCR_length, bareCR_free⟩
  refine ⟨fun h => refused_of_wellFramed h playLine .header bareCR crlf rfl playLine_reaches
    bareCR_length bareCR_free haccepts, ?_⟩
  have hcont := (playLine_reaches.run (fun _ => []) (bareCR ++ crlf)).resolve_left not_stopped
  rcases hcont.step hlong with hstop | ⟨-, he, -⟩ | ⟨heq, -⟩ | ⟨-, -, htail⟩ | ⟨-, hnot, -⟩
  · exact absurd hstop not_stopped
  · cases he
  · exact absurd (congrArg List.length heq) (by rw [bareCR_length]; decide)
  · have hlast : crlf = crlf ++ [] := rfl
    rw [hlast] at htail
    rcases htail.step piece_crlf with hstop | ⟨-, he, -⟩ | ⟨-, -, hdone⟩ | ⟨hne, -⟩ | ⟨hne, -⟩
    · exact absurd hstop not_stopped
    · cases he
    · exact hdone
    · exact absurd rfl hne
    · exact absurd rfl hne
  · exact absurd haccepts hnot

end DianProtocol.Cpp
