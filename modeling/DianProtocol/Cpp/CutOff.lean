import DianProtocol.Cpp.Heads

set_option autoImplicit false

/-! # Heads that are cut off

An orderly close is not noticed: `recv` returns 0 and leaves a NUL in its byte, and `recvUntil` goes
on to its limit. So the last, unfinished line of a stream is filled up with NULs to 1024 bytes. A
bare CR in it may still make it pass for a line of the head, but the next line consists of NULs
alone, and both scanners refuse that.
-/

namespace DianProtocol.Cpp

open Lines

/-! ## An orderly close reads as NULs -/

/-- A byte in the place of an orderly close: the NUL that it leaves. -/
def Recv.filled : Recv → Recv
  | .closed => .byte nul
  | r => r

def Conn.filled (conn : Conn) : Conn := ⟨conn.recvs.map Recv.filled, conn.heap⟩

def Fetch.filled {α : Type} : Fetch α → Fetch α
  | .done a conn => .done a conn.filled
  | .thrown e conn => .thrown e conn.filled
  | .blocked => .blocked

def Parse.filled : Parse → Parse
  | .done base conn => .done base conn.filled
  | .thrown e base conn => .thrown e base conn.filled
  | .blocked => .blocked

theorem Recv.filled_value (r : Recv) : r.filled.value = r.value := by
  cases r with
  | byte c => rfl
  | closed => rfl
  | error errcode => rfl

theorem Recv.filled_ne_error {r : Recv} (h : ∀ errcode, r ≠ .error errcode) (errcode : Int) :
    r.filled ≠ .error errcode := by
  cases r with
  | byte c => exact h errcode
  | closed => simp [Recv.filled]
  | error errcode' => exact absurd rfl (h errcode')

theorem recvLoop_filled (before delim : Str) (left : Option Nat) (data : Str) (rs : List Recv) :
    recvLoop before delim left data (rs.map Recv.filled) =
      (recvLoop before delim left data rs).map fun (res, rs) => (res, rs.map Recv.filled) := by
  fun_induction recvLoop before delim left data rs with
  | case1 => simp [recvLoop]
  | case2 left data hleft => simp [recvLoop]
  | case3 left data errcode rs hleft => simp [recvLoop, Recv.filled]
  | case4 left data r rs hleft herror data' hend =>
      have hdata : data ++ [r.filled.value] = data' := by rw [r.filled_value]
      rw [List.map_cons, recvLoop, hdata]
      · dsimp only
        rw [if_pos hend]
        rfl
      · exact Recv.filled_ne_error herror
      · exact hleft
  | case5 left data r rs hleft herror data' hend ih =>
      have hdata : data ++ [r.filled.value] = data' := by rw [r.filled_value]
      rw [List.map_cons, recvLoop, hdata]
      · dsimp only
        rw [if_neg hend, ih]
      · exact Recv.filled_ne_error herror
      · exact hleft

theorem recvUntil_filled (conn : Conn) (delim : Str) :
    conn.filled.recvUntil delim = (conn.recvUntil delim).filled := by
  unfold Conn.recvUntil
  rw [Conn.filled, recvLoop_filled]
  rcases recvLoop (conn.heap 0) delim _ [] conn.recvs with - | ⟨errcode | data, rs⟩
  · rfl
  · rfl
  · rfl

theorem read_filled (e : Expect) (fuel : Nat) (base : Base) (conn : Conn) :
    e.read fuel base conn.filled = (e.read fuel base conn).filled := by
  induction fuel generalizing e base conn with
  | zero =>
      cases e with
      | request => rfl
      | header => rfl
  | succ fuel ih =>
      rw [read_succ, read_succ, recvUntil_filled]
      cases conn.recvUntil crlf with
      | blocked => rfl
      | thrown x conn => rfl
      | done line conn =>
          dsimp only [Fetch.filled]
          split
          · cases e with
            | request => exact ih .request base conn
            | header => rfl
          · split
            · rfl
            · exact ih .header _ conn

/-- **The parser takes an orderly close for NUL bytes.** -/
theorem parseThis_filled (base : Base) (conn : Conn) :
    parseThis base conn.filled = (parseThis base conn).filled := by
  have hlen : conn.filled.recvs.length = conn.recvs.length := by simp [Conn.filled]
  rw [parseThis, hlen]
  exact read_filled .request (conn.recvs.length + 1) base conn

/-! ## The last line of a stream -/

theorem no_crlf_padded {u : Str} (hu : ¬ crlf <:+: u) (k : Nat) :
    ¬ crlf <:+: u ++ List.replicate k nul := by
  induction k with
  | zero => simpa using hu
  | succ k ih =>
      rw [List.replicate_succ', ← List.append_assoc]
      refine not_infix_snoc ih ?_
      rintro ⟨t, ht⟩
      have hlast : (t ++ [cr]) ++ [lf] = (u ++ List.replicate k nul) ++ [nul] := by
        rw [← ht]
        simp [crlf]
      have hnul := (List.append_inj' hlast rfl).2
      exact absurd hnul (by decide)

/-- An unfinished line, filled up with NULs. -/
theorem piece_padded {u : Str} (hu : ¬ crlf <:+: u) (hle : u.length ≤ 1024) :
    Piece (u ++ List.replicate (1024 - u.length) nul) := by
  refine Or.inr ⟨?_, no_crlf_padded hu _⟩
  rw [List.length_append, List.length_replicate]
  omega

/-- Neither scanner accepts a line that starts with a NUL. -/
theorem not_accepts_nul (e : Expect) (t : Str) : ¬ e.accepts (nul :: nul :: t) := by
  have htoken : ∀ stop : Byte, stop ≠ nul → token stop (nul :: nul :: t ++ [nul]) = none := by
    intro stop hstop
    have hne : nul ≠ stop := hstop.symm
    simp [token, scanTo, hne]
  cases e with
  | request =>
      rw [Expect.accepts, Expect.scan, requestLine, htoken space (by decide)]
      simp
  | header =>
      rw [Expect.accepts, Expect.scan, headerLine, htoken 58 (by decide)]
      simp

/-- NULs are refused. -/
theorem read_nuls (e : Expect) (fuel : Nat) (base : Base) (n : Nat) (hn : 1024 ≤ n) :
    ∃ base', e.read (fuel + 1) base (clear (List.replicate n nul)) =
      .thrown parseError base' (clear (List.replicate (n - 1024) nul)) := by
  have hsplit : List.replicate n nul =
      List.replicate 1024 nul ++ List.replicate (n - 1024) nul := by
    rw [List.replicate_append_replicate, Nat.add_sub_cancel' hn]
  have hpiece : Piece (List.replicate 1024 nul) := piece_padded (u := []) (by decide) (by simp)
  have hrecv := recvUntil_clear hpiece (List.replicate (n - 1024) nul)
  have hnot : ¬ e.accepts (List.replicate 1024 nul) := not_accepts_nul e (List.replicate 1022 nul)
  have hne : List.replicate 1024 nul ≠ crlf := by
    intro heq
    have hlen := congrArg List.length heq
    rw [List.length_replicate] at hlen
    exact absurd hlen (by decide)
  rw [hsplit]
  rcases read_piece hpiece e fuel base _ _ hrecv with
    ⟨heq, -, -⟩ | ⟨heq, -, -⟩ | ⟨-, hacc, -⟩ | ⟨-, -, base', hread⟩
  · exact absurd heq hne
  · exact absurd heq hne
  · exact absurd hacc hnot
  · exact ⟨base', hread⟩

/-- The unfinished line, and the one behind it. -/
theorem read_unfinished {u : Str} (hu : ¬ crlf <:+: u) (hle : u.length ≤ 1024) (e : Expect)
    (fuel : Nat) (base : Base) (n : Nat) (hn : 2048 ≤ n) :
    ∃ base' rest, e.read (fuel + 2) base (clear (u ++ List.replicate n nul)) =
      .thrown parseError base' (clear rest) ∧ n ≤ rest.length + 2048 := by
  -- the NULs that fill the line up, and the others
  let k := 1024 - u.length
  have hsplit : u ++ List.replicate n nul =
      (u ++ List.replicate k nul) ++ List.replicate (n - k) nul := by
    have hk : k ≤ n := by omega
    rw [List.append_assoc, List.replicate_append_replicate, Nat.add_sub_cancel' hk]
  have hpiece : Piece (u ++ List.replicate k nul) := piece_padded hu hle
  have hfree : ¬ crlf <:+: u ++ List.replicate k nul := no_crlf_padded hu k
  have hrecv := recvUntil_clear hpiece (List.replicate (n - k) nul)
  rw [hsplit]
  rcases read_piece hpiece e (fuel + 1) base _ _ hrecv with
    ⟨heq, -, -⟩ | ⟨heq, -, -⟩ | ⟨-, -, base', hread⟩ | ⟨-, -, base', hread⟩
  · exact absurd (heq ▸ List.infix_rfl) hfree
  · exact absurd (heq ▸ List.infix_rfl) hfree
  · -- a bare CR has made the line acceptable
    obtain ⟨base'', hnuls⟩ := read_nuls .header fuel base' (n - k) (by omega)
    refine ⟨base'', _, hread.trans hnuls, ?_⟩
    rw [List.length_replicate]
    omega
  · refine ⟨base', _, hread, ?_⟩
    rw [List.length_replicate]
    omega

/-- **The lines of a head that does not end.** -/
theorem read_lines {u : Str} (hu : ¬ crlf <:+: u) (hle : u.length ≤ 1024) {lines : List Str}
    (hlines : ∀ l ∈ lines, Line crlf l ∧ l.length ≤ 1024) (e : Expect)
    (hcut : ∀ head rest, lines.flatten ++ u = head ++ rest → ¬ Head e head) (fuel : Nat)
    (hfuel : lines.length + 2 ≤ fuel) (base : Base) (n : Nat) (hn : 2048 ≤ n) :
    ∃ base' rest, e.read fuel base (clear (lines.flatten ++ (u ++ List.replicate n nul))) =
      .thrown parseError base' (clear rest) ∧ n ≤ rest.length + 2048 := by
  induction lines generalizing e fuel base with
  | nil =>
      obtain ⟨fuel, rfl⟩ : ∃ k, fuel = k + 2 := ⟨fuel - 2, by simp at hfuel; omega⟩
      exact read_unfinished hu hle e fuel base n hn
  | cons l lines ih =>
      rw [List.length_cons] at hfuel
      obtain ⟨fuel, rfl⟩ : ∃ k, fuel = k + 1 := ⟨fuel - 1, by omega⟩
      obtain ⟨hline, hlen⟩ := hlines l (by simp)
      have hlines' : ∀ l' ∈ lines, Line crlf l' ∧ l'.length ≤ 1024 := fun l' hl' =>
        hlines l' (by simp [hl'])
      rw [List.flatten_cons, List.append_assoc] at hcut ⊢
      have hpiece : Piece l := Or.inl ⟨hline, hlen⟩
      have hrecv := recvUntil_clear hpiece (lines.flatten ++ (u ++ List.replicate n nul))
      rcases read_piece hpiece e fuel base _ _ hrecv with
        ⟨rfl, rfl, hread⟩ | ⟨rfl, rfl, -⟩ | ⟨hne, -, base₁, hread⟩ | ⟨-, -, base₁, hread⟩
      · -- an empty line before the request line
        rw [hread]
        refine ih hlines' .request (fun head rest heq hhead => ?_) fuel (by omega) base
        exact hcut (crlf ++ head) rest (by rw [heq, List.append_assoc]) (.empty hhead)
      · -- the empty line would end the head
        exact absurd .last (hcut crlf _ rfl)
      · rw [hread]
        refine ih hlines' .header (fun head rest heq hhead => ?_) fuel (by omega) base₁
        exact hcut (l ++ head) rest (by rw [heq, List.append_assoc]) (.line hline hne hhead)
      · refine ⟨base₁, _, hread, ?_⟩
        simp only [List.length_append, List.length_replicate]
        omega

/-! ## Streams that end in a head -/

/-- A connection whose peer has sent `text` and has then closed it in an orderly way; `n` calls of
`recv` are looked at behind the end of the text. -/
def orderlyClosed (text : Str) (n : Nat) : Conn :=
  ⟨text.map .byte ++ List.replicate n .closed, fun _ => []⟩

theorem orderlyClosed_filled (text : Str) (n : Nat) :
    (orderlyClosed text n).filled = clear (text ++ List.replicate n nul) := by
  simp [orderlyClosed, Conn.filled, clear, wire, Recv.filled]

/-- **A head that is cut off is refused.** The text has lines of at most 1024 bytes, the unfinished
one at its end included, and no part of it is a whole head. Then `parseThis` throws, at the latest
after 2048 calls of `recv` behind the end of the text. -/
theorem cutOff_refused (lines : List Str) (u : Str)
    (hlines : ∀ l ∈ lines, Line crlf l ∧ l.length ≤ 1024) (hu : ¬ crlf <:+: u)
    (hle : u.length ≤ 1024)
    (hcut : ∀ head rest, lines.flatten ++ u = head ++ rest → ¬ Head .request head) (base : Base)
    (n : Nat) (hn : 2048 ≤ n) :
    ∃ base' conn,
      parseThis base (orderlyClosed (lines.flatten ++ u) n) = .thrown parseError base' conn ∧
        n ≤ conn.recvs.length + 2048 := by
  have hfilled : (orderlyClosed (lines.flatten ++ u) n).filled =
      clear (lines.flatten ++ (u ++ List.replicate n nul)) := by
    rw [orderlyClosed_filled, List.append_assoc]
  have hfuel : lines.length + 2 ≤
      (clear (lines.flatten ++ (u ++ List.replicate n nul))).recvs.length + 1 := by
    have hpos : lines.length ≤ (lines.map List.length).sum := by
      have hone : ∀ k ∈ lines.map List.length, 1 ≤ k := by
        intro k hk
        obtain ⟨l, hl, rfl⟩ := List.mem_map.mp hk
        exact List.length_pos_of_ne_nil (hlines l hl).1.ne_nil
      simpa using List.length_le_sum_of_one_le _ hone
    simp only [clear, wire, List.length_map, List.length_append, List.length_replicate,
      List.length_flatten]
    omega
  obtain ⟨base', rest, hread, hrest⟩ := read_lines hu hle hlines .request hcut _ hfuel base n hn
  -- the same with the orderly close in the place of the NULs
  have hparse : parseThis base (clear (lines.flatten ++ (u ++ List.replicate n nul))) =
      .thrown parseError base' (clear rest) := hread
  rw [← hfilled, parseThis_filled] at hparse
  cases hthis : parseThis base (orderlyClosed (lines.flatten ++ u) n) with
  | done base₁ conn =>
      rw [hthis] at hparse
      cases hparse
  | blocked =>
      rw [hthis] at hparse
      cases hparse
  | thrown e base₁ conn =>
      rw [hthis] at hparse
      obtain ⟨rfl, rfl, hconn⟩ := Parse.thrown.inj hparse
      refine ⟨base₁, conn, rfl, ?_⟩
      have hlen := congrArg (fun conn => conn.recvs.length) hconn
      simp only [Conn.filled, clear, wire, List.length_map] at hlen
      omega

/-- A head contains a CRLF. -/
theorem Head.crlf_infix {e : Expect} {head : Str} (h : Head e head) : crlf <:+: head := by
  induction h with
  | last => exact List.infix_rfl
  | empty _ ih => exact ih.trans (List.suffix_append _ _).isInfix
  | line hline _ _ _ => exact hline.infix_of_prefix (List.prefix_append _ _)

/-- A request whose only header line ends between its CR and its LF. -/
theorem cutOff_refused_play : ∃ base conn,
    parseThis {} (orderlyClosed ([str "PLAY a 0.5\r\n"].flatten ++ str "CSeq: 1\r") 3000) =
      .thrown parseError base conn ∧ 3000 ≤ conn.recvs.length + 2048 := by
  have hline : Line crlf (str "PLAY a 0.5\r\n") := ⟨by decide, by decide⟩
  have hfree : ¬ crlf <:+: str "CSeq: 1\r" := by decide
  refine cutOff_refused [str "PLAY a 0.5\r\n"] (str "CSeq: 1\r") ?_ hfree ?_ ?_ {} 3000 (by omega)
  · intro l hl
    rw [List.mem_singleton.mp hl]
    exact ⟨hline, by decide⟩
  · decide
  · intro head rest heq hhead
    rw [List.flatten_singleton] at heq
    cases hhead with
    | empty hhead' =>
        rw [List.append_assoc] at heq
        exact absurd (hline.append_inj line_crlf heq).1 (by decide)
    | line hline' _ hhead' =>
        -- what is left has no CRLF, so no part of it ends the head
        rw [List.append_assoc] at heq
        obtain ⟨-, hrest⟩ := hline.append_inj hline' heq
        exact hfree (hrest ▸ hhead'.crlf_infix.trans (List.prefix_append _ _).isInfix)

end DianProtocol.Cpp
