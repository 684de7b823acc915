import DianProtocol.Lib.Cursor
import DianProtocol.Cpp.StringReader

set_option autoImplicit false

/-! # `readUntil`

The three readers share one loop: it gets a character, writes it to a `stringstream`, and stops when
the text written so far ends in the delimiter. At the end of a file or of a string nothing is got:
the variable keeps its last character, which is written once more. Only `FileStreamReader` then looks
at the `eofbit`. At the end of a connection `recv` returns 0, and the character is what its buffer
held before. `readUntil_ends_iff` says when the loop ends.
-/

namespace DianProtocol.Cpp

open Cursor

/-! ## The loop -/

/-- What a call that takes something from a source does. -/
inductive Reading (σ α : Type) where
  | done (a : α) (s : σ)
  | thrown (e : Exn)
  | blocked

/-- What follows when the call returns. -/
def Reading.bind {σ τ α β : Type} (f : α → σ → Reading τ β) : Reading σ α → Reading τ β
  | done a s => f a s
  | thrown e => .thrown e
  | blocked => .blocked

def Reading.map {σ α β : Type} (f : α → β) : Reading σ α → Reading σ β :=
  Reading.bind fun a s => .done (f a) s

/-- The memory that a call finds: what the array of the returned buffer holds, and its member
`_size` before that is set, and the local variable `c`. -/
structure Memory where
  junk : Junk
  _size : Nat
  c : Byte

/-- `buffer((const void*) data, size)`: the copy is bounded by the member `_size`, which is not set
yet. -/
def Memory.buffer (m : Memory) (data : Str) : Str :=
  newArray data.length (data.take m._size) m.junk

/-- The loop of `readUntil(str)`, over the function that gets the next character into `c` and the
one that tests for the end of the source. `none` if it is still running. -/
def readUntilLoop {σ : Type} (get : Byte → σ → Reading σ Byte) (eof : σ → Bool) (str : Str) :
    Nat → Byte → Str → σ → Option (Reading σ Str)
  | 0, _, _, _ => none
  | fuel + 1, c, ss, s =>
      match get c s with
      | .thrown e => some (.thrown e)
      | .blocked => some .blocked
      | .done c s =>
          let ss := ss ++ [c]
          -- the last character is compared first
          if str.getLast? = some c ∧ (str.length = 1 ∨ str <:+ ss) then some (.done ss s)
          else if eof s then some (.done ss s)
          else readUntilLoop get eof str fuel c ss s

/-- `readUntil(str)`: what the loop has written, in a buffer. -/
def readUntilOf {σ : Type} (get : Byte → σ → Reading σ Byte) (eof : σ → Bool) (fuel : Nat) (s : σ)
    (str : Str) (m : Memory) : Option (Reading σ Str) :=
  (readUntilLoop get eof str fuel m.c [] s).map (Reading.map m.buffer)

/-! ## The readers -/

/-- A `FileStreamReader` with the `eofbit` of its stream, which only `readUntil` looks at. -/
structure FileReader extends FileStreamReader where
  eof : Bool := false

namespace FileReader

/-- A read that gets less than it asks for sets the `eofbit`, unless the stream has failed before. -/
def read (r : FileReader) (size : Nat) (junk : Junk) : Str × FileReader :=
  let (data, base) := r.toFileStreamReader.read size junk
  (data, { base with eof := r.eof || (!r.file.failed && base.file.failed) })

/-- `file->get(c)`: a read of one character into `c`. -/
def get (c : Byte) (r : FileReader) : Reading FileReader Byte :=
  let (data, file) := r.file.read 1 fun _ => c
  .done (data.headD c)
    { r with file := file, eof := r.eof || (!r.file.failed && file.failed) }

/-- `FileStreamReader::readUntil(str)` -/
def readUntil (fuel : Nat) (r : FileReader) (str : Str) (m : Memory) :
    Option (Reading FileReader Str) := readUntilOf get FileReader.eof fuel r str m

end FileReader

/-- `stream.get(c)` -/
def StringStreamReader.get (c : Byte) (r : StringStreamReader) : Reading StringStreamReader Byte :=
  let (data, stream) := r.stream.read 1 fun _ => c
  .done (data.headD c) { r with stream := stream }

/-- `StringStreamReader::readUntil(str)`, which does not test for the end. -/
def StringStreamReader.readUntil (fuel : Nat) (r : StringStreamReader) (str : Str) (m : Memory) :
    Option (Reading StringStreamReader Str) :=
  readUntilOf StringStreamReader.get (fun _ => false) fuel r str m

/-- What `::recv` does behind the last byte: it returns 0, it fails, or it waits. -/
inductive Ending where
  | closed
  | failed
  | open_
  deriving DecidableEq

/-- What comes in on a socket: the bytes, what is behind them, how many of them the next calls of
`::recv` give, as far as they ask for so many, and what the buffers of these calls hold before. -/
structure Incoming where
  left : Str
  ending : Ending
  gives : Nat → Nat
  memory : Nat → Junk

namespace Incoming

/-- The socket after a call of `::recv` that gave `n` bytes. -/
def next (s : Incoming) (n : Nat) : Incoming :=
  { s with left := s.left.drop n, gives := fun i => s.gives (i + 1),
           memory := fun i => s.memory (i + 1) }

/-- `::recv` of `n` bytes into a buffer of `length`. -/
def take (s : Incoming) (n length : Nat) : Reading Incoming Str :=
  .done (newArray length (s.left.take n) (s.memory 0)) (s.next n)

/-- `socket::recv(length)`: at least one byte, unless the connection has been closed. -/
def recv (s : Incoming) (length : Nat) : Reading Incoming Str :=
  match s.left, s.ending with
  | [], .closed => s.take 0 length
  | [], .failed => .thrown (.RecvError (-1))
  | [], .open_ => .blocked
  | _ :: _, _ => s.take (min (max 1 (s.gives 0)) length) length

/-- `((char*) socket->recv(1).data())[0]` -/
def get (c : Byte) (s : Incoming) : Reading Incoming Byte :=
  (s.recv 1).map fun data => data.headD c

/-- `SocketStreamReader::readUntil(str)`, which does not look at the result of `::recv`. -/
def readUntil (fuel : Nat) (s : Incoming) (str : Str) (m : Memory) :
    Option (Reading Incoming Str) := readUntilOf get (fun _ => false) fuel s str m

end Incoming

/-! ## The runs of the loop -/

section

variable {σ : Type} {get : Byte → σ → Reading σ Byte} {eof : σ → Bool} {d : Str}
  {at_ : Nat → σ} {got : Nat → Byte} {n : Nat}

/-- The first `n` characters that are got. -/
def textOf (got : Nat → Byte) (n : Nat) : Str := (List.range n).map fun i => got (i + 1)

theorem textOf_succ (got : Nat → Byte) (n : Nat) :
    textOf got (n + 1) = textOf got n ++ [got (n + 1)] := by
  simp [textOf, List.range_succ]

theorem textOf_eq_take {left : Str} (h : ∀ i (hi : i < left.length), got (i + 1) = left[i])
    (hle : n ≤ left.length) : textOf got n = left.take n := by
  refine List.ext_getElem (by simp [textOf, hle]) fun i hi hi' => ?_
  simp only [textOf, List.getElem_map, List.getElem_range, List.getElem_take]
  exact h i _

/-- The source gives the characters `got 1`, `got 2` and so on up to the `n`-th. -/
def Feeds (get : Byte → σ → Reading σ Byte) (at_ : Nat → σ) (got : Nat → Byte) (n : Nat) : Prop :=
  ∀ i, i < n → get (got i) (at_ i) = .done (got (i + 1)) (at_ (i + 1))

/-- The loop stops behind the `n`-th character. -/
def Stops (eof : σ → Bool) (d : Str) (at_ : Nat → σ) (got : Nat → Byte) (n : Nat) : Prop :=
  d <:+ textOf got n ∨ eof (at_ n) = true

/-- Comparing the last character first makes no difference. -/
theorem match_iff (hd : d ≠ []) (ss : Str) (c : Byte) :
    (d.getLast? = some c ∧ (d.length = 1 ∨ d <:+ ss ++ [c])) ↔ d <:+ ss ++ [c] := by
  constructor
  · rintro ⟨hlast, hone | hend⟩
    · obtain ⟨a, rfl⟩ := List.length_eq_one_iff.mp hone
      rw [List.getLast?_singleton] at hlast
      cases hlast
      exact List.suffix_append _ _
    · exact hend
  · intro hend
    refine ⟨?_, Or.inr hend⟩
    have hlast := hend.getLast hd
    rw [List.getLast_append_singleton] at hlast
    rw [List.getLast?_eq_some_getLast hd, hlast]

variable (eof) in
/-- One round of the loop. -/
theorem readUntilLoop_step (hd : d ≠ []) {i : Nat}
    (hget : get (got i) (at_ i) = .done (got (i + 1)) (at_ (i + 1))) (fuel : Nat) :
    (Stops eof d at_ got (i + 1) →
      readUntilLoop get eof d (fuel + 1) (got i) (textOf got i) (at_ i) =
        some (.done (textOf got (i + 1)) (at_ (i + 1)))) ∧
    (¬ Stops eof d at_ got (i + 1) →
      readUntilLoop get eof d (fuel + 1) (got i) (textOf got i) (at_ i) =
        readUntilLoop get eof d fuel (got (i + 1)) (textOf got (i + 1)) (at_ (i + 1))) := by
  rw [readUntilLoop, hget]
  dsimp only
  rw [← textOf_succ]
  have hiff : (d.getLast? = some (got (i + 1)) ∧ (d.length = 1 ∨ d <:+ textOf got (i + 1))) ↔
      d <:+ textOf got (i + 1) := by
    rw [textOf_succ]
    exact match_iff hd _ _
  by_cases hend : d <:+ textOf got (i + 1)
  · rw [if_pos (hiff.mpr hend)]
    exact ⟨fun _ => rfl, fun hnot => absurd (Or.inl hend) hnot⟩
  · rw [if_neg fun h => hend (hiff.mp h)]
    by_cases heof : eof (at_ (i + 1)) = true
    · rw [if_pos heof]
      exact ⟨fun _ => rfl, fun hnot => absurd (Or.inr heof) hnot⟩
    · rw [if_neg heof]
      refine ⟨fun hstops => ?_, fun _ => rfl⟩
      rcases hstops with hend' | heof'
      · exact absurd hend' hend
      · exact absurd heof' heof

variable (eof) in
/-- The loop goes on behind characters where it does not stop. -/
theorem readUntilLoop_goes_on (hd : d ≠ []) {i k : Nat} (hfeeds : Feeds get at_ got (i + k))
    (hgo : ∀ j, i < j → j ≤ i + k → ¬ Stops eof d at_ got j) (fuel : Nat) :
    readUntilLoop get eof d (fuel + k) (got i) (textOf got i) (at_ i) =
      readUntilLoop get eof d fuel (got (i + k)) (textOf got (i + k)) (at_ (i + k)) := by
  induction k generalizing fuel with
  | zero => rfl
  | succ k ih =>
      have hbefore : Feeds get at_ got (i + k) := fun j hj => hfeeds j (by omega)
      have hnot : ¬ Stops eof d at_ got (i + k + 1) := hgo _ (by omega) (by omega)
      calc readUntilLoop get eof d (fuel + (k + 1)) (got i) (textOf got i) (at_ i)
          = readUntilLoop get eof d (fuel + 1 + k) (got i) (textOf got i) (at_ i) := by
            rw [Nat.add_assoc, Nat.add_comm 1 k]
        _ = readUntilLoop get eof d (fuel + 1) (got (i + k)) (textOf got (i + k)) (at_ (i + k)) :=
            ih hbefore (fun j hlow hhigh => hgo j hlow (by omega)) (fuel + 1)
        _ = readUntilLoop get eof d fuel (got (i + k + 1)) (textOf got (i + k + 1))
              (at_ (i + k + 1)) :=
            (readUntilLoop_step eof hd (hfeeds (i + k) (by omega)) fuel).2 hnot

/-- The loop ends at the first place where it stops. -/
theorem readUntilLoop_stops (hd : d ≠ []) {k : Nat} (hfeeds : Feeds get at_ got (k + 1))
    (hgo : ∀ j, 0 < j → j ≤ k → ¬ Stops eof d at_ got j) (hstop : Stops eof d at_ got (k + 1))
    (fuel : Nat) :
    readUntilLoop get eof d (fuel + (k + 1)) (got 0) [] (at_ 0) =
      some (.done (textOf got (k + 1)) (at_ (k + 1))) := by
  have hbefore : Feeds get at_ got (0 + k) := fun j hj => hfeeds j (by omega)
  have hrun := readUntilLoop_goes_on eof hd hbefore
    (fun j hlow hhigh => hgo j hlow (by omega)) (fuel + 1)
  rw [Nat.zero_add] at hrun
  have hsum : fuel + (k + 1) = fuel + 1 + k := by omega
  rw [hsum]
  refine hrun.trans ?_
  exact (readUntilLoop_step eof hd (hfeeds k (by omega)) fuel).1 hstop

/-- With more rounds than it needs the loop does the same. -/
theorem readUntilLoop_mono {fuel : Nat} {c : Byte} {ss : Str} {s : σ} {result : Reading σ Str}
    (h : readUntilLoop get eof d fuel c ss s = some result) (k : Nat) :
    readUntilLoop get eof d (fuel + k) c ss s = some result := by
  induction fuel generalizing c ss s with
  | zero => cases h
  | succ fuel ih =>
      have hsum : fuel + 1 + k = fuel + k + 1 := by omega
      rw [hsum, readUntilLoop]
      rw [readUntilLoop] at h
      cases hget : get c s with
      | thrown e =>
          rw [hget] at h
          exact h
      | blocked =>
          rw [hget] at h
          exact h
      | done c' s' =>
          rw [hget] at h
          dsimp only at h ⊢
          by_cases hmatch : d.getLast? = some c' ∧ (d.length = 1 ∨ d <:+ ss ++ [c'])
          · rw [if_pos hmatch] at h ⊢
            exact h
          rw [if_neg hmatch] at h ⊢
          by_cases heof : eof s' = true
          · rw [if_pos heof] at h ⊢
            exact h
          · rw [if_neg heof] at h ⊢
            exact ih h

variable (eof) in
/-- The loop ends if and only if there is a place where it stops. -/
theorem readUntilLoop_ends_iff (hd : d ≠ []) (hfeeds : ∀ n, Feeds get at_ got n) :
    (∃ fuel, (readUntilLoop get eof d fuel (got 0) [] (at_ 0)).isSome) ↔
      ∃ n, 0 < n ∧ Stops eof d at_ got n := by
  constructor
  · rintro ⟨fuel, hsome⟩
    by_contra hnone
    have hgo : ∀ j, 0 < j → j ≤ 0 + fuel → ¬ Stops eof d at_ got j := fun j hpos _ hstop =>
      hnone ⟨j, hpos, hstop⟩
    have hrun := readUntilLoop_goes_on eof hd (hfeeds (0 + fuel)) hgo 0
    rw [Nat.zero_add fuel] at hrun
    have hnil : textOf got 0 = [] := rfl
    rw [hnil, readUntilLoop] at hrun
    rw [hrun] at hsome
    cases hsome
  · intro hstops
    classical
    obtain ⟨hpos, hstop⟩ := Nat.find_spec hstops
    obtain ⟨k, hk⟩ : ∃ k, Nat.find hstops = k + 1 := ⟨Nat.find hstops - 1, by omega⟩
    have hgo : ∀ j, 0 < j → j ≤ k → ¬ Stops eof d at_ got j := fun j hj hle hstop' =>
      Nat.find_min hstops (by omega) ⟨hj, hstop'⟩
    rw [hk] at hstop
    refine ⟨0 + (k + 1), ?_⟩
    rw [readUntilLoop_stops hd (hfeeds (k + 1)) hgo hstop]
    rfl

end

/-! ## Files -/

/-- A read of one character fails or moves on. -/
theorem IFStream.read_one {s : IFStream} (hgood : s.failed = false) (junk : Junk) :
    (s.read 1 junk).2.failed = true ∨
      (s.read 1 junk).2.failed = false ∧ (s.read 1 junk).2.file = s.file ∧
        s.pos < (s.read 1 junk).2.pos ∧ s.pos < s.file.bytes.length := by
  unfold IFStream.read
  rw [hgood, if_neg (by simp)]
  by_cases hleft : s.pos < s.file.bytes.length
  · rw [List.drop_eq_getElem_cons hleft]
    by_cases htext : s.text = true
    · rw [if_pos htext, readText]
      by_cases hend : s.file.bytes[s.pos] = 26
      · rw [if_pos hend]
        exact Or.inl rfl
      · rw [if_neg hend]
        right
        by_cases hpair : s.file.bytes[s.pos] = cr ∧
            (s.file.bytes.drop (s.pos + 1)).head? = some lf
        · rw [if_pos hpair]
          exact ⟨rfl, rfl, Nat.lt_add_of_pos_right (Nat.succ_pos _), hleft⟩
        · rw [if_neg hpair]
          exact ⟨rfl, rfl, Nat.lt_add_of_pos_right (Nat.succ_pos _), hleft⟩
    · rw [if_neg htext]
      have hmin : min 1 (s.file.bytes.length - s.pos) = 1 := by omega
      right
      refine ⟨rfl, rfl, ?_, hleft⟩
      dsimp only
      omega
  · have hnil : s.file.bytes.drop s.pos = [] := List.drop_of_length_le (by omega)
    left
    rw [hnil]
    by_cases htext : s.text = true
    · rw [if_pos htext]
      rfl
    · rw [if_neg htext]
      rfl

/-- A file has fewer characters than the loop has rounds: the `eofbit` stops it. -/
theorem FileReader.loop_ends (d : Str) (c : Byte) (ss : Str) {r : FileReader}
    (hstate : r.file.failed = true → r.eof = true) :
    ∃ fuel, (readUntilLoop FileReader.get FileReader.eof d fuel c ss r).isSome := by
  -- by induction on the bytes that are left
  obtain ⟨left, hleft⟩ : ∃ left, r.file.file.bytes.length - r.file.pos = left := ⟨_, rfl⟩
  induction left using Nat.strong_induction_on generalizing c ss r with
  | _ left ih =>
      obtain ⟨c', r', hget, hprogress⟩ : ∃ c' r', r.get c = .done c' r' ∧ (r'.eof = true ∨
          r'.file.failed = false ∧ r'.file.file = r.file.file ∧ r.file.pos < r'.file.pos ∧
            r.file.pos < r.file.file.bytes.length) := by
        refine ⟨_, _, rfl, ?_⟩
        by_cases hfailed : r.file.failed = true
        · left
          show (r.eof || _) = true
          rw [hstate hfailed, Bool.true_or]
        · have hgood : r.file.failed = false := by simpa using hfailed
          rcases IFStream.read_one hgood fun _ => c with hfail | hmove
          · left
            show (r.eof || (!r.file.failed && (r.file.read 1 fun _ => c).2.failed)) = true
            rw [hfail, hgood]
            simp
          · exact Or.inr hmove
      by_cases hmatch : d.getLast? = some c' ∧ (d.length = 1 ∨ d <:+ ss ++ [c'])
      · refine ⟨1, ?_⟩
        rw [readUntilLoop, hget]
        dsimp only
        rw [if_pos hmatch]
        rfl
      by_cases heof : r'.eof = true
      · refine ⟨1, ?_⟩
        rw [readUntilLoop, hget]
        dsimp only
        rw [if_neg hmatch, if_pos heof]
        rfl
      · obtain ⟨hgood, hfile, hmove, hin⟩ := hprogress.resolve_left heof
        obtain ⟨fuel, hends⟩ := ih (r'.file.file.bytes.length - r'.file.pos)
          (by rw [hfile]; omega) c' (ss ++ [c']) (fun hfailed => by simp [hgood] at hfailed) rfl
        refine ⟨fuel + 1, ?_⟩
        rw [readUntilLoop, hget]
        dsimp only
        rw [if_neg hmatch, if_neg heof]
        exact hends

/-! ## Strings and sockets -/

/-- The variable `c`, then the characters of `left`, then others. -/
def gotFrom (c : Byte) (left : Str) (behind : Nat → Byte) : Nat → Byte
  | 0 => c
  | i + 1 => left.getD i (behind i)

theorem textOf_gotFrom_le {c : Byte} {left : Str} {behind : Nat → Byte} {n : Nat}
    (hle : n ≤ left.length) : textOf (gotFrom c left behind) n = left.take n := by
  refine textOf_eq_take (fun i hi => ?_) hle
  rw [gotFrom, List.getD_eq_getElem _ _ hi]

theorem textOf_gotFrom_add (c : Byte) (left : Str) (behind : Nat → Byte) (k : Nat) :
    textOf (gotFrom c left behind) (left.length + k) =
      left ++ (List.range k).map fun i => behind (left.length + i) := by
  induction k with
  | zero =>
      rw [Nat.add_zero, textOf_gotFrom_le (Nat.le_refl _), List.take_length]
      simp
  | succ k ih =>
      have hlast : gotFrom c left behind (left.length + k + 1) = behind (left.length + k) := by
        rw [gotFrom, List.getD_eq_default _ _ (by omega)]
      calc textOf (gotFrom c left behind) (left.length + k + 1)
          = textOf (gotFrom c left behind) (left.length + k) ++ [behind (left.length + k)] := by
            rw [textOf_succ, hlast]
        _ = left ++ ((List.range k).map fun i => behind (left.length + i)) ++
              [behind (left.length + k)] := by rw [ih]
        _ = left ++ (List.range (k + 1)).map fun i => behind (left.length + i) := by
            rw [List.range_succ]
            simp

section

variable {σ : Type} {get : Byte → σ → Reading σ Byte} {eof : σ → Bool} {d left : Str}
  {at_ : Nat → σ} {c : Byte} {behind : Nat → Byte}

/-- In front of the delimiter the loop does not stop. -/
theorem not_stops_before (heof : ∀ j, j ≤ left.length → eof (at_ j) = false) {j : Nat}
    (hle : j ≤ left.length) (hfree : ¬ d <:+: left.take j) :
    ¬ Stops eof d at_ (gotFrom c left behind) j := by
  rintro (hend | hstop)
  · rw [textOf_gotFrom_le hle] at hend
    exact hfree hend.isInfix
  · rw [heof j hle] at hstop
    cases hstop

variable (eof) in
/-- The loop returns the text up to the delimiter. -/
theorem readUntilLoop_found (hd : d ≠ [])
    (hfeeds : Feeds get at_ (gotFrom c left behind) left.length)
    (heof : ∀ j, j ≤ left.length → eof (at_ j) = false) (hin : d <:+: left) (fuel : Nat) :
    readUntilLoop get eof d (fuel + (cut d left).length) c [] (at_ 0) =
      some (.done (cut d left) (at_ (cut d left).length)) := by
  have hline := line_cut hd hin
  have hle := (prefix_cut d left).length_le
  have htake : ∀ j, j ≤ (cut d left).length → left.take j = (cut d left).take j := by
    intro j hj
    obtain ⟨rest, hrest⟩ := prefix_cut d left
    conv_lhs => rw [← hrest]
    exact List.take_append_of_le_length hj
  obtain ⟨k, hk⟩ : ∃ k, (cut d left).length = k + 1 :=
    ⟨(cut d left).length - 1,
      (Nat.succ_pred_eq_of_pos (List.length_pos_iff.mpr hline.ne_nil)).symm⟩
  have htext : textOf (gotFrom c left behind) (k + 1) = cut d left := by
    rw [textOf_gotFrom_le (by omega), htake (k + 1) (by omega), ← hk, List.take_length]
  have hgo : ∀ j, 0 < j → j ≤ k → ¬ Stops eof d at_ (gotFrom c left behind) j := by
    intro j _ hj
    refine not_stops_before heof (by omega) fun hin' => hline.first (hin'.trans ?_)
    rw [htake j (by omega), List.dropLast_eq_take]
    exact (List.take_prefix_take_left (by omega)).isInfix
  have hbefore : Feeds get at_ (gotFrom c left behind) (k + 1) := fun j hj =>
    hfeeds j (by omega)
  have hstop : Stops eof d at_ (gotFrom c left behind) (k + 1) := by
    left
    rw [htext]
    exact hline.ends
  have hrun := readUntilLoop_stops hd hbefore hgo hstop fuel
  rw [htext, ← hk] at hrun
  exact hrun

variable (eof) in
/-- Without the delimiter the loop comes to the end. -/
theorem readUntilLoop_missing (hd : d ≠ [])
    (hfeeds : Feeds get at_ (gotFrom c left behind) left.length)
    (heof : ∀ j, j ≤ left.length → eof (at_ j) = false) (hfree : ¬ d <:+: left) (fuel : Nat) :
    readUntilLoop get eof d (fuel + left.length) c [] (at_ 0) =
      readUntilLoop get eof d fuel (gotFrom c left behind left.length) left (at_ left.length) := by
  have hbefore : Feeds get at_ (gotFrom c left behind) (0 + left.length) := fun j hj =>
    hfeeds j (by omega)
  have hgo : ∀ j, 0 < j → j ≤ 0 + left.length → ¬ Stops eof d at_ (gotFrom c left behind) j :=
    fun j _ hj => not_stops_before heof (by omega) fun hin =>
      hfree (hin.trans (List.take_prefix _ _).isInfix)
  have hrun := readUntilLoop_goes_on eof hd hbefore hgo fuel
  rw [Nat.zero_add, textOf_gotFrom_le (Nat.le_refl _), List.take_length] at hrun
  exact hrun

end

/-- The characters are got up to a place in the text, or up to one behind it. -/
theorem exists_suffix_iff {c x : Byte} {left d : Str} (hd : d ≠ []) :
    (∃ n, 0 < n ∧ d <:+ textOf (gotFrom c left fun _ => x) n) ↔
      d <:+: left ++ List.replicate d.length x := by
  have htext : ∀ k, textOf (gotFrom c left fun _ => x) (left.length + k) =
      left ++ List.replicate k x := by
    intro k
    rw [textOf_gotFrom_add, List.map_const', List.length_range]
  constructor
  · rintro ⟨n, -, hend⟩
    by_cases hle : n ≤ left.length
    · rw [textOf_gotFrom_le hle] at hend
      exact hend.isInfix.trans ((List.take_prefix _ _).isInfix.trans
        (List.prefix_append _ _).isInfix)
    · obtain ⟨k, rfl⟩ : ∃ k, n = left.length + k := ⟨n - left.length, by omega⟩
      rw [htext] at hend
      by_cases hk : k ≤ d.length
      · have hsum : d.length = k + (d.length - k) := by omega
        rw [hsum, List.replicate_add, ← List.append_assoc]
        exact hend.isInfix.trans (List.prefix_append _ _).isInfix
      · -- more than enough copies
        have hcopies : List.replicate d.length x <:+ left ++ List.replicate k x := by
          have hsum : k = (k - d.length) + d.length := by omega
          rw [hsum, List.replicate_add, ← List.append_assoc]
          exact List.suffix_append _ _
        have heq : d = List.replicate d.length x :=
          (List.suffix_of_suffix_length_le hend hcopies (by simp)).eq_of_length (by simp)
        rw [← heq]
        exact (List.suffix_append _ _).isInfix
  · rintro ⟨p, q, heq⟩
    have hlen := congrArg List.length heq
    simp only [List.length_append, List.length_replicate] at hlen
    have hpos : 0 < d.length := List.length_pos_iff.mpr hd
    have htake : (left ++ List.replicate d.length x).take (p.length + d.length) = p ++ d := by
      rw [← heq, List.take_left' (by simp)]
    refine ⟨p.length + d.length, by omega, ?_⟩
    have hpre : textOf (gotFrom c left fun _ => x) (p.length + d.length) = p ++ d := by
      rw [← htake]
      by_cases hle : p.length + d.length ≤ left.length
      · rw [textOf_gotFrom_le hle, List.take_append_of_le_length hle]
      · obtain ⟨k, hk⟩ : ∃ k, p.length + d.length = left.length + k :=
          ⟨p.length + d.length - left.length, by omega⟩
        rw [hk, htext, List.take_length_add_append, List.take_replicate]
        have hmin : min k d.length = k := by omega
        rw [hmin]
    rw [hpre]
    exact List.suffix_append _ _

/-- Behind the text the variable keeps its character. -/
theorem gotFrom_stays (c : Byte) {left : Str} {i : Nat} (hi : left.length ≤ i) :
    gotFrom c left (fun _ => left.getLastD c) (i + 1) =
      gotFrom c left (fun _ => left.getLastD c) i := by
  rw [gotFrom, List.getD_eq_default _ _ hi]
  cases i with
  | zero =>
      obtain rfl : left = [] := List.length_eq_zero_iff.mp (by omega)
      rfl
  | succ i =>
      rw [gotFrom]
      by_cases hin : i < left.length
      · have hlast : i = left.length - 1 := by omega
        have hne : left ≠ [] := List.ne_nil_of_length_pos (by omega)
        rw [List.getD_eq_getElem _ _ hin, List.getLastD_eq_getLast?,
          List.getLast?_eq_some_getLast hne, Option.getD_some, List.getLast_eq_getElem]
        simp only [hlast]
      · rw [List.getD_eq_default _ _ (by omega)]

/-- What a string still has to read: nothing after a read that has failed. -/
def StringStreamReader.rest (r : StringStreamReader) : Str :=
  if r.stream.failed then [] else r.stream.left

/-- The reader after `i` characters. -/
def StringStreamReader.after (r : StringStreamReader) (i : Nat) : StringStreamReader :=
  { r with stream :=
      { left := r.stream.left.drop (min i r.rest.length),
        failed := r.stream.failed || decide (r.rest.length < i) } }

theorem StringStreamReader.after_zero (r : StringStreamReader) : r.after 0 = r := by
  rw [after, Nat.zero_min, List.drop_zero]
  simp

theorem StringStreamReader.get_char (c x : Byte) {r : StringStreamReader} {l : Str}
    (hgood : r.stream.failed = false) (hleft : r.stream.left = x :: l) :
    r.get c = .done x { r with stream := { left := l, failed := false } } := by
  rw [get, StringStream.read, hgood, hleft]
  rfl

theorem StringStreamReader.get_none (c : Byte) {r : StringStreamReader}
    (hend : r.stream.failed = true ∨ r.stream.left = []) :
    r.get c = .done c { r with stream := { left := r.stream.left, failed := true } } := by
  rw [get, StringStream.read]
  rcases hend with hfailed | hnil
  · rw [hfailed]
    rfl
  · rw [hnil]
    cases r.stream.failed with
    | true => rfl
    | false => rfl

theorem StringStreamReader.feeds (r : StringStreamReader) (c : Byte) (n : Nat) :
    Feeds StringStreamReader.get r.after (gotFrom c r.rest fun _ => r.rest.getLastD c) n := by
  intro i _
  by_cases hin : i < r.rest.length
  · have hgood : r.stream.failed = false := by
      by_contra hfailed
      rw [rest, if_pos (by simpa using hfailed)] at hin
      exact absurd hin (Nat.not_lt_zero i)
    have hrest : r.rest = r.stream.left := by rw [rest, hgood, if_neg (by simp)]
    have hchar : gotFrom c r.rest (fun _ => r.rest.getLastD c) (i + 1) = r.rest[i] := by
      rw [gotFrom, List.getD_eq_getElem _ _ hin]
    have hgood' : (r.after i).stream.failed = false := by
      simp only [after, hgood, Bool.false_or, decide_eq_false_iff_not]
      omega
    have hleft : (r.after i).stream.left = r.rest[i] :: r.stream.left.drop (i + 1) := by
      have hmin : min i r.rest.length = i := by omega
      show r.stream.left.drop (min i r.rest.length) = _
      rw [hmin]
      simp only [hrest]
      exact List.drop_eq_getElem_cons (hrest ▸ hin)
    have hmin : min (i + 1) r.rest.length = i + 1 := by omega
    have hnext : r.after (i + 1) =
        { r with stream := { left := r.stream.left.drop (i + 1), failed := false } } := by
      rw [after, hmin, hgood, decide_eq_false (by omega)]
      rfl
    rw [get_char _ _ hgood' hleft, hchar, hnext]
    rfl
  · have hend : (r.after i).stream.failed = true ∨ (r.after i).stream.left = [] := by
      by_cases hfailed : r.stream.failed = true
      · left
        simp only [after, hfailed, Bool.true_or]
      · right
        have hrest : r.rest = r.stream.left := by rw [rest, if_neg hfailed]
        have hmin : min i r.rest.length = r.rest.length := by omega
        show r.stream.left.drop (min i r.rest.length) = []
        rw [hmin, hrest, List.drop_length]
    have hmin : min i r.rest.length = min (i + 1) r.rest.length := by omega
    have hpast : r.rest.length < i + 1 := by omega
    rw [get_none _ hend, gotFrom_stays c (by omega), after, after, hmin]
    simp only [hpast, decide_true, Bool.or_true]

/-- A string reader ends where the delimiter is found in what is left, with copies of its last
character behind it. -/
theorem StringStreamReader.ends_iff (r : StringStreamReader) {d : Str} (hd : d ≠ []) (m : Memory) :
    (∃ fuel, (r.readUntil fuel d m).isSome) ↔
      d <:+: r.rest ++ List.replicate d.length (r.rest.getLastD m.c) := by
  have hends := readUntilLoop_ends_iff (fun _ => false) hd (r.feeds m.c)
  rw [gotFrom, r.after_zero] at hends
  simp only [readUntil, readUntilOf, Option.isSome_map]
  rw [hends, ← exists_suffix_iff (c := m.c) hd]
  simp only [Stops, Bool.false_eq_true, or_false]

/-! ### Sockets -/

namespace Incoming

/-- The socket after `i` calls of `recv(1)`. -/
def after (s : Incoming) (i : Nat) : Incoming :=
  { s with left := s.left.drop i, gives := fun j => s.gives (j + i),
           memory := fun j => s.memory (j + i) }

theorem after_succ (s : Incoming) (i : Nat) : (s.after i).after 1 = s.after (i + 1) := by
  have hsum : ∀ j, j + 1 + i = j + (i + 1) := fun j => by omega
  simp only [after, List.drop_drop, hsum]

theorem get_char (c x : Byte) {s : Incoming} {l : Str} (hleft : s.left = x :: l) :
    s.get c = .done x (s.after 1) := by
  have hone : min (max 1 (s.gives 0)) 1 = 1 := by omega
  rw [get, recv, hleft]
  dsimp only
  rw [hone, take, next, after, hleft]
  rfl

/-- Behind the last byte of a closed connection the buffer of `recv` is left as it was. -/
theorem get_closed (c : Byte) {s : Incoming} (hleft : s.left = []) (hclosed : s.ending = .closed) :
    s.get c = .done (s.memory 0 0) (s.after 1) := by
  rw [get, recv, hleft, hclosed]
  dsimp only
  rw [take, next, after, hleft, hclosed]
  rfl

theorem feeds (s : Incoming) (c : Byte) {n : Nat}
    (h : s.ending = .closed ∨ n ≤ s.left.length) :
    Feeds Incoming.get s.after (gotFrom c s.left fun i => s.memory i 0) n := by
  intro i hi
  by_cases hin : i < s.left.length
  · have hleft : (s.after i).left = s.left[i] :: s.left.drop (i + 1) :=
      List.drop_eq_getElem_cons hin
    rw [get_char _ _ hleft, after_succ, gotFrom, List.getD_eq_getElem _ _ hin]
  · have hclosed : s.ending = .closed := by
      rcases h with hclosed | hle
      · exact hclosed
      · omega
    have hleft : (s.after i).left = [] := List.drop_of_length_le (by omega)
    rw [get_closed _ hleft hclosed, after_succ, gotFrom, List.getD_eq_default _ _ (by omega)]
    simp only [after, Nat.zero_add]

/-- A socket reader ends where the delimiter is found in the bytes, with what the buffers hold
behind them. -/
theorem ends_iff {s : Incoming} (hclosed : s.ending = .closed) {d : Str} (hd : d ≠ [])
    (m : Memory) :
    (∃ fuel, (s.readUntil fuel d m).isSome) ↔
      ∃ n, 0 < n ∧ d <:+ textOf (gotFrom m.c s.left fun i => s.memory i 0) n := by
  have hends := readUntilLoop_ends_iff (fun _ => false) hd fun n =>
    s.feeds m.c (n := n) (Or.inl hclosed)
  simp only [readUntil, readUntilOf, Option.isSome_map]
  have hzero : s.after 0 = s := rfl
  rw [gotFrom, hzero] at hends
  rw [hends]
  simp only [Stops, Bool.false_eq_true, or_false]

end Incoming

/-! ## When the loop ends -/

/-- The three readers, the one of a socket at a stream that is closed behind its last byte. -/
inductive Reader where
  | file (r : FileReader) (h : r.file.failed = true → r.eof = true)
  | string (r : StringStreamReader)
  | socket (left : Str) (gives : Nat → Nat)

namespace Reader

/-- `readUntil(d)` ends, whatever the memory holds that it has not written. -/
def Ends (d : Str) : Reader → Prop
  | file r _ => ∀ m, ∃ fuel, (r.readUntil fuel d m).isSome
  | string r => ∀ m, ∃ fuel, (r.readUntil fuel d m).isSome
  | socket left gives => ∀ memory m, ∃ fuel,
      ((⟨left, .closed, gives, memory⟩ : Incoming).readUntil fuel d m).isSome

/-- The delimiter is in what is left, or, for a string, in what is left with copies of its last
character behind it. -/
def Finds (d : Str) : Reader → Prop
  | file _ _ => True
  | string r => ∃ c, r.rest.getLast? = some c ∧ d <:+: r.rest ++ List.replicate d.length c
  | socket left _ => d <:+: left

end Reader

/-- Some byte is not the last one of the delimiter. -/
theorem exists_not_last {d : Str} (hd : d ≠ []) : ∃ c : Byte, ∀ s, ¬ d <:+ s ++ [c] := by
  obtain ⟨c, hc⟩ : ∃ c : Byte, d.getLast hd ≠ c := by
    by_cases hzero : d.getLast hd = 0
    · exact ⟨1, by rw [hzero]; decide⟩
    · exact ⟨0, hzero⟩
  refine ⟨c, fun s hend => hc ?_⟩
  rw [hend.getLast hd, List.getLast_append_singleton]

theorem StringStreamReader.ends_always_iff (r : StringStreamReader) {d : Str} (hd : d ≠ []) :
    (Reader.string r).Ends d ↔ (Reader.string r).Finds d := by
  unfold Reader.Ends Reader.Finds
  constructor
  · intro h
    cases hlast : r.rest.getLast? with
    | some c =>
        have hfound := (r.ends_iff hd ⟨fun _ => 0, 0, 0⟩).mp (h _)
        rw [List.getLastD_eq_getLast?, hlast] at hfound
        exact ⟨c, hlast, hfound⟩
    | none =>
        -- nothing is left, and the variable may hold anything
        have hnil : r.rest = [] := List.getLast?_eq_none_iff.mp hlast
        obtain ⟨c, hc⟩ := exists_not_last hd
        have hfound : d <:+: r.rest ++ List.replicate d.length (r.rest.getLastD c) :=
          (r.ends_iff hd ⟨fun _ => 0, 0, c⟩).mp (h _)
        rw [hnil, List.nil_append, List.getLastD_nil] at hfound
        obtain ⟨-, hcopies⟩ := List.infix_replicate_iff.mp hfound
        obtain ⟨k, hk⟩ : ∃ k, d.length = k + 1 :=
          ⟨d.length - 1, (Nat.succ_pred_eq_of_pos (List.length_pos_iff.mpr hd)).symm⟩
        rw [hk, List.replicate_succ'] at hcopies
        have hend : d <:+ List.replicate k c ++ [c] := by rw [← hcopies]
        exact absurd hend (hc _)
  · rintro ⟨c, hlast, hfound⟩ m
    rw [r.ends_iff hd m, List.getLastD_eq_getLast?, hlast]
    exact hfound

theorem socket_ends_always_iff (left : Str) (gives : Nat → Nat) {d : Str} (hd : d ≠ []) :
    (Reader.socket left gives).Ends d ↔ (Reader.socket left gives).Finds d := by
  unfold Reader.Ends Reader.Finds
  constructor
  · intro h
    obtain ⟨b, hb⟩ := exists_not_last hd
    -- buffers that hold nothing but a byte that does not end the delimiter
    obtain ⟨n, hpos, hend⟩ := (Incoming.ends_iff rfl hd ⟨fun _ => 0, 0, 0⟩).mp (h (fun _ _ => b) _)
    dsimp only at hend
    by_cases hle : n ≤ left.length
    · rw [textOf_gotFrom_le hle] at hend
      exact hend.isInfix.trans (List.take_prefix _ _).isInfix
    · obtain ⟨k, rfl⟩ : ∃ k, n = k + 1 := ⟨n - 1, by omega⟩
      rw [textOf_succ, gotFrom, List.getD_eq_default _ _ (by omega)] at hend
      exact absurd hend (hb _)
  · rintro ⟨p, q, rfl⟩ memory m
    have hpos : 0 < d.length := List.length_pos_iff.mpr hd
    refine (Incoming.ends_iff rfl hd m).mpr ⟨(p ++ d).length, by simp; omega, ?_⟩
    rw [textOf_gotFrom_le (by simp), List.take_left]
    exact List.suffix_append _ _

/-- **When `readUntil` ends**: always on a file; on a string if the delimiter is found in what is
left, where the last character may count more than once; on a socket if it is found before the
connection is closed. -/
theorem readUntil_ends_iff (reader : Reader) {d : Str} (hd : d ≠ []) :
    reader.Ends d ↔ reader.Finds d := by
  cases reader with
  | file r h =>
      refine iff_of_true (fun m => ?_) trivial
      obtain ⟨fuel, hends⟩ := FileReader.loop_ends d m.c [] h
      refine ⟨fuel, ?_⟩
      simp only [FileReader.readUntil, readUntilOf, Option.isSome_map]
      exact hends
  | string r => exact r.ends_always_iff hd
  | socket left gives => exact socket_ends_always_iff left gives hd

/-- A string with the delimiter. -/
theorem readUntil_ends_found : (Reader.string (.of [97, 10, 98])).Ends [10] :=
  (readUntil_ends_iff _ (by decide)).mpr ⟨98, rfl, by decide⟩

/-- On the string `ab` and on a connection that is closed behind `ab` the loop does not end without
the delimiter. -/
theorem readUntil_endless :
    ¬ (Reader.string (.of [97, 98])).Ends [10] ∧
      ¬ (Reader.socket [97, 98] fun _ => 1).Ends [10] := by
  constructor
  · rw [StringStreamReader.ends_always_iff _ (by decide)]
    rintro ⟨c, hlast, hfound⟩
    cases hlast
    exact absurd hfound (by decide)
  · rw [socket_ends_always_iff _ _ (by decide)]
    exact (by decide : ¬ ([10] : Str) <:+: [97, 98])

end DianProtocol.Cpp
