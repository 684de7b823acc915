import DianProtocol.Cpp.Calls

set_option autoImplicit false

/-! # Calls of the readers of files

`FileStreamReader::readUntil` writes the last character of the file twice when the delimiter does not
come, and leaves the stream failed: `tellg` is then `-1`, and a later `read` returns a byte more than
the file has. `RangeFileStreamReader` cuts what its base returns at the end of the range, and takes a
failed stream to be behind it. Both return what `readUntil` has found through the constructor that
copies as many bytes as its unset member says. `fileReaders_deliver_iff` puts this together.
-/

namespace DianProtocol.Cpp

open Cursor

/-! ## `RangeFileStreamReader` -/

/-- `buffer::resize(newsize)` -/
def resize (data : Str) (newsize : Nat) (junk : Junk) : Str :=
  if newsize = data.length then data else newArray newsize data junk

/-- A `RangeFileStreamReader` with the `eofbit` of its stream. -/
structure RangeFileReader extends RangeFileStreamReader where
  eof : Bool := false

namespace RangeFileReader

/-- `RangeFileStreamReader(filepath, stream, start, end)` -/
def of (stream : IFStream) (start end_ : Nat) : RangeFileReader :=
  { RangeFileStreamReader.of stream start end_ with }

/-- The base class. -/
def base (r : RangeFileReader) : FileReader := { r.toFileStreamReader with eof := r.eof }

def withBase (r : RangeFileReader) (base : FileReader) : RangeFileReader :=
  { r with toFileStreamReader := base.toFileStreamReader, eof := base.eof }

def read (r : RangeFileReader) (size : Nat) (junk : Junk) : Str × RangeFileReader :=
  let (data, next) := r.toRangeFileStreamReader.read size junk
  (data, { next with eof := r.eof || (!r.file.failed && next.file.failed) })

/-- `RangeFileStreamReader::readUntil(str)` -/
def readUntil (fuel : Nat) (r : RangeFileReader) (str : Str) (m : Memory) :
    Option (Reading RangeFileReader Str) :=
  if r.end_ = size_t (-1) then
    (r.base.readUntil fuel str m).map (Reading.bind fun ret base => .done ret (r.withBase base))
  -- a failed stream is at `-1`, which is behind every end
  else if size_t r.file.tellg ≥ r.end_ then some (.done [] r)
  else
    let left := size_t (r.end_ - r.file.tellg)
    (r.base.readUntil fuel str m).map (Reading.bind fun ret base =>
      .done (if ret.length > left then resize ret left m.junk else ret) (r.withBase base))

end RangeFileReader

/-! ## Calls -/

/-- `FileStreamReader(filepath, stream)` -/
def FileReader.of (stream : IFStream) : FileReader := { FileStreamReader.of stream with }

def FileReader.call (fuel : Nat) (r : FileReader) (c : Call Byte) (m : Memory) :
    Option (Reading FileReader Str) :=
  match c with
  | .read n => some (.done (r.read n m.junk).1 (r.read n m.junk).2)
  | .readUntil d => r.readUntil fuel d m

def RangeFileReader.call (fuel : Nat) (r : RangeFileReader) (c : Call Byte) (m : Memory) :
    Option (Reading RangeFileReader Str) :=
  match c with
  | .read n => some (.done (r.read n m.junk).1 (r.read n m.junk).2)
  | .readUntil d => r.readUntil fuel d m

theorem readUntilOf_mono {σ : Type} {get : Byte → σ → Reading σ Byte} {eof : σ → Bool} {fuel : Nat}
    {s : σ} {d : Str} {m : Memory} {reading : Reading σ Str}
    (h : readUntilOf get eof fuel s d m = some reading) (k : Nat) :
    readUntilOf get eof (fuel + k) s d m = some reading := by
  unfold readUntilOf at h ⊢
  obtain ⟨result, hloop, rfl⟩ := Option.map_eq_some_iff.mp h
  rw [readUntilLoop_mono hloop k]
  rfl

theorem FileReader.call_mono {fuel : Nat} {r : FileReader} {c : Call Byte} {m : Memory}
    {reading : Reading FileReader Str} (h : r.call fuel c m = some reading) (k : Nat) :
    r.call (fuel + k) c m = some reading := by
  cases c with
  | read n => exact h
  | readUntil d => exact readUntilOf_mono h k

theorem RangeFileReader.call_mono {fuel : Nat} {r : RangeFileReader} {c : Call Byte} {m : Memory}
    {reading : Reading RangeFileReader Str} (h : r.call fuel c m = some reading) (k : Nat) :
    r.call (fuel + k) c m = some reading := by
  cases c with
  | read n => exact h
  | readUntil d =>
      simp only [call, readUntil] at h ⊢
      split at h
      · rename_i hend
        rw [if_pos hend]
        obtain ⟨result, hbase, hresult⟩ := Option.map_eq_some_iff.mp h
        rw [FileReader.readUntil, readUntilOf_mono hbase k]
        exact congrArg some hresult
      · rename_i hend
        rw [if_neg hend]
        split at h
        · rename_i hpast
          rw [if_pos hpast]
          exact h
        · rename_i hpast
          rw [if_neg hpast]
          obtain ⟨result, hbase, hresult⟩ := Option.map_eq_some_iff.mp h
          rw [FileReader.readUntil, readUntilOf_mono hbase k]
          exact congrArg some hresult

/-! ## The file reader -/

/-- A read at the end of the file fails, and leaves its buffer as it was. -/
theorem IFStream.read_end {s : IFStream} (hgood : s.failed = false) (hraw : s.text = false)
    (hend : s.file.bytes.length ≤ s.pos) (junk : Junk) :
    s.read 1 junk = ([junk 0], { s with failed := true }) := by
  have hnil : s.file.bytes.drop s.pos = [] := List.drop_of_length_le hend
  have hzero : min 1 (s.file.bytes.length - s.pos) = 0 := by omega
  rw [read, hgood, if_neg (by simp), hraw, if_neg (by simp), hnil, hzero]
  rfl

namespace FileReader

/-- The reader is at a place of its file where `left` is left. -/
structure Left (r : FileReader) (left : Str) : Prop where
  at_ : r.toFileStreamReader.At r.file.pos
  raw : r.file.text = false
  eof : r.eof = false
  left : left = r.file.file.bytes.drop r.file.pos

/-- The reader after `i` characters, the last of which may not have been there. -/
def after (r : FileReader) (left : Str) (i : Nat) : FileReader :=
  { r with
    file :=
      { r.file with pos := r.file.pos + min i left.length, failed := decide (left.length < i) }
    eof := decide (left.length < i) }

variable {r : FileReader} {left : Str}

theorem Left.length (h : r.Left left) :
    left.length = r.file.file.bytes.length - r.file.pos := by
  rw [h.left, List.length_drop]

theorem Left.after (h : r.Left left) {i : Nat} (hi : i ≤ left.length) :
    (r.after left i).Left (left.drop i) := by
  have hlen := h.length
  have hle := h.at_.le
  have hmin : min i left.length = i := by omega
  have hnot : decide (left.length < i) = false := decide_eq_false (by omega)
  refine ⟨⟨hnot, rfl, ?_, h.at_.filesize⟩, h.raw, hnot, ?_⟩
  · show r.file.pos + min i left.length ≤ r.file.file.bytes.length
    omega
  · show left.drop i = r.file.file.bytes.drop (r.file.pos + min i left.length)
    rw [hmin, h.left, List.drop_drop]

theorem after_zero (h : r.Left left) : r.after left 0 = r := by
  have hgood := h.at_.good
  have heof := h.eof
  obtain ⟨⟨⟨file, text, pos, failed⟩, filesize⟩, eof⟩ := r
  simp_all [FileReader.after]

/-- A read returns what is left, as far as it is asked for. -/
theorem Left.read (h : r.Left left) (n : Nat) (junk : Junk) :
    r.read n junk = (left.take n, r.after left (left.take n).length) := by
  have hlen := h.length
  have hplain : ∀ q, r.file.Plain q := fun q htext => by
    rw [h.raw] at htext
    cases htext
  have hk : (left.take n).length = min n (r.file.file.bytes.length - r.file.pos) := by
    rw [List.length_take, hlen]
  have hread := FileStreamReader.read_plain h.at_ hk (hplain _) junk
  have hmin : min (left.take n).length left.length = (left.take n).length := by
    rw [List.length_take]
    omega
  have hnot : decide (left.length < (left.take n).length) = false := by
    rw [List.length_take]
    exact decide_eq_false (by omega)
  rw [FileReader.read, hread, FileReader.after, hmin, hnot, ← h.left]
  dsimp only
  rw [h.at_.good, h.eof]
  refine Prod.ext ?_ rfl
  rw [List.take_eq_take_iff, List.length_take]
  omega

theorem after_after (r : FileReader) {left : Str} {i : Nat} (hi : i ≤ left.length) :
    (r.after left i).after (left.drop i) 1 = r.after left (i + 1) := by
  have hpos : r.file.pos + min i left.length + min 1 (left.drop i).length =
      r.file.pos + min (i + 1) left.length := by
    rw [List.length_drop]
    omega
  have hend : decide ((left.drop i).length < 1) = decide (left.length < i + 1) := by
    rw [List.length_drop, decide_eq_decide]
    omega
  simp only [FileReader.after, hpos, hend]

theorem Left.get_char {x : Byte} {l : Str} (h : r.Left (x :: l)) (c : Byte) :
    r.get c = .done x (r.after (x :: l) 1) := by
  have hlen := h.length
  rw [List.length_cons] at hlen
  have hplain : r.file.Plain (r.file.pos + 1) := fun htext => by
    rw [h.raw] at htext
    cases htext
  have hread := IFStream.read_plain h.at_.good (by omega) hplain fun _ => c
  have hnot : decide ((x :: l).length < 1) = false := decide_eq_false (by simp)
  have hmin : min 1 (x :: l).length = 1 := by simp
  rw [get, hread, FileReader.after, hmin, hnot, ← h.left, h.eof]
  dsimp only
  rw [h.at_.good]
  rfl

/-- At the end nothing is got, and the `eofbit` is set. -/
theorem Left.get_none (h : r.Left []) (c : Byte) : r.get c = .done c (r.after [] 1) := by
  have hlen := h.length
  rw [List.length_nil] at hlen
  have hread := IFStream.read_end h.at_.good h.raw (by omega) fun _ => c
  rw [get, hread, FileReader.after, h.eof]
  dsimp only
  rw [h.at_.good]
  rfl

theorem Left.feeds (h : r.Left left) (c : Byte) :
    Feeds FileReader.get (r.after left) (gotFrom c left fun _ => left.getLastD c)
      (left.length + 1) := by
  intro i hi
  have hat := h.after (i := i) (by omega)
  by_cases hin : i < left.length
  · rw [List.drop_eq_getElem_cons hin] at hat
    rw [hat.get_char, ← List.drop_eq_getElem_cons hin, r.after_after (by omega), gotFrom,
      List.getD_eq_getElem _ _ hin]
  · have hnil : left.drop i = [] := List.drop_of_length_le (by omega)
    rw [hnil] at hat
    rw [hat.get_none, ← hnil, r.after_after (by omega), gotFrom_stays c (by omega)]

/-- In front of the end the `eofbit` is not set. -/
theorem Left.not_eof (h : r.Left left) : ∀ j, j ≤ left.length → (r.after left j).eof = false :=
  fun _ hj => (h.after hj).eof

/-- `readUntil` returns what stands in front of the delimiter, and the delimiter. -/
theorem Left.readUntil_found (h : r.Left left) {d : Str} (hd : d ≠ []) (hin : d <:+: left)
    (m : Memory) :
    r.readUntil (cut d left).length d m =
      some (.done (m.buffer (cut d left)) (r.after left (cut d left).length)) := by
  have hfeeds : Feeds FileReader.get (r.after left) (gotFrom m.c left fun _ => left.getLastD m.c)
      left.length := fun i hi => h.feeds m.c i (by omega)
  have hloop := readUntilLoop_found FileReader.eof hd hfeeds h.not_eof hin 0
  rw [after_zero h, Nat.zero_add] at hloop
  rw [readUntil, readUntilOf, hloop]
  rfl

/-- Without the delimiter it returns all that is left, and one character more. -/
theorem Left.readUntil_missing (h : r.Left left) {d : Str} (hd : d ≠ []) (hfree : ¬ d <:+: left)
    (m : Memory) :
    r.readUntil (left.length + 1) d m =
      some (.done (m.buffer (left ++ [left.getLastD m.c])) (r.after left (left.length + 1))) := by
  have hgo : ∀ j, 0 < j → j ≤ left.length →
      ¬ Stops FileReader.eof d (r.after left) (gotFrom m.c left fun _ => left.getLastD m.c) j :=
    fun j _ hj => not_stops_before h.not_eof hj fun hin =>
      hfree (hin.trans (List.take_prefix _ _).isInfix)
  have hstop : Stops FileReader.eof d (r.after left)
      (gotFrom m.c left fun _ => left.getLastD m.c) (left.length + 1) :=
    Or.inr (decide_eq_true (Nat.lt_succ_self _))
  have hloop := readUntilLoop_stops hd (h.feeds m.c) hgo hstop 0
  rw [after_zero h, Nat.zero_add, textOf_gotFrom_add] at hloop
  rw [readUntil, readUntilOf]
  simp only [gotFrom] at hloop
  rw [hloop]
  rfl

/-- A `readUntil` that finds its delimiter, and whose buffer keeps what has been read. -/
def Safe (m : Memory) (left : Str) : Call Byte → Prop
  | .read _ => True
  | .readUntil d => d <:+: left ∧ m.Keeps (cut d left)

theorem follows : Follows FileReader.call FileReader.Left FileReader.Safe where
  mono := call_mono
  safe := by
    intro r left c m hat hc hsafe
    cases c with
    | read n =>
        refine ⟨0, r.after left (left.take n).length, ?_, hat.after (by simp)⟩
        rw [call, hat.read]
        rfl
    | readUntil d =>
        obtain ⟨hin, hkeeps⟩ := hsafe
        refine ⟨(cut d left).length, r.after left (cut d left).length, ?_,
          hat.after (prefix_cut d left).length_le⟩
        rw [call, hat.readUntil_found hc hin, (m.buffer_eq_iff _).mpr hkeeps]
        rfl
  other := by
    intro r left c m hat hc hnot
    cases c with
    | read n => exact absurd trivial hnot
    | readUntil d =>
        by_cases hin : d <:+: left
        · refine ⟨_, _, _, hat.readUntil_found hc hin m, fun hdelivers => hnot ⟨hin, ?_⟩⟩
          have heq := (hdelivers.2 d rfl).eq_cut hc
          exact (m.buffer_eq_iff _).mp heq
        · refine ⟨_, _, _, hat.readUntil_missing hc hin m, fun hdelivers => ?_⟩
          -- the buffer is longer than what is left
          have hle := hdelivers.1.length_le
          rw [m.length_buffer, List.length_append] at hle
          exact absurd hle (by simp)

end FileReader

/-! ## The range reader -/

namespace RangeFileReader

variable {r : RangeFileReader} {left : Str}

/-- The reader is at a place of its file in front of the end of the range, where `left` is left of
the range, or it is behind the range. -/
structure Left (r : RangeFileReader) (left : Str) : Prop where
  end_lt : r.end_ < size_t (-1)
  end_le : r.end_ ≤ r.file.file.bytes.length
  place : (r.file.pos < r.end_ ∧ r.base.Left (r.file.file.bytes.drop r.file.pos) ∧
      left = (r.file.file.bytes.drop r.file.pos).take (r.end_ - r.file.pos)) ∨
    (r.end_ ≤ size_t r.file.tellg ∧ left = [])

/-- The position of a stream that has not failed. -/
theorem tellg_of_base {all : Str} (h : r.base.Left all) :
    r.file.tellg = r.file.pos ∧ size_t r.file.tellg = r.file.pos := by
  have hle : r.file.pos ≤ r.file.file.bytes.length := h.at_.le
  have hlt := r.file.file.size_lt
  have hgood : r.file.failed = false := h.at_.good
  have htell : r.file.tellg = r.file.pos := by rw [IFStream.tellg, hgood, if_neg (by simp)]
  refine ⟨htell, ?_⟩
  rw [htell, size_t_of_nonneg (by omega) (by omega), Int.toNat_natCast]

/-- The reader is where its base is. -/
theorem left_of_base (hend : r.end_ < size_t (-1)) (hle : r.end_ ≤ r.file.file.bytes.length)
    (h : r.base.Left (r.file.file.bytes.drop r.file.pos)) :
    r.Left ((r.file.file.bytes.drop r.file.pos).take (r.end_ - r.file.pos)) := by
  refine ⟨hend, hle, ?_⟩
  by_cases hin : r.file.pos < r.end_
  · exact Or.inl ⟨hin, h, rfl⟩
  · refine Or.inr ⟨?_, ?_⟩
    · rw [(tellg_of_base h).2]
      omega
    · have hzero : r.end_ - r.file.pos = 0 := by omega
      rw [hzero, List.take_zero]

/-- Behind the range nothing is read. -/
theorem read_past (hend : r.end_ < size_t (-1)) (hpast : r.end_ ≤ size_t r.file.tellg) (n : Nat)
    (junk : Junk) : r.read n junk = ([], r) := by
  have hsame : (!r.file.failed && r.file.failed) = false := by cases r.file.failed <;> rfl
  rw [read, RangeFileStreamReader.read, if_neg (by omega), if_pos hpast]
  dsimp only
  rw [hsame, Bool.or_false]

theorem readUntil_past (hend : r.end_ < size_t (-1)) (hpast : r.end_ ≤ size_t r.file.tellg)
    (fuel : Nat) (d : Str) (m : Memory) : r.readUntil fuel d m = some (.done [] r) := by
  rw [readUntil, if_neg (by omega), if_pos hpast]

/-- A shorter buffer keeps the front of the longer one. -/
theorem resize_eq_take {data : Str} {k : Nat} (hlt : k < data.length) (junk : Junk) :
    resize data k junk = data.take k := by
  have hzero : k - data.length = 0 := by omega
  rw [resize, if_neg (by omega), newArray, hzero]
  simp

section

variable {all : Str}

/-- What the base moves on, the range reader moves on. -/
theorem left_after (hend : r.end_ < size_t (-1)) (hle : r.end_ ≤ r.file.file.bytes.length)
    (h : r.base.Left all) {k : Nat} (hk : k ≤ all.length) :
    (r.withBase (r.base.after all k)).Left ((all.take (r.end_ - r.file.pos)).drop k) := by
  have hpos : (r.base.after all k).file.pos = r.file.pos + k := by
    show r.file.pos + min k all.length = _
    omega
  have hafter := h.after hk
  have hdrop : all.drop k = r.file.file.bytes.drop (r.base.after all k).file.pos := hafter.left
  have hleft := left_of_base (r := r.withBase (r.base.after all k)) hend hle (hdrop ▸ hafter)
  have hsub : r.end_ - (r.base.after all k).file.pos = r.end_ - r.file.pos - k := by omega
  have heq : (all.take (r.end_ - r.file.pos)).drop k =
      (r.file.file.bytes.drop (r.base.after all k).file.pos).take
        (r.end_ - (r.base.after all k).file.pos) := by
    rw [List.drop_take, hdrop, hsub]
  rw [heq]
  exact hleft

/-- In front of the end of the range a read is one of the base, cut at the end. -/
theorem read_in (hend : r.end_ < size_t (-1)) (hin : r.file.pos < r.end_) (h : r.base.Left all)
    (n : Nat) (junk : Junk) :
    r.read n junk =
      ((all.take (r.end_ - r.file.pos)).take n,
        r.withBase (r.base.after all ((all.take (r.end_ - r.file.pos)).take n).length)) := by
  have hread : r.read n junk = ((r.base.read (min n (r.end_ - r.file.pos)) junk).1,
      r.withBase (r.base.read (min n (r.end_ - r.file.pos)) junk).2) := by
    rw [read, RangeFileStreamReader.read_eq h.at_ hend hin]
    rfl
  rw [hread, h.read, List.take_take]

/-- In front of the end of the range `readUntil` returns what is left up to the delimiter, or all
that is left: the base may go further, and what it returns is cut. -/
theorem readUntil_in (hend : r.end_ < size_t (-1)) (hle : r.end_ ≤ r.file.file.bytes.length)
    (hin : r.file.pos < r.end_) (h : r.base.Left all) {d : Str} (hd : d ≠ []) (m : Memory)
    {left : Str} (hleft : left = all.take (r.end_ - r.file.pos)) :
    ∃ fuel r', r.readUntil fuel d m = some (.done (m.buffer (cut d left)) r') ∧
      r'.Left (left.drop (cut d left).length) := by
  have hlt := r.file.file.size_lt
  have hlen : all.length = r.file.file.bytes.length - r.file.pos := h.length
  obtain ⟨htell, hpos⟩ := tellg_of_base h
  have hwidth : size_t (r.end_ - r.file.tellg) = r.end_ - r.file.pos := by
    rw [htell, size_t_sub (by omega) (by omega)]
  -- the range reader cuts what its base returns
  have hcall : ∀ fuel ret base, r.base.readUntil fuel d m = some (.done (m.buffer ret) base) →
      r.readUntil fuel d m =
        some (.done (m.buffer (ret.take (r.end_ - r.file.pos))) (r.withBase base)) := by
    intro fuel ret base hbase
    rw [readUntil, if_neg (by omega), if_neg (by omega), hwidth, hbase]
    dsimp only [Option.map, Reading.bind]
    by_cases hlong : (m.buffer ret).length > r.end_ - r.file.pos
    · rw [if_pos hlong, resize_eq_take hlong, m.take_buffer]
    · rw [m.length_buffer] at hlong
      rw [if_neg (by rw [m.length_buffer]; exact hlong), List.take_of_length_le (by omega)]
  by_cases hfound : d <:+: all
  · have hpre := (prefix_cut d all).length_le
    refine ⟨(cut d all).length, r.withBase (r.base.after all (cut d all).length), ?_, ?_⟩
    · rw [hcall _ _ _ (h.readUntil_found hd hfound m), hleft, cut_take hd]
    · have hafter := left_after hend hle h hpre
      have hdrop : left.drop (cut d left).length =
          (all.take (r.end_ - r.file.pos)).drop (cut d all).length := by
        rw [hleft, cut_take hd, List.length_take, List.drop_eq_drop_iff]
        simp only [List.length_take]
        omega
      rw [hdrop]
      exact hafter
  · have hfree : ¬ d <:+: left := by
      rw [hleft]
      exact fun hin' => hfound (hin'.trans (List.take_prefix _ _).isInfix)
    refine ⟨all.length + 1, r.withBase (r.base.after all (all.length + 1)), ?_, ?_⟩
    · rw [hcall _ _ _ (h.readUntil_missing hd hfound m), cut_eq_self hd hfree, hleft,
        List.take_append_of_le_length (by omega)]
    · -- a failed stream is behind the range
      rw [cut_eq_self hd hfree, List.drop_length]
      refine ⟨hend, hle, Or.inr ⟨?_, rfl⟩⟩
      have hfailed : (r.base.after all (all.length + 1)).file.tellg = -1 :=
        if_pos (decide_eq_true (Nat.lt_succ_self _))
      show r.end_ ≤ size_t (r.base.after all (all.length + 1)).file.tellg
      rw [hfailed]
      omega

end

/-- A `readUntil` whose buffer keeps what has been read. -/
def Safe (m : Memory) (left : Str) : Call Byte → Prop
  | .read _ => True
  | .readUntil d => m.Keeps (cut d left)

/-- `read` answers as the cursor does. -/
theorem Left.read (h : r.Left left) (n : Nat) (junk : Junk) :
    ∃ r', r.read n junk = (left.take n, r') ∧ r'.Left (left.drop (left.take n).length) := by
  obtain ⟨hend, hle, ⟨hin, hbase, rfl⟩ | ⟨hpast, rfl⟩⟩ := h
  · refine ⟨_, read_in hend hin hbase n junk, left_after hend hle hbase ?_⟩
    simp only [List.length_take]
    omega
  · refine ⟨r, ?_, ⟨hend, hle, Or.inr ⟨hpast, by simp⟩⟩⟩
    rw [read_past hend hpast, List.take_nil]

/-- `readUntil` answers as the cursor does, in a buffer that may not keep the answer. -/
theorem Left.readUntil (h : r.Left left) {d : Str} (hd : d ≠ []) (m : Memory) :
    ∃ fuel r', r.readUntil fuel d m = some (.done (m.buffer (cut d left)) r') ∧
      r'.Left (left.drop (cut d left).length) := by
  obtain ⟨hend, hle, ⟨hin, hbase, hleft⟩ | ⟨hpast, rfl⟩⟩ := h
  · exact readUntil_in hend hle hin hbase hd m hleft
  · have hnil : cut d [] = [] := cut_eq_self hd (not_infix_nil hd)
    refine ⟨0, r, ?_, ⟨hend, hle, Or.inr ⟨hpast, by simp⟩⟩⟩
    rw [readUntil_past hend hpast, hnil, m.buffer_nil]

theorem follows : Follows RangeFileReader.call RangeFileReader.Left RangeFileReader.Safe where
  mono := call_mono
  safe := by
    intro r left c m hat hc hsafe
    cases c with
    | read n =>
        obtain ⟨r', hread, hleft⟩ := hat.read n m.junk
        refine ⟨0, r', ?_, hleft⟩
        rw [call, hread]
        rfl
    | readUntil d =>
        obtain ⟨fuel, r', hread, hleft⟩ := hat.readUntil hc m
        refine ⟨fuel, r', ?_, hleft⟩
        rw [call, hread, (m.buffer_eq_iff _).mpr hsafe]
        rfl
  other := by
    intro r left c m hat hc hnot
    cases c with
    | read n => exact absurd trivial hnot
    | readUntil d =>
        obtain ⟨fuel, r', hread, -⟩ := hat.readUntil hc m
        refine ⟨fuel, _, r', hread, fun hdelivers => hnot ?_⟩
        have heq := (hdelivers.2 d rfl).eq_cut hc
        exact (m.buffer_eq_iff _).mp heq

end RangeFileReader

/-! ## What the readers deliver -/

theorem FileReader.of_left {stream : IFStream} (hopen : stream.failed = false)
    (hraw : stream.text = false) : (FileReader.of stream).Left stream.file.bytes := by
  have hof : FileReader.of stream =
      { file := { stream with pos := 0 }, filesize := stream.file.bytes.length } := by
    rw [FileReader.of, FileStreamReader.of_at hopen]
  rw [hof]
  exact ⟨⟨hopen, rfl, Nat.zero_le _, rfl⟩, hraw, rfl, rfl⟩

theorem RangeFileReader.of_left {stream : IFStream} (hopen : stream.failed = false)
    (hraw : stream.text = false) {start end_ : Nat} (hstart : start ≤ end_)
    (hend : end_ ≤ stream.file.bytes.length) :
    (RangeFileReader.of stream start end_).Left
      ((stream.file.bytes.drop start).take (end_ - start)) := by
  have hlt := stream.file.size_lt
  have hmax : size_t (-1) = 2 ^ 64 - 1 := by decide
  have hof : RangeFileReader.of stream start end_ =
      { file := { stream with pos := start }, filesize := stream.file.bytes.length,
        start := start, end_ := end_ } := by
    rw [RangeFileReader.of, RangeFileStreamReader.of_at hopen (by omega)]
  rw [hof]
  refine left_of_base (by show end_ < _; omega) hend ?_
  exact ⟨⟨hopen, rfl, Nat.le_trans hstart hend, rfl⟩, hraw, rfl, rfl⟩

/-- **What the readers of files deliver.** A file reader delivers its file if and only if every
`readUntil` finds its delimiter, and its buffer keeps what has been read; a range reader delivers its
range if and only if the buffers of `readUntil` keep what has been read. -/
theorem fileReaders_deliver_iff {stream : IFStream} (hopen : stream.failed = false)
    (hraw : stream.text = false) {calls : List (Call Byte)} (hcalls : ∀ c ∈ calls, c.Proper)
    (memory : Nat → Memory) :
    (Delivered FileReader.call memory (FileReader.of stream) stream.file.bytes calls ↔
      Along (fun i => FileReader.Safe (memory i)) 0 stream.file.bytes calls) ∧
    ∀ start end_, start ≤ end_ → end_ ≤ stream.file.bytes.length →
      (Delivered RangeFileReader.call memory (RangeFileReader.of stream start end_)
          ((stream.file.bytes.drop start).take (end_ - start)) calls ↔
        Along (fun i => RangeFileReader.Safe (memory i)) 0
          ((stream.file.bytes.drop start).take (end_ - start)) calls) :=
  ⟨FileReader.follows.delivers_iff_along (FileReader.of_left hopen hraw) hcalls,
    fun _ _ hstart hend => RangeFileReader.follows.delivers_iff_along
      (RangeFileReader.of_left hopen hraw hstart hend) hcalls⟩

/-- A memory in which the constructor copies everything. -/
def fullCopy : Memory where
  junk := fun _ => 0
  _size := 1024
  c := 0

/-- Three bytes, read up to the second one and then to the end. -/
theorem threeBytes_delivered :
    Delivered FileReader.call (fun _ => fullCopy) (FileReader.of threeBytes) [97, 98, 99]
      [.readUntil [98], .read 5] :=
  (fileReaders_deliver_iff rfl rfl (by decide) _).1.mpr
    ⟨⟨by decide, by decide⟩, trivial, trivial⟩

/-- Without the delimiter the file reader returns its last byte twice, and then bytes that are not
in the file. -/
theorem threeBytes_invented :
    (∃ r, (FileReader.of threeBytes).readUntil 4 [10] fullCopy =
      some (.done [97, 98, 99, 99] r) ∧ (r.read 5 fullCopy.junk).1 = [0, 0, 0, 0]) ∧
    ¬ Delivered FileReader.call (fun _ => fullCopy) (FileReader.of threeBytes) [97, 98, 99]
      [.readUntil [10], .read 5] := by
  refine ⟨⟨_, rfl, rfl⟩, fun hdelivered => ?_⟩
  have hcalls : ∀ c ∈ [Call.readUntil [10], Call.read 5], Call.Proper (α := Byte) c := by decide
  have halong := (FileReader.follows.delivers_iff_along (FileReader.of_left rfl rfl) hcalls).mp
    hdelivered
  exact absurd halong.1.1 (by decide)

end DianProtocol.Cpp
