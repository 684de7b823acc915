import DianProtocol.Cpp.Message

set_option autoImplicit false

/-! # Files and their readers

An `ifstream` is a position in a file and a flag that it has failed; a read that gets fewer
characters than it asks for sets the flag, and from then on `tellg` returns `-1`. A stream that was
not opened with `ios::binary` is in text mode, which on Windows reads a CR LF as a single LF and
takes a Ctrl-Z for the end of the file. Positions count the bytes of the file in both modes.

`FileStreamReader` and `RangeFileStreamReader` compute with `size_t`: signed values are converted
modulo `2 ^ 64`. A buffer is allocated before it is read into, and what a read does not fill keeps
what the memory held before.
-/

namespace DianProtocol.Cpp

/-- The content of a file. An offset in a file is a signed number of 64 bits. -/
structure File where
  bytes : Str
  size_lt : bytes.length < 2 ^ 63
  deriving DecidableEq

/-- What a fresh buffer holds: the byte at each index. -/
abbrev Junk := Nat → Byte

structure IFStream where
  file : File
  text : Bool
  pos : Nat := 0
  failed : Bool := false

/-- `k` characters in text mode from the bytes `raw`, and the number of bytes they take. -/
def readText : Nat → Str → Str × Nat
  | 0, _ => ([], 0)
  | _ + 1, [] => ([], 0)
  | k + 1, c :: raw =>
      if c = 26 then ([], 0)
      else if c = cr ∧ raw.head? = some lf then
        let (chars, used) := readText k raw.tail
        (lf :: chars, used + 2)
      else
        let (chars, used) := readText k raw
        (c :: chars, used + 1)

namespace IFStream

def tellg (s : IFStream) : Int := if s.failed then -1 else s.pos

/-- `seekg(off)` -/
def seekg (s : IFStream) (off : Nat) : IFStream :=
  if s.failed then s
  -- a larger offset is negative as a signed number
  else if off < 2 ^ 63 then { s with pos := off }
  else { s with failed := true }

/-- `seekg(0, ios::end)` -/
def seekEnd (s : IFStream) : IFStream :=
  if s.failed then s else { s with pos := s.file.bytes.length }

/-- `read` of `k` characters into a fresh buffer of that size: the buffer afterwards. -/
def read (s : IFStream) (k : Nat) (junk : Junk) : Str × IFStream :=
  let (chars, used) :=
    if s.failed then ([], 0)
    else if s.text then readText k (s.file.bytes.drop s.pos)
    else ((s.file.bytes.drop s.pos).take k, min k (s.file.bytes.length - s.pos))
  (chars ++ (List.range' chars.length (k - chars.length)).map junk,
    { s with pos := s.pos + used, failed := s.failed || decide (chars.length < k) })

end IFStream

/-- The conversion to `size_t`. -/
def size_t (n : Int) : Nat := (n % 2 ^ 64).toNat

/-! ## `FileStreamReader` -/

structure FileStreamReader where
  file : IFStream
  filesize : Nat

namespace FileStreamReader

/-- `FileStreamReader(filepath, stream)`; without a stream the file is opened in binary mode. -/
def of (stream : IFStream) : FileStreamReader :=
  let file := stream.seekEnd
  { file := file.seekg 0, filesize := size_t file.tellg }

def read (r : FileStreamReader) (size : Nat) (junk : Junk) : Str × FileStreamReader :=
  let maxsize := size_t (r.filesize - r.file.tellg)
  let maxsize := if maxsize > size then size else maxsize
  let (data, file) := r.file.read maxsize junk
  (data, { r with file := file })

def maxlen (r : FileStreamReader) : Nat := r.filesize

end FileStreamReader

/-! ## `RangeFileStreamReader` -/

structure RangeFileStreamReader extends FileStreamReader where
  start : Nat
  end_ : Nat

namespace RangeFileStreamReader

/-- `RangeFileStreamReader(filepath, stream, start, end)` -/
def of (stream : IFStream) (start end_ : Nat) : RangeFileStreamReader :=
  let base := FileStreamReader.of stream
  { base with file := base.file.seekg start, start := start, end_ := end_ }

def read (r : RangeFileStreamReader) (size : Nat) (junk : Junk) : Str × RangeFileStreamReader :=
  if r.end_ = size_t (-1) then
    let (data, base) := r.toFileStreamReader.read size junk
    (data, { r with toFileStreamReader := base })
  -- a failed stream is at `-1`, which is behind every end
  else if size_t r.file.tellg ≥ r.end_ then ([], r)
  else
    let max_size := size_t (r.end_ - r.file.tellg)
    let size := if size > max_size then max_size else size
    let (data, base) := r.toFileStreamReader.read size junk
    (data, { r with toFileStreamReader := base })

def maxlen (r : RangeFileStreamReader) : Nat := size_t (r.end_ - r.start)

end RangeFileStreamReader

/-! ## Readers as bodies -/

/-- The buffers that successive calls of `read` return, each into memory of its own. -/
def readsOf {ρ : Type} (read : ρ → Junk → Str × ρ) : (Nat → Junk) → ρ → Nat → Str
  | memory, r, 0 => (read r (memory 0)).1
  | memory, r, n + 1 => readsOf read (fun i => memory (i + 1)) (read r (memory 0)).2 n

/-- A `maxlen()` of `-1` says that the length is not known. -/
def knownLength (maxlen : Nat) : Option Nat := if maxlen = size_t (-1) then none else some maxlen

def FileStreamReader.body (r : FileStreamReader) (memory : Nat → Junk) : StreamReader where
  maxlen := knownLength r.maxlen
  reads := readsOf (fun r => r.read 1024) memory r

def RangeFileStreamReader.body (r : RangeFileStreamReader) (memory : Nat → Junk) :
    StreamReader where
  maxlen := knownLength r.maxlen
  reads := readsOf (fun r => r.read 1024) memory r

/-! ## What a read returns -/

theorem size_t_of_nonneg {n : Int} (h : 0 ≤ n) (hlt : n < 2 ^ 64) : size_t n = n.toNat := by
  rw [size_t, Int.emod_eq_of_lt h hlt]

/-- The byte at `i` is not what text mode reads there. -/
def Altered (raw : Str) (i : Nat) : Prop :=
  raw[i]? = some 26 ∨ raw[i]? = some cr ∧ raw[i + 1]? = some lf

instance (raw : Str) (i : Nat) : Decidable (Altered raw i) :=
  inferInstanceAs (Decidable (_ ∨ _))

/-- Text mode reads `k` bytes as they are when it alters none of them, and goes on behind them. -/
theorem readText_add {raw : Str} {k : Nat} (hle : k ≤ raw.length)
    (h : ∀ i, i < k → ¬ Altered raw i) (m : Nat) :
    readText (k + m) raw =
      (raw.take k ++ (readText m (raw.drop k)).1, k + (readText m (raw.drop k)).2) := by
  induction k generalizing raw with
  | zero => simp
  | succ k ih =>
      obtain ⟨c, raw, rfl⟩ : ∃ c raw', raw = c :: raw' :=
        List.exists_cons_of_ne_nil fun heq => by simp [heq] at hle
      have hfirst := h 0 (by omega)
      have hne : c ≠ 26 := fun heq => hfirst (Or.inl (by simp [heq]))
      have hpair : ¬ (c = cr ∧ raw.head? = some lf) := by
        rintro ⟨hc, hlf⟩
        refine hfirst (Or.inr ⟨by simp [hc], ?_⟩)
        rw [List.getElem?_cons_succ, ← List.head?_eq_getElem?]
        exact hlf
      have hle' : k ≤ raw.length := by simpa using hle
      have hrest := ih hle' fun i hi => h (i + 1) (by omega)
      have hadd : k + 1 + m = (k + m) + 1 := by omega
      rw [hadd, readText, if_neg hne, if_neg hpair, hrest]
      simp
      omega

namespace IFStream

/-- A read up to `q` returns what the file holds. -/
def Plain (s : IFStream) (q : Nat) : Prop :=
  s.text = true → ∀ i, s.pos ≤ i → i < q → ¬ Altered s.file.bytes i

theorem altered_drop {raw : Str} {p i : Nat} : Altered (raw.drop p) i ↔ Altered raw (p + i) := by
  simp only [Altered, List.getElem?_drop, Nat.add_assoc]

theorem read_plain {s : IFStream} {k : Nat} (hgood : s.failed = false)
    (hle : s.pos + k ≤ s.file.bytes.length) (hplain : s.Plain (s.pos + k)) (junk : Junk) :
    s.read k junk = ((s.file.bytes.drop s.pos).take k, { s with pos := s.pos + k }) := by
  have hlen : k ≤ (s.file.bytes.drop s.pos).length := by
    rw [List.length_drop]
    omega
  have hchars : (if s.text then readText k (s.file.bytes.drop s.pos)
      else ((s.file.bytes.drop s.pos).take k, min k (s.file.bytes.length - s.pos))) =
        ((s.file.bytes.drop s.pos).take k, k) := by
    by_cases htext : s.text = true
    · have hread := readText_add hlen (fun i hi halt =>
        hplain htext (s.pos + i) (by omega) (by omega) (altered_drop.mp halt)) 0
      rw [if_pos htext]
      simpa [readText] using hread
    · have hmin : min k (s.file.bytes.length - s.pos) = k := by omega
      rw [if_neg htext, hmin]
  unfold read
  rw [hgood, if_neg (by simp), hchars]
  have hfull : ((s.file.bytes.drop s.pos).take k).length = k := by
    rw [List.length_take]
    omega
  simp [hfull]

/-- A buffer has the size that was asked for. -/
theorem length_read (s : IFStream) (k : Nat) (junk : Junk) : (s.read k junk).1.length = k := by
  have htext : ∀ k raw, (readText k raw).1.length ≤ k := by
    intro k raw
    fun_induction readText k raw with
    | case1 => simp
    | case2 => simp
    | case3 => simp
    | case4 k c raw _ _ chars used heq ih =>
        simp only [List.length_cons]
        simp only [heq] at ih
        omega
    | case5 k c raw _ _ chars used heq ih =>
        simp only [List.length_cons]
        simp only [heq] at ih
        omega
  have hchars : (if s.failed then ([], 0)
      else if s.text then readText k (s.file.bytes.drop s.pos)
      else ((s.file.bytes.drop s.pos).take k, min k (s.file.bytes.length - s.pos))).1.length
        ≤ k := by
    split
    · simp
    · split
      · exact htext k _
      · simp
  unfold read
  simp only [List.length_append, List.length_map, List.length_range']
  omega

/-- Where text mode alters the file, a buffer that held zeros differs from it. -/
theorem read_altered {s : IFStream} {k i : Nat} (hgood : s.failed = false) (htext : s.text = true)
    (hlow : s.pos ≤ i) (hhigh : i < s.pos + k) (hplain : s.Plain i)
    (halt : Altered s.file.bytes i) :
    (s.read k fun _ => 0).1[i - s.pos]? ≠ s.file.bytes[i]? := by
  obtain ⟨m, rfl⟩ : ∃ m, i = s.pos + m := ⟨i - s.pos, by omega⟩
  obtain ⟨r, rfl⟩ : ∃ r, k = m + (r + 1) := ⟨k - m - 1, by omega⟩
  have hin : s.pos + m < s.file.bytes.length := by
    rcases halt with h | ⟨h, -⟩
    · exact (List.getElem?_eq_some_iff.mp h).1
    · exact (List.getElem?_eq_some_iff.mp h).1
  have hlen : m ≤ (s.file.bytes.drop s.pos).length := by
    rw [List.length_drop]
    omega
  have hread := readText_add hlen (fun j hj halt' =>
    hplain htext (s.pos + j) (by omega) (by omega) (altered_drop.mp halt')) (r + 1)
  have htake : ((s.file.bytes.drop s.pos).take m).length = m := by
    rw [List.length_take]
    omega
  have hget : s.file.bytes[s.pos + m]? = some s.file.bytes[s.pos + m] :=
    List.getElem?_eq_getElem hin
  have hdrop : (s.file.bytes.drop s.pos).drop m =
      s.file.bytes[s.pos + m] :: s.file.bytes.drop (s.pos + m + 1) := by
    rw [List.drop_drop, List.drop_eq_getElem_cons hin]
  have hsub : s.pos + m - s.pos = m := by omega
  unfold read
  rw [hgood, if_neg (by simp), if_pos htext, hread, hdrop, readText, hsub, hget]
  rw [Altered, hget] at halt
  by_cases hend : s.file.bytes[s.pos + m] = 26
  · -- the end of the file: a zero is left there
    simp [hend, htake]
  · have hpair : s.file.bytes[s.pos + m] = cr ∧
        (s.file.bytes.drop (s.pos + m + 1)).head? = some lf := by
      rcases halt with h | ⟨h, h'⟩
      · exact absurd (Option.some.inj h) hend
      · rw [List.head?_drop]
        exact ⟨Option.some.inj h, h'⟩
    rw [if_neg hend, if_pos hpair]
    simp [htake, hpair.1]
    decide

end IFStream

/-! ## What a reader returns -/

/-- The reader goes on at `p`: its stream has not failed, and it knows the size of the file. -/
structure FileStreamReader.At (r : FileStreamReader) (p : Nat) : Prop where
  good : r.file.failed = false
  pos : r.file.pos = p
  le : p ≤ r.file.file.bytes.length
  filesize : r.filesize = r.file.file.bytes.length

theorem FileStreamReader.of_at {stream : IFStream} (h : stream.failed = false) :
    FileStreamReader.of stream =
      { file := { stream with pos := 0 }, filesize := stream.file.bytes.length } := by
  have hlt := stream.file.size_lt
  have hend : stream.seekEnd = { stream with pos := stream.file.bytes.length } := by
    rw [IFStream.seekEnd, h, if_neg (by simp)]
  have htell : size_t ({ stream with pos := stream.file.bytes.length } : IFStream).tellg =
      stream.file.bytes.length := by
    rw [IFStream.tellg, h, if_neg (by simp)]
    show size_t (stream.file.bytes.length : Int) = _
    rw [size_t_of_nonneg (by omega) (by omega)]
    simp
  unfold FileStreamReader.of
  dsimp only
  rw [hend, htell, IFStream.seekg, h, if_neg (by simp), if_pos (by omega)]

/-- A reader asks its stream for what is wanted and still there. -/
theorem FileStreamReader.read_eq {r : FileStreamReader} {p size k : Nat} (h : r.At p)
    (hk : k = min size (r.file.file.bytes.length - p)) (junk : Junk) :
    r.read size junk = ((r.file.read k junk).1, { r with file := (r.file.read k junk).2 }) := by
  obtain ⟨hgood, hpos, hle, hsize⟩ := h
  have hlt := r.file.file.size_lt
  have htell : r.file.tellg = p := by rw [IFStream.tellg, hgood, if_neg (by simp), hpos]
  have hmax : size_t (r.filesize - r.file.tellg) = r.file.file.bytes.length - p := by
    rw [htell, hsize, size_t_of_nonneg (by omega) (by omega)]
    omega
  have hread : (if r.file.file.bytes.length - p > size then size
      else r.file.file.bytes.length - p) = k := by
    split <;> omega
  rw [FileStreamReader.read, hmax]
  dsimp only
  rw [hread]

theorem FileStreamReader.read_plain {r : FileStreamReader} {p size k : Nat} (h : r.At p)
    (hk : k = min size (r.file.file.bytes.length - p)) (hplain : r.file.Plain (p + k))
    (junk : Junk) :
    r.read size junk =
      ((r.file.file.bytes.drop p).take k, { r with file := { r.file with pos := p + k } }) := by
  have hle := h.le
  have heq := FileStreamReader.read_eq h hk junk
  obtain ⟨hgood, hpos, -, -⟩ := h
  subst hpos
  rw [heq, IFStream.read_plain hgood (by omega) hplain]

theorem FileStreamReader.At.move {r : FileStreamReader} {p k : Nat} (h : r.At p)
    (hk : p + k ≤ r.file.file.bytes.length) :
    ({ r with file := { r.file with pos := p + k } } : FileStreamReader).At (p + k) :=
  ⟨h.good, rfl, hk, h.filesize⟩

/-- In front of its end a range reader reads like a file reader, but not beyond the end. -/
theorem RangeFileStreamReader.read_eq {r : RangeFileStreamReader} {p : Nat}
    (h : r.toFileStreamReader.At p) (hend : r.end_ < size_t (-1)) (hp : p < r.end_) (size : Nat)
    (junk : Junk) :
    r.read size junk =
      let (data, base) := r.toFileStreamReader.read (min size (r.end_ - p)) junk
      (data, { r with toFileStreamReader := base }) := by
  have hlt := r.file.file.size_lt
  have hle := h.le
  have hmax : size_t (-1) = 2 ^ 64 - 1 := by decide
  have htell : r.file.tellg = p := by rw [IFStream.tellg, h.good, if_neg (by simp), h.pos]
  have hpos : size_t r.file.tellg = p := by
    rw [htell, size_t_of_nonneg (by omega) (by omega)]
    simp
  have hleft : size_t (r.end_ - r.file.tellg) = r.end_ - p := by
    rw [htell, size_t_of_nonneg (by omega) (by omega)]
    omega
  have hmin : (if size > r.end_ - p then r.end_ - p else size) = min size (r.end_ - p) := by
    split <;> omega
  rw [RangeFileStreamReader.read, if_neg (by omega), hpos, if_neg (by omega), hleft]
  dsimp only
  rw [hmin]

/-- At its end a range reader returns an empty buffer. -/
theorem RangeFileStreamReader.read_end {r : RangeFileStreamReader} {p : Nat}
    (h : r.toFileStreamReader.At p) (hend : r.end_ < size_t (-1)) (hp : r.end_ ≤ p) (size : Nat)
    (junk : Junk) : r.read size junk = ([], r) := by
  have hlt := r.file.file.size_lt
  have hle := h.le
  have hpos : size_t r.file.tellg = p := by
    rw [IFStream.tellg, h.good, if_neg (by simp), h.pos, size_t_of_nonneg (by omega) (by omega)]
    simp
  rw [RangeFileStreamReader.read, if_neg (by omega), hpos, if_pos hp]

end DianProtocol.Cpp
