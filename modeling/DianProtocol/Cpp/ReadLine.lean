import DianProtocol.Cpp.ReadUntil

set_option autoImplicit false

/-! # `readLine`

`readLine` of the readers of files and of strings hands `getline` the buffer of an empty
`std::string` and its size, which is 0. `getline` stores nothing in a buffer of no characters, so the
line stays empty whatever comes next, and the test of its last character looks at the index
`line.size() - 1`, which is the largest `size_t`: `readLine_outside`.
-/

namespace DianProtocol.Cpp

/-! ## `getline` -/

/-- `getline(s, n, '\n')` on the characters that come next: those that it stores, followed by a NUL
in a buffer of `n` characters, and the number of those that it takes. -/
def getline (chars : Str) (n : Nat) : Str × Nat :=
  let line := chars.takeWhile (· ≠ lf)
  if line.length < n then (line, min (line.length + 1) chars.length)
  else (line.take (n - 1), n - 1)

/-- The call fails when there is no room for the line, and when nothing is taken. -/
def getlineFails (chars : Str) (n : Nat) : Bool :=
  decide (n ≤ (chars.takeWhile (· ≠ lf)).length ∨ (getline chars n).2 = 0)

def IFStream.getline (s : IFStream) (n : Nat) : Str × IFStream :=
  let raw := s.file.bytes.drop s.pos
  let chars := if s.failed then [] else if s.text then (readText raw.length raw).1 else raw
  let (line, k) := Cpp.getline chars n
  let used := if s.text then (readText k raw).2 else k
  (line, { s with pos := s.pos + used, failed := s.failed || getlineFails chars n })

def StringStream.getline (s : StringStream) (n : Nat) : Str × StringStream :=
  let chars := if s.failed then [] else s.left
  let (line, k) := Cpp.getline chars n
  (line, { left := s.left.drop k, failed := s.failed || getlineFails chars n })

/-- The characters of a `std::string` after `getline` has written to its buffer. -/
def overwrite (line stored : Str) : Str :=
  (stored ++ nul :: line.drop (stored.length + 1)).take line.length

/-- `if (line[line.size() - 1] == '\r') line.pop_back();`, or the index outside the line that it
uses. -/
def dropCr (s : Str) : Except Nat Str :=
  let i := size_t (s.length - 1)
  match s[i]? with
  | none => .error i
  | some c => .ok (if c = cr then s.dropLast else s)

/-- `FileStreamReader::readLine()` -/
def FileStreamReader.readLine (r : FileStreamReader) (m : Memory) :
    Except Nat (Str × FileStreamReader) := do
  let line : Str := []
  let (stored, file) := r.file.getline line.length
  let line ← dropCr (overwrite line stored)
  return (m.buffer line, { r with file := file })

/-- `StringStreamReader::readLine()`, which drops two CRs. -/
def StringStreamReader.readLine (r : StringStreamReader) (m : Memory) :
    Except Nat (Str × StringStreamReader) := do
  let line : Str := []
  let (stored, stream) := r.stream.getline line.length
  let line ← dropCr (overwrite line stored)
  let line ← dropCr line
  return (m.buffer line, { r with stream := stream })

/-! ## The lines of a text -/

/-- The lines of a text, each without its LF and without one CR in front of it. -/
def linesOf (text : Str) : List Str :=
  (text.splitOn lf).dropLast.map fun line =>
    if line.getLast? = some cr then line.dropLast else line

/-- Successive calls of `readLine`, each with memory of its own. -/
def readLines {ρ : Type} (readLine : ρ → Memory → Except Nat (Str × ρ)) :
    (Nat → Memory) → ρ → Nat → Except Nat (List Str)
  | _, _, 0 => .ok []
  | memory, r, n + 1 => do
      let (line, r) ← readLine r (memory 0)
      let lines ← readLines readLine (fun i => memory (i + 1)) r n
      return line :: lines

/-- As many calls as the text has lines use no index outside a line, and return these lines. -/
def SplitsLines {ρ : Type} (readLine : ρ → Memory → Except Nat (Str × ρ)) (memory : Nat → Memory)
    (r : ρ) (text : Str) : Prop :=
  readLines readLine memory r (linesOf text).length = .ok (linesOf text)

/-- A text that ends in LF has a line. -/
theorem linesOf_ne_nil {text : Str} (hend : text.getLast? = some lf) : linesOf text ≠ [] := by
  obtain ⟨front, rfl⟩ := List.getLast?_eq_some_iff.mp hend
  have hsplit : (front ++ [lf]).splitOn lf = front.splitOn lf ++ [[]] :=
    List.splitOn_append_cons_self front []
  rw [linesOf, hsplit, List.dropLast_concat]
  intro hnil
  exact List.splitOn_ne_nil lf front (List.map_eq_nil_iff.mp hnil)

/-! ## The first call -/

/-- The index of the character in front of the first one. -/
theorem dropCr_nil : dropCr [] = .error (2 ^ 64 - 1) := rfl

/-- Without room nothing is stored. -/
theorem overwrite_nil (stored : Str) : overwrite [] stored = [] := List.take_zero

theorem FileStreamReader.readLine_error (r : FileStreamReader) (m : Memory) :
    r.readLine m = .error (2 ^ 64 - 1) := by
  rw [readLine]
  dsimp only
  rw [overwrite_nil, dropCr_nil]
  rfl

theorem StringStreamReader.readLine_error (r : StringStreamReader) (m : Memory) :
    r.readLine m = .error (2 ^ 64 - 1) := by
  rw [readLine]
  dsimp only
  rw [overwrite_nil, dropCr_nil]
  rfl

/-- A reader whose first call uses an index outside the line does not split a text with a line. -/
theorem not_splitsLines {ρ : Type} {readLine : ρ → Memory → Except Nat (Str × ρ)}
    {memory : Nat → Memory} {r : ρ} {i : Nat} (herror : readLine r (memory 0) = .error i)
    {text : Str} (hne : linesOf text ≠ []) : ¬ SplitsLines readLine memory r text := by
  obtain ⟨n, hn⟩ : ∃ n, (linesOf text).length = n + 1 :=
    ⟨_, (Nat.succ_pred_eq_of_pos (List.length_pos_iff.mpr hne)).symm⟩
  intro hsplits
  rw [SplitsLines, hn, readLines, herror] at hsplits
  cases hsplits

/-- **`readLine` reads no line**: neither on a file nor on a string that ends in LF do its calls
return the lines, since the first one uses an index outside its line. -/
theorem readLine_outside {text : Str} (hend : text.getLast? = some lf) (memory : Nat → Memory) :
    (∀ stream : IFStream, stream.file.bytes = text →
      ¬ SplitsLines FileStreamReader.readLine memory (FileStreamReader.of stream) text) ∧
    ¬ SplitsLines StringStreamReader.readLine memory (StringStreamReader.of text) text :=
  ⟨fun _ _ => not_splitsLines (FileStreamReader.readLine_error _ _) (linesOf_ne_nil hend),
    not_splitsLines (StringStreamReader.readLine_error _ _) (linesOf_ne_nil hend)⟩

/-- A file with the line `a`. -/
def lineFile : IFStream where
  file := ⟨[97, 13, 10], by decide⟩
  text := false

theorem readLine_outside_lineFile :
    ¬ SplitsLines FileStreamReader.readLine (fun _ => ⟨fun _ => 0, 0, 0⟩)
        (FileStreamReader.of lineFile) [97, 13, 10] ∧
      ¬ SplitsLines StringStreamReader.readLine (fun _ => ⟨fun _ => 0, 0, 0⟩)
        (StringStreamReader.of [97, 13, 10]) [97, 13, 10] := by
  have hend : ([97, 13, 10] : Str).getLast? = some lf := rfl
  have houtside := readLine_outside hend fun _ => ⟨fun _ => 0, 0, 0⟩
  exact ⟨houtside.1 lineFile rfl, houtside.2⟩

/-- Its line is `a`, and the first call uses the index `2 ^ 64 - 1`. -/
theorem lineFile_outside :
    linesOf lineFile.file.bytes = [[97]] ∧
      (FileStreamReader.of lineFile).readLine ⟨fun _ => 0, 0, 0⟩ = .error (2 ^ 64 - 1) ∧
      ¬ SplitsLines FileStreamReader.readLine (fun _ => ⟨fun _ => 0, 0, 0⟩)
        (FileStreamReader.of lineFile) lineFile.file.bytes := by
  have herror := (FileStreamReader.of lineFile).readLine_error ⟨fun _ => 0, 0, 0⟩
  exact ⟨by decide, herror, not_splitsLines herror (by decide)⟩

end DianProtocol.Cpp
