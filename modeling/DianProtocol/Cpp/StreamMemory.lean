import DianProtocol.Cpp.HeapBuffer

set_option autoImplicit false

/-! # `bufferStream` and its array

`operator<<` copies a text behind what has been written, and replaces the array by a longer one when
`_size - _pos` is too small. The arithmetic is that of `size_t`, and every copy is checked by the
heap. `append_spec`: nothing is copied outside of the array, and what happens in it is `write` of
`Cpp/Buffer.lean`, so that `bufferStream_appends` follows from what is known of it.
-/

namespace DianProtocol.Cpp

open Blocks

/-- The members of a `bufferStream`. -/
structure Stream extends Buffer where
  _pos : Nat

/-- The arguments of `operator<<`. A C string is given by its characters, with a NUL behind them. -/
inductive Value where
  | c_str (s : Str)
  | string (s : Str)
  | char (c : Byte)
  | int (n : BitVec 32)
  | unsigned (n : BitVec 32)
  | long (n : BitVec 64)

/-- The text that is written. -/
def Value.text : Value → Str
  | .c_str s => cstr s
  | .string s => s
  | .char c => [c]
  | .int n => to_stringInt n.toInt
  | .unsigned n => to_string n.toNat
  | .long n => to_stringInt n.toInt

namespace Stream

/-- `bufferStream()` and `bufferStream(size)` -/
def construct (supply : Supply) : Option Nat → Heap Byte → Checked (Stream × Heap Byte)
  | none, h => .ok (⟨Buffer.default, 0⟩, h)
  | some size, h => do
      let (b, h) ← Buffer.ofSize supply size h
      return (⟨b, 0⟩, h)

/-- `bufferStream::resize` -/
def resize (supply : Supply) (this : Stream) (size : Nat) (h : Heap Byte) :
    Checked (Stream × Heap Byte) := do
  let (b, h) ← this.toBuffer.reallocate supply size h
  return (⟨b, this._pos⟩, h)

/-- `if (_size - _pos < len) resize(_size + len);` -/
def reserve (supply : Supply) (this : Stream) (len : Nat) (h : Heap Byte) :
    Checked (Stream × Heap Byte) :=
  if size_t ((this._size : Int) - this._pos) < len then
    this.resize supply (size_t ((this._size : Int) + len)) h
  else .ok (this, h)

/-- `operator<<` for a text of `len` characters. -/
def append (supply : Supply) (this : Stream) (value : Str) (h : Heap Byte) :
    Checked (Stream × Heap Byte) := do
  let len := value.length
  let (this, h) ← this.reserve supply len h
  let h ← Checked.ofOption (memcpy h this._buffer this._pos (.outside value) len)
  return (⟨this.toBuffer, size_t ((this._pos : Int) + len)⟩, h)

/-- One value after the other; `memory` is what each of the calls finds. -/
def writeAll : Stream → List Value → (Nat → Supply) → Heap Byte → Checked (Stream × Heap Byte)
  | this, [], _, h => .ok (this, h)
  | this, value :: values, memory, h => do
      let (this, h) ← this.append (memory 0) value.text h
      this.writeAll values (fun n => memory (n + 1)) h

/-- `to_buffer()`. The array is a `char*`, which is taken for a `void*`. -/
def to_buffer (supply : Supply) (this : Stream) (h : Heap Byte) : Checked (Buffer × Heap Byte) :=
  Buffer.ofVoid supply (.array this._buffer) this._pos h

/-- A stream, the values, and the buffer that is made of it. -/
def build (capacity : Option Nat) (values : List Value) (memory : Nat → Supply) (h : Heap Byte) :
    Checked (Stream × Buffer × Heap Byte) := do
  let (this, h) ← construct (memory 0) capacity h
  let (this, h) ← this.writeAll values (fun n => memory (n + 1)) h
  let (b, h) ← this.to_buffer (memory (values.length + 1)) h
  return (this, b, h)

/-- The members and the array are those of a stream of `Cpp/Buffer.lean`. -/
structure Rep (h : Heap Byte) (this : Stream) (s : BufferStream) : Prop where
  holds : h.Holds this._buffer s.bytes
  size : this._size = s.bytes.length
  pos : this._pos = s.pos
  le : this._size ≤ maxSize

/-! ## One value -/

section

variable {supply : Supply} {h : Heap Byte} {this : Stream} {s : BufferStream} {value : Str}

theorem length_bytes_write (s : BufferStream) (value : Str) (junk : Junk) :
    (s.write value junk).bytes.length = (s.room value.length junk).length := by
  have hle := s.pos_add_le value.length junk
  simp only [BufferStream.write, List.length_append, List.length_take, List.length_drop]
  omega

/-- There is room for the value behind the position. -/
theorem reserve_spec (hrep : Rep h this s) (hlen : value.length ≤ maxSize) :
    (this.reserve supply value.length h).Meets
      (fun (this', h') => h'.Holds this'._buffer (s.room value.length supply.junk) ∧
        this'._size = (s.room value.length supply.junk).length ∧ this'._pos = s.pos ∧
        this'._size ≤ maxSize)
      (¬ supply.Grants (s.bytes.length + value.length)) := by
  have hpos := s.pos_le
  have hle := hrep.le
  have hsize := hrep.size
  have hspare : size_t ((this._size : Int) - this._pos) = s.bytes.length - s.pos := by
    rw [hsize, hrep.pos, size_t_of_nonneg (by omega) (by simp only [maxSize] at hle; omega)]
    omega
  have hgrow : size_t ((this._size : Int) + value.length) = s.bytes.length + value.length := by
    simp only [maxSize] at hle hlen
    rw [hsize, size_t_of_nonneg (by omega) (by omega)]
    omega
  rw [reserve, hspare, hgrow]
  by_cases hshort : s.bytes.length - s.pos < value.length
  · -- the array grows
    rw [if_pos hshort, resize]
    refine (reallocate_spec hrep.holds hsize (s.bytes.length + value.length)).bind ?_
    rintro ⟨b, h'⟩ ⟨hgrants, rfl, -, hget, -⟩
    have hroom : s.room value.length supply.junk =
        newArray (s.bytes.length + value.length) s.bytes supply.junk := if_pos hshort
    rw [hroom]
    refine ⟨hget, ?_, hrep.pos, hgrants.2⟩
    rw [length_newArray]
  · rw [if_neg hshort]
    have hroom : s.room value.length supply.junk = s.bytes := if_neg hshort
    rw [hroom]
    exact ⟨hrep.holds, hsize, hrep.pos, hle⟩

/-- A value is written as in `Cpp/Buffer.lean`, or `new` raises an exception. -/
theorem append_spec (hrep : Rep h this s) (hlen : value.length ≤ maxSize) :
    (this.append supply value h).Meets
      (fun (this', h') => Rep h' this' (s.write value supply.junk))
      (¬ supply.Grants (s.bytes.length + value.length)) := by
  rw [append]
  refine (reserve_spec hrep hlen).bind ?_
  rintro ⟨this', h'⟩ ⟨hholds, hsize, hpos, hle⟩
  have hfits := s.pos_add_le value.length supply.junk
  have hroom : this'._pos + value.length ≤ (s.room value.length supply.junk).length := by
    rw [hpos]
    exact hfits
  obtain ⟨h'', hwrite, hheld, -⟩ := Heap.write_of_holds hholds hroom
  have hcopy : memcpy h' this'._buffer this'._pos (.outside value) value.length = some h'' := by
    rw [memcpy, if_pos (Nat.le_refl _), List.take_length]
    exact hwrite
  have hnext : size_t ((this'._pos : Int) + value.length) = s.pos + value.length := by
    simp only [maxSize] at hle
    rw [hpos, size_t_of_nonneg (by omega) (by omega)]
    omega
  dsimp only
  rw [hcopy]
  refine ⟨?_, ?_, hnext, hle⟩
  · rw [hpos] at hheld
    exact hheld
  · rw [length_bytes_write]
    exact hsize

end

/-! ## All values -/

theorem writeAll_spec {h : Heap Byte} {this : Stream} {s : BufferStream} (hrep : Rep h this s)
    {values : List Value} (hvalues : ∀ v ∈ values, v.text.length ≤ maxSize) (memory : Nat → Supply)
    {bound : Nat} (hbound : s.bytes.length + (values.flatMap Value.text).length ≤ bound) :
    (this.writeAll values memory h).Meets
      (fun (this', h') =>
        Rep h' this' (s.writeAll (values.map Value.text) fun n => (memory n).junk))
      (maxSize < bound ∨ ∃ n, (memory n).granted = false) := by
  induction values generalizing this s h memory with
  | nil => exact hrep
  | cons value values ih =>
      rw [List.flatMap_cons, List.length_append] at hbound
      have hvalue := hvalues value List.mem_cons_self
      rw [writeAll]
      refine ((append_spec hrep hvalue).mono (fun _ hq => hq) fun hrefused => ?_).bind ?_
      · -- more than `maxSize` bytes have been asked for, or there was no array
        rw [Supply.Grants, not_and_or, not_le] at hrefused
        rcases hrefused with hrefused | hlong
        · exact Or.inr ⟨0, by simpa using hrefused⟩
        · exact Or.inl (by omega)
      · rintro ⟨this', h'⟩ hrep'
        have hgrown : (s.write value.text (memory 0).junk).bytes.length ≤
            s.bytes.length + value.text.length := by
          rw [length_bytes_write, BufferStream.length_room]
          split
          · omega
          · omega
        refine (ih hrep' (fun v hv => hvalues v (List.mem_cons_of_mem _ hv))
          (fun n => memory (n + 1)) (by omega)).mono (fun _ hq => hq) ?_
        rintro (hlong | ⟨n, hn⟩)
        · exact Or.inl hlong
        · exact Or.inr ⟨n + 1, hn⟩

theorem construct_spec (supply : Supply) (capacity : Option Nat) (h : Heap Byte) :
    (construct supply capacity h).Meets
      (fun (this, h') => ∃ s, Rep h' this s ∧ s.to_buffer = [] ∧
        s.bytes.length = capacity.getD 0)
      (¬ supply.Grants (capacity.getD 0)) := by
  cases capacity with
  | none =>
      exact ⟨⟨[], 0, Nat.zero_le _⟩, ⟨rfl, rfl, rfl, Nat.zero_le _⟩, rfl, rfl⟩
  | some size =>
      by_cases hgrants : supply.Grants size
      · rw [construct, Buffer.ofSize, newChars, if_pos hgrants]
        have hlen : (BufferStream.new size supply.junk).bytes.length = size :=
          length_newArray _ _ _
        exact ⟨BufferStream.new size supply.junk,
          ⟨Heap.get_alloc_next, hlen.symm, rfl, hgrants.2⟩, BufferStream.to_buffer_new _ _, hlen⟩
      · rw [construct, Buffer.ofSize, newChars, if_neg hgrants]
        exact hgrants

/-- `to_buffer` copies what has been written. -/
theorem to_buffer_spec {h : Heap Byte} {this : Stream} {s : BufferStream} (hrep : Rep h this s)
    (supply : Supply) :
    (this.to_buffer supply h).Meets
      (fun (b, h') => h'.Holds b._buffer s.to_buffer ∧ b._size = s.to_buffer.length)
      (¬ supply.Grants s.to_buffer.length) := by
  have hlen : s.to_buffer.length = s.pos := List.length_take_of_le s.pos_le
  have hsrc : (Source.array this._buffer).Holds h s.bytes := hrep.holds
  have hnew : newArray s.pos (s.bytes.take s.pos) supply.junk = s.to_buffer := by
    have hcut : (s.bytes.take s.pos).length = s.pos := hlen
    rw [newArray, hcut, Nat.sub_self]
    simp [BufferStream.to_buffer]
  rw [to_buffer, Buffer.ofVoid, hrep.pos, hlen]
  refine (fromMemory_spec hsrc s.pos_le (Nat.le_refl _)).mono ?_ (fun h => h)
  rintro ⟨b, h'⟩ ⟨-, rfl, -, hget⟩
  refine ⟨?_, rfl⟩
  show h'.get h.next = _
  rw [hget, Function.update_self, hnew]

/-- Nothing is undefined, the position is inside of the array, and the buffer holds the texts in
their order. An exception is only raised when there is no memory, or no object could be as large. -/
def Appends (capacity : Option Nat) (values : List Value) (memory : Nat → Supply)
    (h : Heap Byte) : Prop :=
  (build capacity values memory h).Meets
    (fun (this, b, h') => this._pos ≤ this._size ∧
      h'.Holds b._buffer (values.flatMap Value.text) ∧
      b._size = (values.flatMap Value.text).length)
    (maxSize < capacity.getD 0 + (values.flatMap Value.text).length ∨
      ∃ n, (memory n).granted = false)

end Stream

/-- **`bufferStream` appends faithfully**, for every capacity and every sequence of values: no
object is larger than `maxSize`, so no text is. -/
theorem bufferStream_appends (capacity : Option Nat) {values : List Value}
    (hvalues : ∀ v ∈ values, v.text.length ≤ maxSize) (memory : Nat → Supply) (h : Heap Byte) :
    Stream.Appends capacity values memory h := by
  have hrefused : ∀ n size, size ≤ capacity.getD 0 + (values.flatMap Value.text).length →
      ¬ (memory n).Grants size →
      maxSize < capacity.getD 0 + (values.flatMap Value.text).length ∨
        ∃ n, (memory n).granted = false := by
    intro n size hle hrefused
    rw [Supply.Grants, not_and_or, not_le] at hrefused
    rcases hrefused with hrefused | hlong
    · exact Or.inr ⟨n, by simpa using hrefused⟩
    · exact Or.inl (by omega)
  rw [Stream.Appends, Stream.build]
  refine ((Stream.construct_spec (memory 0) capacity h).mono (fun _ hq => hq)
    (hrefused 0 _ (Nat.le_add_right _ _))).bind ?_
  rintro ⟨this, h₁⟩ ⟨s, hrep, hempty, hcapacity⟩
  have hbound : s.bytes.length + (values.flatMap Value.text).length ≤
      capacity.getD 0 + (values.flatMap Value.text).length := by omega
  refine ((Stream.writeAll_spec hrep hvalues (fun n => memory (n + 1)) hbound).mono
    (fun _ hq => hq) ?_).bind ?_
  · rintro (hlong | ⟨n, hn⟩)
    · exact Or.inl hlong
    · exact Or.inr ⟨n + 1, hn⟩
  · rintro ⟨this', h₂⟩ hrep'
    have htext := s.to_buffer_writeAll (values.map Value.text) fun n => (memory (n + 1)).junk
    rw [hempty, List.nil_append, ← List.flatMap_def] at htext
    refine ((Stream.to_buffer_spec hrep' (memory (values.length + 1))).mono (fun _ hq => hq)
      ?_).bind ?_
    · rw [htext]
      exact hrefused _ _ (Nat.le_add_left _ _)
    · rintro ⟨b, h₃⟩ ⟨hholds, hsize⟩
      rw [htext] at hholds hsize
      refine ⟨?_, hholds, hsize⟩
      show this'._pos ≤ this'._size
      rw [hrep'.pos, hrep'.size]
      exact BufferStream.pos_le _

/-- A stream without room, a string with a NUL in it, a NUL and a number. -/
theorem bufferStream_appends_nul :
    Stream.Appends (some 0) [.string [97, nul, 98], .char nul, .int 7]
      (fun _ => ⟨⟨fun _ => 1, 0, 0⟩, true⟩) Heap.empty := by
  apply bufferStream_appends
  have hint : (Value.int 7).text.length ≤ maxSize := by decide
  simp [Value.text, maxSize] at hint ⊢
  exact hint

end DianProtocol.Cpp
