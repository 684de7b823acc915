import DianProtocol.Lib.Heap
import DianProtocol.Cpp.Calls

set_option autoImplicit false

/-! # `buffer` and its array

A `buffer` owns an array that its methods allocate, copy and free. They are modelled here on a heap
that checks every access. `fromMemory_spec` is what all of them come down to: an array of `size`
bytes, of which the first `n` are copied and the others are what the memory held before.
-/

namespace DianProtocol.Cpp

open Blocks

/-- The members of a `buffer`. -/
structure Buffer where
  _buffer : Ptr
  _size : Nat

/-- What an operation finds: the memory, and whether `new` is given an array in it. -/
structure Supply extends Memory where
  granted : Bool

/-- No object is larger than this; `new` raises a `bad_alloc` for one that would be. -/
def maxSize : Nat := 2 ^ 63 - 1

/-- `new char[size]` gets an array. -/
def Supply.Grants (supply : Supply) (size : Nat) : Prop :=
  supply.granted = true ∧ size ≤ maxSize

instance (supply : Supply) (size : Nat) : Decidable (supply.Grants size) :=
  inferInstanceAs (Decidable (_ ∧ _))

/-- `new char[size]` -/
def newChars (supply : Supply) (size : Nat) (h : Heap Byte) : Checked (Nat × Heap Byte) :=
  if supply.Grants size then .ok (h.next, h.alloc (newArray size [] supply.junk)) else .raised

/-- Where `memcpy` copies from: an object that is no array of the heap, or an array. -/
inductive Source where
  | outside (bytes : Str)
  | array (p : Ptr)

/-- `memcpy(dst + i, src, n)` -/
def memcpy (h : Heap Byte) (dst : Ptr) (i : Nat) : Source → Nat → Option (Heap Byte)
  | .outside bytes, n => if n ≤ bytes.length then h.write dst i (bytes.take n) else none
  | .array src, n => h.copy dst i src 0 n

/-- A new array of `size` bytes, with `n` bytes copied to its front. -/
def fromMemory (supply : Supply) (src : Source) (n size : Nat) (h : Heap Byte) :
    Checked (Buffer × Heap Byte) := do
  let (p, h) ← newChars supply size h
  let h ← Checked.ofOption (memcpy h (some p) 0 src n)
  return (⟨some p, size⟩, h)

namespace Buffer

/-- `buffer()` -/
def default : Buffer := ⟨none, 0⟩

/-- `buffer(size_t size)` -/
def ofSize (supply : Supply) (size : Nat) (h : Heap Byte) : Checked (Buffer × Heap Byte) := do
  let (p, h) ← newChars supply size h
  return (⟨some p, size⟩, h)

/-- `buffer(void *data, size_t size)` -/
def ofVoid (supply : Supply) (data : Source) (size : Nat) (h : Heap Byte) :
    Checked (Buffer × Heap Byte) :=
  fromMemory supply data size size h

/-- `buffer(const void *buffer, size_t size)`: `this->_size` has not been set when it bounds the
copy. -/
def ofConstVoid (supply : Supply) (data : Source) (size : Nat) (h : Heap Byte) :
    Checked (Buffer × Heap Byte) :=
  fromMemory supply data (min supply._size size) size h

/-- `buffer(const buffer &other)` -/
def copy (supply : Supply) (other : Buffer) (h : Heap Byte) : Checked (Buffer × Heap Byte) :=
  fromMemory supply (.array other._buffer) other._size other._size h

/-- `buffer(buffer &&other)`: the new buffer and `other` behind it. -/
def move (other : Buffer) : Buffer × Buffer := (⟨other._buffer, other._size⟩, ⟨none, 0⟩)

/-- `~buffer()` -/
def destroy (this : Buffer) (h : Heap Byte) : Checked (Heap Byte) :=
  Checked.ofOption (h.free this._buffer)

/-- `operator=(buffer &&other)` for two different buffers. Under its name `other` is an lvalue, so
the new object is made by the copy constructor. -/
def assign (supply : Supply) (this other : Buffer) (h : Heap Byte) :
    Checked (Buffer × Heap Byte) := do
  let h ← this.destroy h
  copy supply other h

/-- The array of `newsize` bytes in the place of the present one; also `bufferStream::resize`. -/
def reallocate (supply : Supply) (this : Buffer) (newsize : Nat) (h : Heap Byte) :
    Checked (Buffer × Heap Byte) := do
  let (new_buffer, h) ←
    fromMemory supply (.array this._buffer) (min this._size newsize) newsize h
  let h ← Checked.ofOption (h.free this._buffer)
  return (new_buffer, h)

/-- `buffer::resize` -/
def resize (supply : Supply) (this : Buffer) (newsize : Nat) (h : Heap Byte) :
    Checked (Buffer × Heap Byte) :=
  if newsize = this._size then .ok (this, h) else reallocate supply this newsize h

end Buffer

/-! ## What they do -/

theorem splice_newArray {size : Nat} {data : Str} (hle : data.length ≤ size) (junk : Junk) :
    splice (newArray size [] junk) 0 data = newArray size data junk := by
  rw [splice, newArray, newArray, List.take_of_length_le hle]
  simp [← List.map_drop, List.drop_range']

/-- The bytes that a source holds. -/
def Source.Holds (h : Heap Byte) : Source → Str → Prop
  | .outside bytes, l => l = bytes
  | .array p, l => h.Holds p l

section

variable {supply : Supply} {h : Heap Byte} {src : Source} {l : Str} {n size : Nat}

/-- The copy into a new array. -/
theorem memcpy_new (hsrc : src.Holds h l) (hn : n ≤ l.length) (hle : n ≤ size) (junk : Junk) :
    ∃ h', memcpy (h.alloc (newArray size [] junk)) (some h.next) 0 src n = some h' ∧
      h'.get = Function.update h.get h.next (some (newArray size (l.take n) junk)) ∧
      h'.next = h.next + 1 := by
  have hnew : (h.alloc (newArray size [] junk)).get h.next = some (newArray size [] junk) :=
    Heap.get_alloc_next
  have hlen : (l.take n).length = n := List.length_take_of_le hn
  have hroom : 0 + (l.take n).length ≤ (newArray size [] junk).length := by
    rw [length_newArray]
    omega
  have hupdate : Function.update (h.alloc (newArray size [] junk)).get h.next
      (some (splice (newArray size [] junk) 0 (l.take n))) =
      Function.update h.get h.next (some (newArray size (l.take n) junk)) := by
    rw [splice_newArray (by omega)]
    exact Function.update_idem _ _ _
  cases src with
  | outside bytes =>
      obtain rfl : l = bytes := hsrc
      obtain ⟨h', hwrite, hget, hnext⟩ := Heap.write_of_get hnew hroom
      refine ⟨h', ?_, hget.trans hupdate, hnext⟩
      rw [memcpy, if_pos hn]
      exact hwrite
  | array p =>
      have hholds : h.Holds p l := hsrc
      have hne : p ≠ some h.next := by
        rintro rfl
        have hlt := Heap.lt_next hholds
        omega
      obtain ⟨h', hcopy, hget, hnext⟩ := Heap.copy_of_holds hnew hholds.alloc hne
        (show 0 + n ≤ (newArray size [] junk).length by rw [length_newArray]; omega)
        (show 0 + n ≤ l.length by omega)
      rw [List.drop_zero] at hget
      exact ⟨h', hcopy, hget.trans hupdate, hnext⟩

/-- The new buffer is the only thing that is new. -/
theorem fromMemory_spec (hsrc : src.Holds h l) (hn : n ≤ l.length) (hle : n ≤ size) :
    (fromMemory supply src n size h).Meets
      (fun (b, h') => supply.Grants size ∧ b = ⟨some h.next, size⟩ ∧ h'.next = h.next + 1 ∧
        h'.get = Function.update h.get h.next (some (newArray size (l.take n) supply.junk)))
      (¬ supply.Grants size) := by
  by_cases hgrants : supply.Grants size
  · obtain ⟨h', hcopy, hget, hnext⟩ := memcpy_new hsrc hn hle supply.junk
    rw [fromMemory, newChars, if_pos hgrants, Checked.ok_bind]
    dsimp only
    rw [hcopy]
    exact ⟨hgrants, rfl, hnext, hget⟩
  · rw [fromMemory, newChars, if_neg hgrants]
    exact hgrants

/-- The array is replaced by a new one, and the old one is freed. -/
theorem reallocate_spec {this : Buffer} (hholds : h.Holds this._buffer l)
    (hsize : this._size = l.length) (newsize : Nat) :
    (this.reallocate supply newsize h).Meets
      (fun (b, h') => supply.Grants newsize ∧ b = ⟨some h.next, newsize⟩ ∧
        h'.next = h.next + 1 ∧
        h'.get h.next = some (newArray newsize l supply.junk) ∧
        ∀ p, this._buffer ≠ some p → p ≠ h.next → h'.get p = h.get p)
      (¬ supply.Grants newsize) := by
  have hsrc : (Source.array this._buffer).Holds h l := hholds
  refine (fromMemory_spec hsrc (show min this._size newsize ≤ l.length by omega)
    (show min this._size newsize ≤ newsize by omega)).bind ?_
  rintro ⟨b, h₁⟩ ⟨hgrants, rfl, hnext, hget⟩
  -- the old array is not the new one, so it still holds its bytes when it is freed
  have hne : this._buffer ≠ some h.next := by
    intro heq
    rw [heq] at hholds
    have hlt := Heap.lt_next hholds
    omega
  have hheld : h₁.Holds this._buffer l := by
    cases hptr : this._buffer with
    | none =>
        rw [hptr] at hholds
        exact hholds
    | some p =>
        rw [hptr] at hholds hne
        have hp : h₁.get p = h.get p := by
          rw [hget, Function.update_of_ne (fun heq => hne (by rw [heq]))]
        exact hp.trans hholds
  obtain ⟨h₂, hfree, -, hsame, hnext₂⟩ := Heap.free_of_holds hheld
  have htake : newArray newsize (l.take (min this._size newsize)) supply.junk =
      newArray newsize l supply.junk := by
    rw [hsize, newArray, newArray, List.take_take]
    -- the list is the shorter one, or its front fills the array
    by_cases hlong : l.length ≤ newsize
    · rw [List.take_of_length_le (show l.length ≤ min newsize (min l.length newsize) by omega),
        List.take_of_length_le hlong, List.take_of_length_le (by omega)]
    · have hmin : min newsize (min l.length newsize) = newsize := by omega
      have hmin' : min l.length newsize = newsize := by omega
      rw [hmin, hmin']
      have hzero : newsize - (l.take newsize).length = 0 := by
        rw [List.length_take]
        omega
      have hzero' : newsize - l.length = 0 := by omega
      rw [hzero, hzero']
      rfl
  dsimp only
  rw [hfree]
  refine ⟨hgrants, rfl, hnext₂.trans hnext, ?_, fun p hp hpn => ?_⟩
  · rw [hsame h.next hne, hget, Function.update_self, htake]
  · rw [hsame p hp, hget, Function.update_of_ne hpn]

end

end DianProtocol.Cpp
