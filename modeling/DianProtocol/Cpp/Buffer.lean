import DianProtocol.Cpp.File
import DianProtocol.Cpp.RoundTrip

set_option autoImplicit false

/-! # Buffers and the heads that are written into them

A `buffer` is the list of all the bytes of its array, so that its `size()` is the length of the
list. An array that has been allocated holds what the memory held before, until it is written to.

`bufferStream` keeps the capacity of its array apart from the position up to which it has been
written. `to_buffer` copies the part that has been written; a conversion to the base class keeps the
whole array. `Response::unparseHead` returns the first, `Request::unparseHead` the second, and
`heads_exact_iff` says when this makes a difference.
-/

namespace DianProtocol.Cpp

/-! ## `buffer` -/

/-- `new char[size]`, with `data` copied to its front. -/
def newArray (size : Nat) (data : Str) (junk : Junk) : Str :=
  data.take size ++ (List.range' data.length (size - data.length)).map junk

theorem length_newArray (size : Nat) (data : Str) (junk : Junk) :
    (newArray size data junk).length = size := by
  rw [newArray, List.length_append, List.length_take, List.length_map, List.length_range']
  omega

theorem newArray_prefix {size : Nat} {data : Str} (h : data.length ≤ size) (junk : Junk) :
    data <+: newArray size data junk := by
  rw [newArray, List.take_of_length_le h]
  exact List.prefix_append _ _

/-! ## `bufferStream` -/

/-- `bufferStream`: the array, whose length is `_size`, and `_pos`. -/
structure BufferStream where
  bytes : Str
  pos : Nat
  pos_le : pos ≤ bytes.length

namespace BufferStream

/-- `bufferStream(size)` -/
def new (size : Nat) (junk : Junk) : BufferStream := ⟨newArray size [] junk, 0, Nat.zero_le _⟩

/-- The room behind the position. -/
def spare (s : BufferStream) : Nat := s.bytes.length - s.pos

/-- The array in which there is room for `len` more bytes: a longer one if there is none in the
present one. -/
def room (s : BufferStream) (len : Nat) (junk : Junk) : Str :=
  if s.bytes.length - s.pos < len then newArray (s.bytes.length + len) s.bytes junk else s.bytes

theorem length_room (s : BufferStream) (len : Nat) (junk : Junk) :
    (s.room len junk).length = s.bytes.length + if s.spare < len then len else 0 := by
  unfold room spare
  split
  · rw [length_newArray]
  · rfl

theorem pos_add_le (s : BufferStream) (len : Nat) (junk : Junk) :
    s.pos + len ≤ (s.room len junk).length := by
  have hle := s.pos_le
  rw [length_room, spare]
  split <;> omega

/-- `operator<<`; those for numbers write what `to_string` makes of them. -/
def write (s : BufferStream) (value : Str) (junk : Junk) : BufferStream where
  bytes := (s.room value.length junk).take s.pos ++ value
    ++ (s.room value.length junk).drop (s.pos + value.length)
  pos := s.pos + value.length
  pos_le := by
    have hle := s.pos_add_le value.length junk
    simp only [List.length_append, List.length_take, List.length_drop]
    omega

/-- `to_buffer()`: what has been written. -/
def to_buffer (s : BufferStream) : Str := s.bytes.take s.pos

theorem to_buffer_new (size : Nat) (junk : Junk) : (new size junk).to_buffer = [] := rfl

theorem spare_new (size : Nat) (junk : Junk) : (new size junk).spare = size := by
  show (newArray size [] junk).length - 0 = size
  rw [length_newArray, Nat.sub_zero]

/-- What has been written stays when the array grows. -/
theorem take_room (s : BufferStream) (len : Nat) (junk : Junk) :
    (s.room len junk).take s.pos = s.to_buffer := by
  unfold room to_buffer
  split
  · obtain ⟨rest, hrest⟩ := newArray_prefix (Nat.le_add_right s.bytes.length len) junk
    rw [← hrest, List.take_append_of_le_length s.pos_le]
  · rfl

theorem to_buffer_write (s : BufferStream) (value : Str) (junk : Junk) :
    (s.write value junk).to_buffer = s.to_buffer ++ value := by
  have hlen : (s.to_buffer ++ value).length = s.pos + value.length := by
    have hle := s.pos_le
    rw [to_buffer, List.length_append, List.length_take]
    omega
  show ((s.room value.length junk).take s.pos ++ value ++ _).take (s.pos + value.length) = _
  rw [take_room, ← hlen, List.take_left]

/-- A value that fits takes its length from the room behind the position; for one that does not,
the array grows by its whole length, and as much room is left as before. -/
theorem spare_write (s : BufferStream) (value : Str) (junk : Junk) :
    (s.write value junk).spare = if s.spare < value.length then s.spare
      else s.spare - value.length := by
  have hle := s.pos_add_le value.length junk
  have hroom := s.length_room value.length junk
  have hlen : (s.write value junk).bytes.length = (s.room value.length junk).length := by
    simp only [write, List.length_append, List.length_take, List.length_drop]
    omega
  have hspare : s.spare = s.bytes.length - s.pos := rfl
  show (s.write value junk).bytes.length - (s.pos + value.length) = _
  rw [hlen, hroom]
  split <;> omega

theorem length_bytes (s : BufferStream) : s.bytes.length = s.to_buffer.length + s.spare := by
  have hle := s.pos_le
  rw [to_buffer, spare, List.length_take]
  omega

/-- The array is what has been written if and only if there is no room behind it. -/
theorem bytes_eq_to_buffer_iff (s : BufferStream) : s.bytes = s.to_buffer ↔ s.spare = 0 := by
  have hlen := s.length_bytes
  constructor
  · intro heq
    rw [← heq] at hlen
    omega
  · intro hspare
    have hpre : s.to_buffer <+: s.bytes := List.take_prefix _ _
    exact (hpre.eq_of_length (by omega)).symm

/-- One value after the other; `memory` holds the arrays that are allocated for them. -/
def writeAll : BufferStream → List Str → (Nat → Junk) → BufferStream
  | s, [], _ => s
  | s, value :: values, memory =>
      (s.write value (memory 0)).writeAll values fun n => memory (n + 1)

theorem to_buffer_writeAll (s : BufferStream) (values : List Str) (memory : Nat → Junk) :
    (s.writeAll values memory).to_buffer = s.to_buffer ++ values.flatten := by
  induction values generalizing s memory with
  | nil => simp [writeAll]
  | cons value values ih =>
      rw [writeAll]
      calc ((s.write value (memory 0)).writeAll values fun n => memory (n + 1)).to_buffer
          = (s.write value (memory 0)).to_buffer ++ values.flatten := ih _ _
        _ = s.to_buffer ++ value ++ values.flatten := by rw [to_buffer_write]
        _ = s.to_buffer ++ (value :: values).flatten := by
            rw [List.flatten_cons, List.append_assoc]

end BufferStream

/-- What is left of a room of `spare` bytes for values of these lengths: each takes its length from
it if it still fits, and nothing if it does not. -/
def spareAfter : Nat → List Nat → Nat
  | spare, [] => spare
  | spare, len :: lens => spareAfter (if spare < len then spare else spare - len) lens

theorem BufferStream.spare_writeAll (s : BufferStream) (values : List Str)
    (memory : Nat → Junk) :
    (s.writeAll values memory).spare = spareAfter s.spare (values.map List.length) := by
  induction values generalizing s memory with
  | nil => rfl
  | cons value values ih => rw [writeAll, ih, spare_write, List.map_cons, spareAfter]

/-! ## `unparseHead` -/

/-- The values that are written for the headers and the empty line. -/
def headerPieces (headers : Headers) : List Str :=
  headers.toList.flatMap (fun (key, value) => [key, str ": ", value, crlf]) ++ [crlf]

theorem headerPieces_flatten (headers : Headers) :
    (headerPieces headers).flatten = unparseHeaders headers := by
  have hlines : ∀ items : List (Str × Str),
      (items.flatMap fun (key, value) => [key, str ": ", value, crlf]).flatten =
        items.flatMap fun (key, value) => key ++ str ": " ++ value ++ crlf := by
    intro items
    induction items with
    | nil => rfl
    | cons item items ih =>
        rw [List.flatMap_cons, List.flatten_append, ih, List.flatMap_cons]
        simp
  rw [headerPieces, List.flatten_append, hlines, unparseHeaders]
  simp

/-- The values that `Request::unparseHead` writes. -/
def Request.headPieces (r : Request) : List Str :=
  [r.method, str " ", r.url, str " HTTP/", to_string r.version.major.toNat, str ".",
    to_string r.version.minor.toNat, crlf] ++ headerPieces r.headers

/-- The values that `Response::unparseHead` writes. -/
def Response.headPieces (r : Response) : List Str :=
  [str "HTTP/", to_string r.version.major.toNat, str ".", to_string r.version.minor.toNat,
    str " ", to_stringInt r.status, str " ", r.reason, crlf] ++ headerPieces r.headers

/-- The buffer that `Request::unparseHead` returns: the base part of its stream. -/
def Request.unparseHeadBuffer (r : Request) (memory : Nat → Junk) : Str :=
  ((BufferStream.new 1024 (memory 0)).writeAll r.headPieces fun n => memory (n + 1)).bytes

/-- The buffer that `Response::unparseHead` returns. -/
def Response.unparseHeadBuffer (r : Response) (memory : Nat → Junk) : Str :=
  ((BufferStream.new 1024 (memory 0)).writeAll r.headPieces fun n => memory (n + 1)).to_buffer

theorem Request.headPieces_flatten (r : Request) : r.headPieces.flatten = r.unparseHead := by
  rw [headPieces, List.flatten_append, headerPieces_flatten, Request.unparseHead]
  simp

theorem Response.headPieces_flatten (r : Response) : r.headPieces.flatten = r.unparseHead := by
  rw [headPieces, List.flatten_append, headerPieces_flatten, Response.unparseHead]
  simp

/-- The buffer of a request: its head, and the room behind it. -/
theorem Request.length_unparseHeadBuffer (r : Request) (memory : Nat → Junk) :
    (r.unparseHeadBuffer memory).length =
      r.unparseHead.length + spareAfter 1024 (r.headPieces.map List.length) := by
  rw [Request.unparseHeadBuffer, BufferStream.length_bytes, BufferStream.to_buffer_writeAll,
    BufferStream.to_buffer_new, List.nil_append, Request.headPieces_flatten,
    BufferStream.spare_writeAll, BufferStream.spare_new]

theorem Request.unparseHeadBuffer_eq_iff (r : Request) (memory : Nat → Junk) :
    r.unparseHeadBuffer memory = r.unparseHead ↔
      spareAfter 1024 (r.headPieces.map List.length) = 0 := by
  have htext : ((BufferStream.new 1024 (memory 0)).writeAll r.headPieces
      fun n => memory (n + 1)).to_buffer = r.unparseHead := by
    rw [BufferStream.to_buffer_writeAll, BufferStream.to_buffer_new, List.nil_append,
      Request.headPieces_flatten]
  rw [Request.unparseHeadBuffer, ← htext, BufferStream.bytes_eq_to_buffer_iff,
    BufferStream.spare_writeAll, BufferStream.spare_new]

theorem Response.unparseHeadBuffer_eq (r : Response) (memory : Nat → Junk) :
    r.unparseHeadBuffer memory = r.unparseHead := by
  rw [Response.unparseHeadBuffer, BufferStream.to_buffer_writeAll, BufferStream.to_buffer_new,
    List.nil_append, Response.headPieces_flatten]

/-- **Which heads are returned exactly.** That of a response always is. That of a request comes
with the rest of its array behind it, unless its parts fill the first 1024 bytes. -/
theorem heads_exact_iff (request : Request) (response : Response) (memory memory' : Nat → Junk) :
    (request.unparseHeadBuffer memory = request.unparseHead ∧
        response.unparseHeadBuffer memory' = response.unparseHead) ↔
      spareAfter 1024 (request.headPieces.map List.length) = 0 := by
  rw [Request.unparseHeadBuffer_eq_iff]
  constructor
  · rintro ⟨hspare, -⟩
    exact hspare
  · intro hspare
    exact ⟨hspare, response.unparseHeadBuffer_eq memory'⟩

/-- A head of 41 bytes is returned in an array of 1024. -/
theorem optionsHead_padded :
    optionsHead.unparseHead.length = 41 ∧
      (optionsHead.unparseHeadBuffer fun _ _ => 0).length = 1024 ∧
      ¬ ((optionsHead.unparseHeadBuffer fun _ _ => 0) = optionsHead.unparseHead ∧
        ((Response.ofRequest optionsHead).unparseHeadBuffer fun _ _ => 0) =
          (Response.ofRequest optionsHead).unparseHead) := by
  have hpieces : optionsHead.headPieces = [str "OPTIONS", str " ", str "diantp://localhost/a",
      str " HTTP/", str "0", str ".", str "5", crlf, crlf] := by
    have hzero : to_string 0 = str "0" := by decide
    have hfive : to_string 5 = str "5" := by decide
    simp [Request.headPieces, headerPieces, hzero, hfive, optionsHead]
  have hlens : optionsHead.headPieces.map List.length = [7, 1, 20, 6, 1, 1, 1, 2, 2] := by
    rw [hpieces]
    decide
  have hspare : spareAfter 1024 (optionsHead.headPieces.map List.length) = 983 := by
    rw [hlens]
    decide
  have hlength : optionsHead.unparseHead.length = 41 := by
    rw [← Request.headPieces_flatten, List.length_flatten, hlens]
    rfl
  have hbuffer := optionsHead.length_unparseHeadBuffer fun _ _ => 0
  rw [hlength, hspare] at hbuffer
  refine ⟨hlength, hbuffer, ?_⟩
  rintro ⟨heq, -⟩
  rw [heq, hlength] at hbuffer
  omega

end DianProtocol.Cpp
