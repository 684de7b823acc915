import DianProtocol.Cpp.Message

set_option autoImplicit false

/-! # Receiving from a connection

A connection is seen by its worker as the sequence of results that one-byte calls of `recv` give: a
byte, an orderly close (`recv` returns 0 and leaves the byte as it was, a NUL), or an error. The
sequence is a list: a reader that needs more than it holds is blocked in `recv`.

`socket::recvUntil` compares the end of what it has received with the delimiter by a `memcmp` that
starts `strlen` bytes back. Before that many bytes have arrived the window starts in front of the
receive buffer, so a connection also fixes, for each buffer to be allocated, the bytes that lie in
front of it. A comparison that finds nothing there is the case of an empty list.
-/

namespace DianProtocol.Cpp

/-- The result of `::recv(socketvalue, &value, 1, 0)`. -/
inductive Recv where
  | byte (c : Byte)
  | closed
  | error (errcode : Int)
  deriving DecidableEq, Repr

/-- The byte that `value` holds after a `recv` that did not fail. -/
def Recv.value : Recv → Byte
  | .byte c => c
  | .closed => nul
  | .error _ => nul

structure Conn where
  recvs : List Recv
  /-- the memory in front of the next receive buffers -/
  heap : Nat → Str

/-- What a call that reads from a connection does. -/
inductive Fetch (α : Type) where
  | done (a : α) (conn : Conn)
  | thrown (e : Exn) (conn : Conn)
  | blocked

/-- The loop of `socket::recvUntil`: `left` bounds the bytes still to be received (`none` when
`max == -1`), `data` has been received, and `before` lies in front of it in memory. -/
def recvLoop (before delim : Str) : Option Nat → Str → List Recv →
    Option (Except Int Str × List Recv)
  -- `recved < max` fails: the data is returned whether it ends in the delimiter or not
  | some 0, data, rs => some (.ok data, rs)
  | _, _, [] => none
  | _, _, .error errcode :: rs => some (.error errcode, rs)
  | left, data, r :: rs =>
      let data := data ++ [r.value]
      -- `memcmp` over the last `strlen` bytes
      if delim <:+ before ++ data then some (.ok data, rs)
      else recvLoop before delim (left.map (· - 1)) data rs

/-- `socket::recvUntil(str, max, set_text)` -/
def Conn.recvUntil (conn : Conn) (delim : Str) (max : Int := 1024) (set_text : Bool := true) :
    Fetch Str :=
  match recvLoop (conn.heap 0) delim (if max = -1 then none else some max.toNat) [] conn.recvs with
  | none => .blocked
  | some (.error errcode, rs) => .thrown (.RecvError errcode) ⟨rs, fun n => conn.heap (n + 1)⟩
  | some (.ok data, rs) =>
      .done (data ++ if set_text then [nul] else []) ⟨rs, fun n => conn.heap (n + 1)⟩

end DianProtocol.Cpp
