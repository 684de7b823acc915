import DianProtocol.Lib.Lines
import DianProtocol.Py.Text

set_option autoImplicit false

/-! # Reading from a socket

A connection is seen by its reader as the bytes that are still to be received. A call that finds
none waits for them (`blocked`). `SocketStreamReader` is modelled for the two ways in which it is
used: with `max_read == -1`, to read the lines of a head byte by byte (`read_until`), and as the
body of a message (`readall`), which is a single call of `recv`.
-/

namespace DianProtocol.Py

open Lines

/-- The exceptions of the modelled functions. -/
inductive PyExn where
  | Exception (text : String)
  | UnicodeDecodeError
  | ValueError
  | TypeError
  | KeyError
  | UnboundLocalError
  | ConnectionResetError (errno : Int)
  | OSError
  | StopHandler
  deriving DecidableEq, Repr

/-- What a call that reads from a connection does. -/
inductive Outcome (α : Type) where
  | ok (a : α) (rest : Bytes)
  | raised (e : PyExn)
  | blocked
  deriving DecidableEq

def Outcome.bind {α β : Type} : Outcome α → (α → Bytes → Outcome β) → Outcome β
  | .ok a rest, f => f a rest
  | .raised e, _ => .raised e
  | .blocked, _ => .blocked

/-- The result of an operation that does not read. -/
def Outcome.ofOption {α : Type} (e : PyExn) (rest : Bytes) : Option α → Outcome α
  | some a => .ok a rest
  | none => .raised e

theorem Outcome.bind_eq_ok {α β : Type} {x : Outcome α} {f : α → Bytes → Outcome β} {b : β}
    {rest : Bytes} : x.bind f = .ok b rest ↔ ∃ a s, x = .ok a s ∧ f a s = .ok b rest := by
  cases x with
  | ok a s => simp [Outcome.bind]
  | raised e => simp [Outcome.bind]
  | blocked => simp [Outcome.bind]

theorem Outcome.ofOption_eq_ok {α : Type} {e : PyExn} {s rest : Bytes} {o : Option α} {a : α} :
    Outcome.ofOption e s o = .ok a rest ↔ o = some a ∧ s = rest := by
  cases o with
  | none => simp [Outcome.ofOption]
  | some a' => simp [Outcome.ofOption]

/-! ## `read_until` -/

/-- The loop of `read_until`: `ret` has been received. -/
def readUntilLoop (until_ : Bytes) : Bytes → Bytes → Outcome Bytes
  | _, [] => .blocked
  | ret, c :: rest =>
      if until_ <:+ ret ++ [c] then .ok (ret ++ [c]) rest
      else readUntilLoop until_ (ret ++ [c]) rest

/-- `SocketStreamReader(socket).read_until(until)` -/
def read_until (until_ : Text) (s : Bytes) : Outcome Bytes := readUntilLoop (encode until_) [] s

theorem readUntilLoop_line {d ret l : Bytes} (rest : Bytes) (hl : l ≠ []) (h : Line d (ret ++ l)) :
    readUntilLoop d ret (l ++ rest) = .ok (ret ++ l) rest := by
  induction l generalizing ret with
  | nil => exact absurd rfl hl
  | cons c l ih =>
      rw [List.cons_append, readUntilLoop]
      by_cases hnil : l = []
      · subst hnil
        rw [if_pos h.ends]
        rfl
      · have hassoc : ret ++ c :: l = ret ++ [c] ++ l := by simp
        have hearly : ¬ d <:+ ret ++ [c] := by
          intro hs
          refine h.first (hs.isInfix.trans (List.IsPrefix.isInfix ?_))
          rw [hassoc, List.dropLast_append_of_ne_nil hnil]
          exact List.prefix_append _ _
        rw [if_neg hearly, hassoc]
        exact ih hnil (hassoc ▸ h)

/-- A line is read as it is. -/
theorem read_until_line {l : Bytes} (rest : Bytes) (h : Line crlf l) :
    read_until (text "\r\n") (l ++ rest) = .ok l rest := by
  have hne : l ≠ [] := by
    rintro rfl
    exact absurd h.ends (by decide)
  exact readUntilLoop_line rest hne h

theorem readUntilLoop_ok {d ret s l rest : Bytes} (hfree : ¬ d <:+: ret)
    (h : readUntilLoop d ret s = .ok l rest) : ret ++ s = l ++ rest ∧ Line d l := by
  induction s generalizing ret with
  | nil => cases h
  | cons c s ih =>
      rw [readUntilLoop] at h
      have hassoc : ret ++ c :: s = ret ++ [c] ++ s := by simp
      rw [hassoc]
      split at h
      · rename_i hend
        cases h
        exact ⟨rfl, line_snoc hfree hend⟩
      · rename_i hend
        exact ih (not_infix_snoc hfree hend) h

/-- What is read is a line. -/
theorem read_until_ok {s l rest : Bytes} (h : read_until (text "\r\n") s = .ok l rest) :
    s = l ++ rest ∧ Line crlf l :=
  readUntilLoop_ok (by decide) h

/-- Text without a newline makes a line when a CRLF is put after it. -/
theorem line_encode {t : Text} (h : '\n' ∉ t) : Line crlf (encode t ++ crlf) := by
  refine ⟨List.suffix_append _ _, fun hinfix => ?_⟩
  have hdrop : (encode t ++ crlf).dropLast = encode t ++ [13] := by
    rw [List.dropLast_append_of_ne_nil (by decide)]
    rfl
  rw [hdrop] at hinfix
  have hmem : lf ∈ encode t ++ [13] := hinfix.subset (by decide)
  rcases List.mem_append.mp hmem with hmem | hmem
  · exact lf_not_mem_encode h hmem
  · exact absurd hmem (by decide)

/-! ## `readall` -/

/-- `socket.recv(k)`: up to `give` bytes, as many as the transport hands out, but at least one. -/
def recv (give : Nat) (k : Int) (s : Bytes) : Outcome Bytes :=
  if k < 0 then .raised .ValueError
  else if k = 0 then .ok [] s
  else if s = [] then .blocked
  else
    let n := min (max give 1) k.toNat
    .ok (s.take n) (s.drop n)

/-- `socket.recv(k)`, if it is assumed to transfer everything asked for. -/
def recvAll (k : Int) (s : Bytes) : Outcome Bytes :=
  if k < 0 then .raised .ValueError
  else if s.length < k.toNat then .blocked
  else .ok (s.take k.toNat) (s.drop k.toNat)

/-- A `SocketStreamReader` that is the body of a message. -/
structure SocketStreamReader where
  max_read : Int
  have_read : Int := 0
  deriving DecidableEq

/-- `readall`, by way of `read`; `recv` is that of the socket. -/
def SocketStreamReader.readall (r : SocketStreamReader) (recv : Int → Bytes → Outcome Bytes)
    (s : Bytes) : Outcome Bytes :=
  if r.max_read = -1 then .ok [] s
  else if r.have_read = r.max_read then .ok [] s
  else recv (r.max_read - r.have_read) s

end DianProtocol.Py
