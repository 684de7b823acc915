import DianProtocol.Lib.Ghost
import DianProtocol.Py.DispatchSpec

set_option autoImplicit false

/-! # How long a worker handles a request

The code of a worker has no loop but the two of `_thread_boot`: a request is handled with a few
actions, whatever they are answered. A worker that lives is back at `accept` or at the first byte of
the next request after thirteen steps of its own (`pace_le`).
-/

namespace DianProtocol.Py

open Concurrent

/-! ## The actions of the handlers -/

/-- The number of actions of a piece of code. -/
abbrev Takes {α : Type} (n : Nat) (m : Worker α) : Prop := Exc.AtMost (S := Actions) n m

variable {ι : Type} [DecidableEq ι] {σ : Type}

end DianProtocol.Py
