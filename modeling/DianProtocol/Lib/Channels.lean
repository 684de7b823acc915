import DianProtocol.Lib.Program

set_option autoImplicit false

/-! # Two processes that talk over channels

Two processes, each with a channel to the other. A step of a process may take something from the
front of its input and put something at the end of its output; a process whose input is not there
yet waits. What a process does with its input must not depend on what arrives behind it (`mono`).

There are many interleavings of such a pair, but they all lead to the same end: if one of them
comes to a state in which both processes wait or are done, every other one gets there in the same
number of steps (`Run.complete`). So it is enough to follow one of them.

A process is given by programs (`Thread`) as the threads of `Lib/Interleaving.lean` are: control
states, and for each of them the program of the next round, which may depend on the input.
-/

namespace Channels

open Concurrent

/-! ## Processes -/

/-- A process with states `P`. A step returns the new state, what is left of the input, and what is
added to the output. -/
structure Process (P M : Type) where
  step : P → List M → Option (P × List M × List M)
  mono : ∀ {p p' : P} {c c' o : List M}, step p c = some (p', c', o) →
    ∀ d, step p (c ++ d) = some (p', c' ++ d, o)

/-- Two processes and the channels between them. -/
structure Net (P Q M : Type) where
  left : P
  right : Q
  toLeft : List M := []
  toRight : List M := []

section

variable {P Q M : Type}

/-- One of the two processes takes a step. -/
inductive Step (L : Process P M) (R : Process Q M) : Net P Q M → Net P Q M → Prop where
  | left {n : Net P Q M} {p : P} {c o : List M} (h : L.step n.left n.toLeft = some (p, c, o)) :
      Step L R n ⟨p, n.right, c, n.toRight ++ o⟩
  | right {n : Net P Q M} {q : Q} {c o : List M} (h : R.step n.right n.toRight = some (q, c, o)) :
      Step L R n ⟨n.left, q, n.toLeft ++ o, c⟩

/-- `k` steps. -/
inductive Run (L : Process P M) (R : Process Q M) : Net P Q M → Nat → Net P Q M → Prop where
  | nil {n : Net P Q M} : Run L R n 0 n
  | cons {n n' e : Net P Q M} {k : Nat} : Step L R n n' → Run L R n' k e → Run L R n (k + 1) e

/-- Neither process can take a step. -/
def Stuck (L : Process P M) (R : Process Q M) (n : Net P Q M) : Prop :=
  L.step n.left n.toLeft = none ∧ R.step n.right n.toRight = none

variable {L : Process P M} {R : Process Q M} {n a b e : Net P Q M}

theorem Stuck.not_step (h : Stuck L R n) : ¬ Step L R n a := by
  intro hstep
  cases hstep with
  | left hl =>
      rw [h.1] at hl
      cases hl
  | right hr =>
      rw [h.2] at hr
      cases hr

theorem Run.single (h : Step L R n a) : Run L R n 1 a := .cons h .nil

theorem Run.trans {j k : Nat} (h : Run L R n j a) (h' : Run L R a k b) : Run L R n (j + k) b := by
  induction h with
  | nil => rwa [Nat.zero_add]
  | cons hstep _ ih =>
      rw [Nat.succ_add]
      exact .cons hstep (ih h')

/-- A step of one process and a step of the other can be taken in any order. -/
theorem left_right {p : P} {q : Q} {c o d x : List M}
    (hl : L.step n.left n.toLeft = some (p, c, o)) (hr : R.step n.right n.toRight = some (q, d, x)) :
    ∃ m, Step L R ⟨p, n.right, c, n.toRight ++ o⟩ m ∧ Step L R ⟨n.left, q, n.toLeft ++ x, d⟩ m :=
  ⟨⟨p, q, c ++ x, d ++ o⟩, .right (R.mono hr o), .left (L.mono hl x)⟩

/-- Two different steps can be followed by steps that lead to the same state. -/
theorem Step.diamond (ha : Step L R n a) (hb : Step L R n b) :
    a = b ∨ ∃ m, Step L R a m ∧ Step L R b m := by
  cases ha with
  | left hl =>
      cases hb with
      | left hl' =>
          rw [hl] at hl'
          cases hl'
          exact Or.inl rfl
      | right hr => exact Or.inr (left_right hl hr)
  | right hr =>
      cases hb with
      | left hl =>
          obtain ⟨m, hright, hleft⟩ := left_right hl hr
          exact Or.inr ⟨m, hleft, hright⟩
      | right hr' =>
          rw [hr] at hr'
          cases hr'
          exact Or.inl rfl

/-- Whatever the first step is, the run to the end goes on behind it. -/
theorem Run.after_step {k : Nat} (h : Run L R n k e) (he : Stuck L R e) (hstep : Step L R n a) :
    ∃ j, k = j + 1 ∧ Run L R a j e := by
  induction h generalizing a with
  | nil => exact absurd hstep he.not_step
  | @cons n b e k hfirst hrest ih =>
      rcases hstep.diamond hfirst with rfl | ⟨m, ham, hbm⟩
      · exact ⟨k, rfl, hrest⟩
      · obtain ⟨j, rfl, hrun⟩ := ih he hbm
        exact ⟨j + 1, rfl, .cons ham hrun⟩

/-- **All interleavings lead to the same end.** When a run has come to an end after `k` steps, every
other run from the same state goes on to that end, and has `k` steps there. -/
theorem Run.complete {j k : Nat} (h : Run L R n k e) (he : Stuck L R e) (ha : Run L R n j a) :
    ∃ i, j + i = k ∧ Run L R a i e := by
  induction ha generalizing k with
  | nil => exact ⟨k, Nat.zero_add k, h⟩
  | cons hstep _ ih =>
      obtain ⟨k, rfl, hrest⟩ := h.after_step he hstep
      obtain ⟨i, rfl, hrun⟩ := ih hrest
      exact ⟨i, by omega, hrun⟩

/-- A run that is at an end is at the same end. -/
theorem Run.unique {j k : Nat} (h : Run L R n k e) (he : Stuck L R e) (ha : Run L R n j a)
    (hstuck : Stuck L R a) : a = e := by
  obtain ⟨i, -, hrun⟩ := h.complete he ha
  cases hrun with
  | nil => rfl
  | cons hstep _ => exact absurd hstep hstuck.not_step

end

/-! ## Threads -/

/-- What an action answers, and what it does to the state and the channels of its thread. -/
structure Effect (α τ M : Type) where
  ans : α
  state : τ
  rest : List M
  out : List M := []

/-- An effect behind the output `o`. -/
def Effect.after {α τ M : Type} (o : List M) (x : Effect α τ M) : Effect α τ M :=
  { x with out := o ++ x.out }

theorem Effect.map_after {α τ M : Type} (o : List M) (a : α) (t : τ) (c : List M) :
    (some (⟨a, t, c, []⟩ : Effect α τ M)).map (Effect.after o) = some ⟨a, t, c, o⟩ := by
  rw [Option.map_some, Effect.after, List.append_nil]

theorem Effect.after_after {α τ M : Type} (o o' : List M) (x : Effect α τ M) :
    (x.after o').after o = x.after (o ++ o') := by
  simp [Effect.after]

/-- A process given by its programs. A round that has no program and an action that has no effect
wait for input. -/
structure Thread (S : Sig) (Λ τ M : Type) where
  round : Λ → List M → Option (Prog S Λ × List M)
  perform : (e : S.Act) → τ → List M → Option (Effect (S.Ans e) τ M)
  round_mono : ∀ {l : Λ} {c c' : List M} {p : Prog S Λ}, round l c = some (p, c') →
    ∀ d, round l (c ++ d) = some (p, c' ++ d)
  mono : ∀ {e : S.Act} {t : τ} {c : List M} {x : Effect (S.Ans e) τ M}, perform e t c = some x →
    ∀ d, perform e t (c ++ d) = some { x with rest := x.rest ++ d }

section

variable {S : Sig} {Λ τ M α β : Type}

/-- The steps of a thread: an action, or the start of a round. -/
def Thread.step (T : Thread S Λ τ M) :
    Prog S Λ × τ → List M → Option ((Prog S Λ × τ) × List M × List M)
  | (.act e k, t), c => (T.perform e t c).map fun x => ((k x.ans, x.state), x.rest, x.out)
  | (.ret l, t), c => (T.round l c).map fun x => ((x.1, t), x.2, [])

theorem Thread.step_mono (T : Thread S Λ τ M) {p p' : Prog S Λ × τ} {c c' o : List M}
    (h : T.step p c = some (p', c', o)) (d : List M) :
    T.step p (c ++ d) = some (p', c' ++ d, o) := by
  obtain ⟨p, t⟩ := p
  cases p with
  | ret l =>
      obtain ⟨⟨p, rest⟩, hround, heq⟩ := Option.map_eq_some_iff.mp h
      cases heq
      exact Option.map_eq_some_iff.mpr ⟨_, T.round_mono hround d, rfl⟩
  | act e k =>
      obtain ⟨x, hperform, heq⟩ := Option.map_eq_some_iff.mp h
      cases heq
      exact Option.map_eq_some_iff.mpr ⟨_, T.mono hperform d, rfl⟩

/-- Rounds that do not look at the input. -/
def blind (round : Λ → Option (Prog S Λ)) (l : Λ) (c : List M) : Option (Prog S Λ × List M) :=
  (round l).map fun p => (p, c)

theorem blind_mono {round : Λ → Option (Prog S Λ)} {l : Λ} {c c' : List M} {p : Prog S Λ}
    (h : blind round l c = some (p, c')) (d : List M) :
    blind round l (c ++ d) = some (p, c' ++ d) := by
  obtain ⟨q, hround, heq⟩ := Option.map_eq_some_iff.mp h
  cases heq
  exact Option.map_eq_some_iff.mpr ⟨_, hround, rfl⟩

theorem blind_some {round : Λ → Option (Prog S Λ)} {l : Λ} {p : Prog S Λ} (h : round l = some p)
    (c : List M) : blind round l c = some (p, c) := by
  rw [blind, h, Option.map_some]

/-- A thread as a process. -/
def Thread.process (T : Thread S Λ τ M) : Process (Prog S Λ × τ) M where
  step := T.step
  mono := fun h d => T.step_mono h d

/-- A whole program, when it does not have to wait. -/
def Thread.exec (T : Thread S Λ τ M) : Prog S α → τ → List M → Option (Effect α τ M)
  | .ret a, t, c => some ⟨a, t, c, []⟩
  | .act e k, t, c => (T.perform e t c).bind fun x =>
      (T.exec (k x.ans) x.state x.rest).map (Effect.after x.out)

theorem Thread.exec_act {T : Thread S Λ τ M} {e : S.Act} (k : S.Ans e → Prog S α) {t : τ}
    {c : List M} {x : Effect (S.Ans e) τ M} (h : T.perform e t c = some x) :
    T.exec (.act e k) t c = (T.exec (k x.ans) x.state x.rest).map (Effect.after x.out) := by
  rw [Thread.exec, h, Option.bind_some]

/-- A program that does not have to wait is followed by what comes after it. -/
theorem Thread.exec_bind {T : Thread S Λ τ M} {p : Prog S α} (f : α → Prog S β) {t : τ}
    {c : List M} {x : Effect α τ M} (h : T.exec p t c = some x) :
    T.exec (p.bind f) t c = (T.exec (f x.ans) x.state x.rest).map (Effect.after x.out) := by
  induction p generalizing t c x with
  | ret a =>
      cases h
      have hid : Effect.after (α := β) (τ := τ) ([] : List M) = id := rfl
      rw [Prog.bind, hid, Option.map_id]
      rfl
  | act e k ih =>
      obtain ⟨y, hy, hrest⟩ := Option.bind_eq_some_iff.mp h
      obtain ⟨z, hz, rfl⟩ := Option.map_eq_some_iff.mp hrest
      rw [Prog.bind, Thread.exec_act _ hy, ih y.ans hz, Option.map_map]
      congr 1
      funext w
      exact Effect.after_after _ _ _

/-- A computation that returns is followed by what comes after it. -/
theorem Thread.exec_ok {σ ε : Type} {T : Thread S Λ τ M} {m : Exc S σ ε α} {f : α → Exc S σ ε β}
    {v v' : σ} {a : α} {t t' : τ} {c c' o : List M}
    (h : T.exec (m.run v) t c = some ⟨(.ok a, v'), t', c', o⟩) :
    T.exec ((m >>= f).run v) t c =
      (T.exec ((f a).run v') t' c').map (Effect.after o) := by
  rw [Exc.run_bind, Thread.exec_bind _ h]

/-- A computation that raises leaves out what comes after it. -/
theorem Thread.exec_error {σ ε : Type} {T : Thread S Λ τ M} {m : Exc S σ ε α}
    {f : α → Exc S σ ε β} {v v' : σ} {e : ε} {t t' : τ} {c c' o : List M}
    (h : T.exec (m.run v) t c = some ⟨(.error e, v'), t', c', o⟩) :
    T.exec ((m >>= f).run v) t c = some ⟨(.error e, v'), t', c', o⟩ := by
  rw [Exc.run_bind, Thread.exec_bind _ h, Thread.exec, Option.map_some, Effect.after,
    List.append_nil]

end

/-! ## Rounds of a pair of threads -/

section

variable {S : Sig} {Λ τ M P : Type} {T : Thread S Λ τ M} {R : Process P M}

/-- The left thread takes an action. -/
theorem act_left {e : S.Act} {k : S.Ans e → Prog S Λ} {t : τ} {c : List M}
    {x : Effect (S.Ans e) τ M} (h : T.perform e t c = some x) (q : P) (d : List M) :
    Run T.process R ⟨(.act e k, t), q, c, d⟩ 1 ⟨(k x.ans, x.state), q, x.rest, d ++ x.out⟩ := by
  have hstep : T.process.step (.act e k, t) c = some ((k x.ans, x.state), x.rest, x.out) := by
    show (T.perform e t c).map _ = _
    rw [h, Option.map_some]
  exact .single (.left hstep)

/-- The right thread takes an action. -/
theorem act_right {e : S.Act} {k : S.Ans e → Prog S Λ} {t : τ} {d : List M}
    {x : Effect (S.Ans e) τ M} (h : T.perform e t d = some x) (p : P) (c : List M) :
    Run R T.process ⟨p, (.act e k, t), c, d⟩ 1 ⟨p, (k x.ans, x.state), c ++ x.out, x.rest⟩ := by
  have hstep : T.process.step (.act e k, t) d = some ((k x.ans, x.state), x.rest, x.out) := by
    show (T.perform e t d).map _ = _
    rw [h, Option.map_some]
  exact .single (.right hstep)

/-- The left thread runs a program to its end. -/
theorem exec_left {p : Prog S Λ} {t : τ} {c : List M} {x : Effect Λ τ M}
    (h : T.exec p t c = some x) (q : P) (d : List M) :
    ∃ k, Run T.process R ⟨(p, t), q, c, d⟩ k ⟨(.ret x.ans, x.state), q, x.rest, d ++ x.out⟩ := by
  induction p generalizing t c x d with
  | ret a =>
      cases h
      refine ⟨0, ?_⟩
      rw [List.append_nil]
      exact .nil
  | act e k ih =>
      obtain ⟨y, hy, hrest⟩ := Option.bind_eq_some_iff.mp h
      obtain ⟨z, hz, rfl⟩ := Option.map_eq_some_iff.mp hrest
      obtain ⟨j, hrun⟩ := ih y.ans hz (d ++ y.out)
      rw [List.append_assoc] at hrun
      exact ⟨1 + j, (act_left hy q d).trans hrun⟩

/-- The right thread runs a program to its end. -/
theorem exec_right {q : Prog S Λ} {t : τ} {d : List M} {x : Effect Λ τ M}
    (h : T.exec q t d = some x) (p : P) (c : List M) :
    ∃ k, Run R T.process ⟨p, (q, t), c, d⟩ k ⟨p, (.ret x.ans, x.state), c ++ x.out, x.rest⟩ := by
  induction q generalizing t d x c with
  | ret a =>
      cases h
      refine ⟨0, ?_⟩
      rw [List.append_nil]
      exact .nil
  | act e k ih =>
      obtain ⟨y, hy, hrest⟩ := Option.bind_eq_some_iff.mp h
      obtain ⟨z, hz, rfl⟩ := Option.map_eq_some_iff.mp hrest
      obtain ⟨j, hrun⟩ := ih y.ans hz (c ++ y.out)
      rw [List.append_assoc] at hrun
      exact ⟨1 + j, (act_right hy p c).trans hrun⟩

/-- The left thread starts a round. -/
theorem start_left {l : Λ} {p : Prog S Λ} {c c' : List M} (hround : T.round l c = some (p, c'))
    (t : τ) (q : P) (d : List M) :
    Run T.process R ⟨(.ret l, t), q, c, d⟩ 1 ⟨(p, t), q, c', d⟩ := by
  have hstep : T.process.step (.ret l, t) c = some ((p, t), c', []) := by
    show (T.round l c).map _ = _
    rw [hround, Option.map_some]
  have hrun : Run T.process R ⟨(.ret l, t), q, c, d⟩ 1 ⟨(p, t), q, c', d ++ []⟩ :=
    .single (.left hstep)
  rwa [List.append_nil] at hrun

/-- The right thread starts a round. -/
theorem start_right {l : Λ} {q : Prog S Λ} {d d' : List M}
    (hround : T.round l d = some (q, d')) (t : τ) (p : P) (c : List M) :
    Run R T.process ⟨p, (.ret l, t), c, d⟩ 1 ⟨p, (q, t), c, d'⟩ := by
  have hstep : T.process.step (.ret l, t) d = some ((q, t), d', []) := by
    show (T.round l d).map _ = _
    rw [hround, Option.map_some]
  have hrun : Run R T.process ⟨p, (.ret l, t), c, d⟩ 1 ⟨p, (q, t), c ++ [], d'⟩ :=
    .single (.right hstep)
  rwa [List.append_nil] at hrun

/-- The right thread starts a round and runs its program to the end. -/
theorem round_right {l : Λ} {q : Prog S Λ} {t : τ} {d d' : List M} {x : Effect Λ τ M}
    (hround : T.round l d = some (q, d')) (h : T.exec q t d' = some x) (p : P) (c : List M) :
    ∃ k, Run R T.process ⟨p, (.ret l, t), c, d⟩ k
      ⟨p, (.ret x.ans, x.state), c ++ x.out, x.rest⟩ := by
  obtain ⟨k, hrun⟩ := exec_right (R := R) h p c
  exact ⟨1 + k, (start_right hround t p c).trans hrun⟩

end

end Channels
