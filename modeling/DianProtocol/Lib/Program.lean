import Mathlib.Tactic

set_option autoImplicit false

/-! # Programs over a signature of actions

A thread of a concurrent system is modelled by what it asks of its environment. A *signature*
lists the actions a thread may perform (take a lock, look a key up, send bytes) and, for each
action, the answers the environment may give. A *program* either returns a value or performs an
action and goes on with the answer.

Programs are composed with `Prog.bind`, and programs with local variables and exceptions (`Exc`) are
written with `do`. Loops that may run for ever are not programs: a thread that loops is a program
for one round and a control state for the next (`Lib/Interleaving.lean`).
-/

namespace Concurrent

/-- The actions of a thread and the answers each of them may get. -/
structure Sig where
  Act : Type
  Ans : Act → Type

/-- A terminating program over the signature `S` with result in `α`. -/
inductive Prog (S : Sig) (α : Type) : Type where
  | ret (a : α) : Prog S α
  | act (e : S.Act) (k : S.Ans e → Prog S α) : Prog S α

namespace Prog

variable {S : Sig} {α β : Type}

/-- Run `p`, then go on with its result. -/
def bind : Prog S α → (α → Prog S β) → Prog S β
  | .ret a, f => f a
  | .act e k, f => .act e (fun r => (k r).bind f)

/-- Every action that `p` may perform, whatever it is answered, is allowed. -/
def Uses (allowed : S.Act → Prop) : Prog S α → Prop
  | .ret _ => True
  | .act e k => allowed e ∧ ∀ r, (k r).Uses allowed

theorem Uses.mono {allowed allowed' : S.Act → Prop} (h : ∀ e, allowed e → allowed' e)
    {p : Prog S α} (hp : p.Uses allowed) : p.Uses allowed' := by
  induction p with
  | ret a => trivial
  | act e k ih => exact ⟨h e hp.1, fun r => ih r (hp.2 r)⟩

theorem Uses.bind {allowed : S.Act → Prop} {p : Prog S α} {f : α → Prog S β}
    (hp : p.Uses allowed) (hf : ∀ a, (f a).Uses allowed) : (p.bind f).Uses allowed := by
  induction p with
  | ret a => exact hf a
  | act e k ih => exact ⟨hp.1, fun r => ih r (hp.2 r)⟩

/-- Every result that `p` may return, whatever its actions are answered, is in `Q`. -/
def Ends (Q : α → Prop) : Prog S α → Prop
  | .ret a => Q a
  | .act _ k => ∀ r, (k r).Ends Q

theorem Ends.bind {Q : β → Prop} {f : α → Prog S β} (hf : ∀ a, (f a).Ends Q) (p : Prog S α) :
    (p.bind f).Ends Q := by
  induction p with
  | ret a => exact hf a
  | act e k ih => exact fun r => ih r

/-- `p` performs at most `n` actions, whatever they are answered. -/
def AtMost : Prog S α → Nat → Prop
  | .ret _, _ => True
  | .act _ _, 0 => False
  | .act _ k, n + 1 => ∀ r, (k r).AtMost n

theorem AtMost.mono {p : Prog S α} {m n : Nat} (hp : p.AtMost m) (h : m ≤ n) : p.AtMost n := by
  induction p generalizing m n with
  | ret a => trivial
  | act e k ih =>
      cases m with
      | zero => exact hp.elim
      | succ m =>
          cases n with
          | zero => omega
          | succ n => exact fun r => ih r (hp r) (by omega)

theorem AtMost.bind {p : Prog S α} {f : α → Prog S β} {m n : Nat} (hp : p.AtMost m)
    (hf : ∀ a, (f a).AtMost n) : (p.bind f).AtMost (m + n) := by
  induction p generalizing m with
  | ret a => exact (hf a).mono (by omega)
  | act e k ih =>
      cases m with
      | zero => exact hp.elim
      | succ m =>
          rw [Nat.succ_add]
          exact fun r => ih r (hp r)

/-- Run `p` in a state `τ`, with a handler for its actions. -/
def interp {τ : Type} (handler : (e : S.Act) → τ → S.Ans e × τ) : Prog S α → τ → α × τ
  | .ret a, t => (a, t)
  | .act e k, t => (k (handler e t).1).interp handler (handler e t).2

theorem interp_bind {τ : Type} (handler : (e : S.Act) → τ → S.Ans e × τ) (p : Prog S α)
    (f : α → Prog S β) (t : τ) :
    (p.bind f).interp handler t =
      (f (p.interp handler t).1).interp handler (p.interp handler t).2 := by
  induction p generalizing t with
  | ret a => rfl
  | act e k ih => exact ih (handler e t).1 (handler e t).2

/-- What every result satisfies, the result of a run satisfies. -/
theorem Ends.interp {τ : Type} {Q : α → Prop} {p : Prog S α} (h : p.Ends Q)
    (handler : (e : S.Act) → τ → S.Ans e × τ) (t : τ) : Q (p.interp handler t).1 := by
  induction p generalizing t with
  | ret a => exact h
  | act e k ih => exact ih _ (h _) _

theorem bind_assoc {γ : Type} (p : Prog S α) (f : α → Prog S β) (g : β → Prog S γ) :
    (p.bind f).bind g = p.bind fun a => (f a).bind g := by
  induction p with
  | ret a => rfl
  | act e k ih => exact congrArg _ (funext ih)

end Prog

/-! ## Exceptions and local variables

A thread of an imperative language has local variables, which an exception leaves as they were
when it was thrown. `Exc S σ ε` is the monad of programs with variables of type `σ` and exceptions
of type `ε`: a computation takes the variables and returns, together with their new values, either
a result or an exception. -/

/-- Computations with local variables `σ` and exceptions `ε` over the signature `S`. -/
def Exc (S : Sig) (σ ε α : Type) : Type := σ → Prog S (Except ε α × σ)

namespace Exc

variable {S : Sig} {σ ε α β : Type}

/-- Run a computation on given variables. -/
def run (m : Exc S σ ε α) (x : σ) : Prog S (Except ε α × σ) := m x

def bind (m : Exc S σ ε α) (f : α → Exc S σ ε β) : Exc S σ ε β := fun x =>
  (m x).bind fun
    | (.ok a, x') => f a x'
    | (.error e, x') => .ret (.error e, x')

instance : Monad (Exc S σ ε) where
  pure a := fun x => .ret (.ok a, x)
  bind := .bind

/-- Throw the exception `e`. -/
def throw (e : ε) : Exc S σ ε α := fun x => .ret (.error e, x)

/-- The local variables. -/
def vars : Exc S σ ε σ := fun x => .ret (.ok x, x)

/-- Assign to local variables. -/
def assign (f : σ → σ) : Exc S σ ε Unit := fun x => .ret (.ok (), f x)

/-- Perform an action and return its answer. -/
def perform (e : S.Act) : Exc S σ ε (S.Ans e) := fun x => .act e (fun r => .ret (.ok r, x))

theorem run_bind (m : Exc S σ ε α) (f : α → Exc S σ ε β) (x : σ) :
    (m >>= f).run x = (m.run x).bind fun
      | (.ok a, x') => (f a).run x'
      | (.error e, x') => .ret (.error e, x') := rfl

theorem bind_assoc {γ : Type} (m : Exc S σ ε α) (f : α → Exc S σ ε β) (g : β → Exc S σ ε γ) :
    m >>= f >>= g = m >>= fun a => f a >>= g := by
  funext x
  refine (Prog.bind_assoc _ _ _).trans (congrArg _ (funext fun r => ?_))
  rcases r with ⟨e | a, x'⟩
  · rfl
  · rfl

@[simp] theorem run_vars_bind (f : σ → Exc S σ ε β) (x : σ) :
    ((vars : Exc S σ ε σ) >>= f).run x = (f x).run x := rfl

/-- Every action that `m` may perform, whatever its variables are, is allowed. -/
def Uses (allowed : S.Act → Prop) (m : Exc S σ ε α) : Prop := ∀ x, (m.run x).Uses allowed

variable {allowed : S.Act → Prop}

theorem Uses.mono {allowed' : S.Act → Prop} {m : Exc S σ ε α}
    (h : ∀ e, allowed e → allowed' e) (hm : m.Uses allowed) : m.Uses allowed' :=
  fun x => (hm x).mono h

theorem Uses.pure (a : α) : (Pure.pure a : Exc S σ ε α).Uses allowed := fun _ => trivial

theorem Uses.throw (e : ε) : (Exc.throw e : Exc S σ ε α).Uses allowed := fun _ => trivial

theorem Uses.vars : (Exc.vars : Exc S σ ε σ).Uses allowed := fun _ => trivial

theorem Uses.assign (f : σ → σ) : (Exc.assign f : Exc S σ ε Unit).Uses allowed := fun _ => trivial

theorem Uses.perform {e : S.Act} (h : allowed e) :
    (Exc.perform e : Exc S σ ε (S.Ans e)).Uses allowed := fun _ => ⟨h, fun _ => trivial⟩

theorem Uses.bind {m : Exc S σ ε α} {f : α → Exc S σ ε β} (hm : m.Uses allowed)
    (hf : ∀ a, (f a).Uses allowed) : (m >>= f).Uses allowed := by
  intro x
  rw [run_bind]
  refine (hm x).bind fun r => ?_
  rcases r with ⟨e | a, x'⟩
  · trivial
  · exact hf a x'

/-- `m` performs at most `n` actions. -/
def AtMost (n : Nat) (m : Exc S σ ε α) : Prop := ∀ x, (m.run x).AtMost n

theorem AtMost.pure (n : Nat) (a : α) : (Pure.pure a : Exc S σ ε α).AtMost n := fun _ => trivial

theorem AtMost.throw (n : Nat) (e : ε) : (Exc.throw e : Exc S σ ε α).AtMost n := fun _ => trivial

theorem AtMost.perform (e : S.Act) : (Exc.perform e : Exc S σ ε (S.Ans e)).AtMost 1 :=
  fun _ _ => trivial

theorem AtMost.bind {m : Exc S σ ε α} {f : α → Exc S σ ε β} {a b n : Nat} (hm : m.AtMost a)
    (hf : ∀ x, (f x).AtMost b) (h : a + b ≤ n) : (m >>= f).AtMost n := by
  intro x
  rw [run_bind]
  refine Prog.AtMost.mono (Prog.AtMost.bind (hm x) fun r => ?_) h
  rcases r with ⟨e | c, x'⟩
  · trivial
  · exact hf c x'

/-- A computation that returns is followed by what comes after it. -/
theorem interp_bind {τ : Type} {handler : (e : S.Act) → τ → S.Ans e × τ} {m : Exc S σ ε α}
    {f : α → Exc S σ ε β} {x x' : σ} {t t' : τ} {a : α}
    (h : (m.run x).interp handler t = ((.ok a, x'), t')) :
    ((m >>= f).run x).interp handler t = ((f a).run x').interp handler t' := by
  rw [run_bind, Prog.interp_bind, h]

/-- Every value that `m` may return is in `Q`. -/
def Returns (Q : α → Prop) (m : Exc S σ ε α) : Prop :=
  ∀ x, (m.run x).Ends fun r => ∀ a, r.1 = .ok a → Q a

theorem Returns.pure {Q : α → Prop} {a : α} (h : Q a) :
    (Pure.pure a : Exc S σ ε α).Returns Q := by
  intro x b hb
  cases hb
  exact h

theorem Returns.throw {Q : α → Prop} (e : ε) : (Exc.throw e : Exc S σ ε α).Returns Q := by
  intro x b hb
  cases hb

theorem Returns.bind {Q : β → Prop} {f : α → Exc S σ ε β} (hf : ∀ a, (f a).Returns Q)
    (m : Exc S σ ε α) : (m >>= f).Returns Q := by
  intro x
  rw [run_bind]
  refine Prog.Ends.bind (fun r => ?_) _
  rcases r with ⟨e | a, x'⟩
  · intro b hb
    cases hb
  · exact hf a x'

end Exc

end Concurrent
