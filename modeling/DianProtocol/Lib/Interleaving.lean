import DianProtocol.Lib.Program

set_option autoImplicit false

/-! # Interleaved threads and proof outlines

A *system* has a state shared by its threads and says what an action of thread `i` may answer and
do to the shared state. Every thread runs for ever: it is in some control state, performs the
program of one round, and the result of the program is its next control state. A world is the
shared state, the program each thread still has to perform, and the trace of everything that has
happened; a step of the world is one action, or the start of a round, of one thread. Any thread may
take the next step, so every interleaving is a run.

Properties of all runs are proved with an *outline* (in the manner of rely and guarantee): an
invariant of the shared state and the trace, for each thread a reflexive and transitive *rely*
relation that bounds what the other threads do between two of its steps, and for each action a
precondition. `Safe i Post p o` says that the program `p`, started by thread `i` in `o`, performs
every action under its precondition and ends in `Post`, whatever the others do within the rely.
`Outline.Holds.reach` is the rule: if the rounds of all threads are safe, the invariant and the
preconditions hold in every reachable world.
-/

namespace Concurrent

section

variable (S : Sig) (ι σ Λ : Type)

/-- One thing a thread does: it performs an action and gets an answer, or it enters a round in a
control state. -/
inductive Event where
  | act (e : S.Act) (r : S.Ans e)
  | enter (l : Λ)

/-- An event, the thread that caused it, and the shared state just before it. -/
structure Label where
  who : ι
  pre : σ
  event : Event S Λ

/-- What a property of runs may speak about: the events so far, the oldest first, and the shared
state. -/
structure Obs where
  trace : List (Label S ι σ Λ)
  shared : σ

/-- The semantics of the actions, and the program of one round from each control state; a thread
in a control state without a round has ended. -/
structure System where
  perform : ι → σ → (e : S.Act) → S.Ans e → σ → Prop
  round : Λ → Option (Prog S Λ)

/-- The state of a run. -/
structure World where
  obs : Obs S ι σ Λ
  prog : ι → Prog S Λ

end

variable {S : Sig} {ι σ Λ : Type}

/-- The observation after thread `i` has caused `ev`, leaving the shared state `s`. -/
def Obs.push (o : Obs S ι σ Λ) (i : ι) (ev : Event S Λ) (s : σ) : Obs S ι σ Λ :=
  ⟨o.trace ++ [⟨i, o.shared, ev⟩], s⟩

@[simp] theorem Obs.push_shared (o : Obs S ι σ Λ) (i : ι) (ev : Event S Λ) (s : σ) :
    (o.push i ev s).shared = s := rfl

@[simp] theorem Obs.push_trace (o : Obs S ι σ Λ) (i : ι) (ev : Event S Λ) (s : σ) :
    (o.push i ev s).trace = o.trace ++ [⟨i, o.shared, ev⟩] := rfl

/-! ## What one thread has done in its present round -/

section

variable [DecidableEq ι]

/-- The control state in which thread `i` entered its present round. -/
def ctlOf (i : ι) (trace : List (Label S ι σ Λ)) : Option Λ :=
  trace.foldl (fun c l => if l.who = i then
    match l.event with
    | .act _ _ => c
    | .enter l => some l
    else c) none

/-- The actions thread `i` has performed in its present round, with their answers. -/
def actsOf (i : ι) (trace : List (Label S ι σ Λ)) : List (Σ e : S.Act, S.Ans e) :=
  trace.foldl (fun done l => if l.who = i then
    match l.event with
    | .act e r => done ++ [⟨e, r⟩]
    | .enter _ => []
    else done) []

/-- `ctlOf` of an observation. -/
def Obs.ctl (o : Obs S ι σ Λ) (i : ι) : Option Λ := ctlOf i o.trace

/-- `actsOf` of an observation. -/
def Obs.acts (o : Obs S ι σ Λ) (i : ι) : List (Σ e : S.Act, S.Ans e) := actsOf i o.trace

@[simp] theorem Obs.ctl_push_act (o : Obs S ι σ Λ) (i j : ι) (e : S.Act) (r : S.Ans e) (s : σ) :
    (o.push j (.act e r) s).ctl i = o.ctl i := by
  simp [Obs.ctl, ctlOf, Obs.push]

@[simp] theorem Obs.ctl_push_enter_self (o : Obs S ι σ Λ) (i : ι) (l : Λ) (s : σ) :
    (o.push i (.enter l) s).ctl i = some l := by
  simp [Obs.ctl, ctlOf, Obs.push]

theorem Obs.ctl_push_of_ne (o : Obs S ι σ Λ) {i j : ι} (h : j ≠ i) (ev : Event S Λ) (s : σ) :
    (o.push j ev s).ctl i = o.ctl i := by
  simp [Obs.ctl, ctlOf, Obs.push, h]

@[simp] theorem Obs.acts_push_act_self (o : Obs S ι σ Λ) (i : ι) (e : S.Act) (r : S.Ans e)
    (s : σ) : (o.push i (.act e r) s).acts i = o.acts i ++ [⟨e, r⟩] := by
  simp [Obs.acts, actsOf, Obs.push]

@[simp] theorem Obs.acts_push_enter_self (o : Obs S ι σ Λ) (i : ι) (l : Λ) (s : σ) :
    (o.push i (.enter l) s).acts i = [] := by
  simp [Obs.acts, actsOf, Obs.push]

theorem Obs.acts_push_of_ne (o : Obs S ι σ Λ) {i j : ι} (h : j ≠ i) (ev : Event S Λ) (s : σ) :
    (o.push j ev s).acts i = o.acts i := by
  simp [Obs.acts, actsOf, Obs.push, h]

end

section

variable [DecidableEq ι] (sys : System S ι σ Λ)

/-- One step of one thread. -/
inductive Step : World S ι σ Λ → World S ι σ Λ → Prop where
  | act {w : World S ι σ Λ} {i : ι} {e : S.Act} {k : S.Ans e → Prog S Λ} {r : S.Ans e} {s : σ} :
      w.prog i = .act e k → sys.perform i w.obs.shared e r s →
      Step w ⟨w.obs.push i (.act e r) s, Function.update w.prog i (k r)⟩
  | enter {w : World S ι σ Λ} {i : ι} {l : Λ} {p : Prog S Λ} :
      w.prog i = .ret l → sys.round l = some p →
      Step w ⟨w.obs.push i (.enter l) w.obs.shared, Function.update w.prog i p⟩

/-- `w'` is reached from `w` by some interleaving of steps. -/
abbrev Reach : World S ι σ Λ → World S ι σ Λ → Prop := Relation.ReflTransGen (Step sys)

end

/-! ## Outlines -/

/-- The assertions of a proof about all runs of `sys`. `act_ok` and `enter_ok` say that a step
made under its precondition keeps the invariant and stays within the rely of every other thread. -/
structure Outline (sys : System S ι σ Λ) where
  inv : Obs S ι σ Λ → Prop
  rely : ι → Obs S ι σ Λ → Obs S ι σ Λ → Prop
  head : ι → Obs S ι σ Λ → Λ → Prop
  pre : ι → Obs S ι σ Λ → S.Act → Prop
  rely_refl : ∀ i o, rely i o o
  rely_trans : ∀ i o₁ o₂ o₃, rely i o₁ o₂ → rely i o₂ o₃ → rely i o₁ o₃
  act_ok : ∀ i o e r s, inv o → pre i o e → sys.perform i o.shared e r s →
    inv (o.push i (.act e r) s) ∧ ∀ j, j ≠ i → rely j o (o.push i (.act e r) s)
  enter_ok : ∀ i o l, inv o → head i o l →
    inv (o.push i (.enter l) o.shared) ∧ ∀ j, j ≠ i → rely j o (o.push i (.enter l) o.shared)

namespace Outline

variable {sys : System S ι σ Λ} (out : Outline sys) {α β : Type}

/-- Thread `i`, about to perform `p` in `o`, meets every precondition and ends in `Post`. -/
def Safe (i : ι) (Post : Obs S ι σ Λ → α → Prop) : Prog S α → Obs S ι σ Λ → Prop
  | .ret a, o => ∀ o', out.rely i o o' → out.inv o' → Post o' a
  | .act e k, o => ∀ o', out.rely i o o' → out.inv o' → out.pre i o' e ∧
      ∀ r s, sys.perform i o'.shared e r s → Safe i Post (k r) (o'.push i (.act e r) s)

variable {out} {i : ι}

/-- Safety is stable under the steps of the other threads. -/
theorem Safe.stable {Post : Obs S ι σ Λ → α → Prop} {p : Prog S α} {o o' : Obs S ι σ Λ}
    (h : out.Safe i Post p o) (hr : out.rely i o o') : out.Safe i Post p o' := by
  cases p with
  | ret a => exact fun o'' hr' hI => h o'' (out.rely_trans i o o' o'' hr hr') hI
  | act e k => exact fun o'' hr' hI => h o'' (out.rely_trans i o o' o'' hr hr') hI

theorem Safe.mono {Post Post' : Obs S ι σ Λ → α → Prop} {p : Prog S α} {o : Obs S ι σ Λ}
    (h : out.Safe i Post p o) (himp : ∀ o' a, out.inv o' → Post o' a → Post' o' a) :
    out.Safe i Post' p o := by
  induction p generalizing o with
  | ret a => exact fun o' hr hI => himp o' a hI (h o' hr hI)
  | act e k ih =>
      intro o' hr hI
      obtain ⟨hpre, hk⟩ := h o' hr hI
      exact ⟨hpre, fun r s hp => ih r (hk r s hp)⟩

/-- Safety needs to be shown only where the invariant holds. -/
theorem Safe.of_forall {Post : Obs S ι σ Λ → α → Prop} {p : Prog S α} {o : Obs S ι σ Λ}
    (h : ∀ o', out.rely i o o' → out.inv o' → out.Safe i Post p o') : out.Safe i Post p o := by
  cases p with
  | ret a => exact fun o' hr hI => h o' hr hI o' (out.rely_refl i o') hI
  | act e k => exact fun o' hr hI => h o' hr hI o' (out.rely_refl i o') hI

/-- **Sequencing.** `p` followed by `f` is safe when `p` is and ends where `f` is safe. -/
theorem Safe.bind {Post : Obs S ι σ Λ → β → Prop} {p : Prog S α} {f : α → Prog S β}
    {o : Obs S ι σ Λ} (h : out.Safe i (fun o' a => out.Safe i Post (f a) o') p o) :
    out.Safe i Post (p.bind f) o := by
  induction p generalizing o with
  | ret a =>
      -- `p` has ended, and the others may act before `f a` begins
      exact Safe.of_forall h
  | act e k ih =>
      intro o' hr hI'
      obtain ⟨hpre, hk⟩ := h o' hr hI'
      exact ⟨hpre, fun r s hp => ih r (hk r s hp)⟩

/-- Sequencing with local variables and exceptions: an exception of `m` is passed on. -/
theorem Safe.exc_bind {V ε : Type} {Post : Obs S ι σ Λ → Except ε β × V → Prop}
    {m : Exc S V ε α} {f : α → Exc S V ε β} {x : V} {o : Obs S ι σ Λ}
    (h : out.Safe i (fun o' r => match r with
      | (.ok a, x') => out.Safe i Post ((f a).run x') o'
      | (.error e, x') => out.Safe i Post (.ret (.error e, x')) o') (m.run x) o) :
    out.Safe i Post ((m >>= f).run x) o := by
  rw [Exc.run_bind]
  refine Safe.bind (h.mono fun o' r _ hr => ?_)
  rcases r with ⟨e | a, x'⟩
  · exact hr
  · exact hr

/-- A program all of whose actions are allowed keeps every assertion that the others keep, that
the allowed actions keep, and that gives their preconditions. -/
theorem Safe.of_uses {K : Obs S ι σ Λ → Prop} {allowed : S.Act → Prop}
    (hstable : ∀ o o', out.rely i o o' → K o → K o')
    (hpre : ∀ o e, K o → out.inv o → allowed e → out.pre i o e)
    (hact : ∀ o e r s, K o → allowed e → sys.perform i o.shared e r s →
      K (o.push i (.act e r) s))
    {p : Prog S α} {o : Obs S ι σ Λ} (hp : p.Uses allowed) (hK : K o) :
    out.Safe i (fun o' _ => K o') p o := by
  induction p generalizing o with
  | ret a => exact fun o' hr _ => hstable o o' hr hK
  | act e k ih =>
      intro o' hr hI
      have hK' := hstable o o' hr hK
      exact ⟨hpre o' e hK' hI hp.1, fun r s hperf =>
        ih r (hp.2 r) (hact o' e r s hK' hp.1 hperf)⟩

/-- What is known of the results of a program holds where it ends. -/
theorem Safe.and_ends {Post : Obs S ι σ Λ → α → Prop} {Q : α → Prop} {p : Prog S α}
    {o : Obs S ι σ Λ} (h : out.Safe i Post p o) (hp : p.Ends Q) :
    out.Safe i (fun o' a => Post o' a ∧ Q a) p o := by
  induction p generalizing o with
  | ret a => exact fun o' hr hI => ⟨h o' hr hI, hp⟩
  | act e k ih =>
      intro o' hr hI
      obtain ⟨hpre, hk⟩ := h o' hr hI
      exact ⟨hpre, fun r s hperf => ih r (hk r s hperf) (hp r)⟩

/-! ## The rule for runs -/

/-- What the outline asserts of a world: the invariant, and every thread is safe. -/
def Holds (out : Outline sys) (w : World S ι σ Λ) : Prop :=
  out.inv w.obs ∧ ∀ i, out.Safe i (out.head i) (w.prog i) w.obs

/-- Every round is safe when it is entered as the outline asks. -/
def RoundsSafe (out : Outline sys) : Prop :=
  ∀ i o l p, out.inv o → out.head i o l → sys.round l = some p →
    out.Safe i (out.head i) p (o.push i (.enter l) o.shared)

/-- In a world where the outline holds, a thread about to act meets the precondition. -/
theorem Holds.pre {w : World S ι σ Λ} (hw : out.Holds w) {i : ι} {e : S.Act}
    {k : S.Ans e → Prog S Λ} (hp : w.prog i = .act e k) : out.pre i w.obs e := by
  have hi := hw.2 i
  rw [hp] at hi
  exact (hi w.obs (out.rely_refl i _) hw.1).1

/-- In a world where the outline holds, a thread between two rounds is in a control state that
meets the head assertion. -/
theorem Holds.head {w : World S ι σ Λ} (hw : out.Holds w) {i : ι} {l : Λ}
    (hp : w.prog i = .ret l) : out.head i w.obs l := by
  have hi := hw.2 i
  rw [hp] at hi
  exact hi w.obs (out.rely_refl i _) hw.1

variable [DecidableEq ι]

/-- After a step of thread `i`, the others are safe by their rely. -/
private theorem safe_update {w : World S ι σ Λ} {o : Obs S ι σ Λ} {p : Prog S Λ}
    (hw : ∀ j, out.Safe j (out.head j) (w.prog j) w.obs)
    (hrely : ∀ j, j ≠ i → out.rely j w.obs o) (hp : out.Safe i (out.head i) p o) (j : ι) :
    out.Safe j (out.head j) (Function.update w.prog i p j) o := by
  by_cases hj : j = i
  · subst hj
    rw [Function.update_self]
    exact hp
  · rw [Function.update_of_ne hj]
    exact (hw j).stable (hrely j hj)

theorem Holds.step (hround : out.RoundsSafe) {w w' : World S ι σ Λ} (hw : out.Holds w)
    (h : Step sys w w') : out.Holds w' := by
  obtain ⟨hI, hsafe⟩ := hw
  cases h with
  | @act i e k r s hp hperf =>
      -- the thread has acted under its precondition, so its step keeps the outline
      have hi := hsafe i
      rw [hp] at hi
      obtain ⟨hpre, hk⟩ := hi w.obs (out.rely_refl i _) hI
      obtain ⟨hI', hrely⟩ := out.act_ok i w.obs e r s hI hpre hperf
      exact ⟨hI', safe_update hsafe hrely (hk r s hperf)⟩
  | @enter i l p hp hl =>
      -- the round it enters is safe from its control state on
      have hi := hsafe i
      rw [hp] at hi
      have hhead : out.head i w.obs l := hi w.obs (out.rely_refl i _) hI
      obtain ⟨hI', hrely⟩ := out.enter_ok i w.obs l hI hhead
      exact ⟨hI', safe_update hsafe hrely (hround i w.obs l p hI hhead hl)⟩

/-- **The outline rule.** An outline that holds initially and whose rounds are safe holds in every
reachable world. -/
theorem Holds.reach (hround : out.RoundsSafe) {w w' : World S ι σ Λ} (hw : out.Holds w)
    (h : Reach sys w w') : out.Holds w' := by
  induction h with
  | refl => exact hw
  | tail _ hstep ih => exact ih.step hround hstep

/-- What every step made under its precondition keeps, holds in every reachable world. -/
theorem Holds.reach_obs (hround : out.RoundsSafe) {J : Obs S ι σ Λ → Prop}
    (hact : ∀ i o e r s, out.pre i o e → sys.perform i o.shared e r s → J o →
      J (o.push i (.act e r) s))
    (henter : ∀ i o l, J o → J (o.push i (.enter l) o.shared))
    {w w' : World S ι σ Λ} (hw : out.Holds w) (hJ : J w.obs) (h : Reach sys w w') :
    J w'.obs := by
  induction h with
  | refl => exact hJ
  | tail hreach hstep ih =>
      have hmid := hw.reach hround hreach
      cases hstep with
      | act hp hperf => exact hact _ _ _ _ _ (hmid.pre hp) hperf ih
      | enter hp hl => exact henter _ _ _ ih

end Outline

/-! ## Runs that follow a schedule

A schedule names the threads in the order of their steps, each with a choice `c` by which `answer`
picks one of the possible answers. -/

section

variable [DecidableEq ι] {C : Type} (sys : System S ι σ Λ)
  (answer : C → ι → σ → (e : S.Act) → Option (S.Ans e × σ))

/-- The step of thread `i` with the choice `c`. -/
def System.step (w : World S ι σ Λ) (i : ι) (c : C) : Option (World S ι σ Λ) :=
  match w.prog i with
  | .ret l => (sys.round l).map fun p =>
      ⟨w.obs.push i (.enter l) w.obs.shared, Function.update w.prog i p⟩
  | .act e k => (answer c i w.obs.shared e).map fun (r, s) =>
      ⟨w.obs.push i (.act e r) s, Function.update w.prog i (k r)⟩

/-- The run that follows a schedule, `none` when one of its steps is impossible. -/
def System.follow : World S ι σ Λ → List (ι × C) → Option (World S ι σ Λ)
  | w, [] => some w
  | w, (i, c) :: rest => (sys.step answer w i c).bind fun w' => System.follow w' rest

variable {sys answer}

theorem System.step_sound
    (hanswer : ∀ c i s e r s', answer c i s e = some (r, s') → sys.perform i s e r s')
    {w w' : World S ι σ Λ} {i : ι} {c : C} (h : sys.step answer w i c = some w') :
    Step sys w w' := by
  unfold System.step at h
  split at h
  · rename_i l hprog
    obtain ⟨p, hround, rfl⟩ := Option.map_eq_some_iff.mp h
    exact .enter hprog hround
  · rename_i e k hprog
    obtain ⟨⟨r, s⟩, hans, rfl⟩ := Option.map_eq_some_iff.mp h
    exact .act hprog (hanswer c i _ e r s hans)

theorem System.follow_sound
    (hanswer : ∀ c i s e r s', answer c i s e = some (r, s') → sys.perform i s e r s')
    {w w' : World S ι σ Λ} {sched : List (ι × C)} (h : sys.follow answer w sched = some w') :
    Reach sys w w' := by
  induction sched generalizing w with
  | nil =>
      cases h
      exact .refl
  | cons ic rest ih =>
      obtain ⟨w₁, hstep, hrest⟩ := Option.bind_eq_some_iff.mp h
      exact .head (System.step_sound hanswer hstep) (ih hrest)

end

/-! ## One thread on its own

`Exec` follows a single program while an environment `env` may change the shared state between any
two of its actions. -/

section

variable (sys : System S ι σ Λ) (i : ι) (env : σ → σ → Prop) {α : Type}

/-- Thread `i` performs all of `p` from `o`, ends in `o'` and returns `a`. -/
inductive Exec : Obs S ι σ Λ → Prog S α → Obs S ι σ Λ → α → Prop where
  | ret (o : Obs S ι σ Λ) (a : α) : Exec o (.ret a) o a
  | env {o o' : Obs S ι σ Λ} {s : σ} {p : Prog S α} {a : α} :
      env o.shared s → Exec ⟨o.trace, s⟩ p o' a → Exec o p o' a
  | act {o o' : Obs S ι σ Λ} {e : S.Act} {k : S.Ans e → Prog S α} {r : S.Ans e} {s : σ} {a : α} :
      sys.perform i o.shared e r s → Exec (o.push i (.act e r) s) (k r) o' a →
      Exec o (.act e k) o' a

variable {sys i env}

/-- Thread `i` can perform all of `p` from `o` and end in `Q`. -/
def CanEnd (sys : System S ι σ Λ) (i : ι) (env : σ → σ → Prop) (Q : Obs S ι σ Λ → α → Prop)
    (o : Obs S ι σ Λ) (p : Prog S α) : Prop := ∃ o' a, Exec sys i env o p o' a ∧ Q o' a

theorem CanEnd.ret {Q : Obs S ι σ Λ → α → Prop} {o : Obs S ι σ Λ} {a : α} (h : Q o a) :
    CanEnd sys i env Q o (.ret a) := ⟨o, a, .ret o a, h⟩

theorem CanEnd.act {Q : Obs S ι σ Λ → α → Prop} {o : Obs S ι σ Λ} {e : S.Act}
    {k : S.Ans e → Prog S α} (r : S.Ans e) (s : σ) (hp : sys.perform i o.shared e r s)
    (h : CanEnd sys i env Q (o.push i (.act e r) s) (k r)) : CanEnd sys i env Q o (.act e k) := by
  obtain ⟨o', a, hexec, hQ⟩ := h
  exact ⟨o', a, .act hp hexec, hQ⟩

/-- The run of `p` by thread `i` on its own, in which `answer` picks the answers. -/
def alone (answer : ι → σ → (e : S.Act) → Option (S.Ans e × σ)) (i : ι) :
    Prog S α → Obs S ι σ Λ → Option (Obs S ι σ Λ × α)
  | .ret a, o => some (o, a)
  | .act e k, o => (answer i o.shared e).bind fun (r, s) =>
      alone answer i (k r) (o.push i (.act e r) s)

theorem alone_sound {answer : ι → σ → (e : S.Act) → Option (S.Ans e × σ)}
    (hanswer : ∀ i s e r s', answer i s e = some (r, s') → sys.perform i s e r s') {p : Prog S α}
    {o o' : Obs S ι σ Λ} {a : α} (h : alone answer i p o = some (o', a)) :
    Exec sys i env o p o' a := by
  induction p generalizing o with
  | ret b =>
      cases h
      exact .ret _ _
  | act e k ih =>
      obtain ⟨⟨r, s⟩, hans, hrest⟩ := Option.bind_eq_some_iff.mp h
      exact .act (hanswer i _ e r s hans) (ih r hrest)

/-- A safe program, run on its own in an environment within the rely, ends in `Post`. -/
theorem Outline.Safe.exec {out : Outline sys} {Post : Obs S ι σ Λ → α → Prop}
    (henv : ∀ o s, out.inv o → env o.shared s → out.inv ⟨o.trace, s⟩ ∧ out.rely i o ⟨o.trace, s⟩)
    {p : Prog S α} {o o' : Obs S ι σ Λ} {a : α} (h : Exec sys i env o p o' a) (hI : out.inv o)
    (hsafe : out.Safe i Post p o) : Post o' a ∧ out.inv o' := by
  induction h with
  | ret o a => exact ⟨hsafe o (out.rely_refl i o) hI, hI⟩
  | @env o o' s p a hs _ ih =>
      obtain ⟨hI', hrely⟩ := henv o s hI hs
      exact ih hI' (hsafe.stable hrely)
  | @act o o' e k r s a hp _ ih =>
      obtain ⟨hpre, hk⟩ := hsafe o (out.rely_refl i o) hI
      exact ih (out.act_ok i o e r s hI hpre hp).1 (hk r s hp)

end

end Concurrent
