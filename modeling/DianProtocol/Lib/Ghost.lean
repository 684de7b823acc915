import DianProtocol.Lib.Interleaving

set_option autoImplicit false

/-! # Proofs about a single thread

What a thread may rely on when it performs an action is often known from its own events alone: which
answers it has got in its present round, what it has sent. Such a proof needs no assertion about the
shared state and is not disturbed by the other threads.

A *ghost state* records of the thread's events what the proof needs, and `Prog.Meets` is the
precondition under which a program performs all its actions as `pre` asks and ends in `Post`. Its
rules follow the program. `Ghost.meets_reach` carries it over to all runs of a system, and
`Ghost.exec` to a program that a thread performs on its own.
-/

namespace Concurrent

variable {S : Sig} {ι σ Λ τ α β : Type}

/-! ## Programs -/

/-- `p`, started in the state `t`, performs every action under `pre` and ends in `Post`. The
relation `step` says which answers an action can get, and which state it leads to. -/
def Prog.Meets (step : τ → (e : S.Act) → S.Ans e → τ → Prop) (pre : τ → S.Act → Prop)
    (Post : τ → α → Prop) : Prog S α → τ → Prop
  | .ret a, t => Post t a
  | .act e k, t => pre t e ∧ ∀ r t', step t e r t' → (k r).Meets step pre Post t'

section

variable {step : τ → (e : S.Act) → S.Ans e → τ → Prop} {pre : τ → S.Act → Prop}

theorem Prog.Meets.mono {P Q : τ → α → Prop} {p : Prog S α} {t : τ} (h : p.Meets step pre P t)
    (himp : ∀ t a, P t a → Q t a) : p.Meets step pre Q t := by
  induction p generalizing t with
  | ret a => exact himp t a h
  | act e k ih => exact ⟨h.1, fun r t' hstep => ih r (h.2 r t' hstep)⟩

/-- What is known of the results of a program holds where it ends. -/
theorem Prog.Meets.and_ends {Post : τ → α → Prop} {Q : α → Prop} {p : Prog S α} {t : τ}
    (h : p.Meets step pre Post t) (hp : p.Ends Q) :
    p.Meets step pre (fun t a => Post t a ∧ Q a) t := by
  induction p generalizing t with
  | ret a => exact ⟨h, hp⟩
  | act e k ih => exact ⟨h.1, fun r t' hstep => ih r (h.2 r t' hstep) (hp r)⟩

/-- **Sequencing.** -/
theorem Prog.Meets.bind {Post : τ → β → Prop} {p : Prog S α} {f : α → Prog S β} {t : τ}
    (h : p.Meets step pre (fun t a => (f a).Meets step pre Post t) t) :
    (p.bind f).Meets step pre Post t := by
  induction p generalizing t with
  | ret a => exact h
  | act e k ih => exact ⟨h.1, fun r t' hstep => ih r (h.2 r t' hstep)⟩

/-- A program all of whose actions are allowed keeps what the allowed actions keep. -/
theorem Prog.Meets.of_uses {K : τ → Prop} {allowed : S.Act → Prop}
    (hpre : ∀ t e, K t → allowed e → pre t e)
    (hstep : ∀ t e r t', K t → allowed e → step t e r t' → K t')
    {p : Prog S α} {t : τ} (hp : p.Uses allowed) (hK : K t) :
    p.Meets step pre (fun t _ => K t) t := by
  induction p generalizing t with
  | ret a => exact hK
  | act e k ih =>
      exact ⟨hpre t e hK hp.1, fun r t' h => ih r (hp.2 r) (hstep t e r t' hK hp.1 h)⟩

/-- Sequencing with local variables and exceptions: an exception of `m` is passed on. -/
theorem Prog.Meets.exc_bind {V ε : Type} {Post : τ → Except ε β × V → Prop} {m : Exc S V ε α}
    {f : α → Exc S V ε β} {x : V} {t : τ}
    (h : (m.run x).Meets step pre (fun t r => match r with
      | (.ok a, x') => ((f a).run x').Meets step pre Post t
      | (.error e, x') => Post t (.error e, x')) t) :
    ((m >>= f).run x).Meets step pre Post t := by
  rw [Exc.run_bind]
  refine Prog.Meets.bind (h.mono fun t r hr => ?_)
  rcases r with ⟨e | a, x'⟩
  · exact hr
  · exact hr

end

/-! ## Ghost states -/

/-- A state that is computed from the events of a thread. -/
structure Ghost (S : Sig) (Λ τ : Type) where
  init : τ
  act : τ → (e : S.Act) → S.Ans e → τ
  enter : τ → Λ → τ

namespace Ghost

variable (g : Ghost S Λ τ)

/-- The ghost state after an event of the thread. -/
def event (t : τ) : Event S Λ → τ
  | .act e r => g.act t e r
  | .enter l => g.enter t l

/-- The answers that are assumed, and the ghost state after an action. -/
def step (answers : (e : S.Act) → S.Ans e → Prop) (t : τ) (e : S.Act) (r : S.Ans e) (t' : τ) :
    Prop :=
  answers e r ∧ t' = g.act t e r

theorem meets_act {g : Ghost S Λ τ} {answers : (e : S.Act) → S.Ans e → Prop}
    {pre : τ → S.Act → Prop} {Post : τ → α → Prop} {e : S.Act} {k : S.Ans e → Prog S α} {t : τ}
    (hpre : pre t e)
    (hk : ∀ r, answers e r → (k r).Meets (g.step answers) pre Post (g.act t e r)) :
    (Prog.act e k).Meets (g.step answers) pre Post t := by
  refine ⟨hpre, fun r t' hstep => ?_⟩
  obtain ⟨hr, rfl⟩ := hstep
  exact hk r hr

variable [DecidableEq ι]

/-- The ghost state of thread `i`. -/
def of (i : ι) (trace : List (Label S ι σ Λ)) : τ :=
  trace.foldl (fun t l => if l.who = i then g.event t l.event else t) g.init

variable {g}

theorem of_concat (i : ι) (trace : List (Label S ι σ Λ)) (l : Label S ι σ Λ) :
    g.of i (trace ++ [l]) = if l.who = i then g.event (g.of i trace) l.event else g.of i trace := by
  simp [of]

theorem of_push_self (o : Obs S ι σ Λ) (i : ι) (ev : Event S Λ) (s : σ) :
    g.of i (o.push i ev s).trace = g.event (g.of i o.trace) ev := by
  rw [Obs.push_trace, of_concat, if_pos rfl]

theorem of_push_of_ne (o : Obs S ι σ Λ) {i j : ι} (h : j ≠ i) (ev : Event S Λ) (s : σ) :
    g.of i (o.push j ev s).trace = g.of i o.trace := by
  rw [Obs.push_trace, of_concat, if_neg h]

end Ghost

/-- The answers in a trace are as assumed. -/
def Answered (answers : (e : S.Act) → S.Ans e → Prop) (trace : List (Label S ι σ Λ)) : Prop :=
  ∀ l ∈ trace, ∀ e r, l.event = .act e r → answers e r

theorem Answered.of_prefix {answers : (e : S.Act) → S.Ans e → Prop}
    {trace trace' : List (Label S ι σ Λ)} (h : Answered answers trace') (hp : trace <+: trace') :
    Answered answers trace :=
  fun l hl => h l (hp.subset hl)

theorem Answered.last {answers : (e : S.Act) → S.Ans e → Prop} {o : Obs S ι σ Λ} {i : ι} {e : S.Act}
    {r : S.Ans e} {s : σ} (h : Answered answers (o.push i (.act e r) s).trace) : answers e r :=
  h _ (List.mem_append_right _ (List.mem_singleton.mpr rfl)) e r rfl

theorem answered_iff {answers : (e : S.Act) → S.Ans e → Prop} {trace : List (Label S ι σ Λ)} :
    Answered answers trace ↔ ∀ l ∈ trace, match l.event with
      | .act e r => answers e r
      | .enter _ => True := by
  constructor
  · intro h l hl
    split
    · rename_i e r hev
      exact h l hl e r hev
    · trivial
  · intro h l hl e r hev
    have hanswers := h l hl
    rw [hev] at hanswers
    exact hanswers

instance {answers : (e : S.Act) → S.Ans e → Prop} [∀ e r, Decidable (answers e r)]
    {trace : List (Label S ι σ Λ)} : Decidable (Answered answers trace) :=
  haveI (ev : Event S Λ) : Decidable (match ev with
      | .act e r => answers e r
      | .enter _ => True) :=
    match ev with
    | .act e r => inferInstanceAs (Decidable (answers e r))
    | .enter _ => inferInstanceAs (Decidable True)
  decidable_of_iff _ answered_iff.symm

/-! ## Conditions on every event -/

/-- `l` happens in `trace`, after `before`. -/
def Occurs (trace before : List (Label S ι σ Λ)) (l : Label S ι σ Λ) : Prop :=
  before ++ [l] <+: trace

theorem occurs_concat {trace before : List (Label S ι σ Λ)} {l m : Label S ι σ Λ} :
    Occurs (trace ++ [m]) before l ↔ (before = trace ∧ l = m) ∨ Occurs trace before l := by
  unfold Occurs
  rw [List.prefix_concat_iff]
  constructor
  · rintro (heq | hocc)
    · obtain ⟨hbefore, hl⟩ := List.append_inj' heq rfl
      exact Or.inl ⟨hbefore, List.singleton_inj.mp hl⟩
    · exact Or.inr hocc
  · rintro (⟨rfl, rfl⟩ | hocc)
    · exact Or.inl rfl
    · exact Or.inr hocc

theorem Occurs.of_prefix {trace trace' before : List (Label S ι σ Λ)} {l : Label S ι σ Λ}
    (h : Occurs trace before l) (hp : trace <+: trace') : Occurs trace' before l :=
  List.IsPrefix.trans h hp

/-- Every event of `trace` is as `P` says, which also speaks about the events before it. -/
def Throughout (P : List (Label S ι σ Λ) → Label S ι σ Λ → Prop) (trace : List (Label S ι σ Λ)) :
    Prop := ∀ before l, Occurs trace before l → P before l

section

variable {P : List (Label S ι σ Λ) → Label S ι σ Λ → Prop} {trace : List (Label S ι σ Λ)}

theorem throughout_nil : Throughout P [] := by
  intro before l h
  exact absurd (List.prefix_nil.mp h) (by simp)

theorem throughout_concat {m : Label S ι σ Λ} :
    Throughout P (trace ++ [m]) ↔ Throughout P trace ∧ P trace m := by
  constructor
  · intro h
    exact ⟨fun before l hocc => h before l (occurs_concat.mpr (Or.inr hocc)),
      h trace m (occurs_concat.mpr (Or.inl ⟨rfl, rfl⟩))⟩
  · rintro ⟨h, hm⟩ before l hocc
    rcases occurs_concat.mp hocc with ⟨rfl, rfl⟩ | hocc
    · exact hm
    · exact h before l hocc

theorem Throughout.of_prefix {trace' : List (Label S ι σ Λ)} (h : Throughout P trace')
    (hp : trace <+: trace') : Throughout P trace :=
  fun before l hocc => h before l (hocc.of_prefix hp)

theorem throughout_iff : Throughout P trace ↔
    ∀ n (h : n < trace.length), P (trace.take n) (trace.get ⟨n, h⟩) := by
  constructor
  · intro h n hn
    refine h _ _ ?_
    rw [Occurs, List.get_eq_getElem, List.take_append_getElem]
    exact List.take_prefix _ _
  · intro h before l hocc
    obtain ⟨since, rfl⟩ := hocc
    have hn := h before.length (by simp)
    simpa [List.take_append] using hn

instance [∀ before l, Decidable (P before l)] : Decidable (Throughout P trace) :=
  decidable_of_iff _ throughout_iff.symm

end

/-! ## Runs -/

section

variable [DecidableEq ι] {sys : System S ι σ Λ} {w w' : World S ι σ Λ}

theorem Step.trace_prefix (h : Step sys w w') : w.obs.trace <+: w'.obs.trace := by
  cases h with
  | act hp hperf => exact List.prefix_append _ _
  | enter hp hl => exact List.prefix_append _ _

/-- The step that has left an action at the end of the trace. -/
theorem Step.last_act {l : Label S ι σ Λ} {e : S.Act} {r : S.Ans e} (h : Step sys w w')
    (htrace : w'.obs.trace = w.obs.trace ++ [l]) (hevent : l.event = .act e r) :
    ∃ k s, w.prog l.who = .act e k ∧ sys.perform l.who w.obs.shared e r s ∧
      w' = ⟨w.obs.push l.who (.act e r) s, Function.update w.prog l.who (k r)⟩ := by
  cases h with
  | @act i e' k r' s hp hperf =>
      obtain rfl := List.singleton_inj.mp (List.append_cancel_left htrace)
      cases hevent
      exact ⟨k, s, hp, hperf, rfl⟩
  | enter hp hl =>
      obtain rfl := List.singleton_inj.mp (List.append_cancel_left htrace)
      cases hevent

/-- A world that is reached is one of a run. -/
theorem Reach.exists_chain (h : Reach sys w w') :
    ∃ ws, List.IsChain (Step sys) (w :: ws) ∧ w' ∈ w :: ws := by
  obtain ⟨ws, hchain, hlast⟩ := List.exists_isChain_cons_of_relationReflTransGen h
  exact ⟨ws, hchain, hlast ▸ List.getLast_mem _⟩

theorem Reach.trace_prefix (h : Reach sys w w') : w.obs.trace <+: w'.obs.trace := by
  induction h with
  | refl => exact List.prefix_rfl
  | tail _ hstep ih => exact ih.trans hstep.trace_prefix

variable {g : Ghost S Λ τ} {answers : (e : S.Act) → S.Ans e → Prop} {pre : τ → S.Act → Prop}
  {head : τ → Λ → Prop}

/-- **The rule for one step.** `T` assigns a state to each thread, which only the events of the
thread change. If every round meets its specification from the state in which it is entered, a step
keeps that every thread meets it. -/
theorem meets_step {T : ι → List (Label S ι σ Λ) → τ}
    {step : τ → (e : S.Act) → S.Ans e → τ → Prop}
    (hother : ∀ (o : Obs S ι σ Λ) i j ev s, j ≠ i → T i (o.push j ev s).trace = T i o.trace)
    (hround : ∀ (o : Obs S ι σ Λ) i l p, head (T i o.trace) l → sys.round l = some p →
      p.Meets step pre head (T i (o.push i (.enter l) o.shared).trace))
    (hw : ∀ i, (w.prog i).Meets step pre head (T i w.obs.trace)) (h : Step sys w w')
    (hstep : ∀ i e r, w'.obs.trace = w.obs.trace ++ [⟨i, w.obs.shared, .act e r⟩] →
      step (T i w.obs.trace) e r (T i w'.obs.trace)) (i : ι) :
    (w'.prog i).Meets step pre head (T i w'.obs.trace) := by
  cases h with
  | @act j e k r s hp hperf =>
      by_cases hj : j = i
      · subst hj
        have hj := hw j
        rw [hp] at hj
        dsimp only
        rw [Function.update_self]
        exact hj.2 r _ (hstep j e r rfl)
      · dsimp only
        rw [Function.update_of_ne (Ne.symm hj), hother _ _ _ _ _ hj]
        exact hw i
  | @enter j l p hp hl =>
      by_cases hj : j = i
      · subst hj
        have hj := hw j
        rw [hp] at hj
        dsimp only
        rw [Function.update_self]
        exact hround w.obs j l p hj hl
      · dsimp only
        rw [Function.update_of_ne (Ne.symm hj), hother _ _ _ _ _ hj]
        exact hw i

/-- `meets_step` for ghost states. What is relied on in the answer of an action may depend on the
ghost state. -/
theorem Ghost.meets_step {step : τ → (e : S.Act) → S.Ans e → τ → Prop}
    (hround : ∀ t l p, head t l → sys.round l = some p → p.Meets step pre head (g.enter t l))
    (hw : ∀ i, (w.prog i).Meets step pre head (g.of i w.obs.trace)) (h : Step sys w w')
    (hstep : ∀ i e r, w'.obs.trace = w.obs.trace ++ [⟨i, w.obs.shared, .act e r⟩] →
      step (g.of i w.obs.trace) e r (g.act (g.of i w.obs.trace) e r)) (i : ι) :
    (w'.prog i).Meets step pre head (g.of i w'.obs.trace) := by
  refine Concurrent.meets_step (T := g.of) (fun o i j ev s hj => Ghost.of_push_of_ne o hj ev s) ?_
    hw h ?_ i
  · intro o i l p hhead hl
    rw [Ghost.of_push_self]
    exact hround _ l p hhead hl
  · intro i e r htrace
    rw [htrace, Ghost.of_concat, if_pos rfl]
    exact hstep i e r htrace

/-- **The rule for threads.** In every world that is reached with the answers that are assumed,
every thread meets its specification from its ghost state. -/
theorem Ghost.meets_reach
    (hround : ∀ t l p, head t l → sys.round l = some p →
      p.Meets (g.step answers) pre head (g.enter t l))
    (hinit : ∀ i, (w.prog i).Meets (g.step answers) pre head (g.of i w.obs.trace))
    (h : Reach sys w w') (hans : Answered answers w'.obs.trace) (i : ι) :
    (w'.prog i).Meets (g.step answers) pre head (g.of i w'.obs.trace) := by
  induction h generalizing i with
  | refl => exact hinit i
  | @tail w₁ w₂ _ hstep ih =>
      refine Ghost.meets_step (g := g) hround (ih (hans.of_prefix hstep.trace_prefix)) hstep ?_ i
      intro j e r htrace
      refine ⟨hans ⟨j, w₁.obs.shared, .act e r⟩ ?_ e r rfl, rfl⟩
      rw [htrace]
      exact List.mem_append_right _ (List.mem_singleton.mpr rfl)

/-- Along a run, all states are good if and only if all steps meet a condition: a step that meets it
keeps an invariant of good states, and one that does not meet it leads to a bad state. -/
theorem isChain_iff {W : Type} {R Cond : W → W → Prop} {K Good : W → Prop}
    (hgood : ∀ w, K w → Good w)
    (hkeep : ∀ w w', K w → R w w' → Cond w w' → K w')
    (hneed : ∀ w w', K w → R w w' → Good w' → Cond w w') {w : W} {ws : List W} (hw : K w)
    (hrun : List.IsChain R (w :: ws)) :
    (∀ w' ∈ w :: ws, Good w') ↔ List.IsChain Cond (w :: ws) := by
  induction ws generalizing w with
  | nil =>
      refine iff_of_true (fun w' hw' => ?_) (List.isChain_singleton _)
      rw [List.mem_singleton.mp hw']
      exact hgood w hw
  | cons w₁ ws ih =>
      obtain ⟨hstep, hrest⟩ := List.isChain_cons_cons.mp hrun
      rw [List.isChain_cons_cons]
      constructor
      · intro hall
        have hcond := hneed w w₁ hw hstep (hall w₁ (by simp))
        have hw₁ := hkeep w w₁ hw hstep hcond
        exact ⟨hcond, (ih hw₁ hrest).mp fun w' hw' => hall w' (List.mem_cons_of_mem _ hw')⟩
      · rintro ⟨hcond, hconds⟩
        have hw₁ := hkeep w w₁ hw hstep hcond
        intro w' hw'
        rcases List.mem_cons.mp hw' with rfl | hw'
        · exact hgood w' hw
        · exact (ih hw₁ hrest).mpr hconds w' hw'

/-! ### The first answer that is not as it should be

`ok` says which answers should come. A thread is watched up to its first answer that should not have
come: it must end its round at once, in a control state that is `bad`. -/

/-- The ghost state of a thread that is watched. -/
inductive Watch (τ : Type) where
  | fine (t : τ)
  | failed (t : τ)

section

variable {ok : τ → (e : S.Act) → S.Ans e → Prop} {bad : τ → Λ → Prop}

variable (g ok) in
def Watch.step : Watch τ → (e : S.Act) → S.Ans e → Watch τ → Prop
  | .fine t, e, r, x =>
      (ok t e r ∧ x = .fine (g.act t e r)) ∨ (¬ ok t e r ∧ x = .failed (g.act t e r))
  | .failed _, _, _, _ => False

def Watch.allows (allowed : τ → S.Act → Prop) : Watch τ → S.Act → Prop
  | .fine t, e => allowed t e
  | .failed _, _ => False

def Watch.post (Post bad : τ → α → Prop) : Watch τ → α → Prop
  | .fine t, a => Post t a
  | .failed t, a => bad t a

/-- The specification of a program whose thread is watched. -/
abbrev Ghost.Watched (g : Ghost S Λ τ) (ok : τ → (e : S.Act) → S.Ans e → Prop)
    (pre : τ → S.Act → Prop) (Post bad : τ → α → Prop) (p : Prog S α) (t : τ) : Prop :=
  p.Meets (Watch.step g ok) (Watch.allows pre) (Watch.post Post bad) (.fine t)

omit [DecidableEq ι] in
theorem Ghost.watched_act {Post bad : τ → α → Prop} {e : S.Act} {k : S.Ans e → Prog S α} {t : τ}
    (hpre : pre t e) (hok : ∀ r, ok t e r → g.Watched ok pre Post bad (k r) (g.act t e r))
    (hfail : ∀ r, ¬ ok t e r → ∃ a, k r = .ret a ∧ bad (g.act t e r) a) :
    g.Watched ok pre Post bad (.act e k) t := by
  refine ⟨hpre, fun r x hx => ?_⟩
  rcases hx with ⟨hr, rfl⟩ | ⟨hr, rfl⟩
  · exact hok r hr
  · obtain ⟨a, ha, hbad⟩ := hfail r hr
    rw [ha]
    exact hbad

/-- **The rule for watched threads**: as long as the answers are as they should be, every thread
meets its specification. -/
theorem Ghost.watched_step
    (hround : ∀ t l p, head t l → sys.round l = some p →
      g.Watched ok pre head bad p (g.enter t l))
    (hw : ∀ i, g.Watched ok pre head bad (w.prog i) (g.of i w.obs.trace)) (h : Step sys w w')
    (hok : ∀ i e r, w'.obs.trace = w.obs.trace ++ [⟨i, w.obs.shared, .act e r⟩] →
      ok (g.of i w.obs.trace) e r) (i : ι) :
    g.Watched ok pre head bad (w'.prog i) (g.of i w'.obs.trace) := by
  refine Concurrent.meets_step (T := fun i trace => Watch.fine (g.of i trace))
    (fun o i j ev s hj => congrArg Watch.fine (Ghost.of_push_of_ne o hj ev s)) ?_ hw h ?_ i
  · intro o i l p hhead hl
    rw [Ghost.of_push_self]
    exact hround _ l p hhead hl
  · intro i e r htrace
    have hafter : g.of i w'.obs.trace = g.act (g.of i w.obs.trace) e r := by
      rw [htrace, Ghost.of_concat, if_pos rfl]
      rfl
    exact Or.inl ⟨hok i e r htrace, congrArg Watch.fine hafter⟩

/-- After an answer that should not have come the thread is in a bad control state. -/
theorem Ghost.watched_failed
    (hw : ∀ i, g.Watched ok pre head bad (w.prog i) (g.of i w.obs.trace)) (h : Step sys w w')
    {i : ι} {e : S.Act} {r : S.Ans e}
    (htrace : w'.obs.trace = w.obs.trace ++ [⟨i, w.obs.shared, .act e r⟩])
    (hnot : ¬ ok (g.of i w.obs.trace) e r) :
    ∃ l, w'.prog i = .ret l ∧ bad (g.act (g.of i w.obs.trace) e r) l := by
  obtain ⟨k, s, hp, -, rfl⟩ := h.last_act htrace rfl
  have hi := hw i
  rw [hp] at hi
  have hafter := hi.2 r _ (Or.inr ⟨hnot, rfl⟩)
  dsimp only
  rw [Function.update_self]
  -- there is no action after the failure
  cases hk : k r with
  | ret l =>
      rw [hk] at hafter
      exact ⟨l, rfl, hafter⟩
  | act e' k' =>
      rw [hk] at hafter
      exact hafter.1.elim

end

/-- What holds at the start and is kept by every step holds in every world that is reached. -/
theorem Reach.invariant {J : World S ι σ Λ → Prop} (h : Reach sys w w') (hinit : J w)
    (hstep : ∀ w₁ w₂, Reach sys w w₁ → J w₁ → Step sys w₁ w₂ → J w₂) : J w' := by
  induction h with
  | refl => exact hinit
  | tail hreach hlast ih => exact hstep _ _ hreach ih hlast

/-- An invariant of the runs whose events are all as `P` says. -/
theorem Reach.throughout_invariant {P : List (Label S ι σ Λ) → Label S ι σ Λ → Prop}
    {J : Obs S ι σ Λ → Prop} (h : Reach sys w w') (hP : Throughout P w'.obs.trace) (hinit : J w.obs)
    (hact : ∀ {w₁ i e k r s}, Reach sys w w₁ → w₁.prog i = .act e k →
      sys.perform i w₁.obs.shared e r s → P w₁.obs.trace ⟨i, w₁.obs.shared, .act e r⟩ →
      J w₁.obs → J (w₁.obs.push i (.act e r) s))
    (henter : ∀ {w₁ i l}, Reach sys w w₁ → w₁.prog i = .ret l →
      P w₁.obs.trace ⟨i, w₁.obs.shared, .enter l⟩ →
      J w₁.obs → J (w₁.obs.push i (.enter l) w₁.obs.shared)) : J w'.obs := by
  refine h.invariant (J := fun w => Throughout P w.obs.trace → J w.obs) (fun _ => hinit) ?_ hP
  intro w₁ w₂ hreach ih hstep hP₂
  cases hstep with
  | act hp hperf =>
      obtain ⟨hbefore, hlast⟩ := throughout_concat.mp hP₂
      exact hact hreach hp hperf hlast (ih hbefore)
  | enter hp hl =>
      obtain ⟨hbefore, hlast⟩ := throughout_concat.mp hP₂
      exact henter hreach hp hlast (ih hbefore)

omit [DecidableEq ι] in
theorem Answered.push {o : Obs S ι σ Λ} {i : ι} {e : S.Act} {r : S.Ans e} {s : σ}
    (h : Answered answers o.trace) (hr : answers e r) :
    Answered answers (o.push i (.act e r) s).trace := by
  intro l hl e' r' hev
  rcases List.mem_append.mp hl with hl | hl
  · exact h l hl e' r' hev
  · rw [List.mem_singleton.mp hl] at hev
    cases hev
    exact hr

omit [DecidableEq ι] in
theorem Answered.push_enter {o : Obs S ι σ Λ} {i : ι} {l : Λ} {s : σ}
    (h : Answered answers o.trace) : Answered answers (o.push i (.enter l) s).trace := by
  intro m hm e r hev
  rcases List.mem_append.mp hm with hm | hm
  · exact h m hm e r hev
  · rw [List.mem_singleton.mp hm] at hev
    cases hev

/-- **Progress of a thread.** A thread whose actions, performed under their preconditions, can be
answered unless they are in `B`, can go on until its round is over or it comes to an action in `B`.
-/
theorem Ghost.go_on {i : ι} {Post : τ → Λ → Prop} {I : Obs S ι σ Λ → Prop} {B : S.Act → Prop}
    (hact : ∀ o e, I o → pre (g.of i o.trace) e → B e ∨ ∃ r s, answers e r ∧
      sys.perform i o.shared e r s ∧ I (o.push i (.act e r) s))
    {p : Prog S Λ} {w : World S ι σ Λ} (hw : w.prog i = p) (hI : I w.obs)
    (hans : Answered answers w.obs.trace)
    (hp : p.Meets (g.step answers) pre Post (g.of i w.obs.trace)) :
    ∃ w', Reach sys w w' ∧ Answered answers w'.obs.trace ∧ I w'.obs ∧
      ((∃ l, w'.prog i = .ret l ∧ Post (g.of i w'.obs.trace) l) ∨
        ∃ e, B e ∧ pre (g.of i w'.obs.trace) e) := by
  induction p generalizing w with
  | ret l => exact ⟨w, .refl, hans, hI, Or.inl ⟨l, hw, hp⟩⟩
  | act e k ih =>
      rcases hact w.obs e hI hp.1 with hB | ⟨r, s, hr, hperf, hI'⟩
      · exact ⟨w, .refl, hans, hI, Or.inr ⟨e, hB, hp.1⟩⟩
      · have hstep : Step sys w ⟨w.obs.push i (.act e r) s, Function.update w.prog i (k r)⟩ :=
          .act hw hperf
        have hmeets : (k r).Meets (g.step answers) pre Post
            (g.of i (w.obs.push i (.act e r) s).trace) := by
          rw [Ghost.of_push_self]
          exact hp.2 r _ ⟨hr, rfl⟩
        obtain ⟨w', hreach, hrest⟩ := ih r
          (w := ⟨w.obs.push i (.act e r) s, Function.update w.prog i (k r)⟩)
          (Function.update_self ..) hI' (hans.push hr) hmeets
        exact ⟨w', .head hstep hreach, hrest⟩

variable {i : ι} {o o' : Obs S ι σ Λ} {p : Prog S α} {a : α}

/-- A program performed with nobody else at work ends in its postcondition, and keeps what every
action keeps that is performed under its precondition. -/
theorem Ghost.exec {Post : τ → α → Prop} {J : Obs S ι σ Λ → Prop}
    (h : Exec sys i (fun _ _ => False) o p o' a)
    (hp : p.Meets (g.step answers) pre Post (g.of i o.trace)) (hJ : J o)
    (hans : Answered answers o'.trace)
    (hact : ∀ o e r s, pre (g.of i o.trace) e → answers e r → sys.perform i o.shared e r s → J o →
      J (o.push i (.act e r) s)) :
    Post (g.of i o'.trace) a ∧ J o' := by
  have hext : ∀ {o o' : Obs S ι σ Λ} {p : Prog S α} {a : α},
      Exec sys i (fun _ _ => False) o p o' a → o.trace <+: o'.trace := by
    intro o o' p a h
    induction h with
    | ret o a => exact List.prefix_rfl
    | env henv _ _ => exact henv.elim
    | act hperf _ ih => exact (List.prefix_append _ _).trans ih
  induction h with
  | ret o a => exact ⟨hp, hJ⟩
  | env henv _ _ => exact henv.elim
  | @act o o' e k r s a hperf hrest ih =>
      have hlast : answers e r := (hans.of_prefix (hext hrest)).last
      refine ih ?_ (hact o e r s hp.1 hlast hperf hJ) hans
      rw [Ghost.of_push_self]
      exact hp.2 r _ ⟨hlast, rfl⟩

end

end Concurrent
