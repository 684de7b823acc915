import DianProtocol.Lib.Ghost

set_option autoImplicit false

/-! # Systems with more detail

A system may describe the environment of its threads in more detail than another one: its shared
state has more in it, and less can happen. `Refines` relates the two by the map `f` that forgets the
detail. Every run of the first is then a run of the second, with the same events, so that what is
known of the second carries over.
-/

namespace Concurrent

variable {S : Sig} {ι σ σ' Λ τ τ' : Type}

def Label.map (f : σ → σ') (l : Label S ι σ Λ) : Label S ι σ' Λ := ⟨l.who, f l.pre, l.event⟩

def Obs.map (f : σ → σ') (o : Obs S ι σ Λ) : Obs S ι σ' Λ := ⟨o.trace.map (Label.map f), f o.shared⟩

def World.map (f : σ → σ') (w : World S ι σ Λ) : World S ι σ' Λ := ⟨w.obs.map f, w.prog⟩

theorem Obs.map_push (f : σ → σ') (o : Obs S ι σ Λ) (i : ι) (ev : Event S Λ) (s : σ) :
    (o.push i ev s).map f = (o.map f).push i ev (f s) := by
  simp [Obs.map, Obs.push, Label.map]

/-- `sys` is `sys'` with more detail, which `f` forgets. -/
structure Refines (f : σ → σ') (sys : System S ι σ Λ) (sys' : System S ι σ' Λ) : Prop where
  perform : ∀ i s e r s₁, sys.perform i s e r s₁ → sys'.perform i (f s) e r (f s₁)
  round : ∀ l, sys.round l = sys'.round l

section

variable [DecidableEq ι] {f : σ → σ'} {sys : System S ι σ Λ} {sys' : System S ι σ' Λ}
  {w w' : World S ι σ Λ}

theorem Refines.step (href : Refines f sys sys') (h : Step sys w w') :
    Step sys' (w.map f) (w'.map f) := by
  cases h with
  | @act i e k r s hprog hperf =>
      have hstep : Step sys' (w.map f)
          ⟨(w.map f).obs.push i (.act e r) (f s), Function.update w.prog i (k r)⟩ :=
        .act hprog (href.perform _ _ _ _ _ hperf)
      simp only [World.map, Obs.map_push]
      exact hstep
  | @enter i l p hprog hround =>
      have hstep : Step sys' (w.map f)
          ⟨(w.map f).obs.push i (.enter l) (f w.obs.shared), Function.update w.prog i p⟩ :=
        .enter hprog ((href.round l).symm.trans hround)
      simp only [World.map, Obs.map_push]
      exact hstep

theorem Refines.reach (href : Refines f sys sys') (h : Reach sys w w') :
    Reach sys' (w.map f) (w'.map f) := by
  induction h with
  | refl => exact .refl
  | tail _ hstep ih => exact ih.tail (href.step hstep)

/-! ## What is computed from the events -/

theorem Ghost.of_map (g : Ghost S Λ τ) (i : ι) (trace : List (Label S ι σ Λ)) :
    g.of i (trace.map (Label.map f)) = g.of i trace := by
  rw [Ghost.of, List.foldl_map]
  rfl

/-- A ghost state that is computed from another one. -/
theorem Ghost.of_hom {g : Ghost S Λ τ} {g' : Ghost S Λ τ'} (φ : τ → τ') (hinit : φ g.init = g'.init)
    (hact : ∀ t e r, φ (g.act t e r) = g'.act (φ t) e r)
    (henter : ∀ t l, φ (g.enter t l) = g'.enter (φ t) l) (i : ι)
    (trace : List (Label S ι σ Λ)) : φ (g.of i trace) = g'.of i trace := by
  induction trace using List.reverseRecOn with
  | nil => exact hinit
  | append_singleton trace l ih =>
      rw [Ghost.of_concat, Ghost.of_concat, ← ih]
      split
      · cases l.event with
        | act e r => exact hact _ e r
        | enter l => exact henter _ l
      · rfl

/-- The control state in which a thread has entered its present round, as a ghost state. -/
def ctlGhost : Ghost S Λ (Option Λ) where
  init := none
  act t _ _ := t
  enter _ l := some l

theorem ctlOf_eq (i : ι) (trace : List (Label S ι σ Λ)) : ctlOf i trace = ctlGhost.of i trace := by
  induction trace using List.reverseRecOn with
  | nil => rfl
  | append_singleton trace l ih =>
      rw [Ghost.of_concat, ← ih, ctlOf, List.foldl_concat, ← ctlOf]
      split
      · cases l.event with
        | act e r => rfl
        | enter l => rfl
      · rfl

end

end Concurrent
