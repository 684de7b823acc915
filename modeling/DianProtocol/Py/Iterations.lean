import DianProtocol.Lib.Ghost
import DianProtocol.Py.Ownership

set_option autoImplicit false

/-! # The iterations of the inner loop

An iteration of `_thread_boot` starts with a call of `unparse` and ends before the next one. The
handler of the first `try` leaves the loop for the errno 10054 only. After any other reset control
falls out of the handler and into the second `try`, with the request of an earlier iteration, if
there is one. `dispatched_once` says that this is the only way in which an iteration can go wrong.
-/

namespace DianProtocol.Py

open Concurrent

variable {ι : Type} [DecidableEq ι]

/-! ## Iterations -/

/-- What `unparse` has done in an iteration, and the requests that have been dispatched in it. -/
structure Iteration where
  outcome : Except PyExn SockRequest
  dispatched : List SockRequest

/-- The request that `unparse` has returned is dispatched, once, and nothing is dispatched when it
has raised. -/
def Iteration.Once (it : Iteration) : Prop :=
  match it.outcome with
  | .ok req => it.dispatched = [req]
  | .error _ => it.dispatched = []

/-- `req` is dispatched in the last iteration. The list of the iterations has the last one first. -/
def noteDispatch (req : SockRequest) : List Iteration → List Iteration
  | it :: its => { it with dispatched := it.dispatched ++ [req] } :: its
  -- it would be wrong before the first iteration
  | [] => [⟨.error .UnboundLocalError, [req]⟩]

/-- The iterations of a worker. -/
def iterationGhost : Ghost Actions Ctl (List Iteration) where
  init := []
  act its e r := match e, r with
    | .unparse socket, .ok request => ⟨.ok { request with sock := socket }, []⟩ :: its
    | .unparse _, .error e => ⟨.error e, []⟩ :: its
    | _, _ => its
  enter its l := match l with
    | .dispatch req _ => noteDispatch req its
    | _ => its

def iterations (i : ι) (trace : List (Label Actions ι (Shared ι) Ctl)) : List Iteration :=
  iterationGhost.of i trace

/-- The last request that `unparse` has returned. -/
def held : List Iteration → Option SockRequest
  | [] => none
  | it :: its =>
      match it.outcome with
      | .ok req => some req
      | .error _ => held its

/-- A worker in the control state `l` has dispatched what it should; if it is about to dispatch, it
is the request of its last iteration. -/
def Proper (its : List Iteration) : Ctl → Prop
  | .dispatch req _ => ∃ older, its = ⟨.ok req, []⟩ :: older ∧ ∀ it ∈ older, it.Once
  | _ => ∀ it ∈ its, it.Once

/-- Worker `i` dispatches every request once. -/
def DispatchesOnce (w : World Actions ι (Shared ι) Ctl) (i : ι) : Prop :=
  match w.prog i with
  | .ret l => Proper (iterations i w.obs.trace) l
  | .act _ _ => ∀ it ∈ iterations i w.obs.trace, it.Once

/-- `unparse` raises a reset with another errno than 10054 before the first request only. -/
def LeavesAtReset (its : List Iteration) : (e : Act) → e.Ans → Prop
  | .unparse _, .error (.ConnectionResetError errno) => errno = 10054 ∨ held its = none
  | _, _ => True

/-- The step from `w` to `w'` is not such a reset. -/
def ResetsCaught (w w' : World Actions ι (Shared ι) Ctl) : Prop :=
  ∀ i e r, w'.obs.trace = w.obs.trace ++ [⟨i, w.obs.shared, .act e r⟩] →
    LeavesAtReset (iterations i w.obs.trace) e r

/-! ## The rounds of a worker -/

/-- The iterations when a worker comes to a control state. -/
def AtCtl (its : List Iteration) : Ctl → Prop
  | .accept req => (∀ it ∈ its, it.Once) ∧ held its = req
  | .serve req _ => (∀ it ∈ its, it.Once) ∧ held its = req
  | .dispatch req _ => ∃ older, its = ⟨.ok req, []⟩ :: older ∧ ∀ it ∈ older, it.Once
  | .dead _ => ∀ it ∈ its, it.Once

/-- A worker is about to dispatch a request although `unparse` has raised. -/
def Replays (its : List Iteration) (l : Ctl) : Prop :=
  (∃ req socket, l = .dispatch req socket) ∧ ∃ e older, its = ⟨.error e, []⟩ :: older

/-- The specification of a worker's programs. -/
abbrev Meant {α : Type} (Post bad : List Iteration → α → Prop) (p : Prog Actions α)
    (its : List Iteration) : Prop :=
  iterationGhost.Watched LeavesAtReset (fun its _ => ∀ it ∈ its, it.Once) Post bad p its

theorem AtCtl.proper {its : List Iteration} {l : Ctl} (h : AtCtl its l) : Proper its l := by
  cases l with
  | accept req => exact h.1
  | serve req socket => exact h.1
  | dispatch req socket => exact h
  | dead e => exact h

/-- An action that has nothing to do with requests. -/
theorem handling_act (its : List Iteration) {e : Act} (he : Handling e) (r : e.Ans) :
    LeavesAtReset its e r ∧ iterationGhost.act its e r = its := by
  cases e with
  | unparse socket => exact he.elim
  | _ => exact ⟨trivial, rfl⟩

theorem leave_meant {its : List Iteration} (req : Option SockRequest) (socket : Sock)
    (h : ∀ it ∈ its, it.Once) (hreq : held its = req) :
    Meant AtCtl Replays (leave req socket) its := by
  refine Ghost.watched_act h (fun r _ => ⟨h, hreq⟩) fun r hnot => ?_
  exact absurd trivial hnot

theorem once_error {its : List Iteration} (h : ∀ it ∈ its, it.Once) (e : PyExn) :
    ∀ it ∈ (⟨.error e, []⟩ :: its : List Iteration), it.Once := by
  intro it hit
  rcases List.mem_cons.mp hit with rfl | hit
  · rfl
  · exact h it hit

/-- `unparse`, with the handler of the first `try`. -/
theorem afterUnparse_meant {its : List Iteration} (req : Option SockRequest) (socket : Sock)
    (h : ∀ it ∈ its, it.Once) (hreq : held its = req) :
    Meant AtCtl Replays (.act (S := Actions) (.unparse socket) (afterUnparse req socket)) its := by
  refine Ghost.watched_act h (fun r hr => ?_) fun r hnot => ?_
  · cases r with
    | ok request => exact ⟨its, rfl, h⟩
    | error e =>
        have honce := once_error h e
        cases e with
        | ConnectionResetError errno =>
            unfold afterUnparse
            dsimp only
            by_cases herrno : errno = 10054
            · rw [if_pos herrno]
              exact leave_meant req socket honce hreq
            · -- there is no request of an earlier iteration
              have hnone : req = none := by
                rcases hr with heq | hnone
                · exact absurd heq herrno
                · rw [← hreq, hnone]
              rw [if_neg herrno, hnone]
              exact honce
        | _ => exact honce
  · cases r with
    | ok request => exact absurd trivial hnot
    | error e =>
        cases e with
        | ConnectionResetError errno =>
            obtain ⟨herrno, hheld⟩ := not_or.mp hnot
            obtain ⟨req', hreq'⟩ := Option.ne_none_iff_exists'.mp hheld
            refine ⟨.dispatch req' socket, ?_, ⟨req', socket, rfl⟩, _, its, rfl⟩
            unfold afterUnparse
            dsimp only
            rw [if_neg herrno, ← hreq, hreq']
        | _ => exact absurd trivial hnot

/-- The second `try`, with its handlers. -/
theorem dispatch_meant {its : List Iteration} (srv : Server) (req : SockRequest) (socket : Sock)
    (h : ∀ it ∈ its, it.Once) (hreq : held its = some req) :
    Meant AtCtl Replays (((dispatch srv req socket).run ()).bind (afterDispatch req socket))
      its := by
  refine Prog.Meets.bind ?_
  have hmeets : ((dispatch srv req socket).run ()).Meets (Watch.step iterationGhost LeavesAtReset)
      (Watch.allows fun its _ => ∀ it ∈ its, it.Once) (fun x _ => x = .fine its) (.fine its) := by
    refine Prog.Meets.of_uses (K := fun x => x = Watch.fine its) (fun x e hx _ => hx ▸ h)
      (fun x e r x' hx he hstep => ?_) (dispatch_uses srv req socket ()) rfl
    subst hx
    have ⟨hok, hact⟩ := handling_act its he r
    rcases hstep with ⟨-, rfl⟩ | ⟨hnot, -⟩
    · rw [hact]
    · exact absurd hok hnot
  refine hmeets.mono fun x r hx => ?_
  subst hx
  rcases r with ⟨e | flow, u⟩
  · cases e with
    | StopHandler => exact ⟨h, hreq⟩
    | ConnectionResetError errno =>
        unfold afterDispatch
        dsimp only
        split
        · exact leave_meant (some req) socket h hreq
        · exact ⟨h, hreq⟩
    | _ => exact h
  · cases flow with
    | continue_ => exact ⟨h, hreq⟩
    | break_ => exact ⟨h, hreq⟩

theorem rounds_meant {srv : Server} {its : List Iteration} {l : Ctl} {p : Prog Actions Ctl}
    (hl : AtCtl its l) (hround : round srv l = some p) :
    Meant AtCtl Replays p (iterationGhost.enter its l) := by
  cases l with
  | accept req =>
      obtain rfl := Option.some.inj hround
      obtain ⟨h, hreq⟩ := hl
      refine Ghost.watched_act h (fun r _ => ?_) fun r hnot => absurd trivial hnot
      cases r with
      | ok socket => exact ⟨h, hreq⟩
      | error e => exact h
  | serve req socket =>
      obtain rfl := Option.some.inj hround
      exact afterUnparse_meant req socket hl.1 hl.2
  | dispatch req socket =>
      obtain rfl := Option.some.inj hround
      obtain ⟨older, rfl, h⟩ := hl
      refine dispatch_meant srv req socket (fun it hit => ?_) rfl
      rcases List.mem_cons.mp hit with rfl | hit
      · rfl
      · exact h it hit
  | dead e => cases hround

/-! ## All runs -/

/-- A worker that meets its specification dispatches every request once. -/
theorem Meant.dispatchesOnce {w : World Actions ι (Shared ι) Ctl} {i : ι}
    (h : Meant AtCtl Replays (w.prog i) (iterations i w.obs.trace)) : DispatchesOnce w i := by
  unfold DispatchesOnce
  cases hprog : w.prog i with
  | ret l =>
      rw [hprog] at h
      exact AtCtl.proper h
  | act e k =>
      rw [hprog] at h
      exact h.1

/-- **Every request is dispatched once**: along every run of the server, all workers dispatch every
request that `unparse` returns once and nothing in the iterations in which it raises, if and only if
`unparse` raises a reset with another errno than 10054 only to workers that have got no request yet.
-/
theorem dispatched_once (srv : Server) (ws : List (World Actions ι (Shared ι) Ctl))
    (hrun : List.IsChain (Step (system srv)) (initial :: ws)) :
    (∀ w ∈ initial :: ws, ∀ i, DispatchesOnce w i) ↔
      List.IsChain ResetsCaught (initial :: ws) := by
  have hinit : ∀ i, Meant AtCtl Replays ((initial (ι := ι)).prog i)
      (iterations i (initial (ι := ι)).obs.trace) := fun i =>
    ⟨fun it hit => absurd hit (List.not_mem_nil), rfl⟩
  refine isChain_iff
    (K := fun w => ∀ i, Meant AtCtl Replays (w.prog i) (iterations i w.obs.trace))
    (fun w hw i => (hw i).dispatchesOnce) (fun w w' hw hstep hcaught => ?_)
    (fun w w' hw hstep hgood => ?_) hinit hrun
  · exact Ghost.watched_step (fun t l p hl hround => rounds_meant hl hround) hw hstep hcaught
  · intro i e r htrace
    by_contra hnot
    obtain ⟨l, hret, ⟨req, socket, rfl⟩, x, older, hits⟩ :=
      Ghost.watched_failed hw hstep htrace hnot
    -- the worker is about to dispatch in an iteration in which `unparse` has raised
    have hproper := hgood i
    unfold DispatchesOnce at hproper
    rw [hret] at hproper
    obtain ⟨older', hits', -⟩ := hproper
    have hafter : iterations i w'.obs.trace =
        iterationGhost.act (iterations i w.obs.trace) e r := by
      rw [htrace]
      exact (Ghost.of_concat i _ _).trans (if_pos rfl)
    rw [hafter] at hits'
    have heq := hits.symm.trans hits'
    cases heq

/-- A worker has handled a SETUP when its connection is reset with the errno that other systems than
Windows use. -/
def resetAfterSetup : List (Unit × Choice) :=
  List.replicate 12 ((), { request := .ok (sessionRequest "SETUP") }) ++
    [((), { request := .error (.ConnectionResetError 104) }), ((), { socket := 0 })]

/-- The worker has dispatched a request in an iteration in which `unparse` has raised, and the same
method before. -/
def hasReplayed (w : World Actions Unit (Shared Unit) Ctl) : Bool :=
  match iterations () w.obs.trace with
  | [⟨.error (.ConnectionResetError 104), [replayed]⟩, ⟨.ok req, [_]⟩] =>
      decide (replayed.method = text "SETUP" ∧ req.method = text "SETUP")
  | _ => false

theorem not_dispatchesOnce {w : World Actions ι (Shared ι) Ctl} {i : ι} {e : PyExn}
    {req : SockRequest} {older : List Iteration}
    (h : iterations i w.obs.trace = ⟨.error e, [req]⟩ :: older) : ¬ DispatchesOnce w i := by
  have hnot : ¬ ∀ it ∈ (⟨.error e, [req]⟩ :: older : List Iteration), it.Once := by
    intro hall
    have honce : [req] = [] := hall _ List.mem_cons_self
    cases honce
  unfold DispatchesOnce
  rw [h]
  cases w.prog i with
  | act e' k => exact hnot
  | ret l =>
      cases l with
      | dispatch req' socket =>
          rintro ⟨older', heq, -⟩
          cases heq
      | accept req' => exact hnot
      | serve req' socket => exact hnot
      | dead e' => exact hnot

/-- The SETUP is dispatched a second time. -/
theorem setup_replayed : ∃ w : World Actions Unit (Shared Unit) Ctl,
    Reach (system {}) initial w ∧ ¬ DispatchesOnce w () ∧
      ∃ replayed it, iterations () w.obs.trace =
        [⟨.error (.ConnectionResetError 104), [replayed]⟩, it] ∧
        replayed.method = text "SETUP" := by
  obtain ⟨w, hreach, hw⟩ := run_map {} resetAfterSetup hasReplayed true (by decide)
  unfold hasReplayed at hw
  split at hw
  · rename_i replayed req req' hits
    exact ⟨w, hreach, not_dispatchesOnce hits, replayed, _, hits, (of_decide_eq_true hw).1⟩
  · cases hw

theorem dispatched_once_reset : ∃ ws : List (World Actions Unit (Shared Unit) Ctl),
    List.IsChain (Step (system {})) (initial :: ws) ∧
      ¬ List.IsChain ResetsCaught (initial :: ws) := by
  obtain ⟨w, hreach, hw⟩ := run_map {} resetAfterSetup hasReplayed true (by decide)
  obtain ⟨ws, hchain, hmem⟩ := hreach.exists_chain
  refine ⟨ws, hchain, fun hcaught => ?_⟩
  have hgood := (dispatched_once {} ws hchain).mpr hcaught w hmem ()
  unfold hasReplayed at hw
  split at hw
  · rename_i replayed req req' hits
    exact not_dispatchesOnce hits hgood
  · cases hw

end DianProtocol.Py
