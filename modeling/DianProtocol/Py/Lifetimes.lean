import DianProtocol.Lib.Ghost
import DianProtocol.Py.Ownership

set_option autoImplicit false

/-! # Sessions and their connections

A session is put into `_sessions` by a SETUP and taken out by a TEARDOWN that names it, and by
nothing else. A connection ends in more ways: with a TEARDOWN of another of its sessions, with a
reset, with an exception that leaves the worker. `sessions_attended` says that every session is on
an open connection, with a worker that serves it, as long as no connection with a session ends.
-/

namespace DianProtocol.Py

open Concurrent

variable {ι : Type} [DecidableEq ι]

/-- The connection that a worker serves in a control state. -/
def Ctl.connection : Ctl → Option Sock
  | .serve _ socket => some socket
  | .dispatch _ socket => some socket
  | _ => none

/-- Worker `i` is serving `socket`. -/
def Serves (w : SWorld ι) (i : ι) (socket : Sock) : Prop :=
  match w.prog i with
  | .ret l => l.connection = some socket
  | .act _ _ => (w.obs.ctl i).bind Ctl.connection = some socket

/-- Every session in `_sessions` has an open socket that some worker is serving. -/
def Attended (w : SWorld ι) : Prop :=
  ∀ id s, w.obs.shared.sessions id = some s →
    s.socket ∉ w.obs.shared.closedSockets ∧ ∃ i, Serves w i s.socket

/-- The step from `w` to `w'` ends no connection that has a session. -/
structure EndsNone (w w' : SWorld ι) : Prop where
  /-- It does not close the socket of a session. -/
  closes : ∀ l socket, w'.obs.trace = w.obs.trace ++ [l] →
    l.event = .act (S := Actions) (.closeSocket socket) () →
    ∀ id s, w.obs.shared.sessions id = some s → s.socket ≠ socket
  /-- No exception leaves a worker that serves the socket of a session. -/
  dies : ∀ i e, w'.prog i = .ret (.dead e) →
    ∀ id s, w.obs.shared.sessions id = some s → ¬ Serves w i s.socket

/-! ## The connection of a worker -/

/-- The socket that a worker has accepted last and not closed, the connection with which it has
entered its round, and whether its last action has changed `_sessions`. -/
structure Link where
  conn : Option Sock := none
  entered : Option Sock := none
  wrote : Bool := false

def linkGhost : Ghost Actions Ctl Link where
  init := {}
  act t e r := match e, r with
    | .accept, .ok socket => { t with conn := some socket, wrote := false }
    | .closeSocket _, _ => { t with conn := none, wrote := false }
    | .setitem _ _, _ => { t with wrote := true }
    | .pop _, _ => { t with wrote := true }
    | _, _ => { t with wrote := false }
  enter t l := { t with entered := l.connection, wrote := false }

def link (i : ι) (trace : List (Label Actions ι (Shared ι) Ctl)) : Link := linkGhost.of i trace

theorem link_push_act (o : SObs ι) (i : ι) (e : Act) (r : e.Ans) (s : Shared ι) :
    link i (o.push i (.act (S := Actions) e r) s).trace = linkGhost.act (link i o.trace) e r :=
  Ghost.of_push_self _ _ _ _

theorem link_push_enter (o : SObs ι) (i : ι) (l : Ctl) (s : Shared ι) :
    link i (o.push i (.enter l) s).trace = linkGhost.enter (link i o.trace) l :=
  Ghost.of_push_self _ _ _ _

theorem link_push_of_ne (o : SObs ι) {i j : ι} (h : i ≠ j) (ev : Event Actions Ctl)
    (s : Shared ι) : link i (o.push j ev s).trace = link i o.trace :=
  Ghost.of_push_of_ne o h.symm ev s

/-- A session that is looked up to be closed is one of the connection, and one that is removed is
there. -/
def Sees (t : Link) : (e : Act) → e.Ans → Prop
  | .getitem .close _, some s => t.entered = some s.socket
  | .pop _, found => found.isSome
  | _, _ => True

def linkStep (t : Link) (e : Act) (r : e.Ans) (t' : Link) : Prop :=
  Sees t e r ∧ t' = linkGhost.act t e r

/-- What a worker may do with its connection. -/
def OnLink (t : Link) (e : Act) : Prop :=
  (t.conn = none ∨ t.conn = t.entered) ∧
    match e with
    | .accept => t.conn = none
    | .setitem _ s => t.conn = some s.socket
    | .closeSocket socket => t.conn = some socket
    | _ => True

/-- The connection of a worker between two rounds. -/
def AtRest (t : Link) : Ctl → Prop
  | .accept _ => t.conn = none
  | .serve _ socket => t.conn = some socket
  | .dispatch _ socket => t.conn = some socket
  | .dead _ => t.wrote = false

/-- The specification of a worker's programs. -/
abbrev Linked {α : Type} (Post : Link → α → Prop) (p : Prog Actions α) (t : Link) : Prop :=
  p.Meets linkStep OnLink Post t

/-! ## The rounds of a worker -/

/-- The worker is dispatching a request on the connection `socket`. -/
structure During (socket : Sock) (t : Link) : Prop where
  conn : t.conn = some socket
  entered : t.entered = some socket
  wrote : t.wrote = false

/-- After the second `try`. -/
def Dispatched (socket : Sock) (t : Link) : Except PyExn Flow × Unit → Prop
  | (.ok .break_, _) => t.conn = none
  | _ => During socket t

theorem During.attached {socket : Sock} {t : Link} (h : During socket t) :
    t.conn = none ∨ t.conn = t.entered := Or.inr (h.conn.trans h.entered.symm)

theorem inner_onLink {socket : Sock} {t : Link} {e : Act} (h : During socket t) (he : Inner e) :
    OnLink t e := by
  refine ⟨h.attached, ?_⟩
  cases e with
  | accept => exact he.elim
  | setitem id s => exact he.elim
  | closeSocket socket => exact he.elim
  | _ => trivial

theorem inner_act {socket : Sock} {t : Link} {e : Act} (h : During socket t) (he : Inner e)
    (r : e.Ans) : During socket (linkGhost.act t e r) := by
  cases e with
  | accept => exact he.elim
  | setitem id s => exact he.elim
  | pop id => exact he.elim
  | closeSocket socket => exact he.elim
  | unparse socket => exact he.elim
  | _ => exact ⟨h.conn, h.entered, rfl⟩

/-- A part of a handler that leaves `_sessions` and the connections as they are. -/
theorem inner_linked {α : Type} {m : Worker α} {socket : Sock} {t : Link}
    (hm : Exc.Uses (S := Actions) Inner m) (h : During socket t) :
    Linked (fun t _ => During socket t) (m.run ()) t := by
  have hpre : ∀ (t : Link) (e : Act), During socket t → Inner e → OnLink t e :=
    fun t e ht he => inner_onLink ht he
  have hstep : ∀ (t : Link) (e : Act) (r : e.Ans) t', During socket t → Inner e →
      linkStep t e r t' → During socket t' := by
    rintro t e r t' ht he ⟨-, rfl⟩
    exact inner_act ht he r
  exact Prog.Meets.of_uses hpre hstep (hm ()) h

/-- An answer at the end of a handler. -/
theorem answer_linked {socket : Sock} {t : Link} (req : SockRequest) (r : Response)
    (h : During socket t) :
    Linked (Dispatched socket) ((do respond req r; return .continue_ : Worker Flow).run ()) t := by
  refine Prog.Meets.exc_bind ((inner_linked (respond_inner _ _) h).mono fun t r ht => ?_)
  rcases r with ⟨e | a, u⟩
  · exact ht
  · exact ht

theorem handleSetup_linked (srv : Server) (req : SockRequest) {socket : Sock} {t : Link}
    (h : During socket t) :
    Linked (Dispatched socket) ((handleSetup srv req socket).run ()) t := by
  unfold handleSetup
  split
  · exact answer_linked req _ h
  rename_i transport _
  refine Prog.Meets.exc_bind ((inner_linked (authenticate_inner _ _) h).mono fun t r ht => ?_)
  rcases r with ⟨e | accepted, u⟩
  · exact ht
  cases accepted with
  | false => exact ht
  | true =>
      refine ⟨inner_onLink ht (e := .uuid4) trivial, ?_⟩
      rintro id t₁ ⟨-, rfl⟩
      have ht₁ := inner_act ht (e := .uuid4) trivial id
      refine Prog.Meets.exc_bind (((inner_linked (init_inner _ _ _ _) ht₁).and_ends
        (init_returns srv.root req socket id ())).mono fun t₂ r hr => ?_)
      obtain ⟨ht₂, hmade⟩ := hr
      rcases r with ⟨e | created, u⟩
      · exact ht₂
      have hsocket : created.socket = socket := (hmade created rfl).1
      refine ⟨⟨ht₂.attached, ht₂.conn.trans (congrArg some hsocket.symm)⟩, ?_⟩
      rintro r t₃ ⟨-, rfl⟩
      -- the first action of the answer follows the change of `_sessions`
      exact answer_linked req _ (t := ⟨t₂.conn, t₂.entered, false⟩) ⟨ht₂.conn, ht₂.entered, rfl⟩

theorem close_linked {socket : Sock} {t : Link} (id : UUID) (s : Session) (h : During socket t)
    (hs : s.socket = socket) :
    Linked (Dispatched socket) ((do s.close; popitem id; return .break_ : Worker Flow).run ())
      t := by
  show Linked _ ((s.close >>= _).run ()) _
  rw [close_bind]
  refine ⟨inner_onLink h (e := .closeFile s.session_id) trivial, ?_⟩
  rintro r t₁ ⟨-, rfl⟩
  have h₁ := inner_act h (e := .closeFile s.session_id) trivial r
  refine ⟨⟨h₁.attached, h₁.conn.trans (congrArg some hs.symm)⟩, ?_⟩
  rintro r₂ t₂ ⟨-, rfl⟩
  show Linked _ ((popitem id >>= _).run ()) _
  rw [popitem_bind]
  refine ⟨⟨Or.inl rfl, trivial⟩, ?_⟩
  rintro found t₃ ⟨hfound, rfl⟩
  cases found with
  | none => cases hfound
  | some s => exact rfl

theorem handleTeardown_linked (req : SockRequest) {socket : Sock} {t : Link}
    (h : During socket t) :
    Linked (Dispatched socket) ((handleTeardown req socket).run ()) t := by
  refine Prog.Meets.exc_bind ((inner_linked (findSession_inner _ _) h).mono fun t r ht => ?_)
  rcases r with ⟨e | found, u⟩
  · exact ht
  cases found with
  | none => exact ht
  | some id =>
      refine Prog.Meets.exc_bind ((inner_linked (respond_inner _ _) ht).mono fun t₁ r ht₁ => ?_)
      rcases r with ⟨e | a, u⟩
      · exact ht₁
      show Linked _ ((getitem .close id >>= _).run ()) _
      rw [getitem_bind]
      refine ⟨inner_onLink ht₁ (e := .getitem .close id) trivial, ?_⟩
      rintro found t₂ ⟨hsees, rfl⟩
      have ht₂ := inner_act ht₁ (e := .getitem .close id) trivial found
      cases found with
      | none => exact ht₂
      | some s =>
          have hs : some socket = some s.socket := ht₁.entered.symm.trans hsees
          exact close_linked id s ht₂ (Option.some.inj hs).symm

theorem handlePlay_returns (req : SockRequest) (socket : Sock) :
    Exc.Returns (S := Actions) (fun flow => flow = .continue_) (handlePlay req socket) := by
  refine Exc.Returns.bind (fun found => ?_) _
  cases found with
  | none => exact Exc.Returns.pure rfl
  | some session =>
      refine Exc.Returns.bind (fun found => Exc.Returns.bind (fun _ => ?_) _) _
      exact Exc.Returns.pure (Q := fun flow => flow = Flow.continue_) rfl

/-- The second `try` of `_thread_boot`. -/
theorem dispatch_linked (srv : Server) (req : SockRequest) {socket : Sock} {t : Link}
    (h : During socket t) :
    Linked (Dispatched socket) ((dispatch srv req socket).run ()) t := by
  unfold dispatch
  split
  · exact answer_linked req _ h
  split
  · exact answer_linked req _ h
  split
  · exact handleSetup_linked srv req h
  split
  · refine ((inner_linked (handlePlay_inner req socket) h).and_ends
      (handlePlay_returns req socket ())).mono fun t r hr => ?_
    obtain ⟨ht, hflow⟩ := hr
    rcases r with ⟨e | flow, u⟩
    · exact ht
    · obtain rfl : flow = .continue_ := hflow flow rfl
      exact ht
  split
  · exact handleTeardown_linked req h
  · exact h

theorem leave_linked {socket : Sock} {t : Link} (req : Option SockRequest)
    (h : During socket t) : Linked AtRest (leave req socket) t := by
  refine ⟨⟨h.attached, h.conn⟩, ?_⟩
  rintro r t₁ ⟨-, rfl⟩
  exact rfl

theorem afterDispatch_linked {socket : Sock} {t : Link} (req : SockRequest)
    {r : Except PyExn Flow × Unit} (h : Dispatched socket t r) :
    Linked AtRest (afterDispatch req socket r) t := by
  rcases r with ⟨e | flow, u⟩
  · have hduring : During socket t := h
    cases e with
    | StopHandler => exact hduring.conn
    | ConnectionResetError errno =>
        unfold afterDispatch
        dsimp only
        split
        · exact leave_linked _ hduring
        · exact hduring.conn
    | _ => exact hduring.wrote
  · cases flow with
    | continue_ => exact During.conn h
    | break_ => exact h

theorem rounds_linked {srv : Server} {t : Link} {l : Ctl} {p : Prog Actions Ctl}
    (hl : AtRest t l) (hround : round srv l = some p) :
    Linked AtRest p (linkGhost.enter t l) := by
  cases l with
  | accept req =>
      obtain rfl := Option.some.inj hround
      refine ⟨⟨Or.inl hl, hl⟩, ?_⟩
      rintro r t₁ ⟨-, rfl⟩
      cases r with
      | ok socket => exact rfl
      | error e => exact rfl
  | serve req socket =>
      obtain rfl := Option.some.inj hround
      refine ⟨⟨Or.inr hl, trivial⟩, ?_⟩
      rintro r t₁ ⟨-, rfl⟩
      have h : During socket (linkGhost.act (linkGhost.enter t (.serve req socket))
          (.unparse socket) r) := ⟨hl, rfl, rfl⟩
      cases r with
      | ok request => exact hl
      | error e =>
          cases e with
          | ConnectionResetError errno =>
              unfold afterUnparse
              dsimp only
              split
              · exact leave_linked req h
              · cases req with
                | none => exact rfl
                | some req' => exact hl
          | _ => exact rfl
  | dispatch req socket =>
      obtain rfl := Option.some.inj hround
      have h : During socket (linkGhost.enter t (.dispatch req socket)) := ⟨hl, rfl, rfl⟩
      exact Prog.Meets.bind ((dispatch_linked srv req h).mono fun t r hr =>
        afterDispatch_linked req hr)
  | dead e => cases hround

/-! ## What an action changes -/

section

omit [DecidableEq ι]

variable {j : ι} {s s' : Shared ι} {e : Act} {r : e.Ans}

theorem performs_accepted (h : Performs j s e r s') : s.accepted ⊆ s'.accepted := by
  rcases performs_cases h with rfl | ⟨socket, -, -, rfl⟩ | ⟨id, -, -, rfl⟩ | ⟨id, x, -, rfl⟩ |
    ⟨id, -, rfl⟩ | ⟨id, -, rfl⟩ | ⟨socket, -, rfl⟩
  case inr.inl => exact List.subset_cons_self _ _
  all_goals exact List.Subset.refl _

theorem performs_closedSockets (h : Performs j s e r s') :
    s'.closedSockets = s.closedSockets ∨
      ∃ socket, e = .closeSocket socket ∧ s'.closedSockets = socket :: s.closedSockets := by
  rcases performs_cases h with rfl | ⟨socket, -, -, rfl⟩ | ⟨id, -, -, rfl⟩ | ⟨id, x, -, rfl⟩ |
    ⟨id, -, rfl⟩ | ⟨id, -, rfl⟩ | ⟨socket, he, rfl⟩
  case inr.inr.inr.inr.inr.inr => exact Or.inr ⟨socket, he, rfl⟩
  all_goals exact Or.inl rfl

/-- Only `setitem` and `pop` change `_sessions`. -/
theorem performs_sessions (h : Performs j s e r s') :
    s'.sessions = s.sessions ∨
      (∃ id x, e = .setitem id x ∧ s'.sessions = Function.update s.sessions id (some x)) ∨
      ∃ id, e = .pop id ∧ s'.sessions = Function.update s.sessions id none := by
  rcases performs_cases h with rfl | ⟨socket, -, -, rfl⟩ | ⟨id, -, -, rfl⟩ | ⟨id, x, he, rfl⟩ |
    ⟨id, he, rfl⟩ | ⟨id, -, rfl⟩ | ⟨socket, -, rfl⟩
  case inr.inr.inr.inl => exact Or.inr (Or.inl ⟨id, x, he, rfl⟩)
  case inr.inr.inr.inr.inl => exact Or.inr (Or.inr ⟨id, he, rfl⟩)
  all_goals exact Or.inl rfl

end

/-- A worker gets a connection from `accept` and loses it by closing it. -/
theorem act_conn {t : Link} {e : Act} {r : e.Ans} {socket : Sock}
    (h : (linkGhost.act t e r).conn = some socket) :
    (t.conn = some socket ∧ ∀ socket', e ≠ .closeSocket socket') ∨
      (⟨e, r⟩ : Σ e : Act, e.Ans) = ⟨.accept, .ok socket⟩ := by
  cases e with
  | accept =>
      cases r with
      | ok socket' =>
          obtain rfl := Option.some.inj h
          exact Or.inr rfl
      | error e => exact Or.inl ⟨h, nofun⟩
  | closeSocket socket' => cases h
  | _ => exact Or.inl ⟨h, nofun⟩

theorem act_entered (t : Link) (e : Act) (r : e.Ans) :
    (linkGhost.act t e r).entered = t.entered := by
  cases e with
  | accept => cases r <;> rfl
  | _ => rfl

/-- No action enters a connection. -/
theorem link_entered_act (o : SObs ι) (i j : ι) (e : Act) (r : e.Ans) (s : Shared ι) :
    (link i (o.push j (.act (S := Actions) e r) s).trace).entered = (link i o.trace).entered := by
  by_cases hi : i = j
  · subst hi
    rw [link_push_act, act_entered]
  · rw [link_push_of_ne _ hi]

/-- A new round leaves every worker the connection it has. -/
theorem link_conn_enter (o : SObs ι) (i j : ι) (l : Ctl) (s : Shared ι) :
    (link i (o.push j (.enter l) s).trace).conn = (link i o.trace).conn := by
  by_cases hi : i = j
  · subst hi
    rw [link_push_enter]
    rfl
  · rw [link_push_of_ne _ hi]

/-! ## All runs -/

section

variable {srv : Server} {w w' : SWorld ι}

/-- The connections of the workers, whatever has become of the sessions: a worker has accepted its
connection itself, and it is open. -/
structure Connections (srv : Server) (w : SWorld ι) : Prop where
  outline : (outline srv).Holds w
  linked : ∀ i, Linked AtRest (w.prog i) (link i w.obs.trace)
  entered : ∀ i, (link i w.obs.trace).entered = (w.obs.ctl i).bind Ctl.connection
  conn : ∀ i socket, (link i w.obs.trace).conn = some socket →
    (socket, i) ∈ w.obs.shared.accepted ∧ socket ∉ w.obs.shared.closedSockets
  entered_accepted : ∀ i socket, (link i w.obs.trace).entered = some socket →
    (socket, i) ∈ w.obs.shared.accepted
  closed : ∀ socket ∈ w.obs.shared.closedSockets, ∃ i, (socket, i) ∈ w.obs.shared.accepted

theorem Connections.serves (hw : Connections srv w) {i : ι} {socket : Sock}
    (hconn : (link i w.obs.trace).conn = some socket) (halive : ∀ e, w.prog i ≠ .ret (.dead e)) :
    Serves w i socket := by
  have hi := hw.linked i
  unfold Serves
  cases hprog : w.prog i with
  | ret l =>
      rw [hprog] at hi
      have hrest : AtRest (link i w.obs.trace) l := hi
      cases l with
      | accept req =>
          have hnone : (link i w.obs.trace).conn = none := hrest
          rw [hnone] at hconn
          cases hconn
      | serve req socket' =>
          have hsome : (link i w.obs.trace).conn = some socket' := hrest
          exact hsome.symm.trans hconn
      | dispatch req socket' =>
          have hsome : (link i w.obs.trace).conn = some socket' := hrest
          exact hsome.symm.trans hconn
      | dead e => exact absurd hprog (halive e)
  | act e k =>
      rw [hprog] at hi
      rcases hi.1.1 with hnone | hsame
      · have hnone' : (link i w.obs.trace).conn = none := hnone
        rw [hnone'] at hconn
        cases hconn
      · have hsame' : (link i w.obs.trace).conn = (link i w.obs.trace).entered := hsame
        show (w.obs.ctl i).bind Ctl.connection = some socket
        rw [← hw.entered i, ← hsame', hconn]

theorem Connections.accepted (hw : Connections srv w) {i : ι} {socket : Sock}
    (h : Serves w i socket) : (socket, i) ∈ w.obs.shared.accepted := by
  have hi := hw.linked i
  unfold Serves at h
  cases hprog : w.prog i with
  | ret l =>
      rw [hprog] at hi h
      have hrest : AtRest (link i w.obs.trace) l := hi
      cases l with
      | accept req => cases h
      | serve req socket' =>
          obtain rfl := Option.some.inj h
          exact (hw.conn i _ hrest).1
      | dispatch req socket' =>
          obtain rfl := Option.some.inj h
          exact (hw.conn i _ hrest).1
      | dead e => cases h
  | act e k =>
      rw [hprog] at h
      exact hw.entered_accepted i socket ((hw.entered i).trans h)

theorem Connections.sees (hw : Connections srv w) {i : ι} {e : Act} {k : e.Ans → Prog Actions Ctl}
    {r : e.Ans} {s : Shared ι} (hprog : w.prog i = .act (S := Actions) e k)
    (hperf : Performs i w.obs.shared e r s) : Sees (link i w.obs.trace) e r := by
  have hpre := hw.outline.pre hprog
  cases e with
  | getitem site id =>
      cases site with
      | close =>
          obtain ⟨session, howned⟩ := hpre
          obtain ⟨hr, -⟩ : r = _ ∧ _ := hperf
          rw [howned.mem] at hr
          subst hr
          obtain ⟨req, hctl⟩ := howned.ctl
          show (link i w.obs.trace).entered = _
          rw [hw.entered i, hctl]
          rfl
      | socketCheck => cases r <;> trivial
      | play => cases r <;> trivial
  | pop id =>
      obtain ⟨session, howned⟩ := hpre
      obtain ⟨hr, -⟩ : r = _ ∧ _ := hperf
      rw [howned.mem] at hr
      subst hr
      rfl
  | _ => trivial

theorem Connections.onLink (hw : Connections srv w) {j : ι} {e : Act}
    {k : e.Ans → Prog Actions Ctl} (hprog : w.prog j = .act (S := Actions) e k) :
    OnLink (link j w.obs.trace) e := by
  have hj := hw.linked j
  rw [hprog] at hj
  exact hj.1

/-- What is closed is the connection of the worker that closes it. -/
theorem Connections.closes (hw : Connections srv w) {j : ι} {e : Act}
    {k : e.Ans → Prog Actions Ctl} {r : e.Ans} {s : Shared ι}
    (hprog : w.prog j = .act (S := Actions) e k) (hperf : Performs j w.obs.shared e r s)
    {socket : Sock} (hmem : socket ∈ s.closedSockets) :
    socket ∈ w.obs.shared.closedSockets ∨
      (e = .closeSocket socket ∧ (link j w.obs.trace).conn = some socket) := by
  have honlink := hw.onLink hprog
  rcases performs_closedSockets hperf with hsame | ⟨socket', rfl, hcons⟩
  · exact Or.inl (hsame ▸ hmem)
  · rw [hcons] at hmem
    rcases List.mem_cons.mp hmem with rfl | hmem
    · exact Or.inr ⟨rfl, honlink.2⟩
    · exact Or.inl hmem

/-- One step. -/
theorem Connections.step (hw : Connections srv w) (h : Step (system srv) w w') :
    Connections srv w' := by
  have houtline := hw.outline.step rounds_safe h
  have hlinked : ∀ i, Linked AtRest (w'.prog i) (link i w'.obs.trace) := by
    refine Ghost.meets_step (fun t l p hl hround => rounds_linked hl hround) hw.linked h ?_
    intro i e r htrace
    obtain ⟨k, s, hprog, hperf, -⟩ := h.last_act htrace rfl
    exact ⟨hw.sees hprog hperf, rfl⟩
  cases h with
  | @act j e k r s hprog hperf =>
      have haccepted := performs_accepted hperf
      refine ⟨houtline, hlinked, ?_, ?_, ?_, ?_⟩
      · intro i
        rw [Obs.ctl_push_act, link_entered_act]
        exact hw.entered i
      · intro i socket hconn
        by_cases hi : i = j
        · subst hi
          rw [link_push_act] at hconn
          rcases act_conn hconn with ⟨hbefore, hne⟩ | haccept
          · obtain ⟨hmem, hopen⟩ := hw.conn i socket hbefore
            refine ⟨haccepted hmem, fun hmem' => ?_⟩
            rcases hw.closes hprog hperf hmem' with hmem' | ⟨he, -⟩
            · exact hopen hmem'
            · exact hne socket he
          · -- a socket that has just been accepted
            cases haccept
            obtain ⟨hfresh, rfl⟩ : _ ∧ s = _ := hperf
            refine ⟨List.mem_cons_self, fun hmem => ?_⟩
            obtain ⟨i', hi'⟩ := hw.closed socket hmem
            exact hfresh i' hi'
        · rw [link_push_of_ne _ hi] at hconn
          obtain ⟨hmem, hopen⟩ := hw.conn i socket hconn
          refine ⟨haccepted hmem, fun hmem' => ?_⟩
          rcases hw.closes hprog hperf hmem' with hmem' | ⟨-, hj⟩
          · exact hopen hmem'
          · exact hi (hw.outline.1.socket_owner socket i j hmem (hw.conn j socket hj).1)
      · intro i socket hentered
        rw [link_entered_act] at hentered
        exact haccepted (hw.entered_accepted i socket hentered)
      · intro socket hmem
        rcases hw.closes hprog hperf hmem with hmem | ⟨-, hj⟩
        · obtain ⟨i, hi⟩ := hw.closed socket hmem
          exact ⟨i, haccepted hi⟩
        · exact ⟨j, haccepted (hw.conn j socket hj).1⟩
  | @enter j l p hprog hround =>
      have hrest : AtRest (link j w.obs.trace) l := by
        have hj := hw.linked j
        rw [hprog] at hj
        exact hj
      refine ⟨houtline, hlinked, ?_, ?_, ?_, hw.closed⟩
      · intro i
        by_cases hi : i = j
        · subst hi
          rw [link_push_enter, Obs.ctl_push_enter_self]
          rfl
        · rw [link_push_of_ne _ hi, Obs.ctl_push_of_ne _ (Ne.symm hi)]
          exact hw.entered i
      · intro i socket hconn
        rw [link_conn_enter] at hconn
        exact hw.conn i socket hconn
      · intro i socket hentered
        by_cases hi : i = j
        · subst hi
          rw [link_push_enter] at hentered
          refine (hw.conn i socket ?_).1
          cases l with
          | accept req => cases hentered
          | serve req socket' => exact hrest.trans hentered
          | dispatch req socket' => exact hrest.trans hentered
          | dead e => cases hentered
        · rw [link_push_of_ne _ hi] at hentered
          exact hw.entered_accepted i socket hentered

theorem connections_initial : Connections srv (initial (ι := ι)) where
  outline := outline_holds .refl
  linked _ := rfl
  entered _ := rfl
  conn _ _ h := by cases h
  entered_accepted _ _ h := by cases h
  closed _ h := by cases h

/-! ## The sessions on them -/

/-- Every session is on the connection of a worker. -/
def Held (w : SWorld ι) : Prop :=
  ∀ id s, w.obs.shared.sessions id = some s →
    ∃ i, (link i w.obs.trace).conn = some s.socket ∧ ∀ e, w.prog i ≠ .ret (.dead e)

theorem Held.attended (hw : Connections srv w) (h : Held w) : Attended w := by
  intro id s hs
  obtain ⟨i, hconn, halive⟩ := h id s hs
  exact ⟨(hw.conn i s.socket hconn).2, i, hw.serves hconn halive⟩

/-- A step that ends no connection with a session keeps every session on a connection. -/
theorem held_step (hw : Connections srv w) (h : Step (system srv) w w') (hends : EndsNone w w')
    (hheld : Held w) : Held w' := by
  have hw' := hw.step h
  have hold : ∀ i id s, w.obs.shared.sessions id = some s →
      (link i w.obs.trace).conn = some s.socket → (∀ e, w.prog i ≠ .ret (.dead e)) →
      ∀ e, w'.prog i ≠ .ret (.dead e) := by
    intro i id s hs hconn halive e hdead
    exact hends.dies i e hdead id s hs (hw.serves hconn halive)
  cases h with
  | @act j e k r s hprog hperf =>
      have honlink := hw.onLink hprog
      -- a session that was there before
      have hbefore : ∀ id x, w.obs.shared.sessions id = some x → ∃ i,
          (link i (w.obs.push j (.act e r) s).trace).conn = some x.socket ∧
            ∀ e', Function.update w.prog j (k r) i ≠ .ret (.dead e') := by
        intro id x hx
        obtain ⟨i, hconn, halive⟩ := hheld id x hx
        refine ⟨i, ?_, hold i id x hx hconn halive⟩
        by_cases hi : i = j
        · subst hi
          rw [link_push_act]
          cases e with
          | accept =>
              have hnone : (link i w.obs.trace).conn = none := honlink.2
              rw [hnone] at hconn
              cases hconn
          | closeSocket socket =>
              have hsome : (link i w.obs.trace).conn = some socket := honlink.2
              rw [hsome] at hconn
              exact absurd (Option.some.inj hconn).symm (hends.closes _ socket rfl rfl id x hx)
          | _ => exact hconn
        · rw [link_push_of_ne _ hi]
          exact hconn
      intro id x hx
      rcases performs_sessions hperf with hsame | ⟨id', y, rfl, hset⟩ | ⟨id', rfl, hset⟩
      · exact hbefore id x (hsame ▸ hx)
      · have hx' : Function.update w.obs.shared.sessions id' (some y) id = some x := hset ▸ hx
        by_cases hid : id = id'
        · subst hid
          rw [Function.update_self] at hx'
          obtain rfl := Option.some.inj hx'
          refine ⟨j, ?_, fun e' hdead => ?_⟩
          · rw [link_push_act]
            exact honlink.2
          · have hj := hw'.linked j
            rw [hdead, link_push_act] at hj
            have hwrote : true = false := hj
            cases hwrote
        · rw [Function.update_of_ne hid] at hx'
          exact hbefore id x hx'
      · have hx' : Function.update w.obs.shared.sessions id' none id = some x := hset ▸ hx
        by_cases hid : id = id'
        · rw [hid, Function.update_self] at hx'
          cases hx'
        · rw [Function.update_of_ne hid] at hx'
          exact hbefore id x hx'
  | @enter j l p hprog hround =>
      intro id x hx
      obtain ⟨i, hconn, halive⟩ := hheld id x hx
      refine ⟨i, ?_, hold i id x hx hconn halive⟩
      rw [link_conn_enter]
      exact hconn

/-- A step after which every session is attended has ended no connection with a session. -/
theorem endsNone_of_attended (hw : Connections srv w) (h : Step (system srv) w w')
    (hatt : Attended w') : EndsNone w w' := by
  have hw' := hw.step h
  constructor
  · rintro l socket htrace hevent id x hx rfl
    obtain ⟨k, s, -, rfl, rfl⟩ := h.last_act htrace hevent
    exact (hatt id x hx).1 List.mem_cons_self
  · intro i e hdead id x hx hserves
    -- nobody serves the connection of a worker that is dead
    have hnobody : w.obs.shared.accepted ⊆ w'.obs.shared.accepted →
        w'.obs.shared.sessions id = some x → False := by
      intro hsub hx'
      obtain ⟨-, i', hserves'⟩ := hatt id x hx'
      obtain rfl := hw'.outline.1.socket_owner x.socket i' i (hw'.accepted hserves')
        (hsub (hw.accepted hserves))
      unfold Serves at hserves'
      rw [hdead] at hserves'
      cases hserves'
    have halive : w.prog i ≠ .ret (.dead e) := by
      intro hprog
      unfold Serves at hserves
      rw [hprog] at hserves
      cases hserves
    cases h with
    | @act j e' k r s hprog hperf =>
        by_cases hi : i = j
        · subst hi
          have hwrote : (linkGhost.act (link i w.obs.trace) e' r).wrote = false := by
            have hlinked := hw'.linked i
            rw [hdead] at hlinked
            exact link_push_act w.obs i e' r s ▸ hlinked
          refine hnobody (performs_accepted hperf) ?_
          rcases performs_sessions hperf with hsame | ⟨id', y, rfl, -⟩ | ⟨id', rfl, -⟩
          · exact (congrFun hsame id).trans hx
          · cases hwrote
          · cases hwrote
        · exact halive ((Function.update_of_ne hi _ _).symm.trans hdead)
    | @enter j l p hprog hround => exact hnobody (List.Subset.refl _) hx

/-- **Sessions do not outlive their connections** if and only if the connections that have sessions
do not end: along every run of the server, every session in `_sessions` has an open socket with a
worker that serves it, in all states, if and only if no step closes the socket of a session or lets
an exception leave the worker that serves it. -/
theorem sessions_attended (srv : Server) (ws : List (SWorld ι))
    (hrun : List.IsChain (Step (system srv)) (initial :: ws)) :
    (∀ w ∈ initial :: ws, Attended w) ↔ List.IsChain EndsNone (initial :: ws) := by
  have hinit : Connections srv (initial (ι := ι)) ∧ Held (initial (ι := ι)) :=
    ⟨connections_initial, fun _ _ hs => by cases hs⟩
  refine isChain_iff (K := fun w => Connections srv w ∧ Held w) (fun w hw => hw.2.attended hw.1)
    (fun w w' hw hstep hends => ?_) (fun w w' hw hstep hatt => ?_) hinit hrun
  · exact ⟨hw.1.step hstep, held_step hw.1 hstep hends hw.2⟩
  · exact endsNone_of_attended hw.1 hstep hatt

end

/-! ### A client that goes away -/

/-- A client sets a session up and resets its connection. -/
def setupReset : List (Unit × Choice) :=
  List.replicate 12 ((), { request := .ok (sessionRequest "SETUP") }) ++
    List.replicate 2 ((), { request := .error (.ConnectionResetError 10054) })

/-- The worker waits for the next client, and the session 0 is there with its socket closed. -/
def leftBehind (w : SWorld Unit) : Bool :=
  match w.prog (), w.obs.shared.sessions 0 with
  | .ret (.accept _), some s => decide (s.socket ∈ w.obs.shared.closedSockets)
  | _, _ => false

theorem not_attended {w : SWorld Unit} (h : leftBehind w = true) : ¬ Attended w := by
  intro hatt
  unfold leftBehind at h
  split at h
  · next s _ hs => exact (hatt 0 s hs).1 (of_decide_eq_true h)
  · cases h

/-- The session outlives its connection. -/
theorem session_leftBehind : ∃ w : SWorld Unit, Reach (system {}) initial w ∧ ¬ Attended w ∧
    ∃ s, w.obs.shared.sessions 0 = some s ∧ s.socket ∈ w.obs.shared.closedSockets := by
  obtain ⟨w, hreach, hw⟩ := run_map {} setupReset leftBehind true (by decide)
  refine ⟨w, hreach, not_attended hw, ?_⟩
  unfold leftBehind at hw
  split at hw
  · next s _ hs => exact ⟨s, hs, of_decide_eq_true hw⟩
  · cases hw

theorem sessions_attended_reset : ∃ ws : List (SWorld Unit),
    List.IsChain (Step (system {})) (initial :: ws) ∧ ¬ List.IsChain EndsNone (initial :: ws) := by
  obtain ⟨w, hreach, hw⟩ := run_map {} setupReset leftBehind true (by decide)
  obtain ⟨ws, hchain, hmem⟩ := hreach.exists_chain
  refine ⟨ws, hchain, fun hends => ?_⟩
  exact not_attended hw ((sessions_attended {} ws hchain).mpr hends w hmem)

end DianProtocol.Py
