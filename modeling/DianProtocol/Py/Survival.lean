import DianProtocol.Py.Clients
import DianProtocol.Py.Lifetimes
import DianProtocol.Py.Pace
import DianProtocol.Py.PartialContent

set_option autoImplicit false

/-! # What kills a worker

`_thread_boot` catches a reset in its first `try`, and a reset and `StopHandler` in its second one.
Any other exception ends the thread, and nobody starts another one. `workers_survive` lists what
raises one: heads that are malformed, for which a closed connection counts, the headers `Session`
and `Range`, a file that cannot be opened, a connection that breaks in another way than by a reset,
and the access to `_sessions` that nothing protects.
-/

namespace DianProtocol.Py

open Concurrent Regex

/-- The exceptions that the second `try` catches. -/
def Caught (e : PyExn) : Prop := e = .StopHandler ∨ ∃ errno, e = .ConnectionResetError errno

theorem exists_uncaught {P : PyExn → Prop} (h : ¬ ∀ e, P e → Caught e) :
    ∃ e, P e ∧ ¬ Caught e := by
  push Not at h
  exact h

theorem not_caught {e : PyExn} (hstop : e ≠ .StopHandler)
    (hreset : ∀ errno, e ≠ .ConnectionResetError errno) : ¬ Caught e := by
  rintro (rfl | ⟨errno, rfl⟩)
  · exact hstop rfl
  · exact hreset errno rfl

/-- The variable `req`. -/
def Ctl.req : Ctl → Option SockRequest
  | .accept req => req
  | .serve req _ => req
  | .dispatch req _ => some req
  | .dead _ => none

/-- The header `Session` of a PLAY or a TEARDOWN is no UUID. -/
def Unreadable (req : SockRequest) : Prop :=
  (req.method = text "PLAY" ∨ req.method = text "TEARDOWN") ∧
    ∃ session, req.headers.get? (text "Session") = some session ∧ UUID.ofText session = none

/-- A header `Range` is empty, or a range with an end. -/
def RangeReadable (req : SockRequest) : Prop :=
  ∀ range, req.headers.get? (text "Range") = some range →
    range = [] ∨ ∃ start stop, RangeText range start (some stop)

/-- What a client sends next is a head that `unparse` reads, or a reset that the worker can bear. -/
def Visitor.Fair (c : Visitor) (req : Option SockRequest) : Prop :=
  ¬ Malformed c.ending c.bytes ∧ ∀ errno, c.ending = .resets errno →
    Complete c.ending c.bytes ∨ errno = 10054 ∨ req.isSome

section

variable {ι : Type}

/-- The circumstances under which a worker that has entered its round in the control state `l`
survives that its action is answered. -/
def Survived (s : Served ι) (l : Option Ctl) : (e : Act) → e.Ans → Prop
  | .accept, r => ∃ socket, r = .ok socket
  | .unparse socket, _ => (s.clients socket).Fair (l.bind Ctl.req)
  | .getitem .socketCheck id, _ => (s.sessions id).isSome
  | .getitem .play _, _ => ∀ req, l.bind Ctl.req = some req → RangeReadable req
  | .open_ _ _, r => ∀ e, r = .error e → Caught e
  | .seek _ _, r => ∀ e, r = some e → Caught e
  | .read _ _, r => ∀ e, r = .error e → Caught e
  | .send _ _ _, r => ∀ e, r = .error e → Caught e
  | _, _ => True

variable [DecidableEq ι]

abbrev CWorld (ι : Type) := World Actions ι (Served ι) Ctl

/-- The step from `w` to `w'` is made under circumstances that a worker survives. -/
structure Tolerated (w w' : CWorld ι) : Prop where
  act : ∀ i e r, w'.obs.trace = w.obs.trace ++ [⟨i, w.obs.shared, .act e r⟩] →
    Survived w.obs.shared (w.obs.ctl i) e r
  enter : ∀ i req socket,
    w'.obs.trace = w.obs.trace ++ [⟨i, w.obs.shared, .enter (.dispatch req socket)⟩] →
    ¬ Unreadable req

end

/-! ## The code of a worker -/

/-- The control state in which a worker has entered its round, and the socket that it has accepted
last and not closed. -/
structure Guard where
  ctl : Option Ctl := none
  conn : Option Sock := none

def guardGhost : Ghost Actions Ctl Guard where
  init := {}
  act t e r := match e, r with
    | .accept, .ok socket => { t with conn := some socket }
    | .closeSocket _, _ => { t with conn := none }
    | _, _ => t
  enter t l := { t with ctl := some l }

/-- The answers that a worker survives. -/
def Bears (t : Guard) : (e : Act) → e.Ans → Prop
  | .accept, r => ∃ socket, r = .ok socket
  | .unparse _, r => ∀ e, r = .error e →
      ∃ errno, e = .ConnectionResetError errno ∧ (errno = 10054 ∨ (t.ctl.bind Ctl.req).isSome)
  | .getitem .play _, r => r.isSome ∧ ∀ req, t.ctl.bind Ctl.req = some req → RangeReadable req
  | .getitem _ _, r => r.isSome
  | .pop _, r => r.isSome
  | .open_ _ _, r => ∀ e, r = .error e → Caught e
  | .seek _ _, r => ∀ e, r = some e → Caught e
  | .read _ _, r => ∀ e, r = .error e → Caught e
  | .send _ _ _, r => ∀ e, r = .error e → Caught e
  | _, _ => True

/-- A worker reads from its own connection. -/
def OwnReads (t : Guard) : Act → Prop
  | .unparse socket => t.conn = some socket
  | _ => True

/-- The specification of a worker's programs, which are watched up to the first answer that a worker
does not survive. -/
abbrev Watching {α : Type} (Post bad : Guard → α → Prop) (p : Prog Actions α) (t : Guard) : Prop :=
  guardGhost.Watched Bears OwnReads Post bad p t

/-- A piece of code has ended, with nothing changed; it has raised exceptions in `E` only. -/
def Calm {α : Type} (E : PyExn → Prop) (t t' : Guard) : Except PyExn α × Unit → Prop
  | (.ok _, _) => t' = t
  | (.error e, _) => t' = t ∧ E e

/-- A piece of code has ended with an exception that is not caught. -/
def Uncaught {α : Type} (_ : Guard) : Except PyExn α × Unit → Prop
  | (.ok _, _) => False
  | (.error e, _) => ¬ Caught e

/-- A piece of code that raises, as long as the worker survives its answers, exceptions in `E`
only. -/
abbrev Tame {α : Type} (E : PyExn → Prop) (m : Worker α) (t : Guard) : Prop :=
  Watching (Calm E t) Uncaught (m.run ()) t

section

variable {α β : Type} {E : PyExn → Prop} {t : Guard}

theorem Tame.pure (a : α) : Tame E (pure a) t := rfl

theorem Tame.throw {e : PyExn} (h : E e) : Tame E (Exc.throw e : Worker α) t := ⟨rfl, h⟩

/-- A tame piece of code, and what comes after it. -/
theorem Tame.andThen {m : Worker α} {f : α → Worker β} {Post : Guard → Except PyExn β × Unit → Prop}
    (hm : Tame E m t) (herror : ∀ e, E e → Post t (.error e, ()))
    (hf : ∀ a, Watching Post Uncaught ((f a).run ()) t) :
    Watching Post Uncaught ((m >>= f).run ()) t := by
  refine Prog.Meets.exc_bind (hm.mono fun x r hr => ?_)
  cases x with
  | fine t' =>
      rcases r with ⟨e | a, u⟩
      · obtain ⟨rfl, he⟩ := hr
        exact herror e he
      · obtain rfl := hr
        exact hf a
  | failed t' =>
      rcases r with ⟨e | a, u⟩
      · exact hr
      · exact hr.elim

theorem Tame.bind {m : Worker α} {f : α → Worker β} (hm : Tame E m t)
    (hf : ∀ a, Tame E (f a) t) : Tame E (m >>= f) t :=
  hm.andThen (fun _ he => ⟨rfl, he⟩) hf

theorem Tame.mono {E' : PyExn → Prop} {m : Worker α} (hm : Tame E m t) (h : ∀ e, E e → E' e) :
    Tame E' m t := by
  refine Prog.Meets.mono hm fun x r hr => ?_
  cases x with
  | fine t' =>
      rcases r with ⟨e | a, u⟩
      · exact ⟨hr.1, h e hr.2⟩
      · exact hr
  | failed t' => exact hr

/-- An action that changes nothing and whose answers a worker survives. -/
theorem perform_tame {e : Act} (hreads : OwnReads t e) (hact : ∀ r, guardGhost.act t e r = t)
    (hbears : ∀ r, Bears t e r) : Tame E (perform e) t :=
  Ghost.watched_act hreads (fun r _ => hact r) fun r hnot => absurd (hbears r) hnot

theorem send_tame (origin : Origin) (socket : Sock) (data : Bytes) :
    Tame Caught (send origin socket data) t := by
  refine Ghost.watched_act trivial (fun r hr => ?_) fun r hnot => ?_
  · cases r with
    | ok n => exact rfl
    | error e => exact ⟨rfl, hr e rfl⟩
  · obtain ⟨e, rfl, he⟩ := exists_uncaught hnot
    exact ⟨(.error e, ()), rfl, he⟩

theorem respond_tame (req : SockRequest) (r : Response) : Tame Caught (respond req r) t :=
  Tame.bind (send_tame _ _ _) fun _ => send_tame _ _ _

/-- An answer, and the end. -/
theorem answer_tame (req : SockRequest) (r : Response) (a : α) :
    Tame Caught (do respond req r; return a : Worker α) t :=
  Tame.bind (respond_tame req r) fun _ => Tame.pure a

/-- The session that `_sessions` has. -/
theorem getitem_tame (site : Site) (id : UUID) (h : site ≠ .play) :
    Tame Caught (getitem site id) t := by
  show Watching _ _ (.act (S := Actions) (.getitem site id) _) t
  cases site with
  | play => exact absurd rfl h
  | _ =>
      refine Ghost.watched_act trivial (fun r hr => ?_) fun r hnot => ?_
      · cases r with
        | some s => exact rfl
        | none => cases hr
      · cases r with
        | some s => exact absurd rfl hnot
        | none => exact ⟨_, rfl, not_caught nofun nofun⟩

/-- An exception on the way to the session of a request: it is caught, or it is the header's. -/
def Findable (req : SockRequest) (e : PyExn) : Prop := Caught e ∨ Unreadable req

theorem findSession_tame (req : SockRequest) (socket : Sock)
    (hmethod : req.method = text "PLAY" ∨ req.method = text "TEARDOWN") :
    Tame (Findable req) (findSession req socket) t := by
  unfold findSession
  split
  · exact (answer_tame req _ _).mono fun _ => Or.inl
  rename_i session hsession
  split
  · rename_i hnone
    exact Tame.throw (Or.inr ⟨hmethod, session, hsession, hnone⟩)
  rename_i id _
  refine Tame.bind (perform_tame trivial (fun _ => rfl) fun _ => trivial) fun found => ?_
  cases found with
  | false => exact (answer_tame req _ _).mono fun _ => Or.inl
  | true =>
      refine Tame.bind ((getitem_tame .socketCheck id nofun).mono fun _ => Or.inl) fun s => ?_
      split
      · exact (answer_tame req _ _).mono fun _ => Or.inl
      · exact Tame.pure _

theorem authenticate_tame (srv : Server) (req : SockRequest) :
    Tame Caught (authenticate srv req) t := by
  unfold authenticate
  split
  · split
    · exact answer_tame req _ _
    · refine Tame.bind (perform_tame trivial (fun _ => rfl) fun _ => trivial) fun auths => ?_
      split
      · exact answer_tame req _ _
      · exact Tame.pure _
  · exact Tame.pure _

theorem init_tame (root : Text) (request : SockRequest) (socket : Sock) (id : UUID) :
    Tame Caught (Session.init root request socket id) t := by
  unfold Session.init
  split
  · exact Tame.bind (respond_tame _ _) fun _ => Tame.throw (Or.inl rfl)
  · refine Tame.bind (perform_tame trivial (fun _ => rfl) fun _ => trivial) fun found => ?_
    cases found with
    | false => exact Tame.bind (respond_tame _ _) fun _ => Tame.throw (Or.inl rfl)
    | true =>
        refine Ghost.watched_act trivial (fun r hr => ?_) fun r hnot => ?_
        · cases r with
          | ok size => exact rfl
          | error e => exact ⟨rfl, hr e rfl⟩
        · obtain ⟨e, rfl, he⟩ := exists_uncaught hnot
          exact ⟨(.error e, ()), rfl, he⟩

theorem sendFile_tame (s : Session) (headers : Dict) (start stop : Int) :
    Tame Caught (s.sendFile headers start stop) t := by
  refine Ghost.watched_act trivial (fun raised hr => ?_) fun raised hnot => ?_
  · cases raised with
    | some e => exact ⟨rfl, hr e rfl⟩
    | none =>
        refine Tame.bind (send_tame _ _ _) fun _ => ?_
        refine Ghost.watched_act trivial (fun r hr => ?_) fun r hnot => ?_
        · cases r with
          | ok data => exact send_tame _ _ _
          | error e => exact ⟨rfl, hr e rfl⟩
        · obtain ⟨e, rfl, he⟩ := exists_uncaught hnot
          exact ⟨(.error e, ()), rfl, he⟩
  · obtain ⟨e, rfl, he⟩ := exists_uncaught hnot
    exact ⟨(.error e, ()), rfl, he⟩

theorem intOf_run {d : Text} {n : Int} (h : int d = some n) :
    intOf (some d) = (Pure.pure n : Worker Int) := by
  unfold intOf
  dsimp only
  rw [h]

/-- A range with an end can be played. -/
theorem play_tame (s : Session) {req : SockRequest} (h : RangeReadable req) :
    Tame Caught (s.play (req.headers.get? (text "Range"))) t := by
  unfold Session.play
  split
  · exact sendFile_tame _ _ _ _
  rename_i range hrange
  split
  · exact sendFile_tame _ _ _ _
  rename_i hne
  obtain ⟨start, stop, m, first, hmatch, hfirst, hint, last, hlast, hint'⟩ :=
    (h range hrange).resolve_left hne
  unfold Session.playRange
  rw [hmatch]
  dsimp only
  rw [hfirst, hlast, intOf_run hint, intOf_run hint']
  exact sendFile_tame _ _ _ _

/-- Any other one ends the worker at once. -/
theorem play_unreadable (s : Session) {req : SockRequest} (h : ¬ RangeReadable req) :
    ∃ e, ¬ Caught e ∧ (s.play (req.headers.get? (text "Range"))).run () = .ret (.error e, ()) := by
  unfold RangeReadable at h
  push Not at h
  obtain ⟨range, hrange, hne, hopen⟩ := h
  rw [hrange]
  have hplay : s.play (some range) = s.playRange range := if_neg hne
  rw [hplay]
  unfold Session.playRange
  cases hmatch : Range_re.match? range with
  | none => exact ⟨.Exception "Invalid range", not_caught nofun nofun, rfl⟩
  | some m =>
      obtain ⟨start, stop, hrange'⟩ := rangeText_of_match hmatch
      cases stop with
      | some stop => exact absurd hrange' (hopen start stop)
      | none =>
          obtain ⟨m', first, hmatch', hfirst, hint, hend⟩ := hrange'
          obtain rfl := Option.some.inj (hmatch.symm.trans hmatch')
          refine ⟨.TypeError, not_caught nofun nofun, ?_⟩
          dsimp only
          rw [hfirst, hend, intOf_run hint]
          rfl

/-! ### The second `try` -/

/-- The second `try` has ended, with nothing changed but for the socket that a TEARDOWN closes. -/
def Handled (req : SockRequest) (t t' : Guard) : Except PyExn Flow × Unit → Prop
  | (.ok .break_, _) => True
  | r => Calm (Findable req) t t' r

abbrev TameHandler (req : SockRequest) (m : Worker Flow) (t : Guard) : Prop :=
  Watching (Handled req t) Uncaught (m.run ()) t

/-- Code that goes on with the inner loop. -/
theorem Tame.goesOn {E : PyExn → Prop} {req : SockRequest} {m : Worker α} (hm : Tame E m t)
    (h : ∀ e, E e → Findable req e) : TameHandler req (do let _ ← m; return .continue_) t :=
  hm.andThen (fun e he => ⟨rfl, h e he⟩) fun _ => (rfl : t = t)

theorem handleSetup_tame (srv : Server) (req : SockRequest) (socket : Sock) :
    TameHandler req (handleSetup srv req socket) t := by
  unfold handleSetup
  split
  · exact (respond_tame req _).goesOn fun _ => Or.inl
  refine (authenticate_tame srv req).andThen (fun _ he => ⟨rfl, Or.inl he⟩) fun accepted => ?_
  cases accepted with
  | false => exact (rfl : t = t)
  | true =>
      have huuid4 : Tame Caught (perform .uuid4) t :=
        perform_tame trivial (fun _ => rfl) fun _ => trivial
      refine huuid4.andThen (fun _ he => ⟨rfl, Or.inl he⟩) fun id => ?_
      refine (init_tame _ _ _ _).andThen (fun _ he => ⟨rfl, Or.inl he⟩) fun created => ?_
      have hsetitem : Tame Caught (perform (.setitem id created)) t :=
        perform_tame trivial (fun _ => rfl) fun _ => trivial
      refine hsetitem.andThen (fun _ he => ⟨rfl, Or.inl he⟩) fun _ => ?_
      exact (respond_tame req _).goesOn fun _ => Or.inl

theorem handlePlay_tame {req : SockRequest} {socket : Sock} (hmethod : req.method = text "PLAY")
    (hreq : t.ctl.bind Ctl.req = some req) : TameHandler req (handlePlay req socket) t := by
  refine (findSession_tame req socket (Or.inl hmethod)).andThen (fun _ he => ⟨rfl, he⟩)
    fun found => ?_
  cases found with
  | none => exact (rfl : t = t)
  | some id =>
      show Watching _ _ ((getitem .play id >>= _).run ()) _
      rw [getitem_bind]
      refine Ghost.watched_act trivial (fun r hr => ?_) fun r hnot => ?_
      · cases r with
        | none => cases hr.1
        | some s => exact (play_tame s (hr.2 req hreq)).goesOn fun _ => Or.inl
      · cases r with
        | none => exact ⟨_, rfl, not_caught nofun nofun⟩
        | some s =>
            have hrange : ¬ RangeReadable req := by
              intro h
              refine hnot ⟨rfl, fun req' hreq' => ?_⟩
              obtain rfl := Option.some.inj (hreq.symm.trans hreq')
              exact h
            obtain ⟨e, he, hplay⟩ := play_unreadable s hrange
            refine ⟨(.error e, ()), ?_, he⟩
            dsimp only
            rw [Exc.run_bind, hplay]
            rfl

theorem handleTeardown_tame {req : SockRequest} {socket : Sock}
    (hmethod : req.method = text "TEARDOWN") : TameHandler req (handleTeardown req socket) t := by
  refine (findSession_tame req socket (Or.inr hmethod)).andThen (fun _ he => ⟨rfl, he⟩)
    fun found => ?_
  cases found with
  | none => exact (rfl : t = t)
  | some id =>
      refine (respond_tame req _).andThen (fun _ he => ⟨rfl, Or.inl he⟩) fun _ => ?_
      refine (getitem_tame .close id nofun).andThen (fun _ he => ⟨rfl, Or.inl he⟩) fun s => ?_
      show Watching _ _ ((s.close >>= _).run ()) _
      rw [close_bind]
      refine Ghost.watched_act trivial (fun _ _ => ?_) fun r hnot => absurd trivial hnot
      refine Ghost.watched_act trivial (fun _ _ => ?_) fun r hnot => absurd trivial hnot
      show Watching _ _ ((popitem id >>= _).run ()) _
      rw [popitem_bind]
      refine Ghost.watched_act trivial (fun found hr => ?_) fun found hnot => ?_
      · cases found with
        | none => cases hr
        | some s => exact trivial
      · cases found with
        | none => exact ⟨_, rfl, not_caught nofun nofun⟩
        | some s => exact absurd rfl hnot

/-- The second `try` of `_thread_boot`. -/
theorem dispatch_tame (srv : Server) {req : SockRequest} (socket : Sock)
    (hreq : t.ctl.bind Ctl.req = some req) : TameHandler req (dispatch srv req socket) t := by
  unfold dispatch
  split
  · exact (respond_tame req _).goesOn fun _ => Or.inl
  split
  · exact (respond_tame req _).goesOn fun _ => Or.inl
  split
  · exact handleSetup_tame srv req socket
  split
  · rename_i hmethod
    exact handlePlay_tame hmethod hreq
  split
  · rename_i hmethod
    exact handleTeardown_tame hmethod
  · exact (rfl : t = t)

end

/-- A worker between two rounds. If it is dead, it has died of the header `Session`, which it reads
before its first action. -/
def Between (t : Guard) : Ctl → Prop
  | .accept _ => True
  | .serve _ socket => t.conn = some socket
  | .dispatch _ socket => t.conn = some socket
  | .dead _ => ∃ req socket, t.ctl = some (.dispatch req socket) ∧ Unreadable req

/-- A worker is dead. -/
def Dead (_ : Guard) (l : Ctl) : Prop := ∃ e, l = .dead e

section

variable {t : Guard}

theorem leave_tame (req : Option SockRequest) (socket : Sock) :
    Watching Between Dead (leave req socket) t :=
  Ghost.watched_act trivial (fun _ _ => trivial) fun _ hnot => absurd trivial hnot

theorem afterUnparse_tame {req : Option SockRequest} {socket : Sock}
    (hctl : t.ctl = some (.serve req socket)) (hconn : t.conn = some socket) :
    Watching Between Dead (.act (S := Actions) (.unparse socket) (afterUnparse req socket)) t := by
  have hreq : t.ctl.bind Ctl.req = req := by
    rw [hctl]
    rfl
  refine Ghost.watched_act hconn (fun r hr => ?_) fun r hnot => ?_
  · cases r with
    | ok request => exact hconn
    | error e =>
        obtain ⟨errno, rfl, hbears⟩ := hr e rfl
        unfold afterUnparse
        dsimp only
        split
        · exact leave_tame req socket
        · rename_i herrno
          have hsome := hbears.resolve_left herrno
          rw [hreq] at hsome
          cases req with
          | none => cases hsome
          | some req => exact hconn
  · cases r with
    | ok request => exact absurd nofun hnot
    | error e =>
        cases e with
        | ConnectionResetError errno =>
            -- the errno is another one, and there is no request to go on with
            have hreset : ¬ (errno = 10054 ∨ req.isSome) := fun h => hnot fun e he => by
              obtain rfl := Except.error.inj he
              exact ⟨errno, rfl, by rw [hreq]; exact h⟩
            obtain ⟨herrno, hnone⟩ := not_or.mp hreset
            rw [Option.not_isSome_iff_eq_none] at hnone
            refine ⟨.dead .UnboundLocalError, ?_, _, rfl⟩
            unfold afterUnparse
            dsimp only
            rw [if_neg herrno, hnone]
        | _ => exact ⟨_, rfl, _, rfl⟩

theorem afterDispatch_tame {req : SockRequest} {socket : Sock} {t' : Guard}
    {r : Except PyExn Flow × Unit} (hctl : t.ctl = some (.dispatch req socket))
    (hconn : t.conn = some socket) (h : Handled req t t' r) :
    Watching Between Dead (afterDispatch req socket r) t' := by
  rcases r with ⟨e | flow, u⟩
  · obtain ⟨rfl, he⟩ : t' = t ∧ Findable req e := h
    cases e with
    | StopHandler => exact hconn
    | ConnectionResetError errno =>
        unfold afterDispatch
        dsimp only
        split
        · exact leave_tame _ _
        · exact hconn
    | _ => exact ⟨req, socket, hctl, he.resolve_left (not_caught nofun nofun)⟩
  · cases flow with
    | continue_ =>
        obtain rfl : t' = t := h
        exact hconn
    | break_ => exact trivial

theorem afterDispatch_uncaught (req : SockRequest) (socket : Sock)
    {r : Except PyExn Flow × Unit} (h : Uncaught t r) :
    ∃ l, afterDispatch req socket r = .ret l ∧ Dead t l := by
  rcases r with ⟨e | flow, u⟩
  · cases e with
    | StopHandler => exact absurd (Or.inl rfl) h
    | ConnectionResetError errno => exact absurd (Or.inr ⟨errno, rfl⟩) h
    | _ => exact ⟨_, rfl, _, rfl⟩
  · exact h.elim

theorem rounds_tame {srv : Server} {l : Ctl} {p : Prog Actions Ctl} (hl : Between t l)
    (hround : round srv l = some p) : Watching Between Dead p (guardGhost.enter t l) := by
  cases l with
  | accept req =>
      obtain rfl := Option.some.inj hround
      refine Ghost.watched_act trivial (fun r hr => ?_) fun r hnot => ?_
      · obtain ⟨socket, rfl⟩ := hr
        exact rfl
      · cases r with
        | ok socket => exact absurd ⟨socket, rfl⟩ hnot
        | error e => exact ⟨_, rfl, e, rfl⟩
  | serve req socket =>
      obtain rfl := Option.some.inj hround
      exact afterUnparse_tame rfl hl
  | dispatch req socket =>
      obtain rfl := Option.some.inj hround
      refine Prog.Meets.bind ((dispatch_tame srv socket rfl).mono fun x r hr => ?_)
      cases x with
      | fine t' =>
          exact afterDispatch_tame (t := guardGhost.enter t (.dispatch req socket)) rfl hl hr
      | failed t' =>
          obtain ⟨l, hret, hdead⟩ := afterDispatch_uncaught (t := t') req socket hr
          rw [hret]
          exact hdead
  | dead e => cases hround

end

/-! ## All runs -/

section

variable {ι : Type} [DecidableEq ι] {srv : Server} {w w' : CWorld ι}

def guard (i : ι) (trace : List (Label Actions ι (Served ι) Ctl)) : Guard := guardGhost.of i trace

theorem guard_ctl (i : ι) (w : CWorld ι) : (guard i w.obs.trace).ctl = w.obs.ctl i := by
  unfold Obs.ctl
  rw [ctlOf_eq]
  refine Ghost.of_hom Guard.ctl rfl (fun t e r => ?_) (fun _ _ => rfl) i w.obs.trace
  cases e with
  | accept => cases r <;> rfl
  | _ => rfl

/-- The connection of a worker alone. -/
def connGhost : Ghost Actions Ctl (Option Sock) where
  init := none
  act c e r := match e, r with
    | .accept, .ok socket => some socket
    | .closeSocket _, _ => none
    | _, _ => c
  enter c _ := c

/-- It is the connection of `Link`. -/
theorem guard_conn (i : ι) (w : CWorld ι) :
    (guard i w.obs.trace).conn = (link i (w.map Served.toShared).obs.trace).conn := by
  have hmap : link i (w.map Served.toShared).obs.trace = linkGhost.of i w.obs.trace :=
    Ghost.of_map linkGhost i w.obs.trace
  rw [hmap]
  have hguard : (guard i w.obs.trace).conn = connGhost.of i w.obs.trace := by
    refine Ghost.of_hom Guard.conn rfl (fun t e r => ?_) (fun _ _ => rfl) i w.obs.trace
    cases e with
    | accept => cases r <;> rfl
    | _ => rfl
  have hlink : (linkGhost.of i w.obs.trace).conn = connGhost.of i w.obs.trace := by
    refine Ghost.of_hom Link.conn rfl (fun t e r => ?_) (fun _ _ => rfl) i w.obs.trace
    cases e with
    | accept => cases r <;> rfl
    | _ => rfl
  rw [hguard, hlink]

omit [DecidableEq ι] in
/-- What a client sends decides whether the worker survives that `unparse` returns. -/
theorem fair_iff {c c' : Visitor} {r : Except PyExn Request} (h : c.Reads r c')
    (req : Option SockRequest) :
    (∀ e, r = .error e → ∃ errno, e = .ConnectionResetError errno ∧
      (errno = 10054 ∨ req.isSome)) ↔ c.Fair req := by
  unfold Visitor.Reads at h
  rcases unparse_cases c.ending c.bytes with hbad | hcomplete | hout
  · -- neither side holds of a malformed head
    obtain ⟨e, hne, hread⟩ := unparse_malformed hbad
    rw [hread] at h
    obtain ⟨rfl, -⟩ := h
    refine iff_of_false (fun hall => ?_) fun hfair => hfair.1 hbad
    obtain ⟨errno, he, -⟩ := hall e rfl
    exact hne errno he
  · obtain ⟨request, rest, hread⟩ := unparse_complete hcomplete
    rw [hread] at h
    obtain ⟨rfl, -⟩ := h
    refine iff_of_true nofun ⟨fun hbad => ?_, fun _ _ => Or.inl hcomplete⟩
    obtain ⟨e, -, hraised⟩ := unparse_malformed hbad
    rw [hread] at hraised
    cases hraised
  · rcases hout with ⟨-, hread⟩ | ⟨errno, hresets, hread⟩
    · rw [hread] at h
      exact h.elim
    · rw [hread] at h
      obtain ⟨rfl, -⟩ := h
      have hbad : ¬ Malformed c.ending c.bytes := by
        intro hbad
        obtain ⟨e, hne, hraised⟩ := unparse_malformed hbad
        rw [hread] at hraised
        exact hne errno (Outcome.raised.inj hraised).symm
      have hcomplete : ¬ Complete c.ending c.bytes := by
        intro hcomplete
        obtain ⟨request, rest, hok⟩ := unparse_complete hcomplete
        rw [hread] at hok
        cases hok
      constructor
      · intro hall
        obtain ⟨errno', he, hbears⟩ := hall _ rfl
        obtain rfl := PyExn.ConnectionResetError.inj he
        refine ⟨hbad, fun errno'' hresets' => Or.inr ?_⟩
        obtain rfl := Ending.resets.inj (hresets.symm.trans hresets')
        exact hbears
      · rintro ⟨-, hfair⟩ e he
        obtain rfl := Except.error.inj he
        exact ⟨errno, rfl, (hfair errno hresets).resolve_left hcomplete⟩

/-- A run so far: the workers are watched, and the one that handles a request has read its header
`Session`. -/
structure Guarded (srv : Server) (w : CWorld ι) : Prop where
  reach : Reach (served srv) started w
  watched : ∀ i, Watching Between Dead (w.prog i) (guard i w.obs.trace)
  readable : ∀ i req socket, w.obs.ctl i = some (.dispatch req socket) → ¬ Unreadable req

theorem Guarded.system (hw : Guarded srv w) :
    Reach (system srv) initial (w.map Served.toShared) := (served_refines srv).reach hw.reach

theorem connections_reach {w : SWorld ι} (h : Reach (DianProtocol.Py.system srv) initial w) :
    Connections srv w :=
  h.invariant connections_initial fun _ _ _ hw hstep => hw.step hstep

/-- A worker reads from an open connection. -/
theorem Guarded.open_ (hw : Guarded srv w) {i : ι} {socket : Sock}
    {k : Except PyExn Request → Prog Actions Ctl}
    (hprog : w.prog i = .act (S := Actions) (.unparse socket) k) :
    socket ∉ w.obs.shared.closedSockets := by
  have hi := hw.watched i
  rw [hprog] at hi
  have hconn : (guard i w.obs.trace).conn = some socket := hi.1
  rw [guard_conn] at hconn
  exact ((connections_reach hw.system).conn i socket hconn).2

/-- The answers that a worker survives come under the circumstances that it survives. -/
theorem Guarded.bears_iff (hw : Guarded srv w) {i : ι} {e : Act} {k : e.Ans → Prog Actions Ctl}
    {r : e.Ans} {s : Served ι} (hprog : w.prog i = .act (S := Actions) e k)
    (hperf : PerformsFor i w.obs.shared e r s) :
    Bears (guard i w.obs.trace) e r ↔ Survived w.obs.shared (w.obs.ctl i) e r := by
  have hpre := (connections_reach hw.system).outline.pre (w := w.map Served.toShared) hprog
  have howned : ∀ id, (∃ x, Owned i (w.map Served.toShared).obs id x) →
      (w.obs.shared.sessions id).isSome := by
    rintro id ⟨x, hx⟩
    have hmem : w.obs.shared.sessions id = some x := hx.mem
    rw [hmem]
    rfl
  cases e with
  | unparse socket =>
      have hreads := hperf.2
      dsimp only at hreads
      rw [if_neg (hw.open_ hprog)] at hreads
      obtain ⟨c, hreads, -⟩ := hreads
      have hfair := fair_iff hreads ((w.obs.ctl i).bind Ctl.req)
      rw [← guard_ctl] at hfair ⊢
      exact hfair
  | getitem site id =>
      obtain ⟨hr, -⟩ : r = w.obs.shared.sessions id ∧ _ := hperf.1
      cases site with
      | socketCheck =>
          show r.isSome ↔ _
          rw [hr]
          rfl
      | play =>
          have hsome : r.isSome := by
            rw [hr]
            exact howned id hpre
          show (r.isSome ∧ _) ↔ _
          rw [guard_ctl]
          exact and_iff_right hsome
      | close =>
          have hsome : r.isSome := by
            rw [hr]
            exact howned id hpre
          exact iff_of_true hsome trivial
  | pop id =>
      obtain ⟨hr, -⟩ : r = w.obs.shared.sessions id ∧ _ := hperf.1
      have hsome : r.isSome := by
        rw [hr]
        exact howned id hpre
      exact iff_of_true hsome trivial
  | _ => exact Iff.rfl

/-- A tolerated step keeps the workers under watch. -/
theorem Guarded.step (hw : Guarded srv w) (h : Step (served srv) w w') (htol : Tolerated w w') :
    Guarded srv w' where
  reach := hw.reach.tail h
  watched := by
    refine Ghost.watched_step (fun t l p hl hround => rounds_tame hl hround) hw.watched h ?_
    intro i e r htrace
    obtain ⟨k, s, hprog, hperf, -⟩ := h.last_act htrace rfl
    exact (hw.bears_iff hprog hperf).mpr (htol.act i e r htrace)
  readable := by
    intro i req socket hctl
    cases h with
    | act hprog hperf =>
        rw [Obs.ctl_push_act] at hctl
        exact hw.readable i req socket hctl
    | @enter j l p hprog hround =>
        by_cases hi : j = i
        · subst hi
          rw [Obs.ctl_push_enter_self] at hctl
          obtain rfl := Option.some.inj hctl
          exact htol.enter j req socket rfl
        · rw [Obs.ctl_push_of_ne _ hi] at hctl
          exact hw.readable i req socket hctl

end

/-! ### A client that closes its connection -/

end DianProtocol.Py
