import DianProtocol.Py.Session

set_option autoImplicit false

/-! # The workers of `Server`

Every worker runs `_thread_boot`. Its control states are the places between which it runs: before
`accept`, at the top of the inner loop, and before the second `try`, where the request is
dispatched; a worker that an exception has left is dead. The variable `req` outlives the iterations
of both loops, which matters when `unparse` raises a `ConnectionResetError` that is not caught for
good: the request of an earlier iteration is dispatched again.

The workers share `_sessions` and use it without a lock. What the model says about an action is what
can be relied on for any client: `unparse` may return any request or raise anything, `_auths` may
hold any keys at any time. The values of `uuid4` never repeat.
-/

namespace DianProtocol.Py

open Concurrent

/-- `Server`, and the variable `root` of its module. -/
structure Server where
  use_auth : Bool := false
  root : Text := text "testfile"

def ALLOW_METHODS : List Text := [text "OPTIONS", text "SETUP", text "PLAY", text "TEARDOWN"]

/-- How an iteration of the inner loop ends. -/
inductive Flow where
  | continue_
  | break_
  deriving DecidableEq

/-! ## Requests -/

/-- The tests of PLAY and TEARDOWN: the id of a session that is in `_sessions` and has been set up
on this connection, `none` when an answer has been sent instead. -/
def findSession (req : SockRequest) (socket : Sock) : Worker (Option UUID) := do
  match req.headers.get? (text "Session") with
  | none =>
      respond req { status := 453, status_text := text "Session Not Found" }
      return none
  | some session =>
      match UUID.ofText session with
      | none => Exc.throw .ValueError
      | some session =>
          if ← perform (.contains session) then
            let found ← getitem .socketCheck session
            if found.socket ≠ socket then
              respond req { status := 455, status_text := text "Session Not Current" }
              return none
            else return some session
          else
            respond req { status := 454, status_text := text "Session Not Found" }
            return none

/-- The test of the header `Authorization`, `false` when an answer has been sent instead. -/
def authenticate (srv : Server) (req : SockRequest) : Worker Bool := do
  if srv.use_auth then
    match req.headers.get? (text "Authorization") with
    | none =>
        let headers : Dict := Dict.set {} (text "WWW-Authenticate") (text "Basic realm=\"dian\"")
        respond req { status := 401, status_text := text "Unauthorized", headers := headers }
        return false
    | some authorization =>
        let auths ← perform .auths
        if authorization ∉ auths.map (text "Bearer " ++ ·) then
          respond req { status := 403, status_text := text "Forbidden" }
          return false
        else return true
  else return true

def handleSetup (srv : Server) (req : SockRequest) (socket : Sock) : Worker Flow := do
  match req.headers.get? (text "Transport") with
  | none =>
      respond req { status := 461, status_text := text "Transport Not Found" }
      return .continue_
  | some transport =>
      if ← authenticate srv req then
        let session ← perform .uuid4
        let created ← Session.init srv.root req socket session
        perform (.setitem session created)
        let headers :=
          (Dict.set {} (text "Session") (UUID.str session)).set (text "Transport") transport
        respond req { headers := headers }
        return .continue_
      else return .continue_

def handlePlay (req : SockRequest) (socket : Sock) : Worker Flow := do
  match ← findSession req socket with
  | none => return .continue_
  | some session =>
      let found ← getitem .play session
      found.play (req.headers.get? (text "Range"))
      return .continue_

def handleTeardown (req : SockRequest) (socket : Sock) : Worker Flow := do
  match ← findSession req socket with
  | none => return .continue_
  | some session =>
      respond req {}
      let found ← getitem .close session
      found.close
      popitem session
      return .break_

/-- The second `try` of `_thread_boot`. -/
def dispatch (srv : Server) (req : SockRequest) (socket : Sock) : Worker Flow := do
  if req.method ∉ ALLOW_METHODS then
    respond req { status := 400, status_text := text "Bad Request" }
    return .continue_
  else if req.method = text "OPTIONS" then
    respond req {}
    return .continue_
  else if req.method = text "SETUP" then handleSetup srv req socket
  else if req.method = text "PLAY" then handlePlay req socket
  else if req.method = text "TEARDOWN" then handleTeardown req socket
  else return .continue_

/-! ## `_thread_boot` -/

/-- The control states of a worker. -/
inductive Ctl where
  | accept (req : Option SockRequest)
  | serve (req : Option SockRequest) (socket : Sock)
  | dispatch (req : SockRequest) (socket : Sock)
  | dead (e : PyExn)

/-- `socket.close(); break` -/
def leave (req : Option SockRequest) (socket : Sock) : Prog Actions Ctl :=
  .act (S := Actions) (.closeSocket socket) fun _ => .ret (.accept req)

/-- After `unparse`, with the handler of the first `try`. -/
def afterUnparse (req : Option SockRequest) (socket : Sock) :
    Except PyExn Request → Prog Actions Ctl
  | .ok request => .ret (.dispatch { request with sock := socket } socket)
  | .error (.ConnectionResetError errno) =>
      if errno = 10054 then leave req socket
      else match req with
        | some req => .ret (.dispatch req socket)
        | none => .ret (.dead .UnboundLocalError)
  | .error e => .ret (.dead e)

/-- After the second `try`, with its handlers. -/
def afterDispatch (req : SockRequest) (socket : Sock) :
    Except PyExn Flow × Unit → Prog Actions Ctl
  | (.ok .continue_, _) => .ret (.serve (some req) socket)
  | (.ok .break_, _) => .ret (.accept (some req))
  | (.error .StopHandler, _) => .ret (.serve (some req) socket)
  | (.error (.ConnectionResetError errno), _) =>
      if errno = 10054 then leave (some req) socket else .ret (.serve (some req) socket)
  | (.error e, _) => .ret (.dead e)

/-- `Server._thread_boot`, from one control state to the next. -/
def round (srv : Server) : Ctl → Option (Prog Actions Ctl)
  | .accept req => some (.act (S := Actions) .accept fun
      | .ok socket => .ret (.serve req socket)
      | .error e => .ret (.dead e))
  | .serve req socket => some (.act (S := Actions) (.unparse socket) (afterUnparse req socket))
  | .dispatch req socket =>
      some (((dispatch srv req socket).run ()).bind (afterDispatch req socket))
  | .dead _ => none

/-! ## The shared state -/

/-- The state shared by the workers: the dictionary `_sessions`; the sockets accepted so far, each
with the worker that accepted it, and the ids generated so far, each with the worker that generated
it; the sessions whose file is closed, and the sockets that are closed. -/
structure Shared (ι : Type) where
  sessions : UUID → Option Session := fun _ => none
  accepted : List (Sock × ι) := []
  uuids : List (UUID × ι) := []
  closedFiles : List UUID := []
  closedSockets : List Sock := []

/-- What an action of worker `i` can answer and do to the shared state. -/
def Performs {ι : Type} (i : ι) (s : Shared ι) : (e : Act) → e.Ans → Shared ι → Prop
  | .accept, .ok socket, s' => (∀ j, (socket, j) ∉ s.accepted) ∧
      s' = { s with accepted := (socket, i) :: s.accepted }
  | .accept, .error _, s' => s' = s
  | .unparse _, _, s' => s' = s
  | .uuid4, id, s' => (∀ j, (id, j) ∉ s.uuids) ∧ s' = { s with uuids := (id, i) :: s.uuids }
  | .auths, _, s' => s' = s
  | .contains id, found, s' => found = (s.sessions id).isSome ∧ s' = s
  | .getitem _ id, found, s' => found = s.sessions id ∧ s' = s
  | .setitem id session, _, s' =>
      s' = { s with sessions := Function.update s.sessions id (some session) }
  | .pop id, found, s' => found = s.sessions id ∧
      s' = { s with sessions := Function.update s.sessions id none }
  | .exists_ _, _, s' => s' = s
  | .open_ _ _, _, s' => s' = s
  | .seek id _, raised, s' => (id ∈ s.closedFiles → raised = some .ValueError) ∧ s' = s
  | .read id _, data, s' => (id ∈ s.closedFiles → data = .error .ValueError) ∧ s' = s
  | .closeFile id, _, s' => s' = { s with closedFiles := id :: s.closedFiles }
  | .send _ socket data, sent, s' => (socket ∈ s.closedSockets → sent = .error .OSError) ∧
      (∀ n, sent = .ok n → n ≤ data.length) ∧
      (∀ e, sent = .error e → e = .OSError ∨ ∃ errno, e = .ConnectionResetError errno) ∧ s' = s
  | .closeSocket socket, _, s' => s' = { s with closedSockets := socket :: s.closedSockets }

/-- The server with one worker for each element of `ι`. -/
def system {ι : Type} (srv : Server) : System Actions ι (Shared ι) Ctl where
  perform := Performs
  round := round srv

/-- The workers have been started and nothing has happened. -/
def initial {ι : Type} : World Actions ι (Shared ι) Ctl := ⟨⟨[], {}⟩, fun _ => .ret (.accept none)⟩

/-! ## Schedules

For a run on fixed inputs the environment's part is chosen with each step. -/

/-- The choices of the environment in one step: the socket that `accept` returns, the outcome of
`unparse`, the value of `uuid4`, the keys in `_auths`, the size of the file that is opened. A send
accepts everything. -/
structure Choice where
  socket : Sock := 0
  request : Except PyExn Request := .error .OSError
  id : UUID := 0
  auths : List Text := []
  file_size : Nat := 0

section

variable {ι : Type} [DecidableEq ι]

/-- The answer to an action of worker `i` under the choices `c`. -/
def answer (c : Choice) (i : ι) (s : Shared ι) : (e : Act) → Option (e.Ans × Shared ι)
  | .accept => if s.accepted.any (·.1 = c.socket) then none
      else some (.ok c.socket, { s with accepted := (c.socket, i) :: s.accepted })
  | .unparse _ => some (c.request, s)
  | .uuid4 => if s.uuids.any (·.1 = c.id) then none
      else some (c.id, { s with uuids := (c.id, i) :: s.uuids })
  | .auths => some (c.auths, s)
  | .contains id => some ((s.sessions id).isSome, s)
  | .getitem _ id => some (s.sessions id, s)
  | .setitem id session =>
      some ((), { s with sessions := Function.update s.sessions id (some session) })
  | .pop id =>
      some (s.sessions id, { s with sessions := Function.update s.sessions id none })
  | .exists_ _ => some (true, s)
  | .open_ _ _ => some (.ok c.file_size, s)
  | .seek id _ => some (if id ∈ s.closedFiles then some .ValueError else none, s)
  | .read id _ => some (if id ∈ s.closedFiles then .error .ValueError else .ok [], s)
  | .closeFile id => some ((), { s with closedFiles := id :: s.closedFiles })
  | .send _ socket data =>
      some (if socket ∈ s.closedSockets then .error .OSError else .ok data.length, s)
  | .closeSocket socket => some ((), { s with closedSockets := socket :: s.closedSockets })

omit [DecidableEq ι] in
theorem answer_sound (c : Choice) (i : ι) (s : Shared ι) (e : Act) (r : e.Ans) (s' : Shared ι)
    (h : answer c i s e = some (r, s')) : Performs i s e r s' := by
  cases e with
  | accept =>
      simp only [answer, Option.ite_none_left_eq_some, Option.some.injEq, Prod.mk.injEq] at h
      obtain ⟨hfresh, rfl, rfl⟩ := h
      exact ⟨fun j hj => hfresh (List.any_eq_true.mpr ⟨_, hj, by simp⟩), rfl⟩
  | uuid4 =>
      simp only [answer, Option.ite_none_left_eq_some, Option.some.injEq, Prod.mk.injEq] at h
      obtain ⟨hfresh, rfl, rfl⟩ := h
      exact ⟨fun j hj => hfresh (List.any_eq_true.mpr ⟨_, hj, by simp⟩), rfl⟩
  | seek id pos =>
      cases h
      exact ⟨fun hclosed => if_pos hclosed, rfl⟩
  | read id n =>
      cases h
      exact ⟨fun hclosed => if_pos hclosed, rfl⟩
  | send origin socket data =>
      cases h
      by_cases hclosed : socket ∈ s.closedSockets
      · simp [Performs, hclosed]
      · simp [Performs, hclosed]
  | contains id =>
      cases h
      exact ⟨rfl, rfl⟩
  | getitem site id =>
      cases h
      exact ⟨rfl, rfl⟩
  | pop id =>
      cases h
      exact ⟨rfl, rfl⟩
  | _ =>
      cases h
      rfl

/-- The run of the server along a schedule. -/
def run (srv : Server) (sched : List (ι × Choice)) : Option (World Actions ι (Shared ι) Ctl) :=
  (system srv).follow answer initial sched

theorem run_reach {srv : Server} {sched : List (ι × Choice)} {w : World Actions ι (Shared ι) Ctl}
    (h : run srv sched = some w) : Reach (system srv) initial w :=
  System.follow_sound (fun c i s e r s' => answer_sound c i s e r s') h

/-- What is computed of the run along a schedule is a fact about a reachable world. -/
theorem run_map {β : Type} (srv : Server) (sched : List (ι × Choice))
    (f : World Actions ι (Shared ι) Ctl → β) (b : β) (h : (run srv sched).map f = some b) :
    ∃ w, Reach (system srv) initial w ∧ f w = b := by
  obtain ⟨w, hw, hb⟩ := Option.map_eq_some_iff.mp h
  exact ⟨w, run_reach hw, hb⟩

end

end DianProtocol.Py
