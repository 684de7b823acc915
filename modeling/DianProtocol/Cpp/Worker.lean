import DianProtocol.Cpp.Handle

set_option autoImplicit false

/-! # The workers of `RtspServer::start`

Every worker accepts connections for ever and serves them one at a time. Its control states are the
places of the lambda in `start` between which it runs: before `accept`, at the top of the inner
loop, before `_handle`, in the two `catch (...)` handlers, and outside the lambda after an exception
has left it, which ends the process by `std::terminate`.

The workers share the map `sessions` and the mutex `sessions_lock`. The sections of `_handle`
between `lock` and `unlock` are thereby atomic for each other.
-/

namespace DianProtocol.Cpp

open Concurrent

/-- The loop that generates a session id: the first value of `newId` that is no key of `sessions`,
given the values that `rand()` returns. `none` when these do not end the loop. -/
def generateId (newId : Nat → Nat → Str) (sessions : Sessions) : List (Nat × Nat) → Option Str
  | [] => none
  | (a, b) :: draws =>
      if newId a b ∈ sessions then generateId newId sessions draws else some (newId a b)

/-- The session a pointer points to, `none` when the entry has been erased. -/
def SessionPtr.pointee (sessions : Sessions) : SessionPtr → Option Session
  | .own session => some session
  | .entry key => sessions[key]?

/-- `*ptr = session`. A write through a pointer to an erased entry leaves the map as it is. -/
def SessionPtr.write (sessions : Sessions) (session : Session) : SessionPtr → Sessions
  | .own _ => sessions
  | .entry key => if key ∈ sessions then sessions.insert key session else sessions

/-- The state shared by the workers: `sessions`, and the worker that holds `sessions_lock`. -/
structure Shared (ι : Type) where
  sessions : Sessions := ∅
  mutex : Option ι := none

section

variable {ι : Type}

/-- What an action of worker `i` can answer and do to the shared state. -/
def Performs (srv : Server) (i : ι) (s : Shared ι) : (e : Act) → e.Ans → Shared ι → Prop
  | .lock, _, s' => s.mutex = none ∧ s' = { s with mutex := some i }
  | .unlock, _, s' => s.mutex = some i ∧ s' = { s with mutex := none }
  | .generateId, id, s' => (∃ draws, generateId srv.newId s.sessions draws = some id) ∧ s' = s
  | .find key, found, s' => (found = true ↔ key ∈ s.sessions) ∧ s' = s
  | .index _ key, _, s' => s' = { s with sessions := s.sessions.insertIfNew key {} }
  | .store session, _, s' => s' = { s with sessions := s.sessions.insert session.id session }
  | .erase key, _, s' => s' = { s with sessions := s.sessions.erase key }
  | .auth _, _, s' => s' = s
  | .callback cb x ptr, ret, s' =>
      (∃ pointee, (∀ ses, ptr.pointee s.sessions = some ses → ses = pointee) ∧
        srv.behaves cb x pointee ret) ∧
      s' = { s with sessions := ptr.write s.sessions ret.session }
  | .send _ _, _, s' => s' = s
  | .sendBody _ _, _, s' => s' = s
  | .close, _, s' => s' = s
  | .accept, conn, s' => (∀ e, conn = .error e → e = .AcceptError) ∧ s' = s
  | .hang, _, _ => False

/-- The control states of a worker. -/
inductive Ctl where
  | accept
  | serve (conn : Conn)
  | dispatch (request : Request) (conn : Conn)
  | badRequest (request : Request) (conn : Conn)
  | serverError (vars : Locals)
  | terminate (e : Exn)

/-- The body of a `catch (...)` handler of `start`. -/
def replyError (status : Int) (reason : String) : Handler Unit := do
  setStatus status reason
  send .reply
  perform .close

/-- After a catch handler the worker leaves the inner loop; an exception in it leaves the lambda. -/
def afterReply : Except Exn Unit × Locals → Prog Actions Ctl
  | (.ok (), _) => .ret .accept
  | (.error e, _) => .ret (.terminate e)

/-- After `_handle`: the rest of the inner loop, with the catch handlers of the second `try`. -/
def afterHandle : Except Exn Unit × Locals → Prog Actions Ctl
  | (.ok (), x) => .ret (.serve x.conn)
  -- the handler leaves the loop for one error code; with any other the next request is parsed
  | (.error (.SendError errcode), x) => .ret (if errcode = 10054 then .accept else .serve x.conn)
  | (.error _, x) => .ret (.serverError x)

/-- The lambda of `RtspServer::start`, from one control state to the next. -/
def round (srv : Server) : Ctl → Option (Prog Actions Ctl)
  | .accept => some (.act (S := Actions) .accept fun
      | .ok conn => .ret (.serve conn)
      | .error e => .ret (.terminate e))
  | .serve conn => some <|
      match parseThis {} conn with
      | .done request conn => .ret (.dispatch request conn)
      -- with any other error code control falls through to `_handle`
      | .thrown (.RecvError errcode) request conn =>
          .ret (if errcode = 10054 then .accept else .dispatch request conn)
      | .thrown _ request conn => .ret (.badRequest request conn)
      | .blocked => .act (S := Actions) .hang fun r => nomatch r
  | .dispatch request conn =>
      some (((handle srv).run ⟨request, .ofRequest request, conn⟩).bind afterHandle)
  | .badRequest request conn =>
      some (((replyError 400 "Bad Request").run ⟨request, .ofRequest request, conn⟩).bind
        afterReply)
  | .serverError x => some (((replyError 500 "Internal Server Error").run x).bind afterReply)
  | .terminate _ => none

/-- The server with one worker for each element of `ι`. -/
def system (srv : Server) : System Actions ι (Shared ι) Ctl where
  perform := Performs srv
  round := round srv

/-- The workers have been started and nothing has happened. -/
def initial : World Actions ι (Shared ι) Ctl := ⟨⟨[], {}⟩, fun _ => .ret .accept⟩

end

/-! ## Schedules

For a run on fixed inputs the environment's part is chosen with each step: the connection that
`accept` returns, whether a send succeeds or credentials are accepted, and the values of `rand()`.
The server of such a run has no callbacks for sessions. -/

/-- The choices of the environment in one step. -/
structure Choice where
  conn : Conn := ⟨[], fun _ => []⟩
  ok : Bool := true
  draws : List (Nat × Nat) := [(0, 0)]

section

variable {ι : Type} [DecidableEq ι]

/-- The answer to an action of worker `i` under the choices `c`. -/
def answer (srv : Server) (c : Choice) (i : ι) (s : Shared ι) :
    (e : Act) → Option (e.Ans × Shared ι)
  | .lock => if s.mutex = none then some ((), { s with mutex := some i }) else none
  | .unlock => if s.mutex = some i then some ((), { s with mutex := none }) else none
  | .generateId => (generateId srv.newId s.sessions c.draws).map fun id => (id, s)
  | .find key => some (decide (key ∈ s.sessions), s)
  | .index _ key => some ((), { s with sessions := s.sessions.insertIfNew key {} })
  | .store session => some ((), { s with sessions := s.sessions.insert session.id session })
  | .erase key => some ((), { s with sessions := s.sessions.erase key })
  | .auth _ => some (.ok c.ok, s)
  | .callback _ _ _ => none
  | .send _ _ => some (c.ok, s)
  | .sendBody _ _ => some (if c.ok then none else some (.SendError (-1)), s)
  | .close => some ((), s)
  | .accept => some (.ok c.conn, s)
  | .hang => none

theorem answer_sound (srv : Server) (c : Choice) (i : ι) (s : Shared ι) (e : Act) (r : e.Ans)
    (s' : Shared ι) (h : answer srv c i s e = some (r, s')) : Performs srv i s e r s' := by
  cases e with
  | generateId =>
      obtain ⟨id, hid, heq⟩ := Option.map_eq_some_iff.mp h
      cases heq
      exact ⟨⟨c.draws, hid⟩, rfl⟩
  | find key =>
      cases h
      exact ⟨decide_eq_true_iff, rfl⟩
  | accept =>
      cases h
      exact ⟨nofun, rfl⟩
  | lock =>
      simp only [answer, Option.ite_none_right_eq_some, Option.some.injEq, Prod.mk.injEq] at h
      exact ⟨h.1, h.2.2.symm⟩
  | unlock =>
      simp only [answer, Option.ite_none_right_eq_some, Option.some.injEq, Prod.mk.injEq] at h
      exact ⟨h.1, h.2.2.symm⟩
  | callback cb x ptr => cases h
  | hang => cases h
  | _ =>
      cases h
      rfl

/-- The run of the server along a schedule. -/
def run (srv : Server) (sched : List (ι × Choice)) : Option (World Actions ι (Shared ι) Ctl) :=
  (system srv).follow (answer srv) initial sched

theorem run_reach {srv : Server} {sched : List (ι × Choice)} {w : World Actions ι (Shared ι) Ctl}
    (h : run srv sched = some w) : Reach (system srv) initial w :=
  System.follow_sound (fun c i s e r s' => answer_sound srv c i s e r s') h

/-- What is computed of the run along a schedule is a fact about a reachable world. -/
theorem run_map {β : Type} (srv : Server) (sched : List (ι × Choice))
    (f : World Actions ι (Shared ι) Ctl → β) (b : β) (h : (run srv sched).map f = some b) :
    ∃ w, Reach (system srv) initial w ∧ f w = b := by
  obtain ⟨w, hw, hb⟩ := Option.map_eq_some_iff.mp h
  exact ⟨w, run_reach hw, hb⟩

/-- `answer` for a server whose callbacks leave behind what `f` says. -/
def answerCalls (srv : Server) (f : Callback → Locals → Session → CallbackReturn) (c : Choice)
    (i : ι) (s : Shared ι) : (e : Act) → Option (e.Ans × Shared ι)
  | .callback cb x ptr =>
      let ret := f cb x ((ptr.pointee s.sessions).getD {})
      some (ret, { s with sessions := ptr.write s.sessions ret.session })
  | e => answer srv c i s e

theorem answerCalls_sound {srv : Server} {f : Callback → Locals → Session → CallbackReturn}
    (hf : ∀ cb x session, srv.behaves cb x session (f cb x session)) (c : Choice) (i : ι)
    (s : Shared ι) (e : Act) (r : e.Ans) (s' : Shared ι)
    (h : answerCalls srv f c i s e = some (r, s')) : Performs srv i s e r s' := by
  cases e with
  | callback cb x ptr =>
      cases h
      refine ⟨⟨(ptr.pointee s.sessions).getD {}, fun ses hses => ?_, hf _ _ _⟩, rfl⟩
      rw [hses]
      rfl
  | _ => exact answer_sound srv c i s _ r s' h

/-- What is computed of a run with callbacks is a fact about a reachable world. -/
theorem follow_map {β : Type} {srv : Server} {f : Callback → Locals → Session → CallbackReturn}
    (hf : ∀ cb x session, srv.behaves cb x session (f cb x session)) (sched : List (ι × Choice))
    (g : World Actions ι (Shared ι) Ctl → β) (b : β)
    (h : ((system srv).follow (answerCalls srv f) initial sched).map g = some b) :
    ∃ w, Reach (system srv) initial w ∧ g w = b := by
  obtain ⟨w, hw, hb⟩ := Option.map_eq_some_iff.mp h
  exact ⟨w, System.follow_sound (answerCalls_sound hf) hw, hb⟩

end

end DianProtocol.Cpp
