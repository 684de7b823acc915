import DianProtocol.Cpp.Progress

set_option autoImplicit false

/-! # One answer to each request

A worker sends answers in the branches of `_handle`, in the callbacks, and in the catch handlers of
`start`. `Tally` counts the parse attempts of the inner loop that a worker has begun and the heads
it has sent. As long as no socket call fails and the callbacks are polite, the worker owes one head
from the start of an attempt until it has sent one, and owes none when it goes on to the next
(`answered_once`).
-/

namespace DianProtocol.Cpp

open Concurrent

/-! ## Connections that do not fail -/

/-- No `recv` on the connection fails. -/
def Conn.Works (conn : Conn) : Prop := ∀ errcode, .error errcode ∉ conn.recvs

def Recv.failed : Recv → Bool
  | .error _ => true
  | _ => false

theorem Conn.works_iff {conn : Conn} : conn.Works ↔ ∀ r ∈ conn.recvs, r.failed = false := by
  constructor
  · intro h r hr
    cases r with
    | error errcode => exact absurd hr (h errcode)
    | _ => rfl
  · intro h errcode hmem
    cases h _ hmem

instance {conn : Conn} : Decidable conn.Works := decidable_of_iff _ Conn.works_iff.symm

theorem recvLoop_works {before delim data : Str} {left : Option Nat} {rs rs' : List Recv}
    {res : Except Int Str} (h : recvLoop before delim left data rs = some (res, rs'))
    (hrs : ∀ errcode, .error errcode ∉ rs) :
    (∃ line, res = .ok line) ∧ ∀ errcode, .error errcode ∉ rs' := by
  fun_induction recvLoop before delim left data rs with
  | case1 =>
      cases h
      exact ⟨⟨_, rfl⟩, hrs⟩
  | case2 => cases h
  | case3 left data errcode rs =>
      exact absurd (List.mem_cons_self ..) (hrs errcode)
  | case4 =>
      cases h
      exact ⟨⟨_, rfl⟩, fun errcode hmem => hrs errcode (List.mem_cons_of_mem _ hmem)⟩
  | case5 left data r rs _ _ data' _ ih =>
      exact ih h fun errcode hmem => hrs errcode (List.mem_cons_of_mem _ hmem)

/-- Receiving from a connection that works does not throw. -/
theorem recvUntil_works {conn : Conn} (delim : Str) (h : conn.Works) :
    conn.recvUntil delim = .blocked ∨
      ∃ line conn', conn.recvUntil delim = .done line conn' ∧ conn'.Works := by
  unfold Conn.recvUntil
  split
  · exact Or.inl rfl
  · rename_i errcode rs hloop
    obtain ⟨⟨line, hline⟩, -⟩ := recvLoop_works hloop h
    cases hline
  · rename_i data rs hloop
    exact Or.inr ⟨_, _, rfl, (recvLoop_works hloop h).2⟩

/-- Parsing ends with a request or with an exception of the parser, and the connection works. -/
def Parse.Fine : Parse → Prop
  | .done _ conn => conn.Works
  | .thrown e _ conn => e = parseError ∧ conn.Works
  | .blocked => True

theorem requestLine_thrown {base base' : Base} {line : Str} {e : Exn}
    (h : requestLine base line = (base', some e)) : e = parseError := by
  unfold requestLine at h
  split at h
  · cases h
    rfl
  split at h
  · cases h
    rfl
  split at h
  · cases h
    rfl
  split at h
  · cases h
    rfl
  · cases h

theorem headerLine_thrown {base base' : Base} {line : Str} {e : Exn}
    (h : headerLine base line = (base', some e)) : e = parseError := by
  unfold headerLine at h
  split at h
  · cases h
    rfl
  split at h
  · cases h
    rfl
  · cases h

theorem readHeaders_fine {fuel : Nat} {base : Base} {conn : Conn} (h : conn.Works) :
    (readHeaders fuel base conn).Fine := by
  induction fuel generalizing base conn with
  | zero => trivial
  | succ fuel ih =>
      rw [readHeaders]
      rcases recvUntil_works crlf h with hrecv | ⟨line, conn', hrecv, hconn⟩
      · rw [hrecv]
        trivial
      · rw [hrecv]
        dsimp only
        split
        · exact hconn
        · split
          · rename_i base' e hline
            exact ⟨headerLine_thrown hline, hconn⟩
          · exact ih hconn

theorem readRequest_fine {fuel : Nat} {base : Base} {conn : Conn} (h : conn.Works) :
    (readRequest fuel base conn).Fine := by
  induction fuel generalizing base conn with
  | zero => trivial
  | succ fuel ih =>
      rw [readRequest]
      rcases recvUntil_works crlf h with hrecv | ⟨line, conn', hrecv, hconn⟩
      · rw [hrecv]
        trivial
      · rw [hrecv]
        dsimp only
        split
        · exact ih hconn
        · split
          · rename_i base' e hline
            exact ⟨requestLine_thrown hline, hconn⟩
          · exact readHeaders_fine hconn

/-! ## Assumptions -/

/-- What a callback leaves that sends at most one head, throws only when it has sent none and no
`SendError`, and sets no body of unknown length. -/
structure CallbackReturn.Polite (ret : CallbackReturn) : Prop where
  heads : ret.heads.length = if ret.vars.response.sended then 1 else 0
  thrown : ∀ e, ret.thrown = some e → ret.heads = [] ∧ ∀ errcode, e ≠ .SendError errcode
  known : ∀ body, ret.vars.response.body = some body → body.maxlen ≠ none

/-- `authCallback` is set when it is needed, and the callbacks are polite, called with a response
that has not been sent. -/
structure Polite (srv : Server) : Prop where
  auth : srv.enable_auth = true → srv.authCallback = true
  callback : ∀ cb x session ret, srv.behaves cb x session ret → x.response.sended = false →
    ret.Polite

/-- No socket call fails: the accepted connections work, also behind what a callback has read from
them, and everything is sent. And `authCallback` throws no `SendError`. -/
def NoFailure : (e : Act) → e.Ans → Prop
  | .send _ _, sent => sent = true
  | .sendBody _ _, thrown => thrown = none
  | .accept, r => ∃ conn : Conn, r = .ok conn ∧ conn.Works
  | .callback _ _ _, ret => ret.vars.conn.Works
  | .auth _, r => ∀ errcode, r ≠ .error (.SendError errcode)
  | _, _ => True

instance (e : Act) (r : e.Ans) : Decidable (NoFailure e r) :=
  match e, r with
  | .send _ _, sent => inferInstanceAs (Decidable (sent = true))
  | .sendBody _ _, thrown => inferInstanceAs (Decidable (thrown = none))
  | .accept, .ok conn => decidable_of_iff conn.Works
      ⟨fun h => ⟨conn, rfl, h⟩, fun ⟨_, heq, h⟩ => Except.ok.inj heq ▸ h⟩
  | .accept, .error _ => isFalse nofun
  | .callback _ _ _, ret => inferInstanceAs (Decidable ret.vars.conn.Works)
  | .auth _, .ok _ => isTrue nofun
  | .auth _, .error e =>
      match e with
      | .SendError errcode => isFalse fun h => h errcode rfl
      | .exception _ | .runtime_error _ | .NotImplementError _ | .invalid_argument | .out_of_range
      | .AcceptError | .RecvError _ | .other _ => isTrue nofun
  | .lock, _ | .unlock, _ | .generateId, _ | .find _, _ | .index _ _, _ | .store _, _ | .erase _, _
  | .close, _ | .hang, _ => isTrue trivial

/-- `NoFailure`, and the callbacks are polite. -/
def Smooth : (e : Act) → e.Ans → Prop
  | .callback cb x ptr, ret =>
      NoFailure (.callback cb x ptr) ret ∧ (x.response.sended = false → ret.Polite)
  | e, r => NoFailure e r

/-! ## The tally of a worker -/

/-- What a worker has begun and sent since it was started. -/
structure Tally where
  ctl : Option Ctl := none
  /-- the times it has come to the top of the inner loop -/
  attempts : Nat := 0
  /-- the heads that it and its callbacks have sent -/
  heads : Nat := 0
  /-- it holds `sessions_lock` -/
  holds : Bool := false

def Tally.act (t : Tally) : (e : Act) → e.Ans → Tally
  | .lock, _ => { t with holds := true }
  | .unlock, _ => { t with holds := false }
  | .send _ _, sent => { t with heads := t.heads + if sent then 1 else 0 }
  | .callback _ _ _, ret => { t with heads := t.heads + ret.heads.length }
  | _, _ => t

def Tally.enter (t : Tally) : Ctl → Tally
  | .serve conn => { t with ctl := some (.serve conn), attempts := t.attempts + 1 }
  | l => { t with ctl := some l }

/-- The ghost state of a worker. -/
def tally : Ghost Actions Ctl Tally where
  init := {}
  act := Tally.act
  enter := Tally.enter

/-- A head is sent, and a callback called, only when the attempt has got no answer yet; the lock is
taken and released in turn; and nothing blocks the worker for ever but parsing. -/
def Tally.Pre (t : Tally) : Act → Prop
  | .lock => t.holds = false
  | .unlock => t.holds = true
  | .send _ _ => t.attempts = t.heads + 1
  | .callback _ x _ => t.attempts = t.heads + 1 ∧ x.response.sended = false ∧ x.conn.Works
  | .hang => t.holds = false ∧ ∃ conn, t.ctl = some (.serve conn) ∧ parseThis {} conn = .blocked
  | _ => True

/-- The worker owes an answer: the response `x.response` can be sent and has not been. -/
structure Tally.Owes (held : Bool) (t : Tally) (x : Locals) : Prop where
  count : t.attempts = t.heads + 1
  holds : t.holds = held
  sended : x.response.sended = false
  known : ∀ body, x.response.body = some body → body.maxlen ≠ none
  conn : x.conn.Works

/-- The worker has sent its answer. -/
structure Tally.Paid (held : Bool) (t : Tally) (x : Locals) : Prop where
  count : t.attempts = t.heads
  holds : t.holds = held
  sended : x.response.sended = true
  conn : x.conn.Works

/-- A handler that has returned has sent the answer; one that has thrown has not, and has not thrown
a `SendError`. -/
def Tally.Settled (t : Tally) : Except Exn Unit × Locals → Prop
  | (.ok (), x) => t.Paid false x
  | (.error e, x) => t.Owes false x ∧ ∀ errcode, e ≠ .SendError errcode

/-- The worker is outside of the critical sections. -/
def Tally.Free (t : Tally) (x : Locals) : Prop := t.Owes false x ∨ t.Paid false x

/-- A callback that has returned may have sent the answer. -/
def Tally.Called {α : Type} (t : Tally) : Except Exn α × Locals → Prop
  | (.ok _, x) => t.Free x
  | (.error e, x) => t.Owes false x ∧ ∀ errcode, e ≠ .SendError errcode

/-- Writing to the request, and to the head of the response, answers nothing. -/
theorem Tally.Owes.vars {held : Bool} {t : Tally} {x x' : Locals} (h : t.Owes held x)
    (hsended : x'.response.sended = x.response.sended) (hbody : x'.response.body = x.response.body)
    (hconn : x'.conn = x.conn) : t.Owes held x' := by
  constructor
  · exact h.count
  · exact h.holds
  · rw [hsended]
    exact h.sended
  · rw [hbody]
    exact h.known
  · rw [hconn]
    exact h.conn

/-- The lock is taken or released. -/
theorem Tally.Owes.mutex {held : Bool} {t : Tally} {x : Locals} (h : t.Owes held x) (held' : Bool) :
    Tally.Owes held' { t with holds := held' } x :=
  ⟨h.count, rfl, h.sended, h.known, h.conn⟩

theorem Tally.Free.holds {t : Tally} {x : Locals} (h : t.Free x) : t.holds = false := by
  rcases h with howes | hpaid
  · exact howes.holds
  · exact hpaid.holds

/-- A critical section that is left. -/
theorem Tally.Free.section {t : Tally} {x : Locals} (h : t.Free x) :
    Tally.Free { t with holds := false } x := by
  rcases h with howes | hpaid
  · exact Or.inl (howes.mutex false)
  · exact Or.inr ⟨hpaid.count, rfl, hpaid.sended, hpaid.conn⟩

/-! ## The walk through `_handle` -/

section

variable {srv : Server} {held : Bool} {x : Locals} {t : Tally} {α β : Type}

/-- `p` performs its actions as `Tally.Pre` says, and ends in `Post`, when its actions are answered
smoothly. -/
abbrev Tallies (Post : Tally → α → Prop) (p : Prog Actions α) (t : Tally) : Prop :=
  p.Meets (S := Actions) (tally.step Smooth) Tally.Pre Post t

theorem perform_tallies {Post : Tally → Except Exn β × Locals → Prop} {e : Act}
    {f : e.Ans → Handler β} (hpre : t.Pre e)
    (hf : ∀ r, Smooth e r → Tallies Post ((f r).run x) (t.act e r)) :
    Tallies Post ((perform e >>= f).run x) t :=
  Ghost.meets_act hpre fun r hr => hf r hr

/-- A worker that owes an answer and sends it has paid. -/
theorem send_tallies (site : Site) (h : t.Owes held x) :
    Tallies (fun t r => r.1 = .ok () ∧ t.Paid held r.2) ((send site).run x) t := by
  have hpaid : ∀ x' : Locals, x'.response.sended = true → x'.conn.Works →
      Tally.Paid held { t with heads := t.heads + 1 } x' :=
    fun x' hsended hconn => ⟨h.count, h.holds, hsended, hconn⟩
  rw [send_run, if_neg (by simp [h.sended])]
  split
  · refine Ghost.meets_act h.count fun sent hsent => ?_
    obtain rfl : sent = true := hsent
    exact ⟨rfl, hpaid _ rfl h.conn⟩
  · rename_i body hbody
    split
    · rename_i hlen
      exact absurd hlen (h.known body hbody)
    · refine Ghost.meets_act h.count fun sent hsent => ?_
      obtain rfl : sent = true := hsent
      refine Ghost.meets_act trivial fun thrown hthrown => ?_
      obtain rfl : thrown = none := hthrown
      exact ⟨rfl, hpaid _ rfl h.conn⟩

/-- A handler that ends with the answer. -/
theorem settled_of_paid (t : Tally) (r : Except Exn Unit × Locals)
    (h : r.1 = .ok () ∧ t.Paid false r.2) : t.Settled r := by
  rcases r with ⟨e | a, x⟩
  · cases h.1
  · exact h.2

theorem call_tallies (cb : Callback) (ptr : SessionPtr) (h : t.Owes false x) :
    Tallies (fun t r => t.Called r) ((call cb ptr).run x) t := by
  rw [call_run]
  refine Ghost.meets_act ⟨h.count, h.sended, h.conn⟩ fun ret hret => ?_
  obtain ⟨hconn, hpolite⟩ := hret
  have hpolite := hpolite h.sended
  have hlen := hpolite.heads
  have howes : ret.vars.response.sended = false →
      Tally.Owes false (t.act (.callback cb x ptr) ret) ret.vars := by
    intro hs
    rw [hs] at hlen
    refine ⟨?_, h.holds, hs, hpolite.known, hconn⟩
    show t.attempts = t.heads + ret.heads.length + 1
    rw [hlen]
    exact h.count
  cases hthrown : ret.thrown with
  | some e =>
      obtain ⟨hnil, hne⟩ := hpolite.thrown e hthrown
      refine ⟨howes ?_, hne⟩
      by_contra hs
      rw [hnil, if_pos (by simpa using hs)] at hlen
      cases hlen
  | none =>
      cases hs : ret.vars.response.sended with
      | false => exact Or.inl (howes hs)
      | true =>
          rw [hs] at hlen
          refine Or.inr ⟨?_, h.holds, hs, hconn⟩
          show t.attempts = t.heads + ret.heads.length
          rw [hlen]
          exact h.count

theorem callEntry_tallies {isSet : Bool} (cb : Callback) (key : Str) (h : t.Owes false x) :
    Tallies (fun t r => t.Called r) ((callEntry isSet cb key).run x) t := by
  unfold callEntry
  split
  · refine Prog.Meets.exc_bind ((call_tallies cb _ h).mono fun t₁ r hr => ?_)
    rcases r with ⟨e | a, x₁⟩
    · exact hr
    · exact hr
  · exact Or.inl h

/-- The answer of `_handle`, unless the callback has sent one. -/
theorem unlessSended_tallies {m : Handler Unit} (h : t.Free x)
    (hm : t.Owes false x → Tallies (fun t r => r.1 = .ok () ∧ t.Paid false r.2) (m.run x) t) :
    Tallies (fun t r => r.1 = .ok () ∧ t.Paid false r.2) ((unlessSended m).run x) t := by
  unfold unlessSended
  rw [Exc.run_vars_bind]
  rcases h with howes | hpaid
  · rw [if_neg (by simp [howes.sended])]
    exact hm howes
  · rw [if_pos hpaid.sended]
    exact ⟨rfl, hpaid⟩

/-- What `authenticate` leaves: a session and no answer yet, or the answer 401. -/
def Tally.Authenticated (t : Tally) : Except Exn (Option Session) × Locals → Prop
  | (.ok (some _), x) => t.Owes false x
  | (.ok none, x) => t.Paid false x
  | (.error e, x) => t.Owes false x ∧ ∀ errcode, e ≠ .SendError errcode

theorem unauthorized_tallies (h : t.Owes false x) :
    Tallies (fun t r => t.Authenticated r) (unauthorized.run x) t := by
  have h₁ : t.Owes false { x with response :=
      { x.response with status := 401, reason := str "Unauthorized" } } :=
    h.vars rfl rfl rfl
  unfold unauthorized
  rw [setStatus_bind]
  refine Prog.Meets.exc_bind ((send_tallies .handle h₁).mono fun t₂ r hr => ?_)
  rcases r with ⟨e | a, x₂⟩
  · cases hr.1
  · exact hr.2

theorem checkAuth_tallies {session : Session} (h : t.Owes false x)
    (hauth : srv.authCallback = true) :
    Tallies (fun t r => t.Authenticated r) ((checkAuth srv session).run x) t := by
  unfold checkAuth
  rw [if_pos hauth]
  refine perform_tallies trivial fun r hr => ?_
  rcases r with e | accepted
  · exact ⟨h, fun errcode heq => hr errcode (by rw [heq])⟩
  · cases accepted with
    | true => exact h
    | false => exact unauthorized_tallies h

theorem authenticate_tallies {session : Session} (h : t.Owes false x)
    (hauth : srv.enable_auth = true → srv.authCallback = true) :
    Tallies (fun t r => t.Authenticated r) ((authenticate srv session).run x) t := by
  unfold authenticate
  rw [Exc.run_vars_bind]
  split
  · rw [requestHeader_bind, requestHeader_bind]
    split
    · rename_i henable
      exact checkAuth_tallies (h.vars rfl rfl rfl) (hauth henable)
    · exact h.vars rfl rfl rfl
  · split
    · exact unauthorized_tallies h
    · exact h

theorem callSetup_tallies {session : Session} (h : t.Owes false x) :
    Tallies (fun t r => t.Called r) ((callSetup srv session).run x) t := by
  unfold callSetup
  split
  · exact call_tallies _ _ h
  · exact Or.inl h

theorem setupSession_tallies {session : Session} (h : t.Owes false x) :
    Tallies (fun t r => t.Settled r) ((setupSession srv session).run x) t := by
  unfold setupSession
  rw [requestHeader_bind]
  split
  · exact ⟨h.vars rfl rfl rfl, by simp⟩
  rw [requestHeader_bind]
  refine Prog.Meets.exc_bind ((callSetup_tallies ?_).mono fun t₁ r h₁ => ?_)
  · exact h.vars rfl rfl rfl
  rcases r with ⟨e | ses, x₁⟩
  · exact h₁
  have hfree : t₁.Free x₁ := h₁
  refine perform_tallies hfree.holds fun _ _ => ?_
  refine perform_tallies trivial fun _ _ => ?_
  refine perform_tallies rfl fun _ _ => ?_
  refine (unlessSended_tallies hfree.section fun howes => ?_).mono settled_of_paid
  rw [setStatus_bind, setHeader_bind, setHeader_bind]
  exact send_tallies .handle (howes.vars rfl rfl rfl)

theorem stoi_error {s : Str} {e : Exn} (h : stoi s = .error e) :
    e = .invalid_argument ∨ e = .out_of_range := by
  unfold stoi at h
  split at h
  · cases h
    exact Or.inl rfl
  · split at h
    · cases h
    · cases h
      exact Or.inr rfl

theorem map_error {f : α → β} {r : Except Exn α} {e : Exn} (h : r.map f = .error e) :
    r = .error e := by
  cases r with
  | ok a => cases h
  | error e' =>
      cases h
      rfl

theorem getURI_error {url : Str} {e : Exn} (h : getURI url = .error e) (errcode : Int) :
    e ≠ .SendError errcode := by
  unfold getURI at h
  dsimp only at h
  split at h
  · cases h
    simp
  split at h
  · cases h
    simp
  split at h
  · split at h
    · cases h
      simp
    · rcases stoi_error (map_error h) with rfl | rfl
      · simp
      · simp
  · cases h

theorem handleSetup_tallies (h : t.Owes false x)
    (hauth : srv.enable_auth = true → srv.authCallback = true) :
    Tallies (fun t r => t.Settled r) ((handleSetup srv).run x) t := by
  unfold handleSetup
  rw [Exc.run_vars_bind]
  split
  · rename_i e huri
    exact ⟨h, getURI_error huri⟩
  · refine perform_tallies h.holds fun _ _ => perform_tallies trivial fun id _ =>
      perform_tallies rfl fun _ _ => ?_
    have h₁ : Tally.Owes false { t with holds := false } x := h.mutex false
    refine Prog.Meets.exc_bind ((authenticate_tallies h₁ hauth).mono fun t₂ r h₂ => ?_)
    rcases r with ⟨e | ses, x₂⟩
    · exact h₂
    · cases ses with
      | none => exact h₂
      | some session => exact setupSession_tallies h₂

/-- The answer 454, which is sent inside the critical section. -/
theorem sessionNotFound_tallies (h : t.Owes true x) (hbody : x.response.body = none) :
    Tallies (fun t r => t.Settled r) (sessionNotFound.run x) t := by
  rw [sessionNotFound_run hbody h.sended]
  refine Ghost.meets_act h.count fun sent hsent => ?_
  obtain rfl : sent = true := hsent
  refine Ghost.meets_act h.holds fun _ _ => ?_
  exact ⟨h.count, rfl, rfl, h.conn⟩

theorem handleTeardown_tallies (h : t.Owes false x) (hbody : x.response.body = none) :
    Tallies (fun t r => t.Settled r) ((handleTeardown srv).run x) t := by
  unfold handleTeardown
  rw [requestHeader_bind]
  refine perform_tallies h.holds fun _ _ => perform_tallies trivial fun found _ => ?_
  cases found with
  | false => exact sessionNotFound_tallies ((h.mutex true).vars rfl rfl rfl) hbody
  | true =>
      refine perform_tallies trivial fun _ _ => perform_tallies rfl fun _ _ => ?_
      refine Prog.Meets.exc_bind ((callEntry_tallies _ _ ?_).mono fun t₁ r h₁ => ?_)
      · exact (h.mutex false).vars rfl rfl rfl
      rcases r with ⟨e | a, x₁⟩
      · exact h₁
      refine Prog.Meets.exc_bind ((unlessSended_tallies h₁ fun howes => ?_).mono fun t₂ r h₂ => ?_)
      · rw [setStatus_bind, requestHeader_bind, setHeader_bind]
        exact send_tallies .handle (howes.vars rfl rfl rfl)
      rcases r with ⟨e | a, x₂⟩
      · cases h₂.1
      refine perform_tallies h₂.2.holds fun _ _ => ?_
      rw [requestHeader_bind]
      refine perform_tallies trivial fun _ _ => Ghost.meets_act rfl fun _ _ => ?_
      exact ⟨h₂.2.count, rfl, h₂.2.sended, h₂.2.conn⟩

theorem playSession_tallies {session_id : Str} (h : t.Owes false x) :
    Tallies (fun t r => t.Settled r) ((playSession srv session_id).run x) t := by
  unfold playSession
  rw [Exc.run_vars_bind]
  split
  · refine perform_tallies h.holds fun _ _ => ?_
    refine perform_tallies trivial fun _ _ => perform_tallies rfl fun _ _ => ?_
    rw [requestHeader_bind, setHeader_bind, setHeader_bind]
    refine Prog.Meets.exc_bind ((callEntry_tallies _ _ ?_).mono fun t₁ r h₁ => ?_)
    · exact (h.mutex false).vars rfl rfl rfl
    rcases r with ⟨e | a, x₁⟩
    · exact h₁
    refine (unlessSended_tallies h₁ fun howes => ?_).mono settled_of_paid
    rw [setStatus_bind, requestHeader_bind, setHeader_bind, setHeader_bind, Exc.run_vars_bind,
      setHeader_bind]
    exact send_tallies .handle (howes.vars rfl rfl rfl)
  · rw [setStatus_bind]
    refine (send_tallies .handle ?_).mono settled_of_paid
    exact h.vars rfl rfl rfl

theorem handlePlay_tallies (h : t.Owes false x) (hbody : x.response.body = none) :
    Tallies (fun t r => t.Settled r) ((handlePlay srv).run x) t := by
  unfold handlePlay
  refine perform_tallies h.holds fun _ _ => ?_
  rw [requestHeader_bind]
  refine perform_tallies trivial fun found _ => ?_
  cases found with
  | false => exact sessionNotFound_tallies ((h.mutex true).vars rfl rfl rfl) hbody
  | true =>
      refine perform_tallies rfl fun _ _ => playSession_tallies ?_
      exact (h.mutex false).vars rfl rfl rfl

theorem handleOptions_tallies (h : t.Owes false x) :
    Tallies (fun t r => t.Settled r) (handleOptions.run x) t := by
  unfold handleOptions
  rw [setStatus_bind, setHeader_bind, Exc.run_vars_bind]
  split
  · rw [setStatus_bind]
    refine (send_tallies .handle ?_).mono settled_of_paid
    exact h.vars rfl rfl rfl
  · refine (send_tallies .handle ?_).mono settled_of_paid
    exact h.vars rfl rfl rfl

/-- **The answer of `_handle`**: when it returns it has sent one, and when it throws it has sent
none. -/
theorem handle_tallies (h : t.Owes false x) (hbody : x.response.body = none)
    (hauth : srv.enable_auth = true → srv.authCallback = true) :
    Tallies (fun t r => t.Settled r) ((handle srv).run x) t := by
  unfold handle
  rw [Exc.run_vars_bind]
  dsimp only
  split
  · exact handleOptions_tallies h
  split
  · exact handleSetup_tallies h hauth
  split
  · exact handleTeardown_tallies h hbody
  split
  · exact handlePlay_tallies h hbody
  · rw [setStatus_bind, setHeader_bind]
    refine (send_tallies .handle ?_).mono settled_of_paid
    exact h.vars rfl rfl rfl

/-! ## The rounds of a worker -/

/-- In which control states the worker owes an answer, and in which it has paid. In the former the
attempt comes closer to its end. -/
def Tally.Head (t : Tally) : Ctl → Prop
  | .accept => t.attempts = t.heads ∧ t.holds = false
  | .serve conn => t.attempts = t.heads ∧ t.holds = false ∧ conn.Works
  | .dispatch request conn =>
      t.Owes false ⟨request, .ofRequest request, conn⟩ ∧ ∃ conn, t.ctl = some (.serve conn)
  | .badRequest request conn =>
      t.Owes false ⟨request, .ofRequest request, conn⟩ ∧ ∃ conn, t.ctl = some (.serve conn)
  | .serverError x => t.Owes false x ∧ ∃ request conn, t.ctl = some (.dispatch request conn)
  | .terminate _ => False

theorem replyError_tallies {status : Int} {reason : String} (h : t.Owes false x) :
    Tallies Tally.Head (((replyError status reason).run x).bind afterReply) t := by
  have h₁ : t.Owes false
      { x with response := { x.response with status := status, reason := str reason } } :=
    h.vars rfl rfl rfl
  rw [replyError_run]
  refine Prog.Meets.bind (Prog.Meets.exc_bind ((send_tallies .reply h₁).mono fun t₂ r hr => ?_))
  rcases r with ⟨e | a, x₂⟩
  · cases hr.1
  · exact Ghost.meets_act trivial fun _ _ => ⟨hr.2.count, hr.2.holds⟩

@[simp] theorem Tally.act_ctl (t : Tally) (e : Act) (r : e.Ans) : (t.act e r).ctl = t.ctl := by
  cases e <;> rfl

@[simp] theorem Tally.act_attempts (t : Tally) (e : Act) (r : e.Ans) :
    (t.act e r).attempts = t.attempts := by
  cases e <;> rfl

/-- A program performed in a control state is still in it when it ends. -/
theorem tallies_ctl {Post : Tally → α → Prop} {p : Prog Actions α}
    (h : Tallies Post p t) : Tallies (fun t' a => Post t' a ∧ t'.ctl = t.ctl) p t := by
  induction p generalizing t with
  | ret a => exact ⟨h, rfl⟩
  | act e k ih =>
      refine ⟨h.1, fun r t' hstep => ?_⟩
      have hmeets := ih r (h.2 r t' hstep)
      obtain ⟨-, rfl⟩ := hstep
      refine hmeets.mono fun t' a ha => ⟨ha.1, ha.2.trans ?_⟩
      exact Tally.act_ctl _ _ _

/-- **One round.** -/
theorem rounds_tally (hpolite : Polite srv) {l : Ctl} {p : Prog Actions Ctl} (h : t.Head l)
    (hround : round srv l = some p) : Tallies Tally.Head p (t.enter l) := by
  cases l with
  | accept =>
      cases hround
      refine Ghost.meets_act trivial fun r hr => ?_
      obtain ⟨conn, rfl, hconn⟩ := hr
      exact ⟨h.1, h.2, hconn⟩
  | serve conn =>
      obtain rfl := Option.some.inj hround
      obtain ⟨hcount, hholds, hconn⟩ := h
      have howes : ∀ request conn', Conn.Works conn' →
          Tally.Owes false (t.enter (.serve conn)) ⟨request, .ofRequest request, conn'⟩ := by
        intro request conn' hconn'
        refine ⟨?_, hholds, rfl, nofun, hconn'⟩
        show t.attempts + 1 = t.heads + 1
        rw [hcount]
      have hfine : (parseThis {} conn).Fine := readRequest_fine hconn
      dsimp only
      split
      · rename_i request conn' hparse
        rw [hparse] at hfine
        exact ⟨howes request conn' hfine, conn, rfl⟩
      · rename_i errcode request conn' hparse
        rw [hparse] at hfine
        cases hfine.1
      · rename_i e request conn' _ hparse
        rw [hparse] at hfine
        exact ⟨howes request conn' hfine.2, conn, rfl⟩
      · rename_i hparse
        exact Ghost.meets_act ⟨hholds, conn, rfl, hparse⟩ fun r => nomatch r
  | dispatch request conn =>
      cases hround
      obtain ⟨h, -⟩ := h
      have howes : Tally.Owes false (t.enter (.dispatch request conn))
          ⟨request, .ofRequest request, conn⟩ := ⟨h.count, h.holds, h.sended, h.known, h.conn⟩
      have hwalk := tallies_ctl (handle_tallies howes rfl hpolite.auth)
      refine Prog.Meets.bind (hwalk.mono fun t₁ r hr => ?_)
      obtain ⟨hr, hctl⟩ := hr
      rcases r with ⟨e | a, x⟩
      · obtain ⟨howes₁, hne⟩ := hr
        cases e with
        | SendError errcode => exact absurd rfl (hne errcode)
        | _ => exact ⟨howes₁, request, conn, hctl⟩
      · exact ⟨hr.count, hr.holds, hr.conn⟩
  | badRequest request conn =>
      cases hround
      obtain ⟨h, -⟩ := h
      exact replyError_tallies ⟨h.count, h.holds, h.sended, h.known, h.conn⟩
  | serverError x =>
      cases hround
      obtain ⟨h, -⟩ := h
      exact replyError_tallies ⟨h.count, h.holds, h.sended, h.known, h.conn⟩
  | terminate e => cases hround

end

/-! ## Runs -/

section

variable {ι : Type} [DecidableEq ι] {srv : Server}

/-- The workers have been started with the sessions `m` in the map. -/
def started (m : Sessions) : World Actions ι (Shared ι) Ctl :=
  ⟨⟨[], { sessions := m }⟩, fun _ => .ret .accept⟩

/-- The callbacks in a run have done what the server's callbacks do. -/
theorem reach_behaves {w w' : World Actions ι (Shared ι) Ctl} (h : Reach (system srv) w w')
    (hw : w.obs.trace = []) : ∀ l ∈ w'.obs.trace, ∀ cb x ptr ret,
      l.event = .act (S := Actions) (.callback cb x ptr) ret →
        ∃ session, srv.behaves cb x session ret := by
  refine h.invariant (J := fun w => ∀ l ∈ w.obs.trace, ∀ cb x ptr ret,
    l.event = .act (S := Actions) (.callback cb x ptr) ret →
      ∃ session, srv.behaves cb x session ret) ?_ ?_
  · rw [hw]
    exact fun l hl => absurd hl List.not_mem_nil
  · intro w₁ w₂ _ ih hstep l hl cb x ptr ret hev
    cases hstep with
    | act hp hperf =>
        rcases List.mem_append.mp hl with hl | hl
        · exact ih l hl cb x ptr ret hev
        · rw [List.mem_singleton.mp hl] at hev
          cases hev
          obtain ⟨⟨pointee, -, hbehaves⟩, -⟩ := hperf
          exact ⟨pointee, hbehaves⟩
    | enter hp hl' =>
        rcases List.mem_append.mp hl with hl | hl
        · exact ih l hl cb x ptr ret hev
        · rw [List.mem_singleton.mp hl] at hev
          cases hev

/-- In a run in which no socket call fails, the actions of a server with polite callbacks are
answered smoothly. -/
theorem reach_smooth (hpolite : Polite srv) {m : Sessions} {w : World Actions ι (Shared ι) Ctl}
    (h : Reach (system srv) (started m) w) (hans : Answered (S := Actions) NoFailure w.obs.trace) :
    Answered (S := Actions) Smooth w.obs.trace := by
  intro l hl e r hev
  have hfails := hans l hl e r hev
  cases e with
  | callback cb x ptr =>
      obtain ⟨session, hbehaves⟩ := reach_behaves h rfl l hl cb x ptr r hev
      exact ⟨hfails, hpolite.callback cb x session r hbehaves⟩
  | _ => exact hfails

theorem Smooth.noFailure {e : Act} {r : e.Ans} (h : Smooth e r) : NoFailure e r := by
  cases e with
  | callback cb x ptr => exact h.1
  | _ => exact h

/-- What every worker owes and has paid, in every run. -/
theorem reach_tallies (hpolite : Polite srv) {m : Sessions} {w : World Actions ι (Shared ι) Ctl}
    (h : Reach (system srv) (started m) w) (hans : Answered (S := Actions) Smooth w.obs.trace)
    (i : ι) : Tallies Tally.Head (w.prog i) (tally.of i w.obs.trace) := by
  refine Ghost.meets_reach (fun t l p hhead hround => rounds_tally hpolite hhead hround)
    (fun i => ?_) h hans i
  exact (⟨rfl, rfl⟩ : Tally.Head {} .accept)

/-- The lock is held by the worker that has taken it. -/
def LockHeld (o : SObs ι) : Prop :=
  ∀ i, (tally.of i o.trace).holds = true ↔ o.shared.mutex = some i

theorem LockHeld.act {o : SObs ι} {i : ι} {e : Act} {r : e.Ans} {s : Shared ι} (h : LockHeld o)
    (hperf : Performs srv i o.shared e r s) : LockHeld (o.push i (.act (S := Actions) e r) s) := by
  intro j
  by_cases hj : i = j
  · subst hj
    rw [Ghost.of_push_self, Obs.push_shared]
    have hother : s.mutex = o.shared.mutex → ((tally.of i o.trace).act e r).holds =
        (tally.of i o.trace).holds → (((tally.of i o.trace).act e r).holds = true ↔
          s.mutex = some i) := by
      intro hmutex hholds
      rw [hmutex, hholds]
      exact h i
    cases e with
    | lock =>
        obtain ⟨-, rfl⟩ : _ ∧ s = _ := hperf
        show true = true ↔ some i = some i
        simp
    | unlock =>
        obtain ⟨-, rfl⟩ : _ ∧ s = _ := hperf
        show false = true ↔ none = some i
        simp
    | hang => exact hperf.elim
    | generateId | find key | callback cb x ptr | accept =>
        obtain ⟨-, rfl⟩ : _ ∧ s = _ := hperf
        exact hother rfl rfl
    | _ =>
        obtain rfl : s = _ := hperf
        exact hother rfl rfl
  · rw [Ghost.of_push_of_ne _ hj, Obs.push_shared, h j]
    exact (performs_mutex (Ne.symm hj) hperf).symm

theorem LockHeld.enter {o : SObs ι} (h : LockHeld o) (i : ι) (l : Ctl) :
    LockHeld (o.push i (.enter l) o.shared) := by
  intro j
  rw [Obs.push_shared, ← h j]
  by_cases hj : i = j
  · subst hj
    rw [Ghost.of_push_self]
    cases l <;> exact Iff.rfl
  · rw [Ghost.of_push_of_ne _ hj]

theorem reach_lockHeld {m : Sessions} {w : World Actions ι (Shared ι) Ctl}
    (h : Reach (system srv) (started m) w) : LockHeld w.obs := by
  refine h.invariant (J := fun w => LockHeld w.obs) ?_ ?_
  · intro i
    simp [started, Ghost.of, tally]
  · intro w₁ w₂ _ ih hstep
    cases hstep with
    | act hp hperf => exact ih.act hperf
    | enter hp hl => exact ih.enter _ _

/-! ### An attempt comes to its end -/

/-- There are session ids left, and a callback can return when no socket call fails. -/
structure Responsive (srv : Server) : Prop where
  newId : ∀ sessions : Sessions, ∃ a b, srv.newId a b ∉ sessions
  callback : ∀ cb x session, x.response.sended = false → x.conn.Works →
    ∃ ret, srv.behaves cb x session ret ∧ ret.vars.conn.Works

/-- Worker `i` has the lock to itself. -/
def Unshared (i : ι) (o : SObs ι) : Prop :=
  o.shared.mutex = if (tally.of i o.trace).holds then some i else none

theorem Unshared.of_eq {o : SObs ι} {i : ι} {e : Act} {r : e.Ans} {s : Shared ι}
    (h : Unshared i o) (hmutex : s.mutex = o.shared.mutex)
    (hholds : ((tally.of i o.trace).act e r).holds = (tally.of i o.trace).holds) :
    Unshared i (o.push i (.act (S := Actions) e r) s) := by
  unfold Unshared
  rw [Ghost.of_push_self, Obs.push_shared, hmutex, h]
  show _ = if ((tally.of i o.trace).act e r).holds then some i else none
  rw [hholds]

/-- A worker that has the lock to itself can perform its actions, unless it waits in `recv`. -/
theorem performs_next (hpolite : Polite srv) (hresponsive : Responsive srv) (i : ι) (o : SObs ι)
    (e : Act) (h : Unshared i o) (hpre : (tally.of i o.trace).Pre e) :
    e = .hang ∨ ∃ r s, Smooth e r ∧ Performs srv i o.shared e r s ∧
      Unshared i (o.push i (.act (S := Actions) e r) s) := by
  have hsame : ∀ (e : Act) (r : e.Ans) (sessions : Sessions), ((tally.of i o.trace).act e r).holds =
      (tally.of i o.trace).holds →
      Unshared i (o.push i (.act (S := Actions) e r) { o.shared with sessions := sessions }) :=
    fun e r sessions hholds => h.of_eq rfl hholds
  cases e with
  | lock =>
      have hfree : o.shared.mutex = none := by
        rw [h, show (tally.of i o.trace).holds = false from hpre]
        rfl
      refine Or.inr ⟨(), { o.shared with mutex := some i }, trivial, ⟨hfree, rfl⟩, ?_⟩
      unfold Unshared
      rw [Ghost.of_push_self]
      rfl
  | unlock =>
      have hheld : o.shared.mutex = some i := by
        rw [h, show (tally.of i o.trace).holds = true from hpre]
        rfl
      refine Or.inr ⟨(), { o.shared with mutex := none }, trivial, ⟨hheld, rfl⟩, ?_⟩
      unfold Unshared
      rw [Ghost.of_push_self]
      rfl
  | generateId =>
      obtain ⟨a, b, hnew⟩ := hresponsive.newId o.shared.sessions
      refine Or.inr ⟨srv.newId a b, o.shared, trivial, ⟨⟨[(a, b)], if_neg hnew⟩, rfl⟩, ?_⟩
      exact hsame .generateId _ _ rfl
  | find key =>
      refine Or.inr ⟨decide (key ∈ o.shared.sessions), o.shared, trivial,
        ⟨decide_eq_true_iff, rfl⟩, ?_⟩
      exact hsame (.find key) _ _ rfl
  | index cb key => exact Or.inr ⟨(), _, trivial, rfl, hsame (.index cb key) _ _ rfl⟩
  | store session => exact Or.inr ⟨(), _, trivial, rfl, hsame (.store session) _ _ rfl⟩
  | erase key => exact Or.inr ⟨(), _, trivial, rfl, hsame (.erase key) _ _ rfl⟩
  | auth session =>
      refine Or.inr ⟨.ok true, _, ?_, rfl, hsame (.auth session) _ _ rfl⟩
      intro errcode heq
      cases heq
  | callback cb x ptr =>
      obtain ⟨-, hsended, hconn⟩ := hpre
      obtain ⟨ret, hbehaves, hworks⟩ :=
        hresponsive.callback cb x ((ptr.pointee o.shared.sessions).getD {}) hsended hconn
      refine Or.inr ⟨ret, _, ⟨hworks, hpolite.callback cb x _ ret hbehaves⟩,
        ⟨⟨_, fun session hsession => ?_, hbehaves⟩, rfl⟩, hsame (.callback cb x ptr) _ _ rfl⟩
      rw [hsession]
      rfl
  | send site x => exact Or.inr ⟨true, _, rfl, rfl, hsame (.send site x) _ _ rfl⟩
  | sendBody site body => exact Or.inr ⟨none, _, rfl, rfl, hsame (.sendBody site body) _ _ rfl⟩
  | close => exact Or.inr ⟨(), _, trivial, rfl, hsame .close _ _ rfl⟩
  | accept =>
      refine Or.inr ⟨.ok ⟨[], fun _ => []⟩, _, ⟨_, rfl, fun _ => List.not_mem_nil⟩,
        ⟨nofun, rfl⟩, ?_⟩
      exact hsame .accept _ _ rfl
  | hang => exact Or.inl rfl

theorem Tally.Head.holds {t : Tally} {l : Ctl} (h : t.Head l) : t.holds = false := by
  cases l with
  | accept => exact h.2
  | serve conn => exact h.2.1
  | dispatch request conn => exact h.1.holds
  | badRequest request conn => exact h.1.holds
  | serverError x => exact h.1.holds
  | terminate e => exact h.elim

variable {m : Sessions} {w : World Actions ι (Shared ι) Ctl}

/-- A worker that has the lock to itself can go on to the end of its round, or to a `recv` in which
it waits. -/
theorem goes_on (hpolite : Polite srv) (hresponsive : Responsive srv)
    (hreach : Reach (system srv) (started m) w)
    (hans : Answered (S := Actions) Smooth w.obs.trace) {j : ι} (hfree : Unshared j w.obs)
    {K : SObs ι → Prop} (hK : ∀ o e r s, K o → K (o.push j (.act (S := Actions) e r) s))
    (hKw : K w.obs) :
    ∃ w', Reach (system srv) w w' ∧ Answered (S := Actions) Smooth w'.obs.trace ∧
      Unshared j w'.obs ∧ K w'.obs ∧
      ((∃ l, w'.prog j = .ret l ∧ (tally.of j w'.obs.trace).Head l) ∨
        (tally.of j w'.obs.trace).Pre .hang) := by
  have hgo : ∃ w', Reach (system srv) w w' ∧ Answered (S := Actions) Smooth w'.obs.trace ∧
      (Unshared j w'.obs ∧ K w'.obs) ∧
      ((∃ l, w'.prog j = .ret l ∧ (tally.of j w'.obs.trace).Head l) ∨
        ∃ e, e = .hang ∧ (tally.of j w'.obs.trace).Pre e) := by
    refine Ghost.go_on (I := fun o => Unshared j o ∧ K o) (B := fun e => e = .hang) ?_ rfl
      ⟨hfree, hKw⟩ hans (reach_tallies hpolite hreach hans j)
    rintro o e ⟨hunshared, hKo⟩ hpre
    refine (performs_next hpolite hresponsive j o e hunshared hpre).imp_right ?_
    rintro ⟨r, s, hr, hperf, hnext⟩
    exact ⟨r, s, hr, hperf, hnext, hK o e r s hKo⟩
  obtain ⟨w', hreach', hans', ⟨hfree', hKw'⟩, hend⟩ := hgo
  refine ⟨w', hreach', hans', hfree', hKw', hend.imp_right ?_⟩
  rintro ⟨e, rfl, hpre⟩
  exact hpre

/-- The worker that holds the lock can be waited for. -/
theorem lock_released (hpolite : Polite srv) (hresponsive : Responsive srv)
    (hreach : Reach (system srv) (started m) w)
    (hans : Answered (S := Actions) Smooth w.obs.trace) (i : ι) :
    ∃ w', Reach (system srv) w w' ∧ Answered (S := Actions) Smooth w'.obs.trace ∧
      Unshared i w'.obs ∧ tally.of i w'.obs.trace = tally.of i w.obs.trace := by
  have hheld := reach_lockHeld hreach
  cases hmutex : w.obs.shared.mutex with
  | none =>
      refine ⟨w, .refl, hans, ?_, rfl⟩
      have hholds : ¬ (tally.of i w.obs.trace).holds = true := by
        rw [hheld i, hmutex]
        simp
      unfold Unshared
      rw [if_neg hholds, hmutex]
  | some j =>
      by_cases hj : j = i
      · subst hj
        refine ⟨w, .refl, hans, ?_, rfl⟩
        unfold Unshared
        rw [if_pos ((hheld j).mpr hmutex), hmutex]
      · have hfree : Unshared j w.obs := by
          unfold Unshared
          rw [if_pos ((hheld j).mpr hmutex), hmutex]
        obtain ⟨w', hreach', hans', hfree', hsame, hend⟩ := goes_on hpolite hresponsive hreach hans
          hfree (K := fun o => tally.of i o.trace = tally.of i w.obs.trace)
          (fun o e r s hK => by rw [Ghost.of_push_of_ne _ hj]; exact hK) rfl
        refine ⟨w', hreach', hans', ?_, hsame⟩
        -- the other worker has left its critical section
        have hleft : (tally.of j w'.obs.trace).holds = false := by
          rcases hend with ⟨l, -, hhead⟩ | hhang
          · exact hhead.holds
          · exact hhang.1
        have hholds : ¬ (tally.of i w.obs.trace).holds = true := by
          rw [hheld i, hmutex]
          intro heq
          exact hj (Option.some.inj heq)
        unfold Unshared at hfree' ⊢
        rw [hfree', hsame, if_neg hholds, hleft]
        rfl

/-- The rounds that an attempt may still take after the present one. -/
def roundsLeft : Option Ctl → Nat
  | some (.serve _) => 2
  | some (.dispatch _ _) => 1
  | _ => 0

/-- The worker waits in `recv` for the rest of a request. -/
def Tally.Waits (t : Tally) : Prop :=
  ∃ conn, t.ctl = some (.serve conn) ∧ parseThis {} conn = .blocked

/-- Worker `i` can go on until it has sent the answer of its present attempt. -/
def Completes (srv : Server) (w : World Actions ι (Shared ι) Ctl) (i : ι) : Prop :=
  ∃ w', Reach (system srv) w w' ∧ Answered (S := Actions) NoFailure w'.obs.trace ∧
    (tally.of i w'.obs.trace).attempts = (tally.of i w.obs.trace).attempts ∧
    (tally.of i w'.obs.trace).heads = (tally.of i w.obs.trace).attempts

omit [DecidableEq ι] in
theorem answered_noFailure {trace : List (Label Actions ι (Shared ι) Ctl)}
    (h : Answered (S := Actions) Smooth trace) : Answered (S := Actions) NoFailure trace :=
  fun l hl e r hev => (h l hl e r hev).noFailure

/-- A worker that owes an answer at the end of a round enters another one, closer to the answer. -/
theorem Tally.Head.next (srv : Server) {t : Tally} {l : Ctl} (h : t.Head l)
    (howes : t.attempts ≠ t.heads) :
    ∃ p, round srv l = some p ∧ roundsLeft (some l) < roundsLeft t.ctl ∧ (∀ conn, l ≠ .serve conn) ∧
      t.enter l = { t with ctl := some l } := by
  cases l with
  | accept => exact absurd h.1 howes
  | serve conn => exact absurd h.1 howes
  | dispatch request conn =>
      obtain ⟨-, conn₀, hctl⟩ := h
      refine ⟨_, rfl, ?_, nofun, rfl⟩
      rw [hctl]
      exact Nat.lt_succ_self 1
  | badRequest request conn =>
      obtain ⟨-, conn₀, hctl⟩ := h
      refine ⟨_, rfl, ?_, nofun, rfl⟩
      rw [hctl]
      exact Nat.succ_pos 1
  | serverError x =>
      obtain ⟨-, request, conn, hctl⟩ := h
      refine ⟨_, rfl, ?_, nofun, rfl⟩
      rw [hctl]
      exact Nat.succ_pos 0
  | terminate e => exact h.elim

/-- An attempt is answered when its rounds are over. -/
theorem attempt_completes (hpolite : Polite srv) (hresponsive : Responsive srv) (i : ι) (n : Nat)
    (hreach : Reach (system srv) (started m) w)
    (hans : Answered (S := Actions) Smooth w.obs.trace) (hfree : Unshared i w.obs)
    (hn : roundsLeft (tally.of i w.obs.trace).ctl = n) :
    (tally.of i w.obs.trace).Waits ∨ Completes srv w i := by
  induction n using Nat.strong_induction_on generalizing w with
  | _ n ih =>
  obtain ⟨w₁, hreach₁, hans₁, hfree₁, ⟨hattempts, hctl⟩, hend⟩ :=
    goes_on hpolite hresponsive hreach hans hfree
      (K := fun o => (tally.of i o.trace).attempts = (tally.of i w.obs.trace).attempts ∧
        (tally.of i o.trace).ctl = (tally.of i w.obs.trace).ctl)
      (fun o e r s hK => by
        rw [Ghost.of_push_self]
        exact ⟨(Tally.act_attempts _ _ _).trans hK.1, (Tally.act_ctl _ _ _).trans hK.2⟩)
      ⟨rfl, rfl⟩
  rcases hend with ⟨l, hprog, hhead⟩ | ⟨-, hwaits⟩
  · by_cases hpaid : (tally.of i w₁.obs.trace).attempts = (tally.of i w₁.obs.trace).heads
    · exact Or.inr ⟨w₁, hreach₁, answered_noFailure hans₁, hattempts, hpaid.symm.trans hattempts⟩
    · -- the next round of the attempt
      obtain ⟨p, hround, hleft, hserve, henter⟩ := hhead.next srv hpaid
      have hstep : Step (system srv) w₁ ⟨w₁.obs.push i (.enter l) w₁.obs.shared,
          Function.update w₁.prog i p⟩ := .enter hprog hround
      have hreach₂ := hreach₁.tail hstep
      have htally : tally.of i (w₁.obs.push i (.enter l) w₁.obs.shared).trace =
          { tally.of i w₁.obs.trace with ctl := some l } :=
        (Ghost.of_push_self _ _ _ _).trans henter
      have hfree₂ : Unshared i (w₁.obs.push i (.enter l) w₁.obs.shared) := by
        unfold Unshared
        rw [htally]
        exact hfree₁
      have hless :
          roundsLeft (tally.of i (w₁.obs.push i (.enter l) w₁.obs.shared).trace).ctl < n := by
        rw [htally, ← hn, ← hctl]
        exact hleft
      rcases ih _ hless (hreach.trans hreach₂) hans₁.push_enter hfree₂ rfl with
        ⟨conn, hserving, -⟩ | ⟨w', hreach', hans', hattempts', hheads'⟩
      · rw [htally] at hserving
        exact absurd (Option.some.inj hserving) (hserve conn)
      · rw [htally] at hattempts' hheads'
        exact Or.inr ⟨w', hreach₂.trans hreach', hans', hattempts'.trans hattempts,
          hheads'.trans hattempts⟩
  · rw [hctl] at hwaits
    exact Or.inl hwaits

/-! ### Counting -/

/-- The worker has sent one head for each attempt, or for each but the present one. -/
def Tally.Counts (t : Tally) : Prop := t.attempts = t.heads ∨ t.attempts = t.heads + 1

theorem Tally.Counts.act {t : Tally} {e : Act} {r : e.Ans} (h : t.Counts) (hpre : t.Pre e)
    (hr : Smooth e r) : (t.act e r).Counts := by
  cases e with
  | send site x =>
      obtain rfl : r = true := hr
      exact Or.inl hpre
  | callback cb x ptr =>
      obtain ⟨hcount, hsended, -⟩ := hpre
      have hheads := (hr.2 hsended).heads
      show t.attempts = t.heads + r.heads.length ∨ t.attempts = t.heads + r.heads.length + 1
      split at hheads
      · rw [hheads]
        exact Or.inl hcount
      · rw [hheads]
        exact Or.inr hcount
  | _ => exact h

theorem Tally.Head.counts {t : Tally} {l : Ctl} (h : t.Head l) : (t.enter l).Counts := by
  cases l with
  | accept => exact Or.inl h.1
  | serve conn =>
      refine Or.inr ?_
      show t.attempts + 1 = t.heads + 1
      rw [h.1]
  | dispatch request conn => exact Or.inr h.1.count
  | badRequest request conn => exact Or.inr h.1.count
  | serverError x => exact Or.inr h.1.count
  | terminate e => exact h.elim

theorem reach_counts (hpolite : Polite srv) (hreach : Reach (system srv) (started m) w)
    (hans : Answered (S := Actions) Smooth w.obs.trace) (i : ι) :
    (tally.of i w.obs.trace).Counts := by
  refine hreach.invariant (J := fun w => Answered (S := Actions) Smooth w.obs.trace →
    (tally.of i w.obs.trace).Counts) (fun _ => Or.inl rfl) ?_ hans
  intro w₁ w₂ hreach₁ ih hstep hans₂
  have hans₁ := hans₂.of_prefix hstep.trace_prefix
  cases hstep with
  | @act j e k r s hp hperf =>
      show (tally.of i (w₁.obs.push j (.act e r) s).trace).Counts
      by_cases hj : j = i
      · subst hj
        rw [Ghost.of_push_self]
        have hwalk := reach_tallies hpolite hreach₁ hans₁ j
        rw [hp] at hwalk
        exact (ih hans₁).act hwalk.1 hans₂.last
      · rw [Ghost.of_push_of_ne _ hj]
        exact ih hans₁
  | @enter j l p hp hl =>
      show (tally.of i (w₁.obs.push j (.enter l) w₁.obs.shared).trace).Counts
      by_cases hj : j = i
      · subst hj
        rw [Ghost.of_push_self]
        have hwalk := reach_tallies hpolite hreach₁ hans₁ j
        rw [hp] at hwalk
        exact Tally.Head.counts hwalk
      · rw [Ghost.of_push_of_ne _ hj]
        exact ih hans₁

/-! ## One answer to each attempt -/

/-- Worker `i` sends one head for each parse attempt. -/
structure AnswersOnce (srv : Server) (w : World Actions ι (Shared ι) Ctl) (i : ι) : Prop where
  /-- in an attempt it has sent no head yet, or one -/
  counts : (tally.of i w.obs.trace).Counts
  /-- between two attempts it has sent one for each -/
  between : ∀ l, w.prog i = .ret l → (l = .accept ∨ ∃ conn, l = .serve conn) →
    (tally.of i w.obs.trace).attempts = (tally.of i w.obs.trace).heads
  /-- no exception has left its lambda -/
  stays : ∀ e, w.prog i ≠ .ret (.terminate e)
  /-- it can send the head it owes, unless it waits for the request -/
  completes : Responsive srv →
    (tally.of i w.obs.trace).attempts = (tally.of i w.obs.trace).heads + 1 →
    (tally.of i w.obs.trace).Waits ∨ Completes srv w i

/-- **One answer to each attempt.** With polite callbacks, in every run in which no socket call
fails, whatever sessions there are at the start. -/
theorem answers_once (srv : Server) (hpolite : Polite srv) (m : Sessions)
    (w : World Actions ι (Shared ι) Ctl) (hreach : Reach (system srv) (started m) w)
    (hans : Answered (S := Actions) NoFailure w.obs.trace) (i : ι) : AnswersOnce srv w i := by
  have hsmooth := reach_smooth hpolite hreach hans
  have hwalk := reach_tallies hpolite hreach hsmooth i
  constructor
  · exact reach_counts hpolite hreach hsmooth i
  · intro l hprog hl
    rw [hprog] at hwalk
    rcases hl with rfl | ⟨conn, rfl⟩
    · exact hwalk.1
    · exact hwalk.1
  · intro e hprog
    rw [hprog] at hwalk
    exact hwalk
  · intro hresponsive _
    obtain ⟨w₁, hreach₁, hsmooth₁, hfree₁, hsame⟩ :=
      lock_released hpolite hresponsive hreach hsmooth i
    rcases attempt_completes hpolite hresponsive i _ (hreach.trans hreach₁) hsmooth₁ hfree₁ rfl with
      hwaits | ⟨w', hreach', hans', hattempts, hheads⟩
    · rw [hsame] at hwaits
      exact Or.inl hwaits
    · rw [hsame] at hattempts hheads
      exact Or.inr ⟨w', hreach₁.trans hreach', hans', hattempts, hheads⟩

end

/-! ### A run with three attempts -/

/-- A callback that sends the response. -/
def sends (_ : Callback) (x : Locals) (session : Session) : CallbackReturn where
  vars := { x with response := { x.response with body := none, sended := true } }
  session := session
  heads := [x.response.unparseHead]

/-- A server whose play callback sends the response. -/
def sendingServer : Server where
  playCallback := true
  behaves cb x session ret := ret = sends cb x session

theorem sendingServer_polite : Polite sendingServer := by
  constructor
  · exact nofun
  · intro cb x session ret hret _
    obtain rfl : ret = _ := hret
    exact ⟨rfl, nofun, nofun⟩

theorem sendingServer_responsive : Responsive sendingServer := by
  constructor
  · intro sessions
    have hinj : Function.Injective (sendingServer.newId 0) :=
      fun b b' heq => to_string_injective (List.append_cancel_left heq)
    obtain ⟨id, ⟨b, rfl⟩, hid⟩ :=
      (Set.infinite_range_of_injective hinj).exists_notMem_finset sessions.keys.toFinset
    exact ⟨0, b, by simpa using hid⟩
  · intro cb x session _ hconn
    exact ⟨_, rfl, hconn⟩

/-- A client that sends a SETUP, a PLAY and a line that is no request, up to the 400. -/
def threeAttempts : List (Unit × Choice) :=
  List.replicate 22 ((), { conn := .ofString ("SETUP diantp://a/ 0.5\r\nTransport: TCP\r\n\r\n"
    ++ "PLAY diantp://a/ 0.5\r\nCSeq: 1\r\nSession: 00\r\n\r\nPLAY\r\n") })

def rejects : Option Ctl → Bool
  | some (.badRequest _ _) => true
  | _ => false

/-- `answers_once` in the third attempt of a connection: the line that is no request gets its
answer. -/
theorem answers_once_third : ∃ w, Reach (system sendingServer) (started ∅) w ∧
    (tally.of () w.obs.trace).attempts = 3 ∧ (tally.of () w.obs.trace).heads = 2 ∧
    Completes sendingServer w () := by
  have hsends : ∀ cb x session, sendingServer.behaves cb x session (sends cb x session) :=
    fun _ _ _ => rfl
  obtain ⟨w, hreach, hw⟩ := follow_map hsends threeAttempts
    (fun w => decide (Answered (S := Actions) NoFailure w.obs.trace ∧
      (tally.of () w.obs.trace).attempts = 3 ∧ (tally.of () w.obs.trace).heads = 2 ∧
      rejects (tally.of () w.obs.trace).ctl = true)) true (by decide)
  obtain ⟨hans, hattempts, hheads, hrejects⟩ := of_decide_eq_true hw
  refine ⟨w, hreach, hattempts, hheads, ?_⟩
  have honce := answers_once sendingServer sendingServer_polite ∅ w hreach hans ()
  rcases honce.completes sendingServer_responsive (by rw [hattempts, hheads]) with hwaits | hanswer
  · obtain ⟨conn, hserving, -⟩ := hwaits
    rw [hserving] at hrejects
    cases hrejects
  · exact hanswer

end DianProtocol.Cpp
