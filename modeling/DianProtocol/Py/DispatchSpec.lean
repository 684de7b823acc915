import DianProtocol.Py.Outline

set_option autoImplicit false

/-! # The specification of `dispatch`

`dispatch_safe`: a worker that dispatches a request performs every action under the circumstances of
the outline, whatever the other workers do in between. `Serving` is what holds between its actions;
`findSession` adds that the session is its own, and from then on no other worker can take the
session away.
-/

namespace DianProtocol.Py

open Concurrent

variable {ι : Type} [DecidableEq ι]

/-! ## The actions of the helper functions -/

/-- The actions without a precondition that leave the shared state as it is. -/
def Quiet : Act → Prop
  | .auths => True
  | .exists_ _ => True
  | .open_ _ _ => True
  | .send .answer _ _ => True
  | _ => False

/-- The actions of `Session.play`. -/
def IsPlay (s : Session) : Act → Prop
  | .seek id _ => id = s.session_id
  | .read id _ => id = s.session_id
  | .send origin socket _ => origin = .play s.session_id ∧ socket = s.request.sock
  | _ => False

theorem attempt_uses {α : Type} {allowed : Act → Prop} (r : Except PyExn α) :
    Exc.Uses (S := Actions) allowed (attempt r) := by
  cases r with
  | ok a => exact Exc.Uses.pure _
  | error e => exact Exc.Uses.throw _

theorem send_uses {allowed : Act → Prop} {origin : Origin} {socket : Sock} {data : Bytes}
    (h : allowed (.send origin socket data)) :
    Exc.Uses (S := Actions) allowed (send origin socket data) :=
  Exc.Uses.bind (Exc.Uses.perform (S := Actions) (e := .send origin socket data) h) fun sent =>
    Exc.Uses.bind (attempt_uses sent) fun _ => Exc.Uses.pure _

theorem respond_uses (req : SockRequest) (r : Response) :
    Exc.Uses (S := Actions) Quiet (respond req r) :=
  Exc.Uses.bind (send_uses trivial) fun _ => send_uses trivial

theorem sendFile_uses (s : Session) (headers : Dict) (start stop : Int) :
    Exc.Uses (S := Actions) (IsPlay s) (s.sendFile headers start stop) := by
  refine Exc.Uses.bind
    (Exc.Uses.perform (S := Actions) (e := .seek s.session_id start) rfl) fun raised => ?_
  cases raised with
  | some e => exact Exc.Uses.throw _
  | none =>
      refine Exc.Uses.bind (send_uses ⟨rfl, rfl⟩) fun _ => ?_
      refine Exc.Uses.bind
        (Exc.Uses.perform (S := Actions) (e := .read s.session_id (stop - start)) rfl)
        fun read => ?_
      exact Exc.Uses.bind (attempt_uses read) fun body => send_uses ⟨rfl, rfl⟩

theorem intOf_uses {allowed : Act → Prop} (t : Option Text) :
    Exc.Uses (S := Actions) allowed (intOf t) := by
  unfold intOf
  split
  · exact Exc.Uses.throw _
  · split
    · exact Exc.Uses.throw _
    · exact Exc.Uses.pure _

theorem playRange_uses (s : Session) (range : Text) :
    Exc.Uses (S := Actions) (IsPlay s) (s.playRange range) := by
  unfold Session.playRange
  split
  · exact Exc.Uses.throw _
  · refine Exc.Uses.bind (intOf_uses _) fun start => ?_
    exact Exc.Uses.bind (intOf_uses _) fun stop => sendFile_uses _ _ _ _

theorem play_uses (s : Session) (range : Option Text) :
    Exc.Uses (S := Actions) (IsPlay s) (s.play range) := by
  cases range with
  | none => exact sendFile_uses _ _ _ _
  | some range =>
      unfold Session.play
      dsimp only
      split
      · exact sendFile_uses _ _ _ _
      · exact playRange_uses _ _

theorem init_uses (root : Text) (request : SockRequest) (socket : Sock) (id : UUID) :
    Exc.Uses (S := Actions) Quiet (Session.init root request socket id) := by
  unfold Session.init
  split
  · exact Exc.Uses.bind (respond_uses _ _) fun _ => Exc.Uses.throw _
  · refine Exc.Uses.bind (Exc.Uses.perform (S := Actions) (e := .exists_ _) trivial) fun found => ?_
    cases found with
    | true =>
        refine Exc.Uses.bind (Exc.Uses.perform (S := Actions) (e := .open_ id _) trivial)
          fun r => ?_
        exact Exc.Uses.bind (attempt_uses r) fun _ => Exc.Uses.pure _
    | false => exact Exc.Uses.bind (respond_uses _ _) fun _ => Exc.Uses.throw _

/-- The session that `Session.__init__` makes. -/
def MadeFrom (request : SockRequest) (socket : Sock) (id : UUID) (s : Session) : Prop :=
  s.socket = socket ∧ s.session_id = id ∧ s.request = request

theorem init_returns (root : Text) (request : SockRequest) (socket : Sock) (id : UUID) :
    Exc.Returns (S := Actions) (MadeFrom request socket id)
      (Session.init root request socket id) := by
  unfold Session.init
  split
  · exact Exc.Returns.bind (fun _ => Exc.Returns.throw _) _
  · refine Exc.Returns.bind (fun found => ?_) _
    cases found with
    | true =>
        exact Exc.Returns.bind
          (fun r => Exc.Returns.bind (fun _ => Exc.Returns.pure ⟨rfl, rfl, rfl⟩) _) _
    | false => exact Exc.Returns.bind (fun _ => Exc.Returns.throw _) _

/-! ## The actions of the handlers -/

/-- The actions by which a worker neither turns to a client nor changes `_sessions` or a connection.
-/
def Inner : Act → Prop
  | .accept => False
  | .unparse _ => False
  | .setitem _ _ => False
  | .pop _ => False
  | .closeSocket _ => False
  | _ => True

/-- The actions by which a request is handled. -/
def Handling : Act → Prop
  | .accept => False
  | .unparse _ => False
  | _ => True

theorem Quiet.inner {e : Act} (h : Quiet e) : Inner e := by
  cases e with
  | accept => exact h
  | unparse socket => exact h
  | setitem id session => exact h
  | pop id => exact h
  | closeSocket socket => exact h
  | _ => trivial

theorem IsPlay.inner {s : Session} {e : Act} (h : IsPlay s e) : Inner e := by
  cases e with
  | accept => exact h
  | unparse socket => exact h
  | setitem id session => exact h
  | pop id => exact h
  | closeSocket socket => exact h
  | _ => trivial

theorem Inner.handling {e : Act} (h : Inner e) : Handling e := by
  cases e with
  | accept => exact h
  | unparse socket => exact h
  | _ => trivial

theorem respond_inner (req : SockRequest) (r : Response) :
    Exc.Uses (S := Actions) Inner (respond req r) :=
  (respond_uses req r).mono fun _ h => h.inner

theorem getitem_inner (site : Site) (id : UUID) :
    Exc.Uses (S := Actions) Inner (getitem site id) := by
  refine Exc.Uses.bind (Exc.Uses.perform (S := Actions) (e := .getitem site id) trivial)
    fun found => ?_
  cases found with
  | none => exact Exc.Uses.throw _
  | some s => exact Exc.Uses.pure _

theorem findSession_inner (req : SockRequest) (socket : Sock) :
    Exc.Uses (S := Actions) Inner (findSession req socket) := by
  unfold findSession
  split
  · exact Exc.Uses.bind (respond_inner _ _) fun _ => Exc.Uses.pure _
  · split
    · exact Exc.Uses.throw _
    · rename_i id _
      refine Exc.Uses.bind (Exc.Uses.perform (S := Actions) (e := .contains id) trivial)
        fun found => ?_
      cases found with
      | false => exact Exc.Uses.bind (respond_inner _ _) fun _ => Exc.Uses.pure _
      | true =>
          refine Exc.Uses.bind (getitem_inner _ _) fun session => ?_
          split
          · exact Exc.Uses.bind (respond_inner _ _) fun _ => Exc.Uses.pure _
          · exact Exc.Uses.pure _

theorem authenticate_inner (srv : Server) (req : SockRequest) :
    Exc.Uses (S := Actions) Inner (authenticate srv req) := by
  unfold authenticate
  split
  · split
    · exact Exc.Uses.bind (respond_inner _ _) fun _ => Exc.Uses.pure _
    · refine Exc.Uses.bind (Exc.Uses.perform (S := Actions) (e := .auths) trivial) fun auths => ?_
      split
      · exact Exc.Uses.bind (respond_inner _ _) fun _ => Exc.Uses.pure _
      · exact Exc.Uses.pure _
  · exact Exc.Uses.pure _

theorem init_inner (root : Text) (request : SockRequest) (socket : Sock) (id : UUID) :
    Exc.Uses (S := Actions) Inner (Session.init root request socket id) :=
  (init_uses root request socket id).mono fun _ h => h.inner

theorem handlePlay_inner (req : SockRequest) (socket : Sock) :
    Exc.Uses (S := Actions) Inner (handlePlay req socket) := by
  refine Exc.Uses.bind (findSession_inner _ _) fun found => ?_
  cases found with
  | none => exact Exc.Uses.pure _
  | some session =>
      refine Exc.Uses.bind (getitem_inner _ _) fun found => ?_
      exact Exc.Uses.bind ((play_uses _ _).mono fun _ h => h.inner) fun _ => Exc.Uses.pure _

theorem handleSetup_uses (srv : Server) (req : SockRequest) (socket : Sock) :
    Exc.Uses (S := Actions) Handling (handleSetup srv req socket) := by
  unfold handleSetup
  split
  · exact Exc.Uses.bind ((respond_inner _ _).mono fun _ h => h.handling) fun _ => Exc.Uses.pure _
  · refine Exc.Uses.bind ((authenticate_inner _ _).mono fun _ h => h.handling) fun accepted => ?_
    cases accepted with
    | false => exact Exc.Uses.pure _
    | true =>
        refine Exc.Uses.bind (Exc.Uses.perform (S := Actions) (e := .uuid4) trivial)
          fun session => ?_
        refine Exc.Uses.bind ((init_inner _ _ _ _).mono fun _ h => h.handling) fun created => ?_
        refine Exc.Uses.bind
          (Exc.Uses.perform (S := Actions) (e := .setitem session created) trivial) fun _ => ?_
        exact Exc.Uses.bind ((respond_inner _ _).mono fun _ h => h.handling)
          fun _ => Exc.Uses.pure _

theorem handleTeardown_uses (req : SockRequest) (socket : Sock) :
    Exc.Uses (S := Actions) Handling (handleTeardown req socket) := by
  refine Exc.Uses.bind ((findSession_inner _ _).mono fun _ h => h.handling) fun found => ?_
  cases found with
  | none => exact Exc.Uses.pure _
  | some session =>
      refine Exc.Uses.bind ((respond_inner _ _).mono fun _ h => h.handling) fun _ => ?_
      refine Exc.Uses.bind ((getitem_inner _ _).mono fun _ h => h.handling) fun found => ?_
      have hclose : Exc.Uses (S := Actions) Handling found.close :=
        Exc.Uses.bind (Exc.Uses.perform (S := Actions) (e := .closeFile _) trivial) fun _ =>
          Exc.Uses.perform (S := Actions) (e := .closeSocket _) trivial
      refine Exc.Uses.bind hclose fun _ => Exc.Uses.bind ?_ fun _ => Exc.Uses.pure _
      refine Exc.Uses.bind (Exc.Uses.perform (S := Actions) (e := .pop session) trivial)
        fun popped => ?_
      cases popped with
      | none => exact Exc.Uses.throw _
      | some s => exact Exc.Uses.pure _

/-- A request is dispatched without a look at the next one. -/
theorem dispatch_uses (srv : Server) (req : SockRequest) (socket : Sock) :
    Exc.Uses (S := Actions) Handling (dispatch srv req socket) := by
  have hrespond : ∀ r, Exc.Uses (S := Actions) Handling (respond req r) := fun r =>
    (respond_inner req r).mono fun _ h => h.handling
  unfold dispatch
  split
  · exact Exc.Uses.bind (hrespond _) fun _ => Exc.Uses.pure _
  split
  · exact Exc.Uses.bind (hrespond _) fun _ => Exc.Uses.pure _
  split
  · exact handleSetup_uses _ _ _
  split
  · exact (handlePlay_inner _ _).mono fun _ h => h.handling
  split
  · exact handleTeardown_uses _ _
  · exact Exc.Uses.pure _

/-! ## What holds between the actions -/

/-- Worker `i` dispatches `req` on the connection `socket`. -/
structure Serving (i : ι) (req : SockRequest) (socket : Sock) (o : SObs ι) : Prop where
  ctl : o.ctl i = some (.dispatch req socket)
  sock : req.sock = socket ∨ req.sock ∈ o.shared.closedSockets
  connected : Connected i o socket

section

variable {srv : Server} {i : ι} {req : SockRequest} {socket : Sock} {o o' : SObs ι}

theorem Connected.rely (h : Connected i o socket) (hr : Rely i o o') : Connected i o' socket where
  accepted := hr.accepted h.accepted
  files id s hid hs hsocket := by
    have hid' := (hr.uuids id).mp hid
    obtain ⟨hsame, hfiles⟩ := hr.own id hid'
    rw [hsame] at hs
    exact fun hmem => h.files id s hid' hs hsocket (hfiles.mp hmem)

theorem Serving.rely (h : Serving i req socket o) (hr : Rely i o o') : Serving i req socket o' where
  ctl := hr.ctl.trans h.ctl
  sock := h.sock.imp_right fun hmem => hr.closedSockets hmem
  connected := h.connected.rely hr

theorem Owned.rely {id : UUID} {s : Session} (h : Owned i o id s) (hr : Rely i o o') :
    Owned i o' id s where
  mem := (hr.own id h.uuid).1.trans h.mem
  uuid := (hr.uuids id).mpr h.uuid
  session_id := h.session_id
  ctl := h.ctl.imp fun _ hctl => hr.ctl.trans hctl

/-- A step of the worker itself that leaves the shared state as it is. -/
theorem Serving.push (h : Serving i req socket o) (e : Act) (r : e.Ans) :
    Serving i req socket (o.push i (.act (S := Actions) e r) o.shared) where
  ctl := (Obs.ctl_push_act _ _ _ _ _ _).trans h.ctl
  sock := h.sock
  connected := ⟨h.connected.accepted, h.connected.files⟩

/-- A step of the worker itself that changes neither the sessions nor the ids. -/
theorem Owned.push_of {id : UUID} {s : Session} (h : Owned i o id s) (e : Act) (r : e.Ans)
    {s' : Shared ι} (hsessions : s'.sessions = o.shared.sessions)
    (huuids : s'.uuids = o.shared.uuids) :
    Owned i (o.push i (.act (S := Actions) e r) s') id s where
  mem := (congrFun hsessions id).trans h.mem
  uuid := by
    rw [Obs.push_shared, huuids]
    exact h.uuid
  session_id := h.session_id
  ctl := h.ctl.imp fun _ hctl => (Obs.ctl_push_act _ _ _ _ _ _).trans hctl

theorem Owned.push {id : UUID} {s : Session} (h : Owned i o id s) (e : Act) (r : e.Ans) :
    Owned i (o.push i (.act (S := Actions) e r) o.shared) id s := h.push_of e r rfl rfl

/-- A session on the connection of a worker is its own. -/
theorem Serving.owned (h : Serving i req socket o) (hI : Inv srv o) {id : UUID} {s : Session}
    (hs : o.shared.sessions id = some s) (hsocket : s.socket = socket) : Owned i o id s := by
  obtain ⟨j, hentry⟩ := hI.entries id s hs
  have hj : j = i := by
    have haccepted := hentry.accepted
    rw [hsocket] at haccepted
    exact hI.socket_owner socket j i haccepted h.connected.accepted
  rw [hj] at hentry
  exact ⟨hs, hentry.uuid, hentry.session_id, req, by rw [hsocket]; exact h.ctl⟩

/-- The assertion at the end of `dispatch`. -/
def After (i : ι) (req : SockRequest) (socket : Sock) (o : SObs ι) :
    Except PyExn Flow × Unit → Prop
  | (.ok .break_, _) => req.sock ∈ o.shared.closedSockets
  | _ => Serving i req socket o

/-! ## Rules -/

theorem quiet_not_writes {e : Act} (hq : Quiet e) : ¬ Writes e := by
  intro hwrites
  cases e with
  | auths => exact hwrites
  | exists_ path => exact hwrites
  | open_ id path => exact hwrites
  | send origin socket data => exact hwrites
  | _ => exact hq

theorem quiet_pre {e : Act} (hq : Quiet e) : Pre srv i o e := by
  cases e with
  | send origin socket data =>
      cases origin with
      | answer => trivial
      | play id => exact hq.elim
  | auths => trivial
  | exists_ path => trivial
  | open_ id path => trivial
  | _ => exact hq.elim

/-- Quiet code keeps every assertion that the other workers and quiet actions keep. -/
theorem quiet_safe {α : Type} {K : SObs ι → Prop} {m : Worker α}
    (hm : Exc.Uses (S := Actions) Quiet m) (hrely : ∀ o o', Rely i o o' → K o → K o')
    (hpush : ∀ o (e : Act) (r : e.Ans), K o → K (o.push i (.act (S := Actions) e r) o.shared))
    (h : K o) : (outline srv).Safe i (fun o' _ => K o') (m.run ()) o := by
  refine Outline.Safe.of_uses (K := K) hrely (fun _ _ _ _ hq => quiet_pre hq) ?_ (hm ()) h
  intro o e r s hK hq hperf
  obtain rfl := performs_same hperf (quiet_not_writes hq)
  exact hpush o e r hK

/-- Quiet code, and what comes after it. -/
theorem Serving.bind_safe {α β : Type} {Post : SObs ι → Except PyExn β × Unit → Prop}
    {m : Worker α} {f : α → Worker β} (h : Serving i req socket o)
    (hm : Exc.Uses (S := Actions) Quiet m)
    (herror : ∀ o e, Serving i req socket o → Post o (.error e, ()))
    (hf : ∀ a o, Serving i req socket o → (outline srv).Safe i Post ((f a).run ()) o) :
    (outline srv).Safe i Post ((m >>= f).run ()) o := by
  refine Outline.Safe.exc_bind ((quiet_safe hm (fun _ _ hr hK => hK.rely hr)
    (fun _ e r hK => hK.push e r) h).mono fun o' r _ hserving => ?_)
  rcases r with ⟨e | a, x⟩
  · exact fun o'' hr _ => herror o'' e (hserving.rely hr)
  · exact hf a o' hserving

/-- The end of a piece of code. -/
theorem Serving.ret_safe {β : Type} {Post : SObs ι → Except PyExn β × Unit → Prop}
    {r : Except PyExn β × Unit} (h : Serving i req socket o)
    (hr : ∀ o, Serving i req socket o → Post o r) : (outline srv).Safe i Post (.ret r) o :=
  fun o' hrely _ => hr o' (h.rely hrely)

/-- An answer, and the end. -/
theorem Serving.answer_safe {β : Type} {Post : SObs ι → Except PyExn β × Unit → Prop} (r : Response)
    {b : β} (h : Serving i req socket o)
    (herror : ∀ o e, Serving i req socket o → Post o (.error e, ()))
    (hb : ∀ o, Serving i req socket o → Post o (.ok b, ())) :
    (outline srv).Safe i Post ((do respond req r; return b : Worker β).run ()) o :=
  h.bind_safe (respond_uses req r) herror fun _ _ h => h.ret_safe hb

theorem getitem_bind {β : Type} (site : Site) (id : UUID) (f : Session → Worker β) :
    (getitem site id >>= f).run () = .act (S := Actions) (.getitem site id) fun
      | some s => (f s).run ()
      | none => .ret (.error .KeyError, ()) := by
  refine congrArg (Prog.act (S := Actions) (.getitem site id)) (funext fun found => ?_)
  cases found with
  | none => rfl
  | some s => rfl

/-! ## The handlers -/

/-- After the two tests: the session is a session of the worker on this connection. -/
def Found (i : ι) (req : SockRequest) (socket : Sock) (o : SObs ι) :
    Except PyExn (Option UUID) × Unit → Prop
  | (.ok (some id), _) => Serving i req socket o ∧ ∃ s, Owned i o id s ∧ s.socket = socket
  | _ => Serving i req socket o

theorem findSession_safe (h : Serving i req socket o) :
    (outline srv).Safe i (Found i req socket) ((findSession req socket).run ()) o := by
  unfold findSession
  split
  · exact h.answer_safe _ (fun _ _ h => h) fun _ h => h
  · split
    · exact h.ret_safe fun _ h => h
    · rename_i id _
      refine fun o₁ hr₁ _ => ⟨trivial, fun found s hperf => ?_⟩
      obtain ⟨hfound, rfl⟩ : _ ∧ s = _ := hperf
      have h₁ := (h.rely hr₁).push (.contains id) found
      cases found with
      | false => exact h₁.answer_safe _ (fun _ _ h => h) fun _ h => h
      | true =>
          -- the session may be removed here, before it is looked up
          show (outline srv).Safe i _ ((getitem .socketCheck id >>= _).run ()) _
          rw [getitem_bind]
          intro o₂ hr₂ hI₂
          have hpre : Pre srv i o₂ (.getitem .socketCheck id) := by
            show (o₂.acts i).getLast? = _
            rw [hr₂.acts, Obs.acts_push_act_self]
            simp
          refine ⟨hpre, fun found s hperf => ?_⟩
          obtain ⟨hfound, rfl⟩ : _ ∧ s = _ := hperf
          have h₂ := h₁.rely hr₂
          have h₃ := h₂.push (.getitem .socketCheck id) found
          cases found with
          | none => exact h₃.ret_safe fun _ h => h
          | some session =>
              dsimp only
              split
              · exact h₃.answer_safe _ (fun _ _ h => h) fun _ h => h
              · rename_i hsocket
                have hsocket' : session.socket = socket := not_not.mp hsocket
                have howned := (h₂.owned hI₂ hfound.symm hsocket').push
                  (.getitem .socketCheck id) (some session)
                exact fun o' hr _ => ⟨h₃.rely hr, session, howned.rely hr, hsocket'⟩

/-- The worker plays a session of its own. -/
theorem play_safe {id : UUID} {s : Session} (range : Option Text) (h : Serving i req socket o)
    (howned : Owned i o id s) (hsocket : s.socket = socket) :
    (outline srv).Safe i (fun o' _ => Serving i req socket o') ((s.play range).run ()) o := by
  have hsafe : (outline srv).Safe i (fun o' _ => Serving i req socket o' ∧ Owned i o' id s)
      ((s.play range).run ()) o := by
    refine Outline.Safe.of_uses (K := fun o' => Serving i req socket o' ∧ Owned i o' id s)
      (fun _ _ hr hK => ⟨hK.1.rely hr, hK.2.rely hr⟩) ?_ ?_ (play_uses s range ()) ⟨h, howned⟩
    · intro o e hK _ he
      cases e with
      | send origin socket data =>
          obtain ⟨rfl, rfl⟩ : origin = _ ∧ socket = _ := he
          show ∃ s', Owned i o s.session_id s' ∧ _
          rw [hK.2.session_id]
          exact ⟨s, hK.2, hK.1.connected.files id s hK.2.uuid hK.2.mem hsocket, rfl⟩
      | seek id pos => trivial
      | read id n => trivial
      | _ => exact he.elim
    · intro o e r s' hK he hperf
      have hreads : ¬ Writes e := by
        intro hwrites
        cases e with
        | seek id pos => exact hwrites
        | read id n => exact hwrites
        | send origin socket data => exact hwrites
        | _ => exact he
      obtain rfl := performs_same hperf hreads
      exact ⟨hK.1.push e r, hK.2.push e r⟩
  exact hsafe.mono fun _ _ _ hK => hK.1

theorem handlePlay_safe (h : Serving i req socket o) :
    (outline srv).Safe i (After i req socket) ((handlePlay req socket).run ()) o := by
  refine Outline.Safe.exc_bind ((findSession_safe h).mono fun o₁ r _ hfound => ?_)
  rcases r with ⟨e | found, x⟩
  · exact hfound.ret_safe fun _ h => h
  cases found with
  | none => exact hfound.ret_safe fun _ h => h
  | some id =>
      obtain ⟨hserving, s, howned, hsocket⟩ := hfound
      show (outline srv).Safe i _ ((getitem .play id >>= _).run ()) _
      rw [getitem_bind]
      refine fun o₂ hr _ => ⟨⟨s, howned.rely hr⟩, fun found s' hperf => ?_⟩
      obtain ⟨hfound, rfl⟩ : _ ∧ s' = _ := hperf
      rw [(howned.rely hr).mem] at hfound
      subst hfound
      have hserving' := (hserving.rely hr).push (.getitem .play id) (some s)
      have howned' := (howned.rely hr).push (.getitem .play id) (some s)
      refine Outline.Safe.exc_bind ((play_safe _ hserving' howned' hsocket).mono
        fun o₃ r _ hK => ?_)
      rcases r with ⟨e | a, x⟩
      · exact hK.ret_safe fun _ h => h
      · exact hK.ret_safe fun _ h => h

theorem close_bind {β : Type} (s : Session) (f : Unit → Worker β) :
    (s.close >>= f).run () = .act (S := Actions) (.closeFile s.session_id) fun _ =>
      .act (S := Actions) (.closeSocket s.socket) fun r => (f r).run () := rfl

theorem popitem_bind {β : Type} (id : UUID) (f : Unit → Worker β) :
    (popitem id >>= f).run () = .act (S := Actions) (.pop id) fun
      | some _ => (f ()).run ()
      | none => .ret (.error .KeyError, ()) := by
  refine congrArg (Prog.act (S := Actions) (.pop id)) (funext fun found => ?_)
  cases found with
  | none => rfl
  | some s => rfl

/-- The worker closes a session of its own and removes it. -/
theorem close_safe {id : UUID} {s : Session} (h : Serving i req socket o) (howned : Owned i o id s)
    (hsocket : s.socket = socket) :
    (outline srv).Safe i (After i req socket)
      ((do s.close; popitem id; return .break_ : Worker Flow).run ()) o := by
  show (outline srv).Safe i _ ((s.close >>= _).run ()) _
  rw [close_bind, howned.session_id]
  intro o₁ hr₁ _
  have h₁ := h.rely hr₁
  have howned₁ := howned.rely hr₁
  refine ⟨howned₁.uuid, fun r₁ s₁ hperf₁ => ?_⟩
  obtain rfl : s₁ = _ := hperf₁
  have howned₁' : Owned i (o₁.push i (.act (S := Actions) (.closeFile id) r₁)
      { o₁.shared with closedFiles := id :: o₁.shared.closedFiles }) id s :=
    howned₁.push_of (.closeFile id) r₁ rfl rfl
  intro o₂ hr₂ _
  have howned₂ := howned₁'.rely hr₂
  refine ⟨trivial, fun r₂ s₂ hperf₂ => ?_⟩
  obtain rfl : s₂ = _ := hperf₂
  -- from here on the socket of the request is closed
  have hclosed : req.sock ∈ s.socket :: o₂.shared.closedSockets := by
    rcases h₁.sock with hsame | hmem
    · rw [hsame, hsocket]
      exact List.mem_cons_self
    · exact List.mem_cons_of_mem _ (hr₂.closedSockets hmem)
  have howned₂' : Owned i (o₂.push i (.act (S := Actions) (.closeSocket s.socket) r₂)
      { o₂.shared with closedSockets := s.socket :: o₂.shared.closedSockets }) id s :=
    howned₂.push_of (.closeSocket s.socket) r₂ rfl rfl
  show (outline srv).Safe i _ ((popitem id >>= _).run ()) _
  rw [popitem_bind]
  intro o₃ hr₃ _
  have howned₃ := howned₂'.rely hr₃
  refine ⟨⟨s, howned₃⟩, fun found s₃ hperf₃ => ?_⟩
  obtain ⟨hfound, rfl⟩ : _ ∧ s₃ = _ := hperf₃
  rw [howned₃.mem] at hfound
  subst hfound
  exact fun o₄ hr₄ _ => hr₄.closedSockets (hr₃.closedSockets hclosed)

theorem handleTeardown_safe (h : Serving i req socket o) :
    (outline srv).Safe i (After i req socket) ((handleTeardown req socket).run ()) o := by
  refine Outline.Safe.exc_bind ((findSession_safe h).mono fun o₁ r _ hfound => ?_)
  rcases r with ⟨e | found, x⟩
  · exact hfound.ret_safe fun _ h => h
  cases found with
  | none => exact hfound.ret_safe fun _ h => h
  | some id =>
      obtain ⟨hserving, s, howned, hsocket⟩ := hfound
      refine Outline.Safe.exc_bind ((quiet_safe (respond_uses req {})
        (K := fun o => Serving i req socket o ∧ Owned i o id s)
        (fun _ _ hr hK => ⟨hK.1.rely hr, hK.2.rely hr⟩)
        (fun _ e r hK => ⟨hK.1.push e r, hK.2.push e r⟩) ⟨hserving, howned⟩).mono
          fun o₂ r _ hK => ?_)
      rcases r with ⟨e | a, x⟩
      · exact hK.1.ret_safe fun _ h => h
      show (outline srv).Safe i _ ((getitem .close id >>= _).run ()) _
      rw [getitem_bind]
      refine fun o₃ hr _ => ⟨⟨s, hK.2.rely hr⟩, fun found s' hperf => ?_⟩
      obtain ⟨hfound, rfl⟩ : _ ∧ s' = _ := hperf
      rw [(hK.2.rely hr).mem] at hfound
      subst hfound
      exact close_safe ((hK.1.rely hr).push (.getitem .close id) (some s))
        ((hK.2.rely hr).push (.getitem .close id) (some s)) hsocket

theorem Credentials.rely (h : Credentials o.trace i req) (hr : Rely i o o') :
    Credentials o'.trace i req := by
  obtain ⟨keys, key, hkeys, hkey⟩ := h
  have hacts : actsOf i o'.trace = actsOf i o.trace := hr.acts
  exact ⟨keys, key, hacts ▸ hkeys, hkey⟩

theorem Credentials.push (h : Credentials o.trace i req) (e : Act) (r : e.Ans) (s : Shared ι) :
    Credentials (o.push i (.act (S := Actions) e r) s).trace i req := by
  obtain ⟨keys, key, hkeys, hkey⟩ := h
  have hacts : actsOf i (o.push i (.act (S := Actions) e r) s).trace = _ :=
    Obs.acts_push_act_self o i e r s
  refine ⟨keys, key, ?_, hkey⟩
  rw [hacts]
  exact List.mem_append_left _ hkeys

/-- The credentials have been accepted, if they are required. -/
def Accepted (srv : Server) (i : ι) (req : SockRequest) (socket : Sock) (o : SObs ι) : Prop :=
  Serving i req socket o ∧ (srv.use_auth = true → Credentials o.trace i req)

def Authenticated (srv : Server) (i : ι) (req : SockRequest) (socket : Sock) (o : SObs ι) :
    Except PyExn Bool × Unit → Prop
  | (.ok true, _) => Accepted srv i req socket o
  | _ => Serving i req socket o

theorem authenticate_safe (h : Serving i req socket o) :
    (outline srv).Safe i (Authenticated srv i req socket) ((authenticate srv req).run ()) o := by
  unfold authenticate
  split
  · split
    · exact h.answer_safe _ (fun _ _ h => h) fun _ h => h
    · rename_i authorization hheader
      refine fun o₁ hr _ => ⟨trivial, fun keys s hperf => ?_⟩
      obtain rfl : s = _ := hperf
      have h₁ := (h.rely hr).push .auths keys
      show (outline srv).Safe i _ ((if authorization ∉ keys.map (text "Bearer " ++ ·) then _
        else _ : Worker Bool).run ()) _
      split
      · exact h₁.answer_safe _ (fun _ _ h => h) fun _ h => h
      · rename_i hmem
        obtain ⟨key, hkey, hbearer⟩ := List.mem_map.mp (not_not.mp hmem)
        have hcredentials :
            Credentials (o₁.push i (.act (S := Actions) .auths keys) o₁.shared).trace i req := by
          have hacts : actsOf i (o₁.push i (.act (S := Actions) .auths keys) o₁.shared).trace = _ :=
            Obs.acts_push_act_self o₁ i .auths keys o₁.shared
          refine ⟨keys, key, ?_, hkey, hheader.trans (congrArg some hbearer.symm)⟩
          rw [hacts]
          exact List.mem_append_right _ (List.mem_singleton.mpr rfl)
        exact fun o₂ hr₂ _ => ⟨h₁.rely hr₂, fun _ => hcredentials.rely hr₂⟩
  · rename_i hfree
    exact fun o₁ hr _ => ⟨h.rely hr, fun huse => absurd huse hfree⟩

/-- An id has been generated for a new session. -/
structure Setting (srv : Server) (i : ι) (req : SockRequest) (socket : Sock) (id : UUID)
    (o : SObs ι) : Prop where
  accepted : Accepted srv i req socket o
  uuid : (id, i) ∈ o.shared.uuids
  file : id ∉ o.shared.closedFiles

theorem Setting.rely {id : UUID} (h : Setting srv i req socket id o) (hr : Rely i o o') :
    Setting srv i req socket id o' where
  accepted := ⟨h.accepted.1.rely hr, fun huse => (h.accepted.2 huse).rely hr⟩
  uuid := (hr.uuids id).mpr h.uuid
  file := fun hmem => h.file ((hr.own id h.uuid).2.mp hmem)

theorem Setting.push {id : UUID} (h : Setting srv i req socket id o) (e : Act) (r : e.Ans) :
    Setting srv i req socket id (o.push i (.act (S := Actions) e r) o.shared) where
  accepted := ⟨h.accepted.1.push e r, fun huse => (h.accepted.2 huse).push e r o.shared⟩
  uuid := h.uuid
  file := h.file

theorem Accepted.uuid4 {id : UUID} (h : Accepted srv i req socket o) (hI : Inv srv o)
    (hfresh : ∀ j, (id, j) ∉ o.shared.uuids) :
    Setting srv i req socket id (o.push i (.act (S := Actions) .uuid4 id)
      { o.shared with uuids := (id, i) :: o.shared.uuids }) where
  accepted := by
    refine ⟨⟨(Obs.ctl_push_act _ _ _ _ _ _).trans h.1.ctl, h.1.sock, h.1.connected.accepted, ?_⟩,
      fun huse => (h.2 huse).push _ _ _⟩
    intro id' s hid' hs hsocket
    rcases List.mem_cons.mp hid' with heq | hid'
    · -- there is no session with the new id
      have hid : id' = id := (Prod.mk.inj heq).1
      obtain ⟨j, hentry⟩ := hI.entries id' s hs
      exact absurd (hid ▸ hentry.uuid) (hfresh j)
    · exact h.1.connected.files id' s hid' hs hsocket
  uuid := List.mem_cons_self
  file := fun hmem => by
    obtain ⟨j, hj⟩ := hI.files id hmem
    exact hfresh j hj

theorem init_safe {id : UUID} (h : Setting srv i req socket id o) :
    (outline srv).Safe i
      (fun o' r => Setting srv i req socket id o' ∧ ∀ s, r.1 = .ok s → MadeFrom req socket id s)
      ((Session.init srv.root req socket id).run ()) o :=
  (quiet_safe (init_uses srv.root req socket id) (fun _ _ hr hK => hK.rely hr)
    (fun _ e r hK => hK.push e r) h).and_ends (init_returns srv.root req socket id ())

theorem Setting.stores {id : UUID} {s : Session} (h : Setting srv i req socket id o)
    (hmade : MadeFrom req socket id s) (hmethod : req.method = text "SETUP") :
    Stores srv i o id s := by
  obtain ⟨rfl, hid, rfl⟩ := hmade
  exact
    { uuid := h.uuid
      accepted := h.accepted.1.connected.accepted
      session_id := hid
      ctl := h.accepted.1.ctl
      method := hmethod
      credentials := h.accepted.2
      sock := h.accepted.1.sock }

theorem Setting.setitem {id : UUID} {s : Session} (h : Setting srv i req socket id o) :
    Serving i req socket (o.push i (.act (S := Actions) (.setitem id s) ())
      { o.shared with sessions := Function.update o.shared.sessions id (some s) }) where
  ctl := (Obs.ctl_push_act _ _ _ _ _ _).trans h.accepted.1.ctl
  sock := h.accepted.1.sock
  connected := by
    refine ⟨h.accepted.1.connected.accepted, fun id' s' hid' hs' hsocket => ?_⟩
    by_cases heq : id' = id
    · rw [heq]
      exact h.file
    · have hs : o.shared.sessions id' = some s' := by
        rw [← hs']
        exact (Function.update_of_ne heq _ _).symm
      exact h.accepted.1.connected.files id' s' hid' hs hsocket

theorem handleSetup_safe (h : Serving i req socket o) (hmethod : req.method = text "SETUP") :
    (outline srv).Safe i (After i req socket) ((handleSetup srv req socket).run ()) o := by
  unfold handleSetup
  split
  · exact h.answer_safe _ (fun _ _ h => h) fun _ h => h
  rename_i transport _
  refine Outline.Safe.exc_bind ((authenticate_safe h).mono fun o₁ r _ hauth => ?_)
  rcases r with ⟨e | accepted, x⟩
  · exact hauth.ret_safe fun _ h => h
  cases accepted with
  | false => exact hauth.ret_safe fun _ h => h
  | true =>
      intro o₂ hr₂ hI₂
      have haccepted : Accepted srv i req socket o₂ :=
        ⟨hauth.1.rely hr₂, fun huse => (hauth.2 huse).rely hr₂⟩
      refine ⟨trivial, fun id s hperf => ?_⟩
      obtain ⟨hfresh, rfl⟩ : _ ∧ s = _ := hperf
      have hset := haccepted.uuid4 hI₂ hfresh
      refine Outline.Safe.exc_bind ((init_safe hset).mono fun o₃ r _ hK => ?_)
      rcases r with ⟨e | created, x⟩
      · exact hK.1.accepted.1.ret_safe fun _ h => h
      have hmade := hK.2 created rfl
      refine fun o₄ hr₄ _ => ⟨(hK.1.rely hr₄).stores hmade hmethod, fun r s hperf => ?_⟩
      obtain rfl : s = _ := hperf
      exact (hK.1.rely hr₄).setitem.answer_safe _ (fun _ _ h => h) fun _ h => h

/-- **The second `try` of `_thread_boot`**: every action is performed under its circumstances. -/
theorem dispatch_safe (h : Serving i req socket o) :
    (outline srv).Safe i (After i req socket) ((dispatch srv req socket).run ()) o := by
  unfold dispatch
  split
  · exact h.answer_safe _ (fun _ _ h => h) fun _ h => h
  split
  · exact h.answer_safe _ (fun _ _ h => h) fun _ h => h
  split
  · rename_i hmethod
    exact handleSetup_safe h hmethod
  split
  · exact handlePlay_safe h
  split
  · exact handleTeardown_safe h
  · exact h.ret_safe fun _ h => h

/-! ## The rounds of a worker -/

theorem leave_safe {req : Option SockRequest}
    (h : ∀ r, req = some r → r.sock = socket ∨ r.sock ∈ o.shared.closedSockets) :
    (outline srv).Safe i (Head i) (leave req socket) o := by
  refine fun o₁ hr₁ _ => ⟨trivial, fun r s hperf => ?_⟩
  obtain rfl : s = _ := hperf
  intro o₂ hr₂ _ r' hreq
  rcases h r' hreq with hsame | hmem
  · rw [hsame]
    exact hr₂.closedSockets List.mem_cons_self
  · exact hr₂.closedSockets (List.mem_cons_of_mem _ (hr₁.closedSockets hmem))

/-- A worker that goes on with a request it has received before. -/
theorem Serving.head_serve (h : Serving i req socket o) :
    (outline srv).Safe i (Head i) (.ret (.serve (some req) socket)) o := by
  intro o₁ hr _
  refine ⟨fun r hreq => ?_, (h.rely hr).connected⟩
  obtain rfl := Option.some.inj hreq
  exact (h.rely hr).sock

theorem afterDispatch_safe {r : Except PyExn Flow × Unit} (h : After i req socket o r) :
    (outline srv).Safe i (Head i) (afterDispatch req socket r) o := by
  rcases r with ⟨e | flow, x⟩
  · have hserving : Serving i req socket o := h
    have hleave : (outline srv).Safe i (Head i) (leave (some req) socket) o :=
      leave_safe fun r hreq => Option.some.inj hreq ▸ hserving.sock
    cases e with
    | StopHandler => exact hserving.head_serve
    | ConnectionResetError errno =>
        unfold afterDispatch
        dsimp only
        split
        · exact hleave
        · exact hserving.head_serve
    | _ => exact fun _ _ _ => trivial
  · cases flow with
    | continue_ => exact Serving.head_serve h
    | break_ =>
        intro o₁ hr _ r hreq
        obtain rfl := Option.some.inj hreq
        exact hr.closedSockets h

theorem rounds_safe : (outline (ι := ι) srv).RoundsSafe := by
  intro i o l p hI hhead hround
  cases l with
  | accept req =>
      obtain rfl := Option.some.inj hround
      refine fun o₁ hr₁ hI₁ => ⟨trivial, fun r s hperf => ?_⟩
      cases r with
      | error e => exact fun _ _ _ => trivial
      | ok socket =>
          obtain ⟨hfresh, rfl⟩ : _ ∧ s = _ := hperf
          have hconnected : Connected i (o₁.push i (.act (S := Actions) .accept (.ok socket))
              { o₁.shared with accepted := (socket, i) :: o₁.shared.accepted }) socket := by
            refine ⟨List.mem_cons_self, fun id s' _ hs' hsocket => ?_⟩
            -- the sessions there are have older sockets
            obtain ⟨j, hentry⟩ := hI₁.entries id s' hs'
            exact absurd (hsocket ▸ hentry.accepted) (hfresh j)
          refine fun o₂ hr₂ _ => ⟨fun r hreq => Or.inr ?_, hconnected.rely hr₂⟩
          exact hr₂.closedSockets (hr₁.closedSockets (hhead r hreq))
  | serve req socket =>
      obtain rfl := Option.some.inj hround
      obtain ⟨hreq, hconnected⟩ := hhead
      refine fun o₁ hr₁ _ => ⟨trivial, fun r s hperf => ?_⟩
      obtain rfl : s = _ := hperf
      have hconnected₁ : Connected i (o₁.push i (.act (S := Actions) (.unparse socket) r) o₁.shared)
          socket := by
        have hconnected' : Connected i (o.push i (.enter (.serve req socket)) o.shared) socket :=
          ⟨hconnected.accepted, hconnected.files⟩
        exact ⟨(hconnected'.rely hr₁).accepted, (hconnected'.rely hr₁).files⟩
      have hreq₁ : ∀ r', req = some r' → r'.sock = socket ∨ r'.sock ∈ o₁.shared.closedSockets :=
        fun r' hr' => (hreq r' hr').imp_right fun hmem => hr₁.closedSockets hmem
      cases r with
      | ok request => exact fun o₂ hr₂ _ => ⟨Or.inl rfl, hconnected₁.rely hr₂⟩
      | error e =>
          cases e with
          | ConnectionResetError errno =>
              unfold afterUnparse
              dsimp only
              split
              · exact leave_safe hreq₁
              · cases req with
                | none => exact fun _ _ _ => trivial
                | some r' =>
                    exact fun o₂ hr₂ _ => ⟨(hreq₁ r' rfl).imp_right fun hmem =>
                      hr₂.closedSockets hmem, hconnected₁.rely hr₂⟩
          | _ => exact fun _ _ _ => trivial
  | dispatch req socket =>
      obtain rfl := Option.some.inj hround
      have hserving : Serving i req socket (o.push i (.enter (.dispatch req socket)) o.shared) :=
        { ctl := Obs.ctl_push_enter_self _ _ _ _
          sock := hhead.1
          connected := ⟨hhead.2.accepted, hhead.2.files⟩ }
      exact Outline.Safe.bind ((dispatch_safe hserving).mono fun _ _ _ h => afterDispatch_safe h)
  | dead e => cases hround

/-- The outline holds in every state that the server reaches. -/
theorem outline_holds {w : World Actions ι (Shared ι) Ctl} (h : Reach (system srv) initial w) :
    (outline srv).Holds w := by
  have hinit : (outline (ι := ι) srv).Holds initial := by
    refine ⟨⟨nofun, nofun, nofun, nofun, nofun⟩, fun i o hr _ r hreq => ?_⟩
    cases hreq
  exact hinit.reach rounds_safe h

end

end DianProtocol.Py
