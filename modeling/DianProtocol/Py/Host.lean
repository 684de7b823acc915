import DianProtocol.Lib.Channels
import DianProtocol.Py.PartialContent
import DianProtocol.Py.Responses
import DianProtocol.Py.Stream

set_option autoImplicit false

/-! # A worker at a connection

A worker of the server that serves one connection, on a machine whose `send` transfers all its data:
what it reads has been sent by its client, and what it sends on the connection is what the client
will read. The files, the keys and the values of `uuid4` are those of the machine.

The code of the worker is that of `Server`; only its actions get a meaning here. Each of the lemmas
says what a part of this code does when nothing goes wrong on the connection.
-/

namespace DianProtocol.Py

open Concurrent Channels

/-- What a worker finds on its machine: the socket of its connection; for every path whether it
exists and, if it can be opened, what can be read there; the keys in `_auths`; the values of
`uuid4`. -/
structure Machine where
  srv : Server := {}
  socket : Sock := 0
  files : Text → Option (Option Bytes)
  auths : List Text := []
  ids : Nat → UUID
  ids_lt : ∀ n, ids n < 2 ^ 128

/-- The file of a session. -/
structure OpenFile where
  content : Bytes := []
  pos : Nat := 0
  closed : Bool := false

/-- What a worker works on: `_sessions`, the files of the sessions, how many values of `uuid4` have
been taken, and whether the connection is closed. -/
structure Host where
  sessions : UUID → Option Session := fun _ => none
  opened : UUID → OpenFile := fun _ => {}
  drawn : Nat := 0
  closed : Bool := false

/-- `file.read(n)` -/
def OpenFile.read (f : OpenFile) (n : Int) : Except PyExn Bytes :=
  if f.closed ∨ n < -1 then .error .ValueError
  else if n = -1 then .ok (f.content.drop f.pos)
  else .ok ((f.content.drop f.pos).take n.toNat)

/-- `file.seek(pos)` -/
def OpenFile.seek (f : OpenFile) (pos : Int) : Option PyExn × OpenFile :=
  if f.closed ∨ pos < 0 then (some .ValueError, f) else (none, { f with pos := pos.toNat })

/-- The bytes of a response. -/
def Response.wire (r : Response) : Bytes := r.response.1 ++ r.response.2

namespace Machine

/-- What an action answers and does; `c` has arrived on the connection. It waits for a request that
has not arrived, and for the next client. -/
def perform (m : Machine) : (e : Act) → Host → Bytes → Option (Effect e.Ans Host UInt8)
  | .accept, _, _ => none
  | .unparse socket, h, c =>
      if socket = m.socket then (Reader.request c).map fun x => ⟨x.1, h, x.2, []⟩ else none
  | .uuid4, h, c => some ⟨m.ids h.drawn, { h with drawn := h.drawn + 1 }, c, []⟩
  | .auths, h, c => some ⟨m.auths, h, c, []⟩
  | .contains id, h, c => some ⟨(h.sessions id).isSome, h, c, []⟩
  | .getitem _ id, h, c => some ⟨h.sessions id, h, c, []⟩
  | .setitem id session, h, c =>
      some ⟨(), { h with sessions := Function.update h.sessions id (some session) }, c, []⟩
  | .pop id, h, c =>
      some ⟨h.sessions id, { h with sessions := Function.update h.sessions id none }, c, []⟩
  | .exists_ path, h, c => some ⟨(m.files path).isSome, h, c, []⟩
  | .open_ id path, h, c =>
      match m.files path with
      | some (some content) =>
          let opened := Function.update h.opened id { content := content }
          some ⟨.ok content.length, { h with opened := opened }, c, []⟩
      | _ => some ⟨.error .OSError, h, c, []⟩
  | .seek id pos, h, c =>
      let (raised, file) := (h.opened id).seek pos
      some ⟨raised, { h with opened := Function.update h.opened id file }, c, []⟩
  | .read id n, h, c =>
      let data := (h.opened id).read n
      let pos := (h.opened id).pos + (data.toOption.getD []).length
      let file : OpenFile := { h.opened id with pos := pos }
      some ⟨data, { h with opened := Function.update h.opened id file }, c, []⟩
  | .closeFile id, h, c =>
      let file : OpenFile := { h.opened id with closed := true }
      some ⟨(), { h with opened := Function.update h.opened id file }, c, []⟩
  | .send _ socket data, h, c =>
      if socket ≠ m.socket then some ⟨.ok data.length, h, c, []⟩
      else if h.closed then some ⟨.error .OSError, h, c, []⟩
      else some ⟨.ok data.length, h, c, data⟩
  | .closeSocket socket, h, c =>
      some ⟨(), { h with closed := h.closed || decide (socket = m.socket) }, c, []⟩

theorem perform_mono (m : Machine) {e : Act} {h : Host} {c : Bytes} {x : Effect e.Ans Host UInt8}
    (hx : m.perform e h c = some x) (d : Bytes) :
    m.perform e h (c ++ d) = some { x with rest := x.rest ++ d } := by
  cases e with
  | accept => cases hx
  | unparse socket =>
      simp only [perform] at hx ⊢
      split at hx
      · rename_i hsocket
        obtain ⟨⟨r, rest⟩, hread, rfl⟩ := Option.map_eq_some_iff.mp hx
        rw [if_pos hsocket, Reader.mono_request c r rest hread d]
        rfl
      · cases hx
  | open_ id path =>
      simp only [perform] at hx ⊢
      split at hx
      · cases hx
        rfl
      · cases hx
        rfl
  | send origin socket data =>
      simp only [perform] at hx ⊢
      by_cases hsocket : socket ≠ m.socket
      · rw [if_pos hsocket] at hx ⊢
        cases hx
        rfl
      rw [if_neg hsocket] at hx ⊢
      by_cases hclosed : h.closed
      · rw [if_pos hclosed] at hx ⊢
        cases hx
        rfl
      · rw [if_neg hclosed] at hx ⊢
        cases hx
        rfl
  | _ =>
      cases hx
      rfl

/-- The worker. -/
def thread (m : Machine) : Thread Actions Ctl Host UInt8 where
  round := blind (Py.round m.srv)
  perform := m.perform
  round_mono := blind_mono
  mono := fun hx d => m.perform_mono hx d

section

variable {m : Machine} {h : Host} {c : Bytes}

/-! ## Answers -/

theorem exec_perform {e : Act} {x : Effect e.Ans Host UInt8} (hx : m.perform e h c = some x) :
    m.thread.exec ((Py.perform e).run ()) h c =
      some ⟨(.ok x.ans, ()), x.state, x.rest, x.out⟩ := by
  show m.thread.exec (.act (S := Actions) e _) h c = _
  rw [Thread.exec_act _ (show m.thread.perform e h c = some x from hx)]
  exact Effect.map_after _ _ _ _

theorem exec_send (origin : Origin) (data : Bytes) (hopen : h.closed = false) :
    m.thread.exec ((send origin m.socket data).run ()) h c = some ⟨(.ok (), ()), h, c, data⟩ := by
  have hsend : m.perform (.send origin m.socket data) h c =
      some ⟨.ok data.length, h, c, data⟩ := by
    rw [perform, if_neg (not_not.mpr rfl), if_neg (by rw [hopen]; decide)]
  rw [send, Thread.exec_ok (exec_perform hsend)]
  exact Effect.map_after _ _ _ _

theorem exec_respond {req : SockRequest} (r : Response) (hreq : req.sock = m.socket)
    (hopen : h.closed = false) :
    m.thread.exec ((respond req r).run ()) h c =
      some ⟨(.ok (), ()), h, c, r.wire⟩ := by
  rw [respond, hreq, Thread.exec_ok (exec_send .answer _ hopen), exec_send .answer _ hopen]
  rfl

theorem exec_getitem {site : Site} {id : UUID} {s : Session} (hs : h.sessions id = some s) :
    m.thread.exec ((getitem site id).run ()) h c = some ⟨(.ok s, ()), h, c, []⟩ := by
  have hget : m.perform (.getitem site id) h c = some ⟨h.sessions id, h, c, []⟩ := rfl
  rw [getitem, Thread.exec_ok (exec_perform hget), hs]
  rfl

/-- The session of a request is found. -/
theorem exec_findSession {req : SockRequest} {id : UUID} {session : Text} {s : Session}
    (hheader : req.headers.get? (text "Session") = some session)
    (hid : UUID.ofText session = some id) (hs : h.sessions id = some s)
    (hsocket : s.socket = m.socket) :
    m.thread.exec ((findSession req m.socket).run ()) h c =
      some ⟨(.ok (some id), ()), h, c, []⟩ := by
  have hcontains : m.perform (.contains id) h c =
      some ⟨(h.sessions id).isSome, h, c, []⟩ := rfl
  unfold findSession
  rw [hheader]
  dsimp only
  rw [hid]
  dsimp only
  rw [Thread.exec_ok (exec_perform hcontains), hs, if_pos Option.isSome_some,
    Thread.exec_ok (exec_getitem hs), if_neg (not_not.mpr hsocket)]
  rfl

/-- The text in the header `Session` is no id. -/
theorem exec_findSession_invalid {req : SockRequest} {session : Text}
    (hheader : req.headers.get? (text "Session") = some session)
    (hid : UUID.ofText session = none) :
    m.thread.exec ((findSession req m.socket).run ()) h c =
      some ⟨(.error .ValueError, ()), h, c, []⟩ := by
  unfold findSession
  rw [hheader]
  dsimp only
  rw [hid]
  rfl

/-! ## SETUP -/

/-- What is said about the credentials in a request. -/
theorem exec_authenticate_open {req : SockRequest} (hauth : m.srv.use_auth = false) :
    m.thread.exec ((authenticate m.srv req).run ()) h c = some ⟨(.ok true, ()), h, c, []⟩ := by
  unfold authenticate
  rw [if_neg (by rw [hauth]; decide)]
  rfl

/-- The answer 401. -/
def unauthorized : Response where
  status := 401
  status_text := text "Unauthorized"
  headers := Dict.set {} (text "WWW-Authenticate") (text "Basic realm=\"dian\"")

/-- The answer 403. -/
def forbidden : Response := { status := 403, status_text := text "Forbidden" }

theorem exec_authenticate_none {req : SockRequest} (hauth : m.srv.use_auth = true)
    (hreq : req.sock = m.socket) (hopen : h.closed = false)
    (hheader : req.headers.get? (text "Authorization") = none) :
    m.thread.exec ((authenticate m.srv req).run ()) h c =
      some ⟨(.ok false, ()), h, c, unauthorized.wire⟩ := by
  unfold authenticate
  rw [if_pos hauth, hheader]
  dsimp only
  rw [Thread.exec_ok (exec_respond _ hreq hopen)]
  exact Effect.map_after _ _ _ _

theorem exec_authenticate_some {req : SockRequest} {authorization : Text}
    (hauth : m.srv.use_auth = true) (hreq : req.sock = m.socket) (hopen : h.closed = false)
    (hheader : req.headers.get? (text "Authorization") = some authorization) :
    m.thread.exec ((authenticate m.srv req).run ()) h c =
      if authorization ∈ m.auths.map (text "Bearer " ++ ·) then
        some ⟨(.ok true, ()), h, c, []⟩
      else some ⟨(.ok false, ()), h, c, forbidden.wire⟩ := by
  have hauths : m.perform .auths h c = some ⟨m.auths, h, c, []⟩ := rfl
  unfold authenticate
  rw [if_pos hauth, hheader]
  dsimp only
  rw [Thread.exec_ok (exec_perform hauths)]
  by_cases hkey : authorization ∈ m.auths.map (text "Bearer " ++ ·)
  · rw [if_neg (not_not.mpr hkey), if_pos hkey]
    rfl
  · rw [if_pos hkey, if_neg hkey, Thread.exec_ok (exec_respond _ hreq hopen)]
    exact Effect.map_after _ _ _ _

/-- The answer 400. -/
def badRequest : Response := { status := 400, status_text := text "Bad Request" }

/-- The answer 404. -/
def notFound (id : UUID) : Response where
  status := 404
  status_text := text "Not Found"
  headers := Dict.set {} (text "Session") (UUID.str id)

theorem exec_init_badRequest {req : SockRequest} (id : UUID) (hreq : req.sock = m.socket)
    (hopen : h.closed = false) (hurl : SessionUrl_re.match? req.url = none) :
    m.thread.exec ((Session.init m.srv.root req m.socket id).run ()) h c =
      some ⟨(.error .StopHandler, ()), h, c, badRequest.wire⟩ := by
  unfold Session.init
  rw [hurl]
  dsimp only
  rw [Thread.exec_ok (exec_respond _ hreq hopen)]
  exact Effect.map_after _ _ _ _

/-- The path of the file that a url asks for. -/
def target (m : Machine) (url : Text) : Option Text :=
  (SessionUrl_re.match? url).map fun way => join m.srv.root ((way.group? "file").getD [])

theorem exec_init_target {req : SockRequest} {path : Text} (id : UUID)
    (hurl : m.target req.url = some path) :
    m.thread.exec ((Session.init m.srv.root req m.socket id).run ()) h c =
      m.thread.exec ((do
        if ← Py.perform (.exists_ path) then
          let opened ← Py.perform (.open_ id path)
          let file_size ← attempt opened
          pure { socket := m.socket, session_id := id, request := req, file_size := file_size }
        else
          respond req (notFound id)
          Exc.throw .StopHandler : Worker Session).run ()) h c := by
  obtain ⟨way, hway, rfl⟩ := Option.map_eq_some_iff.mp hurl
  unfold Session.init
  rw [hway]
  rfl

theorem exec_init_notFound {req : SockRequest} {path : Text} (id : UUID)
    (hreq : req.sock = m.socket) (hopen : h.closed = false) (hurl : m.target req.url = some path)
    (hfile : m.files path = none) :
    m.thread.exec ((Session.init m.srv.root req m.socket id).run ()) h c =
      some ⟨(.error .StopHandler, ()), h, c,
        (notFound id).wire⟩ := by
  have hexists : m.perform (.exists_ path) h c = some ⟨(m.files path).isSome, h, c, []⟩ := rfl
  rw [exec_init_target id hurl, Thread.exec_ok (exec_perform hexists), hfile,
    if_neg (by simp), Thread.exec_ok (exec_respond _ hreq hopen)]
  exact congrArg _ (Effect.map_after _ _ _ _)

/-- The session that SETUP creates. -/
def created (m : Machine) (req : SockRequest) (id : UUID) (content : Bytes) : Session where
  socket := m.socket
  session_id := id
  request := req
  file_size := content.length

theorem exec_init_created {req : SockRequest} {path : Text} {content : Bytes} (id : UUID)
    (hurl : m.target req.url = some path) (hfile : m.files path = some (some content)) :
    m.thread.exec ((Session.init m.srv.root req m.socket id).run ()) h c =
      some ⟨(.ok (m.created req id content), ()),
        { h with opened := Function.update h.opened id { content := content } }, c, []⟩ := by
  have hexists : m.perform (.exists_ path) h c = some ⟨(m.files path).isSome, h, c, []⟩ := rfl
  have hopened : m.perform (.open_ id path) h c = some ⟨.ok content.length,
      { h with opened := Function.update h.opened id { content := content } }, c, []⟩ := by
    simp only [perform, hfile]
  rw [exec_init_target id hurl, Thread.exec_ok (exec_perform hexists), hfile,
    if_pos Option.isSome_some, Thread.exec_ok (exec_perform hopened)]
  rfl

/-- A path that exists but cannot be opened. -/
theorem exec_init_fails {req : SockRequest} {path : Text} (id : UUID)
    (hurl : m.target req.url = some path) (hfile : m.files path = some none) :
    m.thread.exec ((Session.init m.srv.root req m.socket id).run ()) h c =
      some ⟨(.error .OSError, ()), h, c, []⟩ := by
  have hexists : m.perform (.exists_ path) h c = some ⟨(m.files path).isSome, h, c, []⟩ := rfl
  have hopened : m.perform (.open_ id path) h c = some ⟨.error .OSError, h, c, []⟩ := by
    simp only [perform, hfile]
  rw [exec_init_target id hurl, Thread.exec_ok (exec_perform hexists), hfile,
    if_pos Option.isSome_some, Thread.exec_ok (exec_perform hopened)]
  rfl

/-! ## PLAY -/

/-- `h` with the position in the file of a session moved. -/
def moved (h : Host) (id : UUID) (pos : Nat) : Host :=
  { h with opened := Function.update h.opened id { h.opened id with pos := pos } }

theorem moved_moved (id : UUID) (p q : Nat) : moved (moved h id p) id q = moved h id q := by
  simp [moved]

/-- The part of a file from `start` on, of length `n` if the file is long enough. -/
def part (content : Bytes) (start n : Nat) : Bytes := (content.drop start).take n

theorem perform_seek {id : UUID} (start : Nat) (hfile : (h.opened id).closed = false) :
    m.perform (.seek id start) h c = some ⟨none, moved h id start, c, []⟩ := by
  have hfine : ¬ ((h.opened id).closed ∨ (start : Int) < 0) := by
    simp [hfile]
  have hseek : (h.opened id).seek start = (none, { h.opened id with pos := start }) :=
    if_neg hfine
  simp only [perform, hseek]
  rfl

theorem perform_read {id : UUID} (start n : Nat) (hfile : (h.opened id).closed = false) :
    ∃ pos, m.perform (.read id n) (moved h id start) c =
      some ⟨.ok (part (h.opened id).content start n), moved h id pos, c, []⟩ := by
  have hself : (moved h id start).opened id = { h.opened id with pos := start } :=
    Function.update_self _ _ _
  have hfine : ¬ ((h.opened id).closed ∨ (n : Int) < -1) := by
    simp [hfile]
  have hread : ((moved h id start).opened id).read n =
      .ok (part (h.opened id).content start n) := by
    rw [hself, OpenFile.read, if_neg hfine, if_neg (by omega)]
    rfl
  refine ⟨start + (part (h.opened id).content start n).length, ?_⟩
  show some (⟨((moved h id start).opened id).read n, moved (moved h id start) id
    (((moved h id start).opened id).pos +
      ((((moved h id start).opened id).read n).toOption.getD []).length), c, []⟩ :
    Effect (Except PyExn Bytes) Host UInt8) = _
  rw [hread, moved_moved, hself]
  rfl

/-- A worker sends the head of the response and a part of the file. -/
theorem exec_sendFile {s : Session} (headers : Dict) (start n : Nat)
    (hsock : s.request.sock = m.socket) (hopen : h.closed = false)
    (hfile : (h.opened s.session_id).closed = false) :
    ∃ pos, m.thread.exec ((s.sendFile headers start (start + n : Nat)).run ()) h c =
      some ⟨(.ok (), ()), moved h s.session_id pos, c,
        encode ({ status := 206, status_text := text "Partial Content",
                  headers := headers } : Response).parsehead ++
          part (h.opened s.session_id).content start n⟩ := by
  have hcount : ((start + n : Nat) : Int) - start = n := by
    omega
  obtain ⟨pos, hread⟩ := @perform_read m h c s.session_id start n hfile
  refine ⟨pos, ?_⟩
  rw [Session.sendFile, Thread.exec_ok (exec_perform (perform_seek start hfile)), hcount]
  dsimp only
  have hopen₁ : (moved h s.session_id start).closed = false := hopen
  have hopen₂ : (moved h s.session_id pos).closed = false := hopen
  have hbody : m.thread.exec ((do
      let body ← attempt (.ok (part (h.opened s.session_id).content start n))
      send (.play s.session_id) m.socket body : Worker Unit).run ()) (moved h s.session_id pos) c =
      some ⟨(.ok (), ()), moved h s.session_id pos, c,
        part (h.opened s.session_id).content start n⟩ :=
    exec_send _ _ hopen₂
  rw [hsock, Thread.exec_ok (exec_send _ _ hopen₁), Thread.exec_ok (exec_perform hread), hbody]
  rfl

/-- The response of `play()` with its body. -/
def wholeResponse (s : Session) (content : Bytes) : Response :=
  { s.fileResponse with body := .reader content }

/-- The response of `play(range)` with its body. -/
def partResponse (s : Session) (content : Bytes) (start stop : Nat) : Response :=
  { s.rangeResponse start stop with body := .reader (part content start (stop + 1 - start)) }

section

variable {s : Session} {content : Bytes}

/-- What is assumed about the file of a session. -/
structure Opened (h : Host) (s : Session) (content : Bytes) : Prop where
  content_eq : (h.opened s.session_id).content = content
  open_ : (h.opened s.session_id).closed = false
  file_size : s.file_size = content.length

theorem exec_playAll (hsock : s.request.sock = m.socket) (hopen : h.closed = false)
    (hfile : Opened h s content) :
    ∃ pos, m.thread.exec (s.playAll.run ()) h c =
      some ⟨(.ok (), ()), moved h s.session_id pos, c, (wholeResponse s content).wire⟩ := by
  obtain ⟨pos, hsend⟩ :=
    @exec_sendFile m h c s s.fileResponse.headers 0 s.file_size hsock hopen hfile.open_
  refine ⟨pos, ?_⟩
  have hall : part (h.opened s.session_id).content 0 s.file_size = content := by
    rw [hfile.content_eq, hfile.file_size, part, List.drop_zero, List.take_length]
  rw [hall, Nat.zero_add] at hsend
  exact hsend

theorem exec_intOf {t : Text} {n : Int} (ht : int t = some n) :
    m.thread.exec ((intOf (some t)).run ()) h c = some ⟨(.ok n, ()), h, c, []⟩ := by
  unfold intOf
  dsimp only
  rw [ht]
  rfl

theorem exec_playRange {range : Text} {start stop : Nat}
    (hrange : RangeText range start (some stop)) (hne : stop ≠ 0) (hle : start ≤ stop)
    (hsock : s.request.sock = m.socket) (hopen : h.closed = false) (hfile : Opened h s content) :
    ∃ pos, m.thread.exec ((s.playRange range).run ()) h c =
      some ⟨(.ok (), ()), moved h s.session_id pos, c,
        (partResponse s content start stop).wire⟩ := by
  obtain ⟨way, first, hmatch, hfirst, hint, last, hlast, hint'⟩ := hrange
  obtain ⟨pos, hsend⟩ := @exec_sendFile m h c s (s.rangeResponse start stop).headers start
    (stop + 1 - start) hsock hopen hfile.open_
  refine ⟨pos, ?_⟩
  have hzero : ¬ (stop : Int) = 0 := by
    omega
  have hcount : ((start + (stop + 1 - start) : Nat) : Int) = (stop : Int) + 1 := by
    omega
  have hid : ∀ {α : Type} (x : Option (Effect α Host UInt8)), x.map (Effect.after []) = x :=
    fun x => by cases x <;> rfl
  rw [hfile.content_eq, hcount] at hsend
  rw [Session.playRange, hmatch]
  dsimp only
  rw [hfirst, Thread.exec_ok (exec_intOf hint), hlast, Thread.exec_ok (exec_intOf hint'), hid, hid,
    if_neg hzero]
  exact hsend

/-- A text that is no range. -/
theorem exec_playRange_invalid {range : Text} (hrange : Range_re.match? range = none) :
    m.thread.exec ((s.playRange range).run ()) h c =
      some ⟨(.error (.Exception "Invalid range"), ()), h, c, []⟩ := by
  rw [Session.playRange, hrange]
  rfl

/-- A range without an end. -/
theorem exec_playRange_open {range : Text} {start : Nat} (hrange : RangeText range start none) :
    m.thread.exec ((s.playRange range).run ()) h c =
      some ⟨(.error .TypeError, ()), h, c, []⟩ := by
  obtain ⟨way, first, hmatch, hfirst, hint, hend⟩ := hrange
  rw [Session.playRange, hmatch]
  dsimp only
  rw [hfirst, Thread.exec_ok (exec_intOf hint), hend]
  rfl

end

/-! ## Requests -/

/-- A value of `uuid4` has been taken. -/
def draw (h : Host) : Host := { h with drawn := h.drawn + 1 }

theorem exec_dispatch_options {req : SockRequest} (hmethod : req.method = text "OPTIONS")
    (hreq : req.sock = m.socket) (hopen : h.closed = false) :
    m.thread.exec ((dispatch m.srv req m.socket).run ()) h c =
      some ⟨(.ok .continue_, ()), h, c, ({} : Response).wire⟩ := by
  unfold dispatch
  rw [hmethod, if_neg (by decide), if_pos rfl, Thread.exec_ok (exec_respond _ hreq hopen)]
  exact Effect.map_after _ _ _ _

theorem dispatch_setup {req : SockRequest} (hmethod : req.method = text "SETUP") :
    dispatch m.srv req m.socket = handleSetup m.srv req m.socket := by
  unfold dispatch
  rw [hmethod, if_neg (by decide), if_neg (by decide), if_pos rfl]

section

variable {req : SockRequest} {transport : Text}

theorem exec_dispatch_refused {o : Bytes} (hmethod : req.method = text "SETUP")
    (htransport : req.headers.get? (text "Transport") = some transport)
    (hauth : m.thread.exec ((authenticate m.srv req).run ()) h c =
      some ⟨(.ok false, ()), h, c, o⟩) :
    m.thread.exec ((dispatch m.srv req m.socket).run ()) h c =
      some ⟨(.ok .continue_, ()), h, c, o⟩ := by
  rw [dispatch_setup hmethod]
  unfold handleSetup
  rw [htransport]
  dsimp only
  rw [Thread.exec_ok hauth]
  exact Effect.map_after _ _ _ _

/-- The answer to SETUP. -/
def createdAnswer (id : UUID) (transport : Text) : Response where
  headers := (Dict.set {} (text "Session") (UUID.str id)).set (text "Transport") transport

/-- SETUP up to the creation of the session. -/
theorem exec_dispatch_admitted (hmethod : req.method = text "SETUP")
    (htransport : req.headers.get? (text "Transport") = some transport)
    (hauth : m.thread.exec ((authenticate m.srv req).run ()) h c =
      some ⟨(.ok true, ()), h, c, []⟩) :
    m.thread.exec ((dispatch m.srv req m.socket).run ()) h c =
      m.thread.exec ((do
        let created ← Session.init m.srv.root req m.socket (m.ids h.drawn)
        Py.perform (.setitem (m.ids h.drawn) created)
        respond req (createdAnswer (m.ids h.drawn) transport)
        return .continue_ : Worker Flow).run ()) (draw h) c := by
  have hid : ∀ {α : Type} (x : Option (Effect α Host UInt8)), x.map (Effect.after []) = x :=
    fun x => by cases x <;> rfl
  have huuid : m.perform .uuid4 h c = some ⟨m.ids h.drawn, draw h, c, []⟩ := rfl
  rw [dispatch_setup hmethod]
  unfold handleSetup
  rw [htransport]
  dsimp only
  rw [Thread.exec_ok hauth, if_pos rfl, Thread.exec_ok (exec_perform huuid), hid, hid]
  rfl

theorem exec_dispatch_raises {h' : Host} {o : Bytes} {e : PyExn}
    (hmethod : req.method = text "SETUP")
    (htransport : req.headers.get? (text "Transport") = some transport)
    (hauth : m.thread.exec ((authenticate m.srv req).run ()) h c =
      some ⟨(.ok true, ()), h, c, []⟩)
    (hinit : m.thread.exec ((Session.init m.srv.root req m.socket (m.ids h.drawn)).run ())
      (draw h) c = some ⟨(.error e, ()), h', c, o⟩) :
    m.thread.exec ((dispatch m.srv req m.socket).run ()) h c =
      some ⟨(.error e, ()), h', c, o⟩ := by
  rw [exec_dispatch_admitted hmethod htransport hauth, Thread.exec_error hinit]

theorem exec_dispatch_created {h' : Host} {s : Session} (hmethod : req.method = text "SETUP")
    (htransport : req.headers.get? (text "Transport") = some transport)
    (hreq : req.sock = m.socket) (hopen : h'.closed = false)
    (hauth : m.thread.exec ((authenticate m.srv req).run ()) h c =
      some ⟨(.ok true, ()), h, c, []⟩)
    (hinit : m.thread.exec ((Session.init m.srv.root req m.socket (m.ids h.drawn)).run ())
      (draw h) c = some ⟨(.ok s, ()), h', c, []⟩) :
    m.thread.exec ((dispatch m.srv req m.socket).run ()) h c =
      some ⟨(.ok .continue_, ()),
        { h' with sessions := Function.update h'.sessions (m.ids h.drawn) (some s) }, c,
        (createdAnswer (m.ids h.drawn) transport).wire⟩ := by
  let stored : Host :=
    { h' with sessions := Function.update h'.sessions (m.ids h.drawn) (some s) }
  have hset : m.perform (.setitem (m.ids h.drawn) s) h' c = some ⟨(), stored, c, []⟩ := rfl
  have hstored : stored.closed = false := hopen
  rw [exec_dispatch_admitted hmethod htransport hauth, Thread.exec_ok hinit,
    Thread.exec_ok (exec_perform hset), Thread.exec_ok (exec_respond _ hreq hstored)]
  exact congrArg _ (congrArg _ (Effect.map_after _ _ _ _))

end

section

variable {req : SockRequest} {id : UUID} {session : Text} {s : Session}

theorem exec_dispatch_play {h' : Host} {o : Bytes} (hmethod : req.method = text "PLAY")
    (hheader : req.headers.get? (text "Session") = some session)
    (hid : UUID.ofText session = some id) (hs : h.sessions id = some s)
    (hsocket : s.socket = m.socket)
    (hplay : m.thread.exec ((s.play (req.headers.get? (text "Range"))).run ()) h c =
      some ⟨(.ok (), ()), h', c, o⟩) :
    m.thread.exec ((dispatch m.srv req m.socket).run ()) h c =
      some ⟨(.ok .continue_, ()), h', c, o⟩ := by
  unfold dispatch
  rw [hmethod, if_neg (by decide), if_neg (by decide), if_neg (by decide), if_pos rfl, handlePlay,
    Thread.exec_ok (exec_findSession hheader hid hs hsocket)]
  dsimp only
  rw [Thread.exec_ok (exec_getitem hs), Thread.exec_ok hplay]
  exact congrArg _ (congrArg _ (Effect.map_after _ _ _ _))

theorem exec_dispatch_play_raises {e : PyExn} (hmethod : req.method = text "PLAY")
    (hheader : req.headers.get? (text "Session") = some session)
    (hid : UUID.ofText session = some id) (hs : h.sessions id = some s)
    (hsocket : s.socket = m.socket)
    (hplay : m.thread.exec ((s.play (req.headers.get? (text "Range"))).run ()) h c =
      some ⟨(.error e, ()), h, c, []⟩) :
    m.thread.exec ((dispatch m.srv req m.socket).run ()) h c =
      some ⟨(.error e, ()), h, c, []⟩ := by
  unfold dispatch
  rw [hmethod, if_neg (by decide), if_neg (by decide), if_neg (by decide), if_pos rfl, handlePlay,
    Thread.exec_ok (exec_findSession hheader hid hs hsocket)]
  dsimp only
  rw [Thread.exec_ok (exec_getitem hs), Thread.exec_error hplay]
  rfl

/-- PLAY and TEARDOWN with a text that is no id. -/
theorem exec_dispatch_invalid (hmethod : req.method = text "PLAY" ∨ req.method = text "TEARDOWN")
    (hheader : req.headers.get? (text "Session") = some session)
    (hid : UUID.ofText session = none) :
    m.thread.exec ((dispatch m.srv req m.socket).run ()) h c =
      some ⟨(.error .ValueError, ()), h, c, []⟩ := by
  have hfind : m.thread.exec ((findSession req m.socket).run ()) h c = _ :=
    exec_findSession_invalid hheader hid
  unfold dispatch
  rcases hmethod with hmethod | hmethod
  · rw [hmethod, if_neg (by decide), if_neg (by decide), if_neg (by decide), if_pos rfl,
      handlePlay, Thread.exec_error hfind]
  · rw [hmethod, if_neg (by decide), if_neg (by decide), if_neg (by decide), if_neg (by decide),
      if_pos rfl, handleTeardown, Thread.exec_error hfind]

/-- The machine after TEARDOWN. -/
def tornDown (h : Host) (id : UUID) : Host where
  sessions := Function.update h.sessions id none
  opened := Function.update h.opened id { h.opened id with closed := true }
  drawn := h.drawn
  closed := true

theorem tornDown_closed (h : Host) (id : UUID) : (tornDown h id).sessions id = none ∧
    ((tornDown h id).opened id).closed = true := by
  simp [tornDown]

theorem exec_dispatch_teardown (hmethod : req.method = text "TEARDOWN")
    (hreq : req.sock = m.socket) (hopen : h.closed = false)
    (hheader : req.headers.get? (text "Session") = some session)
    (hid : UUID.ofText session = some id) (hs : h.sessions id = some s)
    (hsid : s.session_id = id) (hsocket : s.socket = m.socket) :
    m.thread.exec ((dispatch m.srv req m.socket).run ()) h c =
      some ⟨(.ok .break_, ()), tornDown h id, c, ({} : Response).wire⟩ := by
  let closedFile : Host :=
    { h with opened := Function.update h.opened id { h.opened id with closed := true } }
  have hclosed : m.thread.exec (s.close.run ()) h c =
      some ⟨(.ok (), ()), { closedFile with closed := true }, c, []⟩ := by
    have hfile : m.perform (.closeFile id) h c = some ⟨(), closedFile, c, []⟩ := rfl
    have hsock : m.perform (.closeSocket m.socket) closedFile c =
        some ⟨(), { closedFile with closed := true }, c, []⟩ := by
      simp [perform]
    rw [Session.close, hsid, hsocket, Thread.exec_ok (exec_perform hfile), exec_perform hsock]
    rfl
  have hpop : m.thread.exec ((popitem id).run ()) { closedFile with closed := true } c =
      some ⟨(.ok (), ()), tornDown h id, c, []⟩ := by
    have hact : m.perform (.pop id) { closedFile with closed := true } c =
        some ⟨h.sessions id, tornDown h id, c, []⟩ := rfl
    rw [popitem, Thread.exec_ok (exec_perform hact), hs]
    rfl
  unfold dispatch
  rw [hmethod, if_neg (by decide), if_neg (by decide), if_neg (by decide), if_neg (by decide),
    if_pos rfl, handleTeardown, Thread.exec_ok (exec_findSession hheader hid hs hsocket)]
  dsimp only
  rw [Thread.exec_ok (exec_respond _ hreq hopen), Thread.exec_ok (exec_getitem hs),
    Thread.exec_ok hclosed, Thread.exec_ok hpop]
  exact congrArg _ (Effect.map_after _ _ _ _)

end

end

end Machine

end DianProtocol.Py
