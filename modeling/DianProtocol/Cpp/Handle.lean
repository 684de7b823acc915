import DianProtocol.Lib.Interleaving
import DianProtocol.Cpp.Parse

set_option autoImplicit false

/-! # `RtspServer::_handle`

`_handle` is a program over the actions by which a worker touches what it does not own: the mutex
`sessions_lock` and the map `sessions`, the socket, and the callbacks. Its local variables are the
request, the response and the connection; it receives the first two by reference, so they keep
their values when it throws.

The callbacks are parameters of the server. A callback gets the request, the response and a pointer
to the session, and may change all three, send the response, read from the connection and throw;
`Server.behaves` says which outcomes it can have.
-/

namespace DianProtocol.Cpp

open Concurrent

/-! ## `RtspRequest::getURI` -/

structure RtspURI where
  host : Str
  port : BitVec 16
  path : Str
  deriving DecidableEq

/-- `std::string::npos` -/
def npos : Nat := 2 ^ 64 - 1

/-- `s.find(c)` -/
def find (s : Str) (c : Byte) : Nat := (s.findIdx? (· = c)).getD npos

/-- `std::stoi` -/
def stoi (s : Str) : Except Exn Int :=
  match strtol (cstr s) with
  | none => .error .invalid_argument
  | some (n, _) => if -2 ^ 31 ≤ n ∧ n < 2 ^ 31 then .ok n else .error .out_of_range

/-- `RtspRequest::getURI` -/
def getURI (url : Str) : Except Exn RtspURI :=
  let scheme := str "diantp://"
  if ¬ scheme <+: url then .error (.exception "invalid url")
  else
    let rest := url.drop scheme.length
    let pos := min (find rest 47) (find rest 58)
    if pos = npos then .error (.exception "invalid url")
    else if rest.getD pos nul = 58 then
      -- a colon comes first: the port stands between it and the path
      let pathpos := find rest 47
      if pathpos = npos then .error (.exception "invalid url")
      else (stoi ((rest.drop (pos + 1)).take (pathpos - pos - 1))).map fun port =>
        { host := rest.take pos, port := BitVec.ofInt 16 port, path := rest.drop pathpos }
    else .ok { host := rest.take pos, port := 554, path := rest.drop pos }

/-! ## Sessions, callbacks and actions -/

structure Session where
  id : Str := []
  url : Str := []
  ip : Str := []
  port : BitVec 16 := 0
  path : Str := []
  user : Str := []
  password : Str := []
  transport : Str := []
  contentlength : Str := []
  deriving DecidableEq

abbrev Sessions := Map Session

/-- The variables of a worker while it handles a request. -/
structure Locals where
  request : Request
  response : Response
  conn : Conn

inductive Callback where
  | setup
  | play
  | teardown
  deriving DecidableEq

/-- The `Session*` a callback gets: the local variable of SETUP, or an entry of `sessions`. -/
inductive SessionPtr where
  | own (session : Session)
  | entry (key : Str)

/-- What a callback leaves behind: its arguments, the heads it has sent, and what it threw. -/
structure CallbackReturn where
  vars : Locals
  session : Session
  heads : List Str := []
  thrown : Option Exn := none

/-- Where in the source `Response::send` is called: in `_handle`, or in a catch handler of
`RtspServer::start`. -/
inductive Site where
  | handle
  | reply
  deriving DecidableEq

inductive Act where
  | lock
  | unlock
  | generateId
  | find (key : Str)
  | index (by_ : Callback) (key : Str)
  | store (session : Session)
  | erase (key : Str)
  | auth (session : Session)
  | callback (cb : Callback) (vars : Locals) (ptr : SessionPtr)
  | send (site : Site) (vars : Locals)
  | sendBody (site : Site) (body : StreamReader)
  | close
  | accept
  | hang

/-- The answers: of `send`, which sends the head of the response, whether `::send` succeeded; of
`sendBody`, the loop over the body, what it threw; and nothing at all of a call that never
returns. -/
@[reducible] def Act.Ans : Act → Type
  | .lock => Unit
  | .unlock => Unit
  | .generateId => Str
  | .find _ => Bool
  | .index _ _ => Unit
  | .store _ => Unit
  | .erase _ => Unit
  | .auth _ => Except Exn Bool
  | .callback _ _ _ => CallbackReturn
  | .send _ _ => Bool
  | .sendBody _ _ => Option Exn
  | .close => Unit
  | .accept => Except Exn Conn
  | .hang => Empty

/-- The actions of a worker. -/
abbrev Actions : Sig := ⟨Act, Act.Ans⟩

/-- The public members of `RtspServer` and the behaviour of its callbacks; a callback that is
`nullptr` is `false`. `newId` makes a session id from two values of `rand()`. -/
structure Server where
  enable_auth : Bool := false
  setupCallback : Bool := false
  playCallback : Bool := false
  teardownCallback : Bool := false
  authCallback : Bool := false
  newId : Nat → Nat → Str := fun a b => to_string a ++ to_string b
  behaves : Callback → Locals → Session → CallbackReturn → Prop

/-! ## `Response::send` and `_handle` -/

abbrev Handler := Exc Actions Locals Exn

open Exc (vars assign throw)

def perform (e : Act) : Handler e.Ans := Exc.perform (S := Actions) e

/-- `request.headers[key]`, which inserts the key when it is absent. -/
def requestHeader (key : Str) : Handler Str := do
  let x ← vars
  let value := x.request.headers.getD key []
  assign fun x => { x with request :=
    { x.request with headers := x.request.headers.insertIfNew key [] } }
  return value

/-- `response.headers[key] = value` -/
def setHeader (key value : Str) : Handler Unit :=
  assign fun x => { x with response :=
    { x.response with headers := x.response.headers.insert key value } }

/-- `response.status = status; response.reason = reason` -/
def setStatus (status : Int) (reason : String) : Handler Unit :=
  assign fun x => { x with response := { x.response with status := status, reason := str reason } }

/-- The `Content-Length` that `Response::send` adds when there is a body. -/
def setContentLength : Handler Unit := do
  match (← vars).response.body with
  | none => pure ()
  | some body =>
      match body.maxlen with
      | none => throw (.NotImplementError "Thunked Transport Not Implemented")
      | some con_len => setHeader (str "Content-Length") (to_string con_len)

/-- `socket::send(StreamReader&)` -/
def transmit (site : Site) : Option StreamReader → Handler Unit
  | none => pure ()
  | some body => do
      match ← perform (.sendBody site body) with
      | none => pure ()
      | some e => throw e

/-- `Response::send` -/
def send (site : Site) : Handler Unit := do
  let x ← vars
  if x.response.sended then throw (.runtime_error "Response already sended")
  else
    setContentLength
    let x ← vars
    let sent : Bool ← perform (.send site x)
    if sent then
      transmit site x.response.body
      assign fun x => { x with response := { x.response with sended := true } }
    else throw (.SendError (-1))

/-- `if (!response.has_sended()) { m }` -/
def unlessSended (m : Handler Unit) : Handler Unit := do
  let x ← vars
  if x.response.sended then pure () else m

/-- `(*cb)(request, response, *this, ptr)`; the session the callback leaves behind. -/
def call (cb : Callback) (ptr : SessionPtr) : Handler Session := do
  let x ← vars
  let ret ← perform (.callback cb x ptr)
  assign fun _ => ret.vars
  match ret.thrown with
  | none => return ret.session
  | some e => throw e

/-- `if (cb != nullptr) (*cb)(request, response, *this, &session)` for an entry of `sessions`. -/
def callEntry (isSet : Bool) (cb : Callback) (key : Str) : Handler Unit :=
  if isSet then do
    let _ ← call cb (.entry key)
  else pure ()

/-- `if (setupCallback != nullptr) (*setupCallback)(request, response, *this, &session)` -/
def callSetup (srv : Server) (session : Session) : Handler Session :=
  if srv.setupCallback then call .setup (.own session) else pure session

def handleOptions : Handler Unit := do
  setStatus 200 "OK"
  setHeader (str "Public") (str "SETUP, TEARDOWN, PLAY, OPTIONS")
  -- the headers tested are those of the response
  if (← vars).response.headers.contains (str "Content-Length") then
    setStatus 400 "Bad Request"
    send .handle
  else
    send .handle

/-- The answer 401. -/
def unauthorized : Handler (Option Session) := do
  setStatus 401 "Unauthorized"
  send .handle
  return none

/-- The test of the credentials by `authCallback`: the session, or `none` after a 401. -/
def checkAuth (srv : Server) (session : Session) : Handler (Option Session) := do
  if srv.authCallback then
    match ← perform (.auth session) with
    | .error e => throw e
    | .ok true => return some session
    | .ok false => unauthorized
  else
    -- a call through `nullptr`, undefined behaviour
    nomatch ← perform .hang

/-- The credentials of SETUP: the session with user and password, or `none` after a 401. -/
def authenticate (srv : Server) (session : Session) : Handler (Option Session) := do
  if (← vars).request.headers.contains (str "User-Agent") then
    let user ← requestHeader (str "User-Agent")
    let password ← requestHeader (str "Authorization")
    let session := { session with user := user, password := password }
    if srv.enable_auth then checkAuth srv session else return some session
  else if srv.enable_auth then unauthorized
  else return some { session with user := [], password := [] }

/-- SETUP from the transport check on, with an authenticated session. -/
def setupSession (srv : Server) (session : Session) : Handler Unit := do
  let transport ← requestHeader (str "Transport")
  if transport ≠ str "TCP" then throw (.exception "unsupported transport")
  else
    let contentlength ← requestHeader (str "Content-Length")
    let session ← callSetup srv
      { session with transport := transport, contentlength := contentlength }
    perform .lock
    perform (.store session)
    perform .unlock
    unlessSended do
      setStatus 200 "OK"
      setHeader (str "Transport") session.transport
      setHeader (str "Session") session.id
      send .handle

def handleSetup (srv : Server) : Handler Unit := do
  let x ← vars
  match getURI x.request.url with
  | .error e => throw e
  | .ok uri =>
    perform .lock
    let id : Str ← perform .generateId
    perform .unlock
    let session ← authenticate srv
      { id := id, url := x.request.url, ip := uri.host, port := uri.port, path := uri.path }
    match session with
    -- a 401 has been sent
    | none => return ()
    | some session => setupSession srv session

/-- The answer 454 of TEARDOWN and PLAY, which is sent while the lock is held. -/
def sessionNotFound : Handler Unit := do
  setStatus 454 "Session Not Found"
  send .handle
  perform .unlock

def handleTeardown (srv : Server) : Handler Unit := do
  let session_id ← requestHeader (str "Session")
  perform .lock
  let found : Bool ← perform (.find session_id)
  if found then
    perform (.index .teardown session_id)
    perform .unlock
    callEntry srv.teardownCallback .teardown session_id
    unlessSended do
      setStatus 200 "OK"
      setHeader (str "Session") (← requestHeader (str "Session"))
      send .handle
    perform .lock
    -- the callback may have changed the request
    let key ← requestHeader (str "Session")
    perform (.erase key)
    perform .unlock
  else sessionNotFound

/-- PLAY after its first critical section, with the session found. -/
def playSession (srv : Server) (session_id : Str) : Handler Unit := do
  if (← vars).request.headers.contains (str "CSeq") then
    perform .lock
    perform (.index .play session_id)
    perform .unlock
    setHeader (str "CSeq") (← requestHeader (str "CSeq"))
    setHeader (str "Session") session_id
    callEntry srv.playCallback .play session_id
    unlessSended do
      setStatus 200 "OK"
      -- looked up again: the callback may have changed the request
      setHeader (str "Session") (← requestHeader (str "Session"))
      setHeader (str "Range") (str "npt=0.000-")
      setHeader (str "RTP-Info") (str "url=" ++ (← vars).request.url)
      send .handle
  else
    setStatus 400 "Bad Request"
    send .handle

def handlePlay (srv : Server) : Handler Unit := do
  perform .lock
  let session_id ← requestHeader (str "Session")
  let found : Bool ← perform (.find session_id)
  if found then
    perform .unlock
    playSession srv session_id
  else sessionNotFound

/-- `RtspServer::_handle` -/
def handle (srv : Server) : Handler Unit := do
  let method := (← vars).request.method
  if method = str "OPTIONS" then handleOptions
  else if method = str "SETUP" then handleSetup srv
  else if method = str "TEARDOWN" then handleTeardown srv
  else if method = str "PLAY" then handlePlay srv
  else
    setStatus 405 "Method Not Allowed"
    setHeader (str "Public") (str "SETUP, TEARDOWN, PLAY, OPTIONS")
    send .handle

end DianProtocol.Cpp
