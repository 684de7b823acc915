import DianProtocol.Lib.Interleaving
import DianProtocol.Py.Message

set_option autoImplicit false

/-! # `Session`

The methods of `Session` are programs over the actions by which a worker of the server touches what
it does not own: the sockets, the dictionary `_sessions`, the list `_auths` and the file system. The
file of a session is known by the id of the session.

A `Session` keeps the request of its SETUP. `play` without a range writes into the headers of that
request, but it always writes the same five before it uses them, so sessions are kept as values.
-/

namespace DianProtocol.Py

open Concurrent Regex

/-! ## `uuid.UUID` -/

/-- A `UUID`, by its value as an integer. -/
abbrev UUID := Nat

/-- `t.replace(pattern, '')`; `skip` characters belong to the pattern that was found last. -/
def remove (pattern : Text) : Nat → Text → Text
  | _, [] => []
  | skip + 1, _ :: t => remove pattern skip t
  | 0, c :: t =>
      if pattern <+: c :: t then remove pattern (pattern.length - 1) t else c :: remove pattern 0 t

/-- What stands behind the prefix `0x` of a number. -/
def hexadecimal : Text → Option Nat
  | '0' :: x :: t =>
      if x = 'x' ∨ x = 'X' then
        match t with
        | '_' :: t => unsigned 16 t
        | t => unsigned 16 t
      else unsigned 16 ('0' :: x :: t)
  | t => unsigned 16 t

/-- `uuid.UUID(t)`; `none` is a `ValueError`. -/
def UUID.ofText (t : Text) : Option UUID :=
  let brace := fun c => decide (c = '{' ∨ c = '}')
  let hex := remove (text "uuid:") 0 (remove (text "urn:") 0 t)
  let hex := ((hex.dropWhile brace).rdropWhile brace).filter (· ≠ '-')
  if hex.length = 32 then
    (signed hexadecimal hex).bind fun n => if 0 ≤ n ∧ n < 2 ^ 128 then some n.toNat else none
  else none

/-- `str(uuid)` -/
def UUID.str (id : UUID) : Text :=
  let digits := Nat.toDigits 16 id
  let hex := List.replicate (32 - digits.length) '0' ++ digits
  hex.take 8 ++ text "-" ++ (hex.drop 8).take 4 ++ text "-" ++ (hex.drop 12).take 4 ++ text "-"
    ++ (hex.drop 16).take 4 ++ text "-" ++ hex.drop 20

/-! ## Actions -/

/-- A connected socket. -/
abbrev Sock := Nat

/-- A `Request` with its socket, as `unparse` returns it. -/
structure SockRequest extends Request where
  sock : Sock

structure Session where
  socket : Sock
  session_id : UUID
  request : SockRequest
  file_size : Nat

/-- Where in the source `_sessions[session]` is looked up. -/
inductive Site where
  | socketCheck
  | play
  | close
  deriving DecidableEq

/-- What is sent: an answer of the server, or a response of `Session.play`. -/
inductive Origin where
  | answer
  | play (id : UUID)
  deriving DecidableEq

inductive Act where
  | accept
  | unparse (socket : Sock)
  | uuid4
  | auths
  | contains (id : UUID)
  | getitem (site : Site) (id : UUID)
  | setitem (id : UUID) (session : Session)
  | pop (id : UUID)
  | exists_ (path : Text)
  | open_ (id : UUID) (path : Text)
  | seek (id : UUID) (pos : Int)
  | read (id : UUID) (n : Int)
  | closeFile (id : UUID)
  | send (origin : Origin) (socket : Sock) (data : Bytes)
  | closeSocket (socket : Sock)

/-- The answers: of `_sessions[session]` and `pop`, `none` when there is no such key; of `open_`,
which includes the two calls of `seek` and the one of `tell`, the size of the file; of `seek`, what
it raised; of `send`, the number of bytes accepted. -/
@[reducible] def Act.Ans : Act → Type
  | .accept => Except PyExn Sock
  | .unparse _ => Except PyExn Request
  | .uuid4 => UUID
  | .auths => List Text
  | .contains _ => Bool
  | .getitem _ _ => Option Session
  | .setitem _ _ => Unit
  | .pop _ => Option Session
  | .exists_ _ => Bool
  | .open_ _ _ => Except PyExn Nat
  | .seek _ _ => Option PyExn
  | .read _ _ => Except PyExn Bytes
  | .closeFile _ => Unit
  | .send _ _ _ => Except PyExn Nat
  | .closeSocket _ => Unit

/-- The actions of a worker. -/
abbrev Actions : Sig := ⟨Act, Act.Ans⟩

/-- The code of a worker; it has no variables that outlive an exception. -/
abbrev Worker := Exc Actions Unit PyExn

/-- Perform an action. -/
def perform (e : Act) : Worker e.Ans := Exc.perform (S := Actions) e

/-- The result of an action that may raise. -/
def attempt {α : Type} : Except PyExn α → Worker α
  | .ok a => pure a
  | .error e => Exc.throw e

/-- `_sessions[session]` -/
def getitem (site : Site) (id : UUID) : Worker Session := do
  match ← perform (.getitem site id) with
  | some session => pure session
  | none => Exc.throw .KeyError

/-- `_sessions.pop(session)` -/
def popitem (id : UUID) : Worker Unit := do
  match ← perform (.pop id) with
  | some _ => pure ()
  | none => Exc.throw .KeyError

/-- `socket.send(data)`. The number of bytes accepted is not used. -/
def send (origin : Origin) (socket : Sock) (data : Bytes) : Worker Unit := do
  let sent ← perform (.send origin socket data)
  let _ ← attempt sent

/-- `Response.response` of a response whose body is a string. -/
def respond (req : SockRequest) (r : Response) : Worker Unit := do
  send .answer req.sock r.response.1
  send .answer req.sock r.response.2

/-! ## The methods -/

/-- `os.path.join(root, file)` for a `file` that does not start with `/`. -/
def join (root file : Text) : Text :=
  if root = [] ∨ root.getLast? = some '/' then root ++ file else root ++ text "/" ++ file

/-- The characters of a text, one after the other. -/
def literal (t : Text) (p : Pat Char) : Pat Char := t.foldr (fun c p => .seq (.one (· = c)) p) p

theorem mem_literal {t : Text} {p : Pat Char} {s : Text} {x : Way Char} :
    x ∈ results (literal t p) s ↔ ∃ s', s = t ++ s' ∧ ∃ y ∈ results p s',
      x = ⟨y.groups, t ++ y.matched, y.rest⟩ := by
  induction t generalizing s x with
  | nil => simp [literal]
  | cons c t ih =>
      show x ∈ results (.seq (.one (· = c)) (literal t p)) s ↔ _
      simp only [mem_seq, mem_one, ih]
      constructor
      · rintro ⟨y, ⟨c', s', rfl, hc, rfl⟩, z, ⟨s', rfl, w, hw, rfl⟩, rfl⟩
        obtain rfl : c' = c := of_decide_eq_true hc
        exact ⟨s', rfl, w, hw, rfl⟩
      · rintro ⟨s', rfl, w, hw, rfl⟩
        exact ⟨_, ⟨c, t ++ s', rfl, decide_eq_true rfl, rfl⟩, _, ⟨s', rfl, w, hw, rfl⟩, rfl⟩

/-- `[^/]` -/
def not_slash (c : Char) : Bool := c ≠ '/'

/-- `^diantp://(?P<host>[^/]+)/(?P<file>[^/]+)$` -/
def SessionUrl_re : Pat Char :=
  literal (text "diantp://") (.seq (.group "host" (.rep true 1 not_slash)) (.seq (.one (· = '/'))
    (.seq (.group "file" (.rep true 1 not_slash)) (.eol '\n'))))

/-- `^npt *= *(?P<start>[0-9]+)-(?P<end>[0-9]+)? *$` -/
def Range_re : Pat Char :=
  literal (text "npt") (.seq (.rep true 0 (· = ' ')) (.seq (.one (· = '='))
    (.seq (.rep true 0 (· = ' ')) (.seq (.group "start" (.rep true 1 ascii_digit))
      (.seq (.one (· = '-')) (.seq (.opt (.group "end" (.rep true 1 ascii_digit)))
        (.seq (.rep true 0 (· = ' ')) (.eol '\n'))))))))

/-- `Session.__init__`; `root` is the module variable. -/
def Session.init (root : Text) (request : SockRequest) (socket : Sock) (session_id : UUID) :
    Worker Session := do
  match SessionUrl_re.match? request.url with
  | none =>
      respond request { status := 400, status_text := text "Bad Request" }
      Exc.throw .StopHandler
  | some m =>
      let file := join root ((m.group? "file").getD [])
      if ← perform (.exists_ file) then
        let opened ← perform (.open_ session_id file)
        let file_size ← attempt opened
        pure { socket := socket, session_id := session_id, request := request,
               file_size := file_size }
      else
        let headers : Dict := Dict.set {} (text "Session") (UUID.str session_id)
        respond request { status := 404, status_text := text "Not Found", headers := headers }
        Exc.throw .StopHandler

/-- A 206 response whose body is `FileStreamReader(self.file, (start, stop))`. The constructor calls
`seek`, and `response` reads the body between its two calls of `send`. -/
def Session.sendFile (s : Session) (headers : Dict) (start stop : Int) : Worker Unit := do
  let raised ← perform (.seek s.session_id start)
  match raised with
  | some e => Exc.throw e
  | none =>
      let r : Response :=
        { status := 206, status_text := text "Partial Content", headers := headers }
      send (.play s.session_id) s.request.sock (encode r.parsehead)
      let read ← perform (.read s.session_id (stop - start))
      let body ← attempt read
      send (.play s.session_id) s.request.sock body

/-- The headers of a response of `play`. -/
def playHeaders (headers : Dict) (range length content_range : Text) : Dict :=
  ((((headers.set (text "Range") range).set (text "Content-Length") length).set
    (text "Content-Range") content_range).set (text "Accept-Ranges") (text "bytes")).set
    (text "Connection") (text "keep-alive")

/-- `Session.play()` -/
def Session.playAll (s : Session) : Worker Unit :=
  let size : Int := s.file_size
  s.sendFile (playHeaders s.request.headers (text "bytes=0-" ++ str size) (str size)
    (text "bytes 0-" ++ str (size - 1) ++ text "/" ++ str size)) 0 size

/-- `int(t)`. A group that took no part in a match is `None`, which `int` does not take. -/
def intOf : Option Text → Worker Int
  | none => Exc.throw .TypeError
  | some t =>
      match int t with
      | none => Exc.throw .ValueError
      | some n => pure n

/-- `Session.play(range)` -/
def Session.playRange (s : Session) (range : Text) : Worker Unit :=
  match Range_re.match? range with
  | none => Exc.throw (.Exception "Invalid range")
  | some m => do
      let start ← intOf (m.group? "start")
      let stop ← intOf (m.group? "end")
      let size : Int := s.file_size
      let stop := if stop = 0 then size + 1 else stop
      s.sendFile (playHeaders {} (text "bytes=" ++ str start ++ text "-" ++ str stop)
        (str (stop - start + 1))
        (text "bytes " ++ str start ++ text "-" ++ str stop ++ text "/" ++ str size))
        start (stop + 1)

/-- `Session.play`, called with the header `Range` when there is one. -/
def Session.play (s : Session) (range : Option Text) : Worker Unit :=
  match range with
  | none => s.playAll
  | some range => if range = [] then s.playAll else s.playRange range

/-- `Session.close` -/
def Session.close (s : Session) : Worker Unit := do
  perform (.closeFile s.session_id)
  perform (.closeSocket s.socket)

end DianProtocol.Py
