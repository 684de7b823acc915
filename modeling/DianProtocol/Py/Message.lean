import DianProtocol.Lib.Regex
import DianProtocol.Py.Reader

set_option autoImplicit false

/-! # Requests and responses

`parse` writes a message and `unparse` reads one (the names are the source's). Heads are matched
line by line with three patterns; a header line that does not match ends the head, which is how the
empty line is recognized.
-/

namespace DianProtocol.Py

open Regex

def VERSION : Text := text "0.5"

/-! ## The patterns -/

/-- `.` -/
def dot (c : Char) : Bool := c ≠ '\n'

/-- `[0-9]` -/
def ascii_digit (c : Char) : Bool := c.isDigit

/-- `[A-Z]` -/
def ascii_upper (c : Char) : Bool := c.isUpper

/-- `(\r)?$` -/
def lineEnd : Pat Char := .seq (.opt (.one (· = '\r'))) (.eol '\n')

/-- `^(?P<method>[A-Z]+) (?P<url>.+) (?P<version>.+)(\r)?$` -/
def RequestHead_re : Pat Char :=
  .seq (.group "method" (.rep true 1 ascii_upper)) (.seq (.one (· = ' '))
    (.seq (.group "url" (.rep true 1 dot)) (.seq (.one (· = ' '))
      (.seq (.group "version" (.rep true 1 dot)) lineEnd))))

/-- `^(?P<key>.+?) *: *(?P<value>.+)(\r)?$` -/
def BaseHeader_re : Pat Char :=
  .seq (.group "key" (.rep false 1 dot)) (.seq (.rep true 0 (· = ' ')) (.seq (.one (· = ':'))
    (.seq (.rep true 0 (· = ' ')) (.seq (.group "value" (.rep true 1 dot)) lineEnd))))

/-- `^(?P<version>.+) (?P<status>[0-9]+) (?P<status_text>.+)(\r)?$` -/
def ResponseHead_re : Pat Char :=
  .seq (.group "version" (.rep true 1 dot)) (.seq (.one (· = ' '))
    (.seq (.group "status" (.rep true 1 ascii_digit)) (.seq (.one (· = ' '))
      (.seq (.group "status_text" (.rep true 1 dot)) lineEnd))))

/-! ## Messages -/

/-- A body: a string, or a `StreamReader`, given by the bytes that its `readall` returns. -/
inductive Body where
  | str (t : Text)
  | reader (bytes : Bytes)

/-- The bytes of a body that `response` sends. -/
def Body.encode : Body → Bytes
  | .str t => Py.encode t
  | .reader bytes => bytes

/-- A `Request`, without the body and the socket. -/
structure Request where
  method : Text := []
  url : Text := []
  version : Text := []
  headers : Dict := {}

structure Response where
  version : Text := VERSION
  status : Int := 200
  status_text : Text := text "OK"
  headers : Dict := {}
  body : Body := .str []

/-- `"\r\n".join([f"{key}:{value}" for key,value in headers.items()])` -/
def joinHeaders (headers : Dict) : Text :=
  (text "\r\n").intercalate (headers.items.map fun (key, value) => key ++ text ":" ++ value)

/-- `Request.parse` of a request whose body is `''`. -/
def Request.parse (r : Request) : Text :=
  r.method ++ text " " ++ r.url ++ text " " ++ r.version ++ text "\r\n" ++ joinHeaders r.headers
    ++ text "\r\n\r\n"

/-- `Response.parsehead` -/
def Response.parsehead (r : Response) : Text :=
  r.version ++ text " " ++ str r.status ++ text " " ++ r.status_text ++ text "\r\n"
    ++ joinHeaders r.headers ++ text "\r\n\r\n"

/-- The two calls of `send` in `Response.response`. -/
def Response.response (r : Response) : Bytes × Bytes := (encode r.parsehead, r.body.encode)

/-! ## Reading -/

/-- The loop over the header lines. Every round takes a byte, so `fuel` bytes are enough
(`readHeaders_fuel`). -/
def readHeaders : Nat → Dict → Bytes → Outcome Dict
  | 0, _, _ => .blocked
  | fuel + 1, headers, s =>
      (read_until (text "\r\n") s).bind fun line s =>
        match decode line with
        | none => .raised .UnicodeDecodeError
        | some data =>
            match BaseHeader_re.match? data with
            | none => .ok headers s
            | some header =>
                let headers := headers.set (strip ((header.group? "key").getD []))
                  (strip ((header.group? "value").getD []))
                if data = text "\r\n" then .ok headers s else readHeaders fuel headers s

/-- The first line of a message, matched with `re`. -/
def readHead (re : Pat Char) (s : Bytes) : Outcome (Way Char) :=
  (read_until (text "\r\n") s).bind fun line s =>
    match decode line with
    | none => .raised .UnicodeDecodeError
    | some data => .ofOption (.Exception "Invalid head") s (re.match? data)

/-- `Request.unparse` -/
def Request.unparse (s : Bytes) : Outcome Request :=
  (readHead RequestHead_re s).bind fun head s =>
    (readHeaders (s.length + 1) {} s).bind fun headers s =>
      .ok { method := (head.group? "method").getD [], url := (head.group? "url").getD [],
            version := (head.group? "version").getD [], headers := headers } s

/-- What `Response.unparse` returns: the body is still to be read from the socket. -/
structure Received where
  version : Text
  status : Int
  status_text : Text
  headers : Dict
  body : SocketStreamReader

/-- `headers['Content-Length'] if 'Content-Length' in headers else -1`, as `int` reads it. -/
def contentLength (headers : Dict) : Option Int :=
  match headers.get? (text "Content-Length") with
  | none => some (-1)
  | some length => int length

/-- `Response.unparse` -/
def Response.unparse (s : Bytes) : Outcome Received :=
  (readHead ResponseHead_re s).bind fun head s =>
    (Outcome.ofOption .ValueError s (int ((head.group? "status").getD []))).bind fun status s =>
      (readHeaders (s.length + 1) {} s).bind fun headers s =>
        (Outcome.ofOption .ValueError s (contentLength headers)).bind fun max_read s =>
          .ok { version := (head.group? "version").getD [], status := status,
                status_text := (head.group? "status_text").getD [], headers := headers,
                body := { max_read := max_read } } s

end DianProtocol.Py
