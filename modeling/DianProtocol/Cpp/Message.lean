import DianProtocol.Cpp.Bytes

set_option autoImplicit false

/-! # Messages of the C++ server

`Base` holds what requests and responses share; `Response` adds the status line, the body to be
sent and the flag that it has been sent. The exceptions that the server and its callbacks throw are
the constructors of `Exn`.
-/

namespace DianProtocol.Cpp

/-- The exceptions. Those of `dian::socket` carry the error code of the socket library, which is
`-1` where the code does not pass one. -/
inductive Exn where
  | exception (what : String)
  | runtime_error (what : String)
  | NotImplementError (what : String)
  | invalid_argument
  | out_of_range
  | AcceptError
  | RecvError (errcode : Int)
  | SendError (errcode : Int)
  | other (tag : Nat)
  deriving DecidableEq, Repr

/-- `struct Version`: two bit fields of four bits. -/
structure Version where
  major : BitVec 4 := 0
  minor : BitVec 4 := 5
  deriving DecidableEq, Repr

abbrev Headers := Map Str

/-- What `Response::send` asks of a body: its `maxlen()`, `none` for `-1`, and the buffers that
successive calls of `read(1024)` return. -/
structure StreamReader where
  maxlen : Option Nat
  reads : Nat → Str

/-- The members of `Base` other than the body. -/
structure Base where
  method : Str := []
  url : Str := []
  version : Version := {}
  headers : Headers := ∅

/-- `RtspRequest`. Its socket is the one its worker serves, and its body reads from that socket. -/
abbrev Request := Base

/-- `RtspResponse`. -/
structure Response extends Base where
  status : Int := 200
  reason : Str := str "OK"
  body : Option StreamReader := none
  sended : Bool := false

/-- `Response(const Request*)`, with `_apply_res`. -/
def Response.ofRequest (source : Request) : Response :=
  { method := source.method, url := source.url, version := source.version }

/-- `std::to_string` of a signed integer. -/
def to_stringInt (n : Int) : Str := str (toString n)

/-- The header lines and the empty line that ends a head. -/
def unparseHeaders (headers : Headers) : Str :=
  headers.toList.flatMap (fun (key, value) => key ++ str ": " ++ value ++ crlf) ++ crlf

/-- `Response::unparseHead` -/
def Response.unparseHead (r : Response) : Str :=
  str "HTTP/" ++ to_string r.version.major.toNat ++ str "." ++ to_string r.version.minor.toNat
    ++ str " " ++ to_stringInt r.status ++ str " " ++ r.reason ++ crlf ++ unparseHeaders r.headers

end DianProtocol.Cpp
