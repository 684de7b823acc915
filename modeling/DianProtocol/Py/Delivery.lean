import DianProtocol.Py.Server
import DianProtocol.Py.Unparse

set_option autoImplicit false

/-! # The delivery of a file

One exchange of `Client.play` with a server that dispatches its request, over a transport that may
take any part of what a call of `send` gives it and hand out any part of what a call of `recv` asks
for. Each side calls `send` or `recv` once for everything it has to move and does not look at how
much was moved: `delivered_iff` says that the client gets the file if and only if each of these
calls moves all of it.

The bytes of a head are received one by one, so it does not matter when they arrive, and the last
`recv` may return as few bytes as it likes: it is no restriction that the server has sent its part
before the client reads.
-/

namespace DianProtocol.Py

open Concurrent Lines

/-! ## The transport -/

/-- How many bytes the calls of `send` for the request, the head of the response and the file accept
at most, and how many the call of `recv` for the file returns. At least one byte is moved. -/
structure Transport where
  request : Nat
  head : Nat
  body : Nat
  recv : Nat

/-- The part of the data that a call of `send` accepts. -/
def taken (give : Nat) (data : Bytes) : Bytes := data.take (max give 1)

theorem taken_eq_self {give : Nat} {data : Bytes} (h : data.length ≤ max give 1) :
    taken give data = data := List.take_of_length_le h

theorem taken_part (give : Nat) (data : Bytes) : taken give data <+: data := List.take_prefix _ _

theorem taken_length (give : Nat) (data : Bytes) :
    (taken give data).length = min (max give 1) data.length := List.length_take

/-! ## The two sides -/

/-- What the server works on: its sessions, the file that is open, how much its next calls of `send`
accept, and what they have sent to the client. -/
structure Side where
  sessions : UUID → Option Session
  file : Bytes
  pos : Nat := 0
  accepts : List Nat
  sent : Bytes := []

/-- The actions of a worker on its own. Those that PLAY does not use fail. -/
def handler (socket : Sock) : (e : Act) → Side → e.Ans × Side
  | .contains id, x => ((x.sessions id).isSome, x)
  | .getitem _ id, x => (x.sessions id, x)
  | .seek _ pos, x => (none, { x with pos := pos.toNat })
  | .read _ n, x =>
      let data := (x.file.drop x.pos).take n.toNat
      (.ok data, { x with pos := x.pos + data.length })
  | .send _ dest data, x =>
      let part := taken (x.accepts.headD 0) data
      (.ok part.length, { x with accepts := x.accepts.tail,
                                 sent := if dest = socket then x.sent ++ part else x.sent })
  | .accept, x => (.error .OSError, x)
  | .unparse _, x => (.error .OSError, x)
  | .uuid4, x => (0, x)
  | .auths, x => ([], x)
  | .setitem _ _, x => ((), x)
  | .pop _, x => (none, x)
  | .exists_ _, x => (false, x)
  | .open_ _ _, x => (.error .OSError, x)
  | .closeFile _, x => ((), x)
  | .closeSocket _, x => ((), x)

/-- What the server sends to the client when it dispatches a request on `socket`. -/
def answered (srv : Server) (socket : Sock) (x : Side) (request : Request) : Bytes :=
  (((dispatch srv { request with sock := socket } socket).run ()).interp (handler socket) x).2.sent

structure Client where
  url : Text
  session : Text
  cseq : Nat

/-- The request of `Client.play()`. -/
def Client.playRequest (c : Client) : Request where
  method := text "PLAY"
  url := c.url
  version := VERSION
  headers := (Dict.set {} (text "CSeq") (str c.cseq)).set (text "Session") c.session

/-- `Client.play().body.readall()`. The client waits for ever when the server does. -/
def Client.playAndRead (c : Client) (srv : Server) (socket : Sock)
    (sessions : UUID → Option Session) (file : Bytes) (t : Transport) : Outcome Bytes :=
  match Request.unparse (taken t.request (encode c.playRequest.parse)) with
  | .ok request _ =>
      let x : Side := { sessions := sessions, file := file, accepts := [t.head, t.body] }
      (Response.unparse (answered srv socket x request)).bind fun res s =>
        if res.status ≠ 200 ∧ res.status ≠ 206 then
          .raised (.Exception (String.ofList res.status_text))
        else res.body.readall (recv t.recv) s
  | _ => .blocked

/-- The client has set the session `s` up on the connection `socket`, and `file` is its file. -/
structure Ready (c : Client) (socket : Sock) (sessions : UUID → Option Session) (file : Bytes)
    (s : Session) : Prop where
  url_line : '\n' ∉ c.url
  url_ne_nil : c.url ≠ []
  session : LegalValue c.session
  found : ∃ id, UUID.ofText c.session = some id ∧ sessions id = some s
  session_socket : s.socket = socket
  request_sock : s.request.sock = socket
  headers : LegalHeaders s.request.headers
  file_size : s.file_size = file.length

/-- The response of `Session.play()`, whose body is the file. -/
def Session.fileResponse (s : Session) : Response where
  status := 206
  status_text := text "Partial Content"
  headers := playHeaders s.request.headers (text "bytes=0-" ++ str s.file_size) (str s.file_size)
    (text "bytes 0-" ++ str (s.file_size - 1) ++ text "/" ++ str s.file_size)

/-! ## The server -/

section

variable {c : Client} {srv : Server} {socket : Sock} {sessions : UUID → Option Session}
  {file : Bytes} {s : Session}

theorem interp_getitem {site : Site} {id : UUID} {x : Side} (hs : x.sessions id = some s) :
    ((getitem site id).run ()).interp (handler socket) x = ((.ok s, ()), x) := by
  have hperform : ((perform (.getitem site id)).run ()).interp (handler socket) x =
      ((.ok (x.sessions id), ()), x) := rfl
  rw [getitem, Exc.interp_bind hperform, hs]
  rfl

theorem interp_findSession {req : SockRequest} {id : UUID} {session : Text} {x : Side}
    (hheader : req.headers.get? (text "Session") = some session)
    (hid : UUID.ofText session = some id) (hs : x.sessions id = some s)
    (hsocket : s.socket = socket) :
    ((findSession req socket).run ()).interp (handler socket) x = ((.ok (some id), ()), x) := by
  have hcontains : ((perform (.contains id)).run ()).interp (handler socket) x =
      ((.ok (x.sessions id).isSome, ()), x) := rfl
  unfold findSession
  rw [hheader]
  dsimp only
  rw [hid]
  dsimp only
  rw [Exc.interp_bind hcontains, hs, if_pos Option.isSome_some,
    Exc.interp_bind (interp_getitem hs), if_neg (not_not.mpr hsocket)]
  rfl

theorem interp_send (origin : Origin) (data : Bytes) (x : Side) :
    ((send origin socket data).run ()).interp (handler socket) x =
      ((.ok (), ()), { x with accepts := x.accepts.tail,
                              sent := x.sent ++ taken (x.accepts.headD 0) data }) := by
  have hperform : ((perform (.send origin socket data)).run ()).interp (handler socket) x =
      ((.ok (.ok (taken (x.accepts.headD 0) data).length), ()),
        { x with accepts := x.accepts.tail,
                 sent := x.sent ++ taken (x.accepts.headD 0) data }) := by
    show ((_, ()),
      { x with accepts := x.accepts.tail, sent := if socket = socket then _ else _ }) = _
    rw [if_pos rfl]
    rfl
  rw [send, Exc.interp_bind hperform]
  rfl

/-- A worker sends the head of the response and the file. -/
theorem interp_play (hsock : s.request.sock = socket) (hsize : s.file_size = file.length)
    (head body : Nat) :
    ((s.play none).run ()).interp (handler socket)
        { sessions := sessions, file := file, accepts := [head, body] } =
      ((.ok (), ()),
        { sessions := sessions, file := file, pos := file.length, accepts := [],
          sent := taken head (encode s.fileResponse.parsehead) ++ taken body file }) := by
  have hread : ∀ (sent : Bytes) (accepts : List Nat),
      ((perform (.read s.session_id (s.file_size - 0))).run ()).interp (handler socket)
        { sessions := sessions, file := file, accepts := accepts, sent := sent } =
      ((.ok (.ok file), ()), { sessions := sessions, file := file, pos := file.length,
                               accepts := accepts, sent := sent }) := by
    intro sent accepts
    have hlen : ((s.file_size : Int) - 0).toNat = file.length := by omega
    have hall : (file.drop 0).take ((s.file_size : Int) - 0).toNat = file := by
      rw [hlen, List.drop_zero, List.take_length]
    show ((Except.ok (Except.ok ((file.drop 0).take ((s.file_size : Int) - 0).toNat)), ()),
      ({ sessions := sessions, file := file,
         pos := 0 + ((file.drop 0).take ((s.file_size : Int) - 0).toNat).length,
         accepts := accepts, sent := sent } : Side)) = _
    rw [hall, Nat.zero_add]
  have hseek : ((perform (.seek s.session_id 0)).run ()).interp (handler socket)
      { sessions := sessions, file := file, accepts := [head, body] } =
      ((.ok none, ()), { sessions := sessions, file := file, accepts := [head, body] }) := rfl
  show ((s.sendFile s.fileResponse.headers 0 s.file_size).run ()).interp _ _ = _
  rw [Session.sendFile, Exc.interp_bind hseek]
  dsimp only
  rw [hsock, Exc.interp_bind (interp_send _ _ _), Exc.interp_bind (hread _ _)]
  exact interp_send _ _ _

/-- The answer to the request of the client. -/
theorem answered_play {request : Request} (h : Ready c socket sessions file s)
    (hmethod : request.method = text "PLAY") (hheaders : request.headers = c.playRequest.headers)
    (head body : Nat) :
    answered srv socket { sessions := sessions, file := file, accepts := [head, body] } request =
      taken head (encode s.fileResponse.parsehead) ++ taken body file := by
  obtain ⟨id, hid, hs⟩ := h.found
  let req : SockRequest := { request with sock := socket }
  have hsession : req.headers.get? (text "Session") = some c.session := by
    show request.headers.get? _ = _
    rw [hheaders, Client.playRequest, Dict.get?_set, if_pos rfl]
  have hrange : req.headers.get? (text "Range") = none := by
    show request.headers.get? _ = _
    rw [hheaders, Client.playRequest, Dict.get?_set, if_neg (by decide), Dict.get?_set,
      if_neg (by decide)]
    rfl
  have hdispatch : dispatch srv req socket = handlePlay req socket := by
    have hmethod' : req.method = text "PLAY" := hmethod
    unfold dispatch
    rw [hmethod', if_neg (by decide), if_neg (by decide), if_neg (by decide), if_pos rfl]
  have hplay : ((s.play none).run ()).interp (handler socket)
      { sessions := sessions, file := file, accepts := [head, body] } = _ :=
    interp_play h.request_sock h.file_size head body
  unfold answered
  rw [hdispatch, handlePlay, Exc.interp_bind (interp_findSession hsession hid hs h.session_socket)]
  dsimp only
  rw [Exc.interp_bind (interp_getitem hs), hrange, Exc.interp_bind hplay]
  rfl

/-! ## The messages -/

/-- A value that ends in a number. -/
theorem legalValue_number (n : Nat) {first : Text} (hline : '\n' ∉ first)
    (hfirst : first.head?.any isspace = false) : LegalValue (first ++ str (n : Int)) := by
  refine ⟨strip_of_ends (fun c hc => ?_) (fun c hc => ?_), ?_⟩
  · cases first with
    | nil => exact isspace_of_isDigit (str_isDigit (List.mem_of_head? hc))
    | cons c' first =>
      obtain rfl : c' = c := Option.some.inj hc
      exact hfirst
  · rw [List.getLast?_append_of_ne_nil _ (str_ne_nil n)] at hc
    exact isspace_of_isDigit (str_isDigit (List.mem_of_getLast? hc))
  · simp [hline, lf_not_mem_str]

theorem playRequest_legal (h : Ready c socket sessions file s) : LegalRequest c.playRequest where
  method := List.all_eq_true.mp (by decide : (text "PLAY").all ascii_upper = true)
  method_ne_nil := (by decide : text "PLAY" ≠ [])
  url_line := h.url_line
  url_ne_nil := h.url_ne_nil
  version_line := (by decide : '\n' ∉ VERSION)
  version_word := (by decide : ' ' ∉ VERSION)
  headers := by
    have hempty : LegalHeaders {} := fun item hitem => by cases hitem
    have hcseq : LegalValue ([] ++ str (c.cseq : Int)) := legalValue_number _ (by simp) rfl
    exact (hempty.set ⟨by decide, by decide, by decide, by decide⟩ hcseq).set
      ⟨by decide, by decide, by decide, by decide⟩ h.session

/-- The server reads the request of the client. -/
theorem unparse_playRequest (h : Ready c socket sessions file s) :
    ∃ request, Request.unparse (encode c.playRequest.parse) = .ok request [] ∧
      request.method = text "PLAY" ∧ request.headers = c.playRequest.headers := by
  have hsession : c.playRequest.headers.get? (text "Session") = some c.session := by
    rw [Client.playRequest, Dict.get?_set, if_pos rfl]
  have hunparse := unparse_parse (playRequest_legal h) []
  rw [List.append_nil, leftover_of_get? hsession] at hunparse
  exact ⟨_, hunparse, rfl, rfl⟩

/-- The headers of a response of `play` are legal when the values in them are. -/
theorem playHeaders_legal {headers : Dict} {range length content_range : Text}
    (h : LegalHeaders headers) (hrange : LegalValue range) (hlength : LegalValue length)
    (hcontent : LegalValue content_range) :
    LegalHeaders (playHeaders headers range length content_range) :=
  ((((h.set ⟨by decide, by decide, by decide, by decide⟩ hrange).set
    ⟨by decide, by decide, by decide, by decide⟩ hlength).set
    ⟨by decide, by decide, by decide, by decide⟩ hcontent).set
    ⟨by decide, by decide, by decide, by decide⟩ ⟨by decide, by decide⟩).set
    ⟨by decide, by decide, by decide, by decide⟩ ⟨by decide, by decide⟩

theorem playHeaders_length (headers : Dict) (range length content_range : Text) :
    (playHeaders headers range length content_range).get? (text "Content-Length") =
      some length := by
  rw [playHeaders, Dict.get?_set, if_neg (by decide), Dict.get?_set, if_neg (by decide),
    Dict.get?_set, if_neg (by decide), Dict.get?_set, if_pos rfl]

/-- The client reads the head of a response of `play`. -/
theorem unparse_partialContent {r : Response} {n : Nat} (hlegal : LegalHeaders r.headers)
    (hversion : r.version = VERSION) (hstatus : r.status = 206)
    (htext : r.status_text = text "Partial Content")
    (hlength : r.headers.get? (text "Content-Length") = some (str (n : Int))) (rest : Bytes) :
    ∃ version status_text, Response.unparse (encode r.parsehead ++ rest) =
      .ok ⟨version, 206, status_text, r.headers, { max_read := n }⟩ rest := by
  have hhead : LegalHead r :=
    { version_ne_nil := hversion ▸ by decide
      version_line := hversion ▸ by decide
      status_text_line := htext ▸ by decide
      headers := hlegal }
  have hread : StatusRead r (text "206") := by
    refine Or.inr ⟨?_, fun a d b => ?_⟩
    · rw [hstatus]
      decide
    · rw [htext]
      exact not_numberAt (by decide)
  obtain ⟨version, status_text, hunparse⟩ := unparse_parsehead hhead (by rw [hstatus]; decide) hread
    (by decide : int (text "206") = some 206) rest
  have hcontent : contentLength r.headers = some (n : Int) := by
    rw [contentLength, hlength]
    exact int_str n
  rw [leftover_of_get? hlength, hcontent] at hunparse
  exact ⟨version, status_text, hunparse⟩

theorem fileResponse_legal (h : Ready c socket sessions file s) :
    LegalHeaders s.fileResponse.headers := by
  have hrange : LegalValue (text "bytes=0-" ++ str (s.file_size : Int)) :=
    legalValue_number _ (by decide) (by decide)
  have hlength : LegalValue ([] ++ str (s.file_size : Int)) := legalValue_number _ (by simp) rfl
  have hcontent : LegalValue (text "bytes 0-" ++ str ((s.file_size : Int) - 1) ++ text "/"
      ++ str (s.file_size : Int)) := by
    have hfixed : '\n' ∉ text "bytes 0-" ∧ '\n' ∉ text "/" := by decide
    exact legalValue_number _ (by simp [hfixed, lf_not_mem_str]) rfl
  exact playHeaders_legal h.headers hrange hlength hcontent

/-- The client reads the head of the response. -/
theorem unparse_fileResponse (h : Ready c socket sessions file s) (rest : Bytes) :
    ∃ version status_text, Response.unparse (encode s.fileResponse.parsehead ++ rest) =
      .ok ⟨version, 206, status_text, s.fileResponse.headers, { max_read := file.length }⟩
      rest := by
  rw [← h.file_size]
  exact unparse_partialContent (fileResponse_legal h) rfl rfl rfl (playHeaders_length _ _ _ _) rest

end

/-! ## Delivery -/

/-- `readall` returns no more bytes than have arrived. -/
theorem readall_length {r : SocketStreamReader} {give : Nat} {s body rest : Bytes}
    (h : r.readall (recv give) s = .ok body rest) : body.length ≤ s.length := by
  unfold SocketStreamReader.readall at h
  split at h
  · cases h
    exact Nat.zero_le _
  split at h
  · cases h
    exact Nat.zero_le _
  unfold recv at h
  split at h
  · cases h
  split at h
  · cases h
    exact Nat.zero_le _
  split at h
  · cases h
  · cases h
    exact List.length_take_le' _ _

/-- The call of `recv` for the file, when the head has been read. -/
theorem readall_file (file : Bytes) (body give : Nat) :
    (∃ rest, SocketStreamReader.readall { max_read := file.length } (recv give) (taken body file) =
        .ok file rest) ↔
      file.length ≤ max body 1 ∧ file.length ≤ max give 1 := by
  unfold SocketStreamReader.readall recv
  dsimp only
  by_cases hnil : file = []
  · subst hnil
    simp [taken]
  have hpos := List.length_pos_of_ne_nil hnil
  have htaken : taken body file ≠ [] := by
    intro htaken
    have hlen := congrArg List.length htaken
    rw [taken_length, List.length_nil] at hlen
    omega
  rw [if_neg (by omega), if_neg (by omega), if_neg (by omega), if_neg (by omega), if_neg htaken,
    Int.sub_zero, Int.toNat_natCast]
  constructor
  · rintro ⟨rest, hok⟩
    have hlen := congrArg List.length (Outcome.ok.inj hok).1
    rw [List.length_take, taken_length] at hlen
    omega
  · rintro ⟨hbody, hgive⟩
    rw [taken_eq_self hbody, Nat.min_eq_right hgive, List.take_length]
    exact ⟨_, rfl⟩

section

variable {c : Client} {socket : Sock} {sessions : UUID → Option Session} {file : Bytes}
  {s : Session}

/-- The client gets the file only if it has read the head as it was sent. -/
theorem head_whole (h : Ready c socket sessions file s) {head body give : Nat} {res : Received}
    {rest rest' : Bytes}
    (hunparse : Response.unparse (taken head (encode s.fileResponse.parsehead) ++ taken body file) =
      .ok res rest)
    (hread : res.body.readall (recv give) rest = .ok file rest') :
    (encode s.fileResponse.parsehead).length ≤ max head 1 := by
  by_contra hlong
  obtain ⟨used, hsplit, hused⟩ := reads_response _ _ _ hunparse
  have hlen : file.length ≤ rest.length := readall_length hread
  have hbody : (taken body file).length ≤ file.length := (taken_part body file).length_le
  have hhead := taken_length head (encode s.fileResponse.parsehead)
  -- so the client has stopped within the part of the head that was sent
  have hshort : used <+: taken head (encode s.fileResponse.parsehead) := by
    refine List.prefix_of_prefix_length_le (hsplit ▸ List.prefix_append _ _)
      (List.prefix_append _ (taken body file)) ?_
    have htotal := congrArg List.length hsplit
    simp only [List.length_append] at htotal
    omega
  obtain ⟨version, status_text, hwhole⟩ := unparse_fileResponse h []
  rw [List.append_nil] at hwhole
  have hstop := hused []
  rw [List.append_nil] at hstop
  have heq := reads_response.eq_of_prefix hwhole (hshort.trans (taken_part _ _)) hstop
  have hle := hshort.length_le
  rw [heq] at hle
  omega

/-- **Delivery**: the client gets the file if and only if the three calls of `send` and the last
call of `recv` each move everything. -/
theorem delivered_iff (srv : Server) (h : Ready c socket sessions file s) (t : Transport) :
    (∃ rest, c.playAndRead srv socket sessions file t = .ok file rest) ↔
      (encode c.playRequest.parse).length ≤ max t.request 1 ∧
        (encode s.fileResponse.parsehead).length ≤ max t.head 1 ∧
          file.length ≤ max t.body 1 ∧ file.length ≤ max t.recv 1 := by
  obtain ⟨request, hrequest, hmethod, hheaders⟩ := unparse_playRequest h
  have hanswered : answered srv socket
      { sessions := sessions, file := file, accepts := [t.head, t.body] } request = _ :=
    answered_play h hmethod hheaders t.head t.body
  constructor
  · rintro ⟨rest, hok⟩
    unfold Client.playAndRead at hok
    split at hok
    · rename_i request' rest' hrequest'
      -- the server has read the request as it was sent
      have hwhole := reads_request.eq_of_prefix hrequest (taken_part _ _) hrequest'
      rw [hwhole, hrequest] at hrequest'
      obtain ⟨rfl, rfl⟩ := Outcome.ok.inj hrequest'
      have hreq : (encode c.playRequest.parse).length ≤ max t.request 1 := by
        have hlen := taken_length t.request (encode c.playRequest.parse)
        rw [hwhole] at hlen
        omega
      dsimp only at hok
      rw [hanswered] at hok
      obtain ⟨res, s₁, hunparse, hread⟩ := Outcome.bind_eq_ok.mp hok
      split at hread
      · cases hread
      · have hhead := head_whole h hunparse hread
        obtain ⟨version, status_text, hfile⟩ := unparse_fileResponse h (taken t.body file)
        rw [taken_eq_self hhead, hfile] at hunparse
        obtain ⟨rfl, rfl⟩ := Outcome.ok.inj hunparse
        exact ⟨hreq, hhead, (readall_file file t.body t.recv).mp ⟨rest, hread⟩⟩
    · cases hok
  · rintro ⟨hreq, hhead, hmoved⟩
    obtain ⟨rest, hread⟩ := (readall_file file t.body t.recv).mpr hmoved
    obtain ⟨version, status_text, hfile⟩ := unparse_fileResponse h (taken t.body file)
    refine ⟨rest, ?_⟩
    unfold Client.playAndRead
    rw [taken_eq_self hreq, hrequest]
    dsimp only
    rw [hanswered, taken_eq_self hhead, hfile]
    exact hread

end

/-! ### A file of two bytes -/

/-- A client that has set up the session with the id 0. -/
def twoByteClient : Client := { url := text "diantp://a/b", session := UUID.str 0, cseq := 1 }

def twoByteSession : Session where
  socket := 0
  session_id := 0
  request := { url := text "diantp://a/b", headers := Dict.set {} (text "Transport") (text "TCP"),
               sock := 0 }
  file_size := 2

def twoByteSessions (id : UUID) : Option Session := if id = 0 then some twoByteSession else none

theorem twoByte_ready : Ready twoByteClient 0 twoByteSessions [1, 2] twoByteSession where
  url_line := by decide
  url_ne_nil := by decide
  session := ⟨by decide, by decide⟩
  found := ⟨0, by decide, rfl⟩
  session_socket := rfl
  request_sock := rfl
  headers := by
    have hempty : LegalHeaders {} := fun item hitem => by cases hitem
    exact hempty.set ⟨by decide, by decide, by decide, by decide⟩ ⟨by decide, by decide⟩
  file_size := rfl

theorem delivered_iff_twoByte : ∃ rest,
    twoByteClient.playAndRead {} 0 twoByteSessions [1, 2] ⟨1000, 1000, 1000, 1000⟩ =
      .ok [1, 2] rest :=
  (delivered_iff {} twoByte_ready ⟨1000, 1000, 1000, 1000⟩).mpr
    ⟨by decide, by decide +kernel, by decide, by decide⟩

/-- When the last `recv` returns one byte, the client gets the first byte of the file only. -/
theorem twoByte_cut : Ready twoByteClient 0 twoByteSessions [1, 2] twoByteSession ∧
    twoByteClient.playAndRead {} 0 twoByteSessions [1, 2] ⟨1000, 1000, 1000, 1⟩ = .ok [1] [2] :=
  ⟨twoByte_ready, by decide +kernel⟩

end DianProtocol.Py
