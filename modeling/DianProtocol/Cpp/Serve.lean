import DianProtocol.Cpp.Host

set_option autoImplicit false

/-! # What the server answers

`Installation.serve` is the server without its threads, sockets and locks: a function from the
sessions and a request to the answer and the sessions afterwards. `exec_worker` says that a worker
that has read a request sends this answer and nothing else, and has these sessions then.
-/

namespace DianProtocol.Cpp

open Concurrent Channels

/-! ## Replies -/

/-- The head of a response, and what is sent behind it. -/
structure Reply where
  response : Response
  content : Str := []

def Reply.bytes (reply : Reply) : Str := reply.response.unparseHead ++ reply.content

/-- `response.status = status; response.reason = reason` -/
def Response.withStatus (response : Response) (status : Int) (reason : String) : Response :=
  { response with status := status, reason := str reason }

/-- `response.headers[key] = value` -/
def Response.set (response : Response) (key : String) (value : Str) : Response :=
  { response with headers := response.headers.insert (str key) value }

/-- A reply with a body: its length is announced. -/
def Reply.of (response : Response) (content : Str) : Reply :=
  { response := announced response content.length, content := content }

/-! ## The play callback -/

/-- The answer to a request for an interval of a file. -/
def intervalReply (response : Response) (file : File) (range : Str) (start end_ : Int) : Reply :=
  if end_ < start ∧ end_ ≠ -1 then { response := response.withStatus 400 "Bad Request" }
  else if size_t start > file.bytes.length ∨ size_t end_ > file.bytes.length then
    { response := response.withStatus 416 "Requested Range Not Satisfiable" }
  else
    .of (((response.set "Range" range).set "Content-Range"
        (contentRange start end_ file.bytes.length)).withStatus 206 "Partial Content")
      ((file.bytes.drop start.toNat).take (end_ - start + 1).toNat)

/-- The answer to a PLAY, or what is thrown. -/
def Machine.playReply (machine : Machine) (request : Request) (response : Response) :
    Except Exn Reply :=
  (getURI request.url).bind fun uri =>
    match machine.files (filepath machine uri) with
    | none => .ok { response := response.withStatus 404 "Not Found" }
    | some file =>
      match request.headers[str "Range"]? with
      | none => .ok (.of (response.withStatus 200 "OK") file.bytes)
      | some range => (rangeOf machine range).map fun
        | none => { response := response.withStatus 400 "Bad Request" }
        | some (start, end_) => intervalReply response file range start end_

/-- The file of a PLAY is sent as it stands: text mode alters nothing of it, and the interval does
not end right behind it, or where its end cannot be increased. -/
structure Machine.Readable (machine : Machine) (request : Request) (file : File) : Prop where
  plain : machine._WIN32 = true → ∀ i, ¬ Altered file.bytes i
  interval : ∀ range start end_, request.headers[str "Range"]? = some range →
    rangeOf machine range = .ok (some (start, end_)) →
    end_ ≠ file.bytes.length ∧ end_ ≠ 2 ^ 31 - 1

section

variable {Λ τ : Type} {T : Thread Actions Λ τ Byte} {x : Locals} {t t' t'' : τ} {c : Str}

/-- A response without a body is sent. -/
theorem exec_sendHead {site : Site} (hfresh : x.response.sended = false)
    (hbody : x.response.body = none)
    (hsend : T.perform (.send site x) t c = some ⟨true, t', c, x.response.unparseHead⟩) :
    T.exec ((send site).run x) t c =
      some ⟨(.ok (), { x with response := { x.response with sended := true } }), t', c,
        x.response.unparseHead⟩ := by
  rw [send_run, if_neg (by simp [hfresh]), hbody]
  dsimp only
  rw [Thread.exec_act _ hsend]
  exact Effect.map_after _ _ _ _

/-- A response is sent with its body. -/
theorem exec_sendBody {site : Site} {body : StreamReader} {n : Nat} {content : Str}
    (hfresh : x.response.sended = false) (hbody : x.response.body = some body)
    (hlen : body.maxlen = some n)
    (hsend : T.perform (.send site { x with response := announced x.response n }) t c =
      some ⟨true, t', c, (announced x.response n).unparseHead⟩)
    (hcontent : T.perform (.sendBody site body) t' c = some ⟨none, t'', c, content⟩) :
    T.exec ((send site).run x) t c =
      some ⟨(.ok (), { x with response := { announced x.response n with sended := true } }), t'', c,
        (announced x.response n).unparseHead ++ content⟩ := by
  rw [send_run, if_neg (by simp [hfresh]), hbody]
  dsimp only
  rw [hlen]
  dsimp only
  have hact : T.perform (.send site { x with response := { x.response with
      headers := x.response.headers.insert (str "Content-Length") (to_string n) } }) t c =
      some ⟨true, t', c, (announced x.response n).unparseHead⟩ := hsend
  rw [Thread.exec_act _ hact]
  dsimp only
  rw [if_pos rfl, Thread.exec_act _ hcontent]
  simp only [Thread.exec, Option.map_some, Effect.after, List.append_nil]
  rfl

end

section

variable {machine : Machine} {memory : Nat → Junk} {x : Locals}

/-- What the play callback leaves of its variables when it has sent an answer. -/
structure Answers (x x' : Locals) : Prop where
  sended : x'.response.sended = true
  conn : x'.conn = x.conn

/-- A program of the callback that sends a reply. -/
def Replies (p : Prog Actions (Except Exn Unit × Locals)) (x : Locals) (reply : Reply) : Prop :=
  ∃ x', callbackThread.exec p [] [] =
    some ⟨(.ok (), x'), [reply.response.unparseHead], [], reply.bytes⟩ ∧ Answers x x'

theorem replies_head (x' : Locals) (hfresh : x'.response.sended = false)
    (hbody : x'.response.body = none) (hconn : x'.conn = x.conn) :
    Replies ((send .handle).run x') x { response := x'.response } := by
  have hsend : callbackThread.perform (.send .handle x') [] [] =
      some ⟨true, [x'.response.unparseHead], [], x'.response.unparseHead⟩ := rfl
  have hexec := exec_sendHead hfresh hbody hsend
  refine ⟨{ x' with response := { x'.response with sended := true } }, ?_, rfl, hconn⟩
  rw [Reply.bytes, List.append_nil]
  exact hexec

theorem replies_body (x' : Locals) {body : StreamReader} {content : Str}
    (hfresh : x'.response.sended = false) (hbody : x'.response.body = some body)
    (hlen : body.maxlen = some content.length) (hcontent : Transfers body.reads content)
    (hconn : x'.conn = x.conn) : Replies ((send .handle).run x') x (.of x'.response content) := by
  have hsend : callbackThread.perform (.send .handle
      { x' with response := announced x'.response content.length }) [] [] =
      some ⟨true, [(announced x'.response content.length).unparseHead], [],
        (announced x'.response content.length).unparseHead⟩ := rfl
  have hsent : body.sent = some content := by
    rw [StreamReader.sent, hlen]
    exact drain_of_transfers hcontent (Nat.lt_succ_self _)
  have hdrain : callbackThread.perform (.sendBody .handle body)
      [(announced x'.response content.length).unparseHead] [] =
      some ⟨none, [(announced x'.response content.length).unparseHead], [], content⟩ := by
    show body.sent.map _ = _
    rw [hsent]
    rfl
  exact ⟨_, exec_sendBody hfresh hbody hlen hsend hdrain, rfl, hconn⟩

/-- The callback from the numbers of the range on. -/
theorem replies_interval {file : File} {range : Str} {start end_ : Int}
    (hfresh : x.response.sended = false) (hbody : x.response.body = none)
    (hbounds : 0 ≤ start ∧ start < 2 ^ 31 ∧ -2 ^ 31 ≤ end_ ∧ end_ < 2 ^ 31)
    (hplain : machine._WIN32 = true → ∀ i, ¬ Altered file.bytes i)
    (hend : end_ ≠ file.bytes.length ∧ end_ ≠ 2 ^ 31 - 1) :
    Replies ((sendInterval memory (rangeStream machine file) range start end_).run x) x
      (intervalReply x.response file range start end_) := by
  have hlt := file.size_lt
  unfold sendInterval intervalReply
  by_cases horder : end_ < start ∧ end_ ≠ -1
  · rw [if_pos horder, if_pos horder]
    exact replies_head { x with response := x.response.withStatus 400 "Bad Request" }
      hfresh hbody rfl
  · rw [if_neg horder, if_neg horder]
    dsimp only
    rw [filesize_rangeStream]
    by_cases hsize : size_t start > file.bytes.length ∨ size_t end_ > file.bytes.length
    · rw [if_pos hsize, if_pos hsize]
      exact replies_head
        { x with response := x.response.withStatus 416 "Requested Range Not Satisfiable" }
        hfresh hbody rfl
    · rw [if_neg hsize, if_neg hsize]
      obtain ⟨hstart, hstart', hlow, hhigh⟩ := hbounds
      obtain ⟨-, -, hle, -, hin⟩ := tested_of_passed (x := x) hlt hfresh ⟨hstart, hlow, hhigh⟩
        horder hsize
      have hreader : RangeFileStreamReader.of (rangeStream machine file) (size_t start)
          (size_t (int32 (end_ + 1))) = rangeReader machine file start end_ := by
        rw [size_t_of_nonneg hstart (by omega), RangeFileStreamReader.of_at rfl
          (by show start.toNat ≤ file.bytes.length; omega)]
        rfl
      have hlen : ((file.bytes.drop start.toNat).take (end_ - start + 1).toNat).length =
          (end_ - start + 1).toNat := by
        rw [List.length_take, List.length_drop]
        omega
      have hmaxlen := rangeReader_maxlen machine file hstart hle (by omega) memory
      have hcontent := rangeReader_transfers hstart hle (by omega) (by omega)
        (fun hwin i _ _ => hplain hwin i) memory
      rw [hreader]
      rw [← hlen] at hmaxlen
      exact replies_body (partialVars x (rangeReader machine file start end_) memory range
        start end_) hfresh rfl hmaxlen hcontent rfl

/-- The callback without a range. -/
theorem replies_file {file : File} (hfresh : x.response.sended = false)
    (hplain : machine._WIN32 = true → ∀ i, ¬ Altered file.bytes i) :
    Replies (((setBody ((FileStreamReader.of (rangeStream machine file)).body memory)) >>= fun _ =>
      setStatus 200 "OK" >>= fun _ => send .handle).run x) x
      (.of (x.response.withStatus 200 "OK") file.bytes) := by
  have hlt := file.size_lt
  let r : FileStreamReader := { file := rangeStream machine file, filesize := file.bytes.length }
  have hreader : FileStreamReader.of (rangeStream machine file) = r := FileStreamReader.of_at rfl
  have hat : r.At 0 := ⟨rfl, rfl, Nat.zero_le _, rfl⟩
  have hlen : (r.body memory).maxlen = some file.bytes.length :=
    knownLength_of_lt (by show file.bytes.length < _; omega)
  have hcontent : Transfers (r.body memory).reads file.bytes :=
    FileStreamReader.transfers_plain hat (fun hwin i _ _ => hplain hwin i) memory
  rw [hreader]
  exact replies_body ({ x with response :=
    { x.response with status := 200, reason := str "OK", body := some (r.body memory) } })
    hfresh rfl hlen hcontent rfl

variable (machine memory) in
/-- **The play callback** sends the answer, when the file can be sent as it stands. -/
theorem replies_pcallback {reply : Reply} (hfresh : x.response.sended = false)
    (hbody : x.response.body = none)
    (hreadable : ∀ uri file, getURI x.request.url = .ok uri →
      machine.files (filepath machine uri) = some file → machine.Readable x.request file)
    (hreply : machine.playReply x.request x.response = .ok reply) :
    Replies ((pcallback machine memory).run x) x reply := by
  unfold Machine.playReply at hreply
  unfold pcallback
  rw [Exc.run_vars_bind]
  cases huri : getURI x.request.url with
  | error e =>
      rw [huri] at hreply
      cases hreply
  | ok uri =>
      rw [huri] at hreply
      dsimp only [Except.bind] at hreply ⊢
      cases hfile : machine.files (filepath machine uri) with
      | none =>
          rw [hfile] at hreply
          cases hreply
          exact replies_head { x with response := x.response.withStatus 404 "Not Found" }
            hfresh hbody rfl
      | some file =>
          obtain ⟨hplain, hinterval⟩ := hreadable uri file huri hfile
          rw [hfile] at hreply
          dsimp only at hreply ⊢
          cases hrange : x.request.headers[str "Range"]? with
          | none =>
              rw [hrange] at hreply
              cases hreply
              exact replies_file hfresh hplain
          | some range =>
              rw [hrange] at hreply
              dsimp only at hreply ⊢
              cases hnumbers : rangeOf machine range with
              | error e =>
                  rw [hnumbers] at hreply
                  cases hreply
              | ok numbers =>
                  rw [hnumbers] at hreply
                  cases numbers with
                  | none =>
                      cases hreply
                      exact replies_head
                        { x with response := x.response.withStatus 400 "Bad Request" }
                        hfresh hbody rfl
                  | some interval =>
                      obtain ⟨start, end_⟩ := interval
                      cases hreply
                      exact replies_interval hfresh hbody (rangeOf_bounds hnumbers) hplain
                        (hinterval range start end_ hrange hnumbers)

variable (memory) in
/-- What the play callback throws, it throws before it sends anything. -/
theorem throws_pcallback {e : Exn} (hreply : machine.playReply x.request x.response = .error e) :
    (pcallback machine memory).run x = .ret (.error e, x) := by
  unfold Machine.playReply at hreply
  unfold pcallback
  rw [Exc.run_vars_bind]
  cases huri : getURI x.request.url with
  | error e' =>
      rw [huri] at hreply
      cases hreply
      rfl
  | ok uri =>
      rw [huri] at hreply
      dsimp only [Except.bind] at hreply ⊢
      cases hfile : machine.files (filepath machine uri) with
      | none =>
          rw [hfile] at hreply
          cases hreply
      | some file =>
          rw [hfile] at hreply
          dsimp only at hreply ⊢
          cases hrange : x.request.headers[str "Range"]? with
          | none =>
              rw [hrange] at hreply
              cases hreply
          | some range =>
              rw [hrange] at hreply
              dsimp only at hreply ⊢
              cases hnumbers : rangeOf machine range with
              | error e' =>
                  rw [hnumbers] at hreply
                  cases hreply
                  rfl
              | ok numbers =>
                  rw [hnumbers] at hreply
                  cases numbers with
                  | none => cases hreply
                  | some interval => cases hreply

end

theorem rangeOf_error {machine : Machine} {range : Str} {e : Exn}
    (h : rangeOf machine range = .error e) : e = .invalid_argument ∨ e = .out_of_range := by
  unfold rangeOf at h
  split at h
  · cases h
  split at h
  · cases h
  · rename_i first tmp htoken
    cases hfirst : stoi first with
    | error e' =>
        rw [hfirst] at h
        cases h
        exact stoi_error hfirst
    | ok start =>
        rw [hfirst] at h
        dsimp only [Except.bind] at h
        split at h
        · rename_i e' hlast
          cases h
          split at hlast
          · cases hlast
          · exact stoi_error hlast
        · cases h

theorem playReply_error {machine : Machine} {request : Request} {response : Response} {e : Exn}
    (h : machine.playReply request response = .error e) (errcode : Int) :
    e ≠ .SendError errcode := by
  unfold Machine.playReply at h
  cases huri : getURI request.url with
  | error e' =>
      rw [huri] at h
      cases h
      exact getURI_error huri errcode
  | ok uri =>
      rw [huri] at h
      dsimp only [Except.bind] at h
      split at h
      · cases h
      split at h
      · cases h
      · rcases rangeOf_error (map_error h) with rfl | rfl
        · simp
        · simp

/-! ## The server as a function -/

/-- The sessions that are stored, each of them under an id that has been drawn. -/
structure Store (inst : Installation) where
  sessions : Sessions := ∅
  drawn : Nat := 0
  plays : Nat := 0
  drawn_of_mem : ∀ id ∈ sessions, ∃ n < drawn, id = inst.id n := by simp

namespace Store

variable {inst : Installation}

/-- The host of a worker that is outside of the critical sections. -/
def host (st : Store inst) : Host where
  shared := { sessions := st.sessions }
  drawn := st.drawn
  plays := st.plays

def draw (st : Store inst) : Store inst where
  sessions := st.sessions
  drawn := st.drawn + 1
  plays := st.plays
  drawn_of_mem := by
    intro id hmem
    obtain ⟨n, hn, rfl⟩ := st.drawn_of_mem id hmem
    exact ⟨n, by omega, rfl⟩

/-- The session is stored under the id that is drawn. -/
def add (st : Store inst) (session : Session) : Store inst where
  sessions := st.sessions.insert (inst.id st.drawn) session
  drawn := st.drawn + 1
  plays := st.plays
  drawn_of_mem := by
    intro id hmem
    rcases Map.mem_insert.mp hmem with rfl | hmem
    · exact ⟨st.drawn, Nat.lt_succ_self _, rfl⟩
    · exact st.draw.drawn_of_mem id hmem

def erase (st : Store inst) (key : Str) : Store inst where
  sessions := st.sessions.erase key
  drawn := st.drawn
  plays := st.plays
  drawn_of_mem := fun id hmem => st.drawn_of_mem id (Map.mem_erase.mp hmem).2

def play (st : Store inst) : Store inst := { st with plays := st.plays + 1 }

end Store

namespace Installation

/-- The session that SETUP creates. -/
def newSession (inst : Installation) (n : Nat) (request : Request) (uri : RtspURI) : Session where
  id := inst.id n
  url := request.url
  ip := uri.host
  port := uri.port
  path := uri.path
  transport := str "TCP"
  contentlength := request.headers.getD (str "Content-Length") []

/-- The response that is prepared for a PLAY of a session. -/
def playResponse (request : Request) (key : Str) : Response :=
  ((Response.ofRequest request).set "CSeq" (request.headers.getD (str "CSeq") [])).set "Session" key

/-- **The server as a function**: what it answers to a request, and the sessions afterwards; none
when it closes the connection. -/
def serve (inst : Installation) (st : Store inst) (request : Request) :
    Reply × Option (Store inst) :=
  let response := Response.ofRequest request
  let key := request.headers.getD (str "Session") []
  if request.method = str "OPTIONS" then
    ({ response := (response.withStatus 200 "OK").set "Public"
        (str "SETUP, TEARDOWN, PLAY, OPTIONS") }, some st)
  else if request.method = str "SETUP" then
    match getURI request.url with
    | .error _ => ({ response := response.withStatus 500 "Internal Server Error" }, none)
    | .ok uri =>
        if inst.enable_auth then
          ({ response := response.withStatus 401 "Unauthorized" }, some st.draw)
        else
          ({ response := ((response.withStatus 200 "OK").set "Transport" (str "TCP")).set "Session"
              (inst.id st.drawn) },
            some (st.add (inst.newSession st.drawn request uri)))
  else if request.method = str "TEARDOWN" then
    if key ∈ st.sessions then
      ({ response := (response.withStatus 200 "OK").set "Session" key }, some (st.erase key))
    else ({ response := response.withStatus 454 "Session Not Found" }, some st)
  else if request.method = str "PLAY" then
    if key ∈ st.sessions then
      match inst.toMachine.playReply request (playResponse request key) with
      | .ok reply => (reply, some st.play)
      | .error _ =>
          ({ response := (playResponse request key).withStatus 500 "Internal Server Error" }, none)
    else ({ response := response.withStatus 454 "Session Not Found" }, some st)
  else
    ({ response := (response.withStatus 405 "Method Not Allowed").set "Public"
        (str "SETUP, TEARDOWN, PLAY, OPTIONS") }, some st)

section

variable {inst : Installation} {st : Store inst} {request : Request}

theorem serve_options (h : request.method = str "OPTIONS") :
    inst.serve st request =
      ({ response := ((Response.ofRequest request).withStatus 200 "OK").set "Public"
          (str "SETUP, TEARDOWN, PLAY, OPTIONS") }, some st) :=
  if_pos h

theorem serve_setup (h : request.method = str "SETUP") :
    inst.serve st request =
      match getURI request.url with
      | .error _ =>
          ({ response :=
              (Response.ofRequest request).withStatus 500 "Internal Server Error" }, none)
      | .ok uri =>
          if inst.enable_auth then
            ({ response := (Response.ofRequest request).withStatus 401 "Unauthorized" },
              some st.draw)
          else
            ({ response := (((Response.ofRequest request).withStatus 200 "OK").set "Transport"
                (str "TCP")).set "Session" (inst.id st.drawn) },
              some (st.add (inst.newSession st.drawn request uri))) := by
  unfold serve
  rw [h]
  exact (if_neg (by decide)).trans (if_pos rfl)

theorem serve_teardown (h : request.method = str "TEARDOWN") :
    inst.serve st request =
      if request.headers.getD (str "Session") [] ∈ st.sessions then
        ({ response := ((Response.ofRequest request).withStatus 200 "OK").set "Session"
            (request.headers.getD (str "Session") []) },
          some (st.erase (request.headers.getD (str "Session") [])))
      else ({ response := (Response.ofRequest request).withStatus 454 "Session Not Found" },
        some st) := by
  unfold serve
  rw [h]
  exact (if_neg (by decide)).trans ((if_neg (by decide)).trans (if_pos rfl))

theorem serve_play (h : request.method = str "PLAY") :
    inst.serve st request =
      if request.headers.getD (str "Session") [] ∈ st.sessions then
        match inst.toMachine.playReply request (playResponse request
          (request.headers.getD (str "Session") [])) with
        | .ok reply => (reply, some st.play)
        | .error _ =>
            ({ response := (playResponse request
                (request.headers.getD (str "Session") [])).withStatus 500
                  "Internal Server Error" }, none)
      else ({ response := (Response.ofRequest request).withStatus 454 "Session Not Found" },
        some st) := by
  unfold serve
  rw [h]
  exact (if_neg (by decide)).trans ((if_neg (by decide)).trans
    ((if_neg (by decide)).trans (if_pos rfl)))

/-- Everything that the server may do with a request. -/
inductive Outcome {inst : Installation} (st : Store inst) (request : Request) :
    Reply → Option (Store inst) → Prop where
  | options (hmethod : request.method = str "OPTIONS") :
      Outcome st request
        { response := ((Response.ofRequest request).withStatus 200 "OK").set "Public"
            (str "SETUP, TEARDOWN, PLAY, OPTIONS") } (some st)
  | badURI {e : Exn} (hmethod : request.method = str "SETUP")
      (huri : getURI request.url = .error e) :
      Outcome st request
        { response := (Response.ofRequest request).withStatus 500 "Internal Server Error" } none
  | unauthorized {uri : RtspURI} (hmethod : request.method = str "SETUP")
      (huri : getURI request.url = .ok uri) (henable : inst.enable_auth = true) :
      Outcome st request
        { response := (Response.ofRequest request).withStatus 401 "Unauthorized" } (some st.draw)
  | created {uri : RtspURI} (hmethod : request.method = str "SETUP")
      (huri : getURI request.url = .ok uri) (henable : inst.enable_auth = false) :
      Outcome st request
        { response := (((Response.ofRequest request).withStatus 200 "OK").set "Transport"
            (str "TCP")).set "Session" (inst.id st.drawn) }
        (some (st.add (inst.newSession st.drawn request uri)))
  | tornDown (hmethod : request.method = str "TEARDOWN")
      (hmem : request.headers.getD (str "Session") [] ∈ st.sessions) :
      Outcome st request
        { response := ((Response.ofRequest request).withStatus 200 "OK").set "Session"
            (request.headers.getD (str "Session") []) }
        (some (st.erase (request.headers.getD (str "Session") [])))
  | notFound (hmethod : request.method = str "TEARDOWN" ∨ request.method = str "PLAY")
      (hmem : request.headers.getD (str "Session") [] ∉ st.sessions) :
      Outcome st request
        { response := (Response.ofRequest request).withStatus 454 "Session Not Found" } (some st)
  | played {reply : Reply} (hmethod : request.method = str "PLAY")
      (hmem : request.headers.getD (str "Session") [] ∈ st.sessions)
      (hreply : inst.toMachine.playReply request
        (playResponse request (request.headers.getD (str "Session") [])) = .ok reply) :
      Outcome st request reply (some st.play)
  | raised {e : Exn} (hmethod : request.method = str "PLAY")
      (hmem : request.headers.getD (str "Session") [] ∈ st.sessions)
      (hreply : inst.toMachine.playReply request
        (playResponse request (request.headers.getD (str "Session") [])) = .error e) :
      Outcome st request
        { response := (playResponse request (request.headers.getD (str "Session") [])).withStatus
            500 "Internal Server Error" } none
  | notAllowed (hmethod : request.method ≠ str "OPTIONS" ∧ request.method ≠ str "SETUP" ∧
      request.method ≠ str "TEARDOWN" ∧ request.method ≠ str "PLAY") :
      Outcome st request
        { response := ((Response.ofRequest request).withStatus 405 "Method Not Allowed").set
            "Public" (str "SETUP, TEARDOWN, PLAY, OPTIONS") } (some st)

theorem serve_outcome {reply : Reply} {s : Option (Store inst)}
    (h : inst.serve st request = (reply, s)) : Outcome st request reply s := by
  by_cases hoptions : request.method = str "OPTIONS"
  · rw [serve_options hoptions] at h
    cases h
    exact .options hoptions
  by_cases hsetup : request.method = str "SETUP"
  · rw [serve_setup hsetup] at h
    split at h
    · rename_i huri
      cases h
      exact .badURI hsetup huri
    · rename_i huri
      split at h
      · rename_i henable
        cases h
        exact .unauthorized hsetup huri henable
      · rename_i henable
        cases h
        exact .created hsetup huri (Bool.not_eq_true _ ▸ henable)
  by_cases hteardown : request.method = str "TEARDOWN"
  · rw [serve_teardown hteardown] at h
    split at h
    · rename_i hmem
      cases h
      exact .tornDown hteardown hmem
    · rename_i hmem
      cases h
      exact .notFound (Or.inl hteardown) hmem
  by_cases hplay : request.method = str "PLAY"
  · rw [serve_play hplay] at h
    split at h
    · rename_i hmem
      split at h
      · rename_i hreply
        cases h
        exact .played hplay hmem hreply
      · rename_i hreply
        cases h
        exact .raised hplay hmem hreply
    · rename_i hmem
      cases h
      exact .notFound (Or.inr hplay) hmem
  · unfold serve at h
    dsimp only at h
    rw [if_neg hoptions, if_neg hsetup, if_neg hteardown, if_neg hplay] at h
    cases h
    exact .notAllowed ⟨hoptions, hsetup, hteardown, hplay⟩

end

end Installation

/-- What is relied on of a request: no credentials are in it, it names what it needs, the id that is
drawn for it is new, and the file of a PLAY is sent as it stands. -/
structure Servable {inst : Installation} (st : Store inst) (request : Request) : Prop where
  setup : request.method = str "SETUP" →
    request.headers[str "Transport"]? = some (str "TCP") ∧ str "User-Agent" ∉ request.headers
  new : request.method = str "SETUP" → inst.id st.drawn ∉ st.sessions
  session : request.method = str "TEARDOWN" ∨ request.method = str "PLAY" →
    str "Session" ∈ request.headers
  play : request.method = str "PLAY" → str "CSeq" ∈ request.headers ∧
    ∀ uri file, getURI request.url = .ok uri →
      inst.toMachine.files (filepath inst.toMachine uri) = some file →
      inst.toMachine.Readable request file

/-! ## The worker -/

section

variable {Λ τ α β : Type} {T : Thread Actions Λ τ Byte}

/-- An action that sends nothing. -/
theorem exec_perform {e : Act} {f : e.Ans → Handler β} {x : Locals} {t t' : τ} {c : Str}
    {a : e.Ans} (h : T.perform e t c = some ⟨a, t', c, []⟩) :
    T.exec ((perform e >>= f).run x) t c = T.exec ((f a).run x) t' c := by
  have hid : Effect.after (α := Except Exn β × Locals) (τ := τ) ([] : Str) = id := rfl
  rw [perform_bind, Thread.exec_act _ h, hid, Option.map_id]
  rfl

end

section

variable {inst : Installation} {st st' : Store inst} {request : Request} {conn : Conn} {x : Locals}
  {reply : Reply}

/-- The variables of `_handle` for a request. -/
def Locals.of (request : Request) (conn : Conn) : Locals := ⟨request, .ofRequest request, conn⟩

/-- A handler that sends the reply and returns. -/
def Delivers (inst : Installation) (m : Handler Unit) (x : Locals) (h h' : Host) (reply : Reply) :
    Prop :=
  ∃ x', inst.thread.exec (m.run x) h [] = some ⟨(.ok (), x'), h', [], reply.bytes⟩ ∧
    x'.conn = x.conn

theorem perform_send (site : Site) {x : Locals} {h : Host} (hopen : h.closed = false) (c : Str) :
    inst.thread.perform (.send site x) h c = some ⟨true, h, c, x.response.unparseHead⟩ := by
  show some (if h.closed = true then _ else _) = _
  rw [if_neg (by simp [hopen])]

theorem handles_send {h : Host} (hopen : h.closed = false) (hfresh : x.response.sended = false)
    (hbody : x.response.body = none) :
    Delivers inst (send .handle) x h h { response := x.response } := by
  have hexec := exec_sendHead (T := inst.thread) (c := []) hfresh hbody
    (perform_send .handle hopen [])
  refine ⟨{ x with response := { x.response with sended := true } }, ?_, rfl⟩
  rw [Reply.bytes, List.append_nil]
  exact hexec

theorem handles_options : Delivers inst handleOptions (.of request conn) st.host st.host
    { response := ((Response.ofRequest request).withStatus 200 "OK").set "Public"
        (str "SETUP, TEARDOWN, PLAY, OPTIONS") } := by
  have hno : ((∅ : Headers).insert (str "Public") (str "SETUP, TEARDOWN, PLAY, OPTIONS")).contains
      (str "Content-Length") = false := by
    decide
  let response := ((Response.ofRequest request).withStatus 200 "OK").set "Public"
    (str "SETUP, TEARDOWN, PLAY, OPTIONS")
  have hrun : handleOptions.run (.of request conn) =
      (if ((∅ : Headers).insert (str "Public") (str "SETUP, TEARDOWN, PLAY, OPTIONS")).contains
          (str "Content-Length") = true then setStatus 400 "Bad Request" >>= fun _ => send .handle
        else send .handle).run ⟨request, response, conn⟩ := rfl
  rw [Delivers, hrun, if_neg (by rw [hno]; simp)]
  exact handles_send (x := ⟨request, response, conn⟩) rfl rfl rfl

theorem perform_lock {h : Host} (hfree : h.shared.mutex = none) (c : Str) :
    inst.thread.perform .lock h c =
      some ⟨(), { h with shared := { h.shared with mutex := some () } }, c, []⟩ := if_pos hfree

theorem perform_unlock {h : Host} (hheld : h.shared.mutex = some ()) (c : Str) :
    inst.thread.perform .unlock h c =
      some ⟨(), { h with shared := { h.shared with mutex := none } }, c, []⟩ := if_pos hheld

/-- The first id that is drawn is new. -/
theorem perform_generateId (hnew : inst.id st.drawn ∉ st.sessions) {h : Host}
    (hsessions : h.shared.sessions = st.sessions) (hdrawn : h.drawn = st.drawn)
    (c : Str) :
    inst.thread.perform .generateId h c =
      some ⟨inst.id st.drawn, { h with drawn := st.drawn + 1 }, c, []⟩ := by
  show (inst.drawId h.shared.sessions (h.shared.sessions.size + 1) h.drawn).map _ = _
  rw [hsessions, hdrawn, Installation.drawId, if_neg hnew]
  rfl

/-- The credentials of a SETUP that names no user. -/
theorem authenticate_run (srv : Server) (session : Session) {x : Locals}
    (huser : str "User-Agent" ∉ x.request.headers) :
    (authenticate srv session).run x = (if srv.enable_auth then unauthorized
      else pure (some { session with user := [], password := [] })).run x := by
  have hcontains : ¬ x.request.headers.contains (str "User-Agent") = true := huser
  unfold authenticate
  rw [Exc.run_vars_bind, if_neg hcontains]

variable (inst) in
theorem exec_unauthorized {h : Host} (hopen : h.closed = false)
    (hfresh : x.response.sended = false) (hbody : x.response.body = none) :
    ∃ x', inst.thread.exec (unauthorized.run x) h [] = some ⟨(.ok none, x'), h, [],
        (x.response.withStatus 401 "Unauthorized").unparseHead⟩ ∧ x'.conn = x.conn := by
  let y := { x with response := x.response.withStatus 401 "Unauthorized" }
  have hsend := exec_sendHead (T := inst.thread) (x := y) (c := []) hfresh hbody
    (perform_send .handle hopen [])
  have hrun : unauthorized.run x = (send .handle >>= fun _ => pure none).run y := rfl
  refine ⟨{ y with response := { y.response with sended := true } }, ?_, rfl⟩
  rw [hrun, Thread.exec_ok hsend]
  exact Effect.map_after _ _ _ _

theorem unlessSended_run {m : Handler Unit} (hfresh : x.response.sended = false) :
    (unlessSended m).run x = m.run x := by
  unfold unlessSended
  rw [Exc.run_vars_bind, if_neg (by simp [hfresh])]

/-- There is no setup callback. -/
theorem exec_callSetup {β : Type} {h : Host} {c : Str} {x : Locals} (s : Session)
    (f : Session → Handler β) :
    inst.thread.exec ((callSetup inst.server s >>= f).run x) h c =
      inst.thread.exec ((f s).run x) h c := rfl

variable (inst conn) in
/-- SETUP from the transport check on. -/
theorem handles_setupSession (session : Session) {h : Host} (hopen : h.closed = false)
    (hfree : h.shared.mutex = none)
    (htransport : request.headers[str "Transport"]? = some (str "TCP")) :
    Delivers inst (setupSession inst.server session) (.of request conn) h
      { h with shared := { sessions := h.shared.sessions.insert session.id { session with
          transport := str "TCP"
          contentlength := request.headers.getD (str "Content-Length") [] } } }
      { response := (((Response.ofRequest request).withStatus 200 "OK").set "Transport"
          (str "TCP")).set "Session" session.id } := by
  have hmem : str "Transport" ∈ request.headers :=
    Map.mem_iff_getElem?.mpr ⟨_, htransport⟩
  have hget : request.headers.getD (str "Transport") [] = str "TCP" := by
    rw [Std.ExtTreeMap.getD_eq_getD_getElem?, htransport]
    rfl
  unfold setupSession Delivers
  rw [requestHeader_bind]
  dsimp only [Locals.of]
  have hcond : (request.headers.getD (str "Transport") [] ≠ str "TCP") = False := by simp [hget]
  simp only [hcond, if_false]
  rw [hget, requestHeader_bind, Map.insertIfNew_of_mem hmem]
  rw [exec_callSetup]
  let h' : Host := { h with shared := { h.shared with mutex := some () } }
  let s : Session := { session with
    transport := str "TCP", contentlength := request.headers.getD (str "Content-Length") [] }
  have hstore : inst.thread.perform (.store s) h' [] = some ⟨(), { h' with shared :=
      { h'.shared with sessions := h'.shared.sessions.insert s.id s } }, [], []⟩ := rfl
  rw [exec_perform (perform_lock hfree _), exec_perform hstore, exec_perform (perform_unlock rfl _),
    unlessSended_run rfl]
  let y : Locals :=
    { request := { request with headers :=
        request.headers.insertIfNew (str "Content-Length") [] }
      response := (((Response.ofRequest request).withStatus 200 "OK").set "Transport"
        (str "TCP")).set "Session" session.id
      conn := conn }
  exact handles_send (x := y) hopen rfl rfl

/-- SETUP up to the credentials. -/
theorem exec_handleSetup (hnew : inst.id st.drawn ∉ st.sessions) {uri : RtspURI}
    (huri : getURI request.url = .ok uri) {session : Session}
    (hsession : session = { id := inst.id st.drawn, url := request.url, ip := uri.host
                            port := uri.port, path := uri.path }) :
    inst.thread.exec ((handleSetup inst.server).run (.of request conn)) st.host [] =
      inst.thread.exec ((authenticate inst.server session >>= fun session => match session with
        | none => pure ()
        | some session => setupSession inst.server session).run (.of request conn))
        st.draw.host [] := by
  subst hsession
  have huri' : getURI (Locals.of request conn).request.url = .ok uri := huri
  unfold handleSetup
  rw [Exc.run_vars_bind, huri']
  dsimp only
  rw [exec_perform (perform_lock rfl _), exec_perform (perform_generateId hnew rfl rfl _),
    exec_perform (perform_unlock rfl _)]
  rfl

variable (conn) in
theorem handles_setup (hservable : Servable st request)
    (hmethod : request.method = str "SETUP") {uri : RtspURI} (huri : getURI request.url = .ok uri) :
    Delivers inst (handleSetup inst.server) (.of request conn) st.host
      (if inst.enable_auth then st.draw else st.add (inst.newSession st.drawn request uri)).host
      (if inst.enable_auth then
          { response := (Response.ofRequest request).withStatus 401 "Unauthorized" }
        else { response := (((Response.ofRequest request).withStatus 200 "OK").set "Transport"
          (str "TCP")).set "Session" (inst.id st.drawn) }) := by
  obtain ⟨htransport, huser⟩ := hservable.setup hmethod
  obtain ⟨session, hsession⟩ : ∃ session : Session, session =
    { id := inst.id st.drawn, url := request.url, ip := uri.host, port := uri.port
      path := uri.path } := ⟨_, rfl⟩
  have hauth : (authenticate inst.server session).run (.of request conn) =
      (if inst.enable_auth then unauthorized
        else pure (some { session with user := [], password := [] })).run (.of request conn) :=
    authenticate_run inst.server session huser
  rw [Delivers, exec_handleSetup (hservable.new hmethod) huri hsession]
  cases henable : inst.enable_auth with
  | true =>
      rw [henable, if_pos rfl] at hauth
      obtain ⟨x', hexec, hconn⟩ := exec_unauthorized inst (x := .of request conn)
        (h := st.draw.host) rfl rfl rfl
      rw [← hauth] at hexec
      refine ⟨x', ?_, hconn⟩
      rw [if_pos rfl, if_pos rfl, Thread.exec_ok hexec, Reply.bytes, List.append_nil]
      exact Effect.map_after _ _ _ _
  | false =>
      rw [henable, if_neg (by simp)] at hauth
      have hexec : inst.thread.exec ((authenticate inst.server session).run (.of request conn))
          st.draw.host [] =
            some ⟨(.ok (some session), .of request conn), st.draw.host, [], []⟩ := by
        rw [hauth, hsession]
        rfl
      obtain ⟨x', hsetup, hconn⟩ := handles_setupSession inst conn session
        (h := st.draw.host) rfl rfl htransport
      refine ⟨x', ?_, hconn⟩
      rw [if_neg (by simp), if_neg (by simp), Thread.exec_ok hexec, hsetup, hsession]
      rfl

/-- The host of a worker inside of a critical section. -/
def Store.locked (st : Store inst) : Host :=
  { st.host with shared := { sessions := st.sessions, mutex := some () } }

/-- The answer 454 is sent in the critical section. -/
theorem handles_notFound (hfresh : x.response.sended = false) (hbody : x.response.body = none) :
    Delivers inst sessionNotFound x st.locked st.host
      { response := x.response.withStatus 454 "Session Not Found" } := by
  have hsend : inst.thread.perform (.send .handle { x with response :=
      { x.response with status := 454, reason := str "Session Not Found" } }) st.locked [] =
      some ⟨true, st.locked, [], (x.response.withStatus 454 "Session Not Found").unparseHead⟩ :=
    perform_send .handle rfl []
  have hunlock : inst.thread.perform .unlock st.locked [] = some ⟨(), st.host, [], []⟩ :=
    perform_unlock rfl []
  unfold Delivers
  rw [sessionNotFound_run hbody hfresh, Thread.exec_act _ hsend]
  dsimp only
  rw [if_pos rfl, Thread.exec_act _ hunlock]
  let response := x.response.withStatus 454 "Session Not Found"
  refine ⟨{ x with response := { response with sended := true } }, ?_, rfl⟩
  simp only [Thread.exec, Option.map_some, Effect.after, Reply.bytes, List.append_nil]
  rfl

/-- The lock is taken, and the session is looked up. -/
theorem exec_find {β : Type} {f : Bool → Handler β} {y : Locals} (key : Str) :
    inst.thread.exec ((perform .lock >>= fun _ => perform (.find key) >>= f).run y) st.host [] =
      inst.thread.exec ((f (decide (key ∈ st.sessions))).run y) st.locked [] := by
  have hfind : inst.thread.perform (.find key) st.locked [] =
      some ⟨decide (key ∈ st.sessions), st.locked, [], []⟩ := rfl
  rw [exec_perform (perform_lock rfl _)]
  exact exec_perform hfind

variable (st conn) in
/-- The answer of TEARDOWN to a session that is stored. -/
theorem exec_teardownAnswer (hsession : str "Session" ∈ request.headers) {key : Str}
    (hkey : request.headers.getD (str "Session") [] = key) {response : Response}
    (hresponse : response = ((Response.ofRequest request).withStatus 200 "OK").set "Session" key) :
    inst.thread.exec ((unlessSended do
      setStatus 200 "OK"
      setHeader (str "Session") (← requestHeader (str "Session"))
      send .handle).run (.of request conn)) st.host [] =
        some ⟨(.ok (), ⟨request, { response with sended := true }, conn⟩), st.host, [],
          response.unparseHead⟩ := by
  subst hresponse hkey
  have hsend := exec_sendHead (T := inst.thread) (c := []) (x := ⟨request,
    ((Response.ofRequest request).withStatus 200 "OK").set "Session"
      (request.headers.getD (str "Session") []), conn⟩) rfl rfl
      (perform_send .handle (h := st.host) rfl [])
  rw [unlessSended_run rfl, setStatus_bind, requestHeader_bind]
  dsimp only [Locals.of]
  rw [Map.insertIfNew_of_mem hsession, setHeader_bind]
  exact hsend

variable (st conn) in
/-- A session that is stored is erased. -/
theorem exec_erase (hsession : str "Session" ∈ request.headers) {key : Str}
    (hkey : request.headers.getD (str "Session") [] = key) {response : Response} :
    ∃ x', inst.thread.exec ((do
      perform .lock
      let key ← requestHeader (str "Session")
      perform (.erase key)
      perform .unlock : Handler Unit).run ⟨request, response, conn⟩) st.host [] =
        some ⟨(.ok (), x'), (st.erase key).host, [], []⟩ ∧ x'.conn = conn := by
  have herase : inst.thread.perform (.erase key) st.locked [] =
      some ⟨(), (st.erase key).locked, [], []⟩ := rfl
  have hunlock : inst.thread.perform .unlock (st.erase key).locked [] =
      some ⟨(), (st.erase key).host, [], []⟩ := perform_unlock rfl []
  have hlock : inst.thread.perform .lock st.host [] = some ⟨(), st.locked, [], []⟩ :=
    perform_lock rfl []
  refine ⟨⟨request, response, conn⟩, ?_, rfl⟩
  rw [exec_perform hlock, requestHeader_bind]
  dsimp only
  rw [Map.insertIfNew_of_mem hsession, hkey, exec_perform herase]
  have hlast : ∀ y : Locals, (perform .unlock : Handler Unit).run y =
      .act (S := Actions) .unlock fun r => .ret (.ok r, y) := fun y => rfl
  rw [hlast, Thread.exec_act _ hunlock]
  exact Effect.map_after _ _ _ _

variable (st conn) in
theorem handles_teardown (hsession : str "Session" ∈ request.headers) {key : Str}
    (hkey : request.headers.getD (str "Session") [] = key) :
    Delivers inst (handleTeardown inst.server) (.of request conn) st.host
      (if key ∈ st.sessions then st.erase key else st).host
      (if key ∈ st.sessions then
        { response := ((Response.ofRequest request).withStatus 200 "OK").set "Session" key }
        else { response := (Response.ofRequest request).withStatus 454 "Session Not Found" }) := by
  unfold handleTeardown Delivers
  rw [requestHeader_bind]
  dsimp only [Locals.of]
  rw [Map.insertIfNew_of_mem hsession, hkey, exec_find]
  by_cases hmem : key ∈ st.sessions
  · have hfound : decide (key ∈ st.sessions) = true := decide_eq_true hmem
    have hindex : inst.thread.perform (.index .teardown key) st.locked [] =
        some ⟨(), st.locked, [], []⟩ := by
      show some (⟨(), { st.locked with shared := { st.locked.shared with
        sessions := st.sessions.insertIfNew key {} } }, [], []⟩ : Effect Unit Host Byte) = _
      rw [Map.insertIfNew_of_mem hmem]
      rfl
    have hanswer := exec_teardownAnswer st conn hsession hkey rfl
    obtain ⟨x', hexec, hconn⟩ := exec_erase st conn hsession hkey
    rw [hfound, if_pos rfl, if_pos hmem, if_pos hmem, exec_perform hindex,
      exec_perform (perform_unlock rfl _)]
    refine ⟨x', (Thread.exec_ok hanswer).trans ?_, hconn⟩
    rw [hexec, Reply.bytes, List.append_nil]
    exact Effect.map_after _ _ _ _
  · have hfound : decide (key ∈ st.sessions) = false := decide_eq_false hmem
    rw [hfound, if_neg (by simp), if_neg hmem, if_neg hmem]
    exact handles_notFound rfl rfl

/-- A session that a callback has left as it is. -/
theorem write_pointee {sessions : Sessions} {key : Str} (hmem : key ∈ sessions) :
    (SessionPtr.entry key).write sessions (((SessionPtr.entry key).pointee sessions).getD {}) =
      sessions := by
  obtain ⟨session, hsession⟩ := Map.mem_iff_getElem?.mp hmem
  have hpointee : (SessionPtr.entry key).pointee sessions = some session := hsession
  rw [hpointee, Option.getD_some, SessionPtr.write, if_pos hmem]
  refine Map.ext fun a => ?_
  rw [Map.getElem?_insert]
  by_cases hkey : key = a
  · rw [if_pos hkey, ← hkey, hsession]
  · rw [if_neg hkey]

/-- The play callback as an action. -/
theorem perform_callback {key : Str} (hmem : key ∈ st.sessions) {y : Locals}
    {r : Effect (Except Exn Unit × Locals) (List Str) Byte}
    (hexec : callbackThread.exec ((pcallback inst.toMachine (inst.memory st.plays)).run y) [] [] =
      some r) :
    ∃ session, inst.thread.perform (.callback .play y (.entry key)) st.host [] =
      some ⟨{ vars := r.ans.2, session := session, heads := r.state
              thrown := match r.ans.1 with
                | .ok () => none
                | .error e => some e }, st.play.host, [], r.out⟩ := by
  let session := ((SessionPtr.entry key).pointee st.sessions).getD {}
  let write (sessions : Sessions) : Host :=
    { st.host with shared := { sessions := sessions }, plays := st.plays + 1 }
  have hwrite : write ((SessionPtr.entry key).write st.sessions session) = st.play.host :=
    congrArg write (write_pointee hmem)
  refine ⟨session, ?_⟩
  show (inst.played st.plays y session).map _ = _
  unfold Installation.played
  rw [hexec, Option.map_some, Option.map_some, ← hwrite]
  rfl

/-- The callback of a PLAY sends the answer. -/
theorem exec_callEntry {key : Str} (hmem : key ∈ st.sessions) {y : Locals} {reply : Reply}
    (hreplies : Replies ((pcallback inst.toMachine (inst.memory st.plays)).run y) y reply) :
    ∃ y', inst.thread.exec ((callEntry inst.server.playCallback .play key).run y) st.host [] =
      some ⟨(.ok (), y'), st.play.host, [], reply.bytes⟩ ∧ Answers y y' := by
  obtain ⟨y', hexec, hanswers⟩ := hreplies
  obtain ⟨session, hact⟩ := perform_callback hmem hexec
  refine ⟨y', ?_, hanswers⟩
  have hentry : callEntry inst.server.playCallback .play key =
      (call .play (.entry key) >>= fun _ => pure ()) := if_pos rfl
  have hcall : inst.thread.exec ((call .play (.entry key)).run y) st.host [] =
      some ⟨(.ok session, y'), st.play.host, [], reply.bytes⟩ := by
    rw [call_run, Thread.exec_act _ hact]
    exact Effect.map_after _ _ _ _
  rw [hentry, Thread.exec_ok hcall]
  exact Effect.map_after _ _ _ _

/-- The callback of a PLAY throws. -/
theorem exec_callEntry_throws {key : Str} (hmem : key ∈ st.sessions) {y : Locals} {e : Exn}
    (hthrows : (pcallback inst.toMachine (inst.memory st.plays)).run y = .ret (.error e, y)) :
    inst.thread.exec ((callEntry inst.server.playCallback .play key).run y) st.host [] =
      some ⟨(.error e, y), st.play.host, [], []⟩ := by
  have hexec : callbackThread.exec ((pcallback inst.toMachine (inst.memory st.plays)).run y) [] [] =
      some ⟨(.error e, y), [], [], []⟩ := by
    rw [hthrows]
    rfl
  obtain ⟨session, hact⟩ := perform_callback hmem hexec
  have hentry : callEntry inst.server.playCallback .play key =
      (call .play (.entry key) >>= fun _ => pure ()) := if_pos rfl
  have hcall : inst.thread.exec ((call .play (.entry key)).run y) st.host [] =
      some ⟨(.error e, y), st.play.host, [], []⟩ := by
    rw [call_run, Thread.exec_act _ hact]
    exact Effect.map_after _ _ _ _
  rw [hentry, Thread.exec_error hcall]

/-- The answer of PLAY when the callback has not sent one. -/
def playAnswer : Handler Unit := unlessSended do
  setStatus 200 "OK"
  setHeader (str "Session") (← requestHeader (str "Session"))
  setHeader (str "Range") (str "npt=0.000-")
  setHeader (str "RTP-Info") (str "url=" ++ (← Exc.vars).request.url)
  send .handle

/-- PLAY of a session that is stored, up to the callback. -/
theorem exec_playSession (hcseq : str "CSeq" ∈ request.headers) {key : Str}
    (hmem : key ∈ st.sessions) :
    inst.thread.exec ((playSession inst.server key).run (.of request conn)) st.host [] =
      inst.thread.exec ((callEntry inst.server.playCallback .play key >>= fun _ =>
        playAnswer).run ⟨request, Installation.playResponse request key, conn⟩) st.host [] := by
  have hindex : inst.thread.perform (.index .play key) st.locked [] =
      some ⟨(), st.locked, [], []⟩ := by
    show some (⟨(), { st.locked with shared := { st.locked.shared with
      sessions := st.sessions.insertIfNew key {} } }, [], []⟩ : Effect Unit Host Byte) = _
    rw [Map.insertIfNew_of_mem hmem]
    rfl
  have hlock : inst.thread.perform .lock st.host [] = some ⟨(), st.locked, [], []⟩ :=
    perform_lock rfl []
  have hunlock : inst.thread.perform .unlock st.locked [] = some ⟨(), st.host, [], []⟩ :=
    perform_unlock rfl []
  have hcontains : (Locals.of request conn).request.headers.contains (str "CSeq") = true := hcseq
  unfold playSession
  rw [Exc.run_vars_bind, if_pos hcontains, exec_perform hlock, exec_perform hindex,
    exec_perform hunlock, requestHeader_bind]
  dsimp only [Locals.of]
  rw [Map.insertIfNew_of_mem hcseq, setHeader_bind, setHeader_bind]
  rfl

/-- A handler that throws before it sends anything, with this response prepared. -/
def Raises (inst : Installation) (m : Handler Unit) (x : Locals) (h : Host) (response : Response) :
    Prop :=
  ∃ e request conn h', inst.thread.exec (m.run x) h [] =
      some ⟨(.error e, ⟨request, response, conn⟩), h', [], []⟩ ∧
    (∀ errcode, e ≠ .SendError errcode) ∧ h'.closed = false

theorem raises_setup {e : Exn} (huri : getURI request.url = .error e) :
    Raises inst (handleSetup inst.server) (.of request conn) st.host (.ofRequest request) := by
  have huri' : getURI (Locals.of request conn).request.url = .error e := huri
  refine ⟨e, request, conn, st.host, ?_, getURI_error huri, rfl⟩
  unfold handleSetup
  rw [Exc.run_vars_bind, huri']
  rfl

/-- PLAY up to its first critical section. -/
theorem exec_handlePlay (hsession : str "Session" ∈ request.headers) {key : Str}
    (hkey : request.headers.getD (str "Session") [] = key) :
    inst.thread.exec ((handlePlay inst.server).run (.of request conn)) st.host [] =
      if key ∈ st.sessions then
        inst.thread.exec ((playSession inst.server key).run (.of request conn)) st.host []
      else inst.thread.exec (sessionNotFound.run (.of request conn)) st.locked [] := by
  have hlock : inst.thread.perform .lock st.host [] = some ⟨(), st.locked, [], []⟩ :=
    perform_lock rfl []
  have hfind : inst.thread.perform (.find key) st.locked [] =
      some ⟨decide (key ∈ st.sessions), st.locked, [], []⟩ := rfl
  have hunlock : inst.thread.perform .unlock st.locked [] = some ⟨(), st.host, [], []⟩ :=
    perform_unlock rfl []
  unfold handlePlay
  rw [exec_perform hlock, requestHeader_bind]
  dsimp only [Locals.of]
  rw [Map.insertIfNew_of_mem hsession, hkey, exec_perform hfind]
  by_cases hmem : key ∈ st.sessions
  · have hfound : decide (key ∈ st.sessions) = true := decide_eq_true hmem
    rw [hfound, if_pos rfl, if_pos hmem, exec_perform hunlock]
  · have hfound : decide (key ∈ st.sessions) = false := decide_eq_false hmem
    rw [hfound, if_neg (by simp), if_neg hmem]

theorem handles_unknown (hsession : str "Session" ∈ request.headers) {key : Str}
    (hkey : request.headers.getD (str "Session") [] = key) (hmem : key ∉ st.sessions) :
    Delivers inst (handlePlay inst.server) (.of request conn) st.host st.host
      { response := (Response.ofRequest request).withStatus 454 "Session Not Found" } := by
  rw [Delivers, exec_handlePlay hsession hkey, if_neg hmem]
  exact handles_notFound rfl rfl

/-- After the callback has sent the answer nothing more is sent. -/
theorem handles_play (hsession : str "Session" ∈ request.headers)
    (hcseq : str "CSeq" ∈ request.headers) {key : Str}
    (hkey : request.headers.getD (str "Session") [] = key) (hmem : key ∈ st.sessions)
    (hreadable : ∀ uri file, getURI request.url = .ok uri →
      inst.toMachine.files (filepath inst.toMachine uri) = some file →
      inst.toMachine.Readable request file)
    (hreply : inst.toMachine.playReply request (Installation.playResponse request key) =
      .ok reply) :
    Delivers inst (handlePlay inst.server) (.of request conn) st.host st.play.host reply := by
  have hreplies := replies_pcallback inst.toMachine (inst.memory st.plays)
    (x := ⟨request, Installation.playResponse request key, conn⟩) rfl rfl hreadable hreply
  obtain ⟨y', hexec, hsended, hconn⟩ := exec_callEntry hmem hreplies
  have hlast : playAnswer.run y' = .ret (.ok (), y') := by
    unfold playAnswer unlessSended
    rw [Exc.run_vars_bind, if_pos hsended]
    rfl
  refine ⟨y', ?_, hconn⟩
  rw [exec_handlePlay hsession hkey, if_pos hmem, exec_playSession hcseq hmem,
    Thread.exec_ok hexec, hlast]
  exact Effect.map_after _ _ _ _

theorem raises_play (hsession : str "Session" ∈ request.headers)
    (hcseq : str "CSeq" ∈ request.headers) {key : Str}
    (hkey : request.headers.getD (str "Session") [] = key) (hmem : key ∈ st.sessions) {e : Exn}
    (hreply : inst.toMachine.playReply request (Installation.playResponse request key) =
      .error e) :
    Raises inst (handlePlay inst.server) (.of request conn) st.host
      (Installation.playResponse request key) := by
  have hthrows := throws_pcallback (inst.memory st.plays)
    (x := ⟨request, Installation.playResponse request key, conn⟩) hreply
  have hexec := exec_callEntry_throws hmem hthrows
  refine ⟨e, request, conn, st.play.host, ?_, playReply_error hreply, rfl⟩
  rw [exec_handlePlay hsession hkey, if_pos hmem, exec_playSession hcseq hmem,
    Thread.exec_error hexec]

theorem handles_notAllowed :
    Delivers inst (do
      setStatus 405 "Method Not Allowed"
      setHeader (str "Public") (str "SETUP, TEARDOWN, PLAY, OPTIONS")
      send .handle) (.of request conn) st.host st.host
      { response := ((Response.ofRequest request).withStatus 405 "Method Not Allowed").set "Public"
          (str "SETUP, TEARDOWN, PLAY, OPTIONS") } := by
  let response := ((Response.ofRequest request).withStatus 405 "Method Not Allowed").set "Public"
    (str "SETUP, TEARDOWN, PLAY, OPTIONS")
  exact handles_send (x := ⟨request, response, conn⟩) rfl rfl rfl

theorem handle_run (srv : Server) : (handle srv).run (.of request conn) =
    (if request.method = str "OPTIONS" then handleOptions
      else if request.method = str "SETUP" then handleSetup srv
      else if request.method = str "TEARDOWN" then handleTeardown srv
      else if request.method = str "PLAY" then handlePlay srv
      else do
        setStatus 405 "Method Not Allowed"
        setHeader (str "Public") (str "SETUP, TEARDOWN, PLAY, OPTIONS")
        send .handle).run (.of request conn) := rfl

theorem handle_run_setup (srv : Server) (h : request.method = str "SETUP") :
    (handle srv).run (.of request conn) = (handleSetup srv).run (.of request conn) := by
  rw [handle_run, h, if_neg (by decide), if_pos rfl]

theorem handle_run_teardown (srv : Server) (h : request.method = str "TEARDOWN") :
    (handle srv).run (.of request conn) = (handleTeardown srv).run (.of request conn) := by
  rw [handle_run, h, if_neg (by decide), if_neg (by decide), if_pos rfl]

theorem handle_run_play (srv : Server) (h : request.method = str "PLAY") :
    (handle srv).run (.of request conn) = (handlePlay srv).run (.of request conn) := by
  rw [handle_run, h, if_neg (by decide), if_neg (by decide), if_neg (by decide), if_pos rfl]

variable (conn) in
/-- **`_handle` sends the answer**, and leaves the sessions that the server has then. -/
theorem handle_delivers (hservable : Servable st request)
    (hserve : inst.serve st request = (reply, some st')) :
    Delivers inst (handle inst.server) (.of request conn) st.host st'.host reply := by
  have houtcome := Installation.serve_outcome hserve
  rw [Delivers]
  cases houtcome with
  | options hmethod =>
      rw [handle_run, if_pos hmethod]
      exact handles_options
  | unauthorized hmethod huri henable =>
      rw [handle_run_setup _ hmethod]
      have hdelivers := handles_setup conn hservable hmethod huri
      rw [if_pos henable, if_pos henable] at hdelivers
      exact hdelivers
  | created hmethod huri henable =>
      rw [handle_run_setup _ hmethod]
      have hdelivers := handles_setup conn hservable hmethod huri
      rw [if_neg (by simp [henable]), if_neg (by simp [henable])] at hdelivers
      exact hdelivers
  | tornDown hmethod hmem =>
      rw [handle_run_teardown _ hmethod]
      have hdelivers := handles_teardown st conn (hservable.session (Or.inl hmethod)) rfl
      rw [if_pos hmem, if_pos hmem] at hdelivers
      exact hdelivers
  | notFound hmethod hmem =>
      have hsession := hservable.session hmethod
      rcases hmethod with hmethod | hmethod
      · rw [handle_run_teardown _ hmethod]
        have hdelivers := handles_teardown st conn hsession rfl
        rw [if_neg hmem, if_neg hmem] at hdelivers
        exact hdelivers
      · rw [handle_run_play _ hmethod]
        exact handles_unknown hsession rfl hmem
  | played hmethod hmem hreply =>
      obtain ⟨hcseq, hreadable⟩ := hservable.play hmethod
      rw [handle_run_play _ hmethod]
      exact handles_play (hservable.session (Or.inr hmethod)) hcseq rfl hmem hreadable hreply
  | notAllowed hmethod =>
      obtain ⟨hoptions, hsetup, hteardown, hplay⟩ := hmethod
      rw [handle_run, if_neg hoptions, if_neg hsetup, if_neg hteardown, if_neg hplay]
      exact handles_notAllowed

variable (conn) in
/-- Where the server closes the connection, `_handle` throws. -/
theorem handle_raises (hservable : Servable st request)
    (hserve : inst.serve st request = (reply, none)) :
    ∃ response, Raises inst (handle inst.server) (.of request conn) st.host response ∧
      response.sended = false ∧ response.body = none ∧
      reply = { response := response.withStatus 500 "Internal Server Error" } := by
  have houtcome := Installation.serve_outcome hserve
  unfold Raises
  cases houtcome with
  | badURI hmethod huri =>
      rw [handle_run_setup _ hmethod]
      exact ⟨_, raises_setup huri, rfl, rfl, rfl⟩
  | raised hmethod hmem hreply =>
      obtain ⟨hcseq, -⟩ := hservable.play hmethod
      rw [handle_run_play _ hmethod]
      exact ⟨_, raises_play (hservable.session (Or.inr hmethod)) hcseq rfl hmem hreply,
        rfl, rfl, rfl⟩

/-! ## The worker between two requests -/

/-- The worker waits for a request with these sessions, or, when it has closed the connection, for
another one. -/
def AtRest (inst : Installation) : Option (Store inst) → Prog Actions Ctl × Host → Prop
  | some st, w => ∃ conn, w = (.ret (.serve conn), st.host)
  | none, w => ∃ p h, Cpp.round inst.server .accept = some p ∧ h.closed = true ∧ w = (p, h)

theorem AtRest.rests {s : Option (Store inst)} {w : Prog Actions Ctl × Host} (h : AtRest inst s w) :
    inst.thread.process.step w [] = none := by
  cases s with
  | some st =>
      obtain ⟨conn, rfl⟩ := h
      rfl
  | none =>
      obtain ⟨p, h', hp, -, rfl⟩ := h
      cases hp
      rfl

variable (inst) in
/-- The handler of an exception sends the reply 500 and closes the socket. -/
theorem exec_serverError {h : Host} (hopen : h.closed = false)
    (hfresh : x.response.sended = false) (hbody : x.response.body = none) :
    inst.thread.exec (((replyError 500 "Internal Server Error").run x).bind afterReply) h [] =
      some ⟨.accept, { h with closed := true }, [],
        (x.response.withStatus 500 "Internal Server Error").unparseHead⟩ := by
  let y : Locals := { x with response := x.response.withStatus 500 "Internal Server Error" }
  have hsend := exec_sendHead (T := inst.thread) (x := y) (c := []) hfresh hbody
    (perform_send .reply hopen [])
  have hclose : inst.thread.perform .close h [] =
      some ⟨(), { h with closed := true }, [], []⟩ := rfl
  have hreply : inst.thread.exec ((send .reply >>= fun _ => perform .close).run y) h [] =
      some ⟨(.ok (), { y with response := { y.response with sended := true } }),
        { h with closed := true }, [], y.response.unparseHead⟩ := by
    have hlast : ∀ z : Locals, (perform .close : Handler Unit).run z =
        .act (S := Actions) .close fun r => .ret (.ok r, z) := fun z => rfl
    rw [Thread.exec_ok hsend, hlast, Thread.exec_act _ hclose]
    exact Effect.map_after _ _ _ _
  have hrun : (replyError 500 "Internal Server Error").run x =
      (send .reply >>= fun _ => perform .close).run y := rfl
  rw [hrun, Thread.exec_bind _ hreply]
  exact Effect.map_after _ _ _ _

variable (conn) in
/-- **A worker that has read a request** sends the answer of the server and nothing else, and has
its sessions afterwards. -/
theorem exec_worker (hservable : Servable st request)
    {s : Option (Store inst)} (hserve : inst.serve st request = (reply, s)) {P : Type}
    {R : Process P Byte} (p : P) (c : Str) :
    ∃ k w, Channels.Run R inst.thread.process ⟨p, (.ret (.dispatch request conn), st.host), c, []⟩ k
      ⟨p, w, c ++ reply.bytes, []⟩ ∧ AtRest inst s w := by
  have hround : inst.thread.round (.dispatch request conn) [] =
      some (((handle inst.server).run (.of request conn)).bind afterHandle, []) := rfl
  cases s with
  | some st' =>
      obtain ⟨x', hexec, hconn⟩ := handle_delivers conn hservable hserve
      have hprog : inst.thread.exec (((handle inst.server).run (.of request conn)).bind afterHandle)
          st.host [] = some ⟨.serve x'.conn, st'.host, [], reply.bytes⟩ := by
        rw [Thread.exec_bind _ hexec]
        exact Effect.map_after _ _ _ _
      obtain ⟨k, hrun⟩ := round_right (R := R) hround hprog p c
      exact ⟨k, _, hrun, x'.conn, rfl⟩
  | none =>
      -- the exception is caught, the reply 500 is sent and the worker accepts another connection
      obtain ⟨response, ⟨e, request', conn', h', hexec, hne, hopen⟩, hfresh, hbody, rfl⟩ :=
        handle_raises conn hservable hserve
      let x : Locals := ⟨request', response, conn'⟩
      have hprog : inst.thread.exec (((handle inst.server).run (.of request conn)).bind afterHandle)
          st.host [] = some ⟨.serverError x, h', [], []⟩ := by
        rw [Thread.exec_bind _ hexec]
        cases e with
        | SendError errcode => exact absurd rfl (hne errcode)
        | _ => rfl
      have hround' : inst.thread.round (.serverError x) [] =
          some (((replyError 500 "Internal Server Error").run x).bind afterReply, []) := rfl
      have hclosing := exec_serverError inst (x := x) hopen hfresh hbody
      obtain ⟨i, hfirst⟩ := round_right (R := R) hround hprog p c
      obtain ⟨j, hsecond⟩ := round_right (R := R) hround' hclosing p c
      have haccept : inst.thread.round .accept [] = some (_, []) := rfl
      have hlast := start_right (R := R) haccept { h' with closed := true } p
        (c ++ (response.withStatus 500 "Internal Server Error").unparseHead)
      rw [List.append_nil] at hfirst
      rw [Reply.bytes, List.append_nil]
      exact ⟨i + (j + 1), _, hfirst.trans (hsecond.trans hlast), _, _, rfl, rfl, rfl⟩

end

end DianProtocol.Cpp
