import DianProtocol.Py.Delivery

set_option autoImplicit false

/-! # `Client`

The methods of `Client` are programs over what they do with the socket. Their variables are those
of the object: an exception leaves them as they were, so that `_cseq` counts the requests that were
built, answered or not.

The body of a response is read before the next request is sent: by the caller, who gets it from
`play` or `options`, or by `SocketStreamReader.__del__` when the response is dropped.
-/

namespace DianProtocol.Py

open Concurrent

/-- A `Client` with the record of its PLAY requests. Its `session` is `str(self._session)`, which is
`None` before the first SETUP. -/
structure ClientState extends Client where
  play_record : List Request := []

/-- `Client(address, url)` -/
def ClientState.new (url : Text) : ClientState where
  url := url
  session := text "None"
  cseq := 0

namespace Client

/-! ## The requests -/

/-- An argument that is `None` or `''` counts as missing. -/
def given (argument : Option Text) : Option Text := argument.filter (· ≠ [])

/-- The request of `setup(auth)`. -/
def setupRequest (c : Client) (auth : Option Text) : Request :=
  let headers := (Dict.set {} (text "CSeq") (str c.cseq)).set (text "Transport") (text "TCP")
  { method := text "SETUP"
    url := c.url
    version := VERSION
    headers := match given auth with
      | none => headers
      | some auth => headers.set (text "Authorization") (text "Bearer " ++ auth) }

/-- The request of `play(range)`. -/
def rangeRequest (c : Client) (range : Option Text) : Request :=
  match given range with
  | none => c.playRequest
  | some range => { c.playRequest with headers := c.playRequest.headers.set (text "Range") range }

/-- The request of `teardown()`. -/
def teardownRequest (c : Client) : Request where
  method := text "TEARDOWN"
  url := c.url
  version := VERSION
  headers := (Dict.set {} (text "CSeq") (str c.cseq)).set (text "Session") c.session

/-- The request of `options()`. -/
def optionsRequest (c : Client) : Request where
  method := text "OPTIONS"
  url := c.url
  version := VERSION
  headers := Dict.set {} (text "CSeq") (str c.cseq)

/-! ## The methods -/

inductive Act where
  | send (data : Bytes)
  | unparse
  | readall (body : SocketStreamReader)

/-- The answers: of `send`, the number of bytes accepted; of `unparse` and `readall`, what is
returned. Each of them may raise. -/
@[reducible] def Act.Ans : Act → Type
  | .send _ => Except PyExn Nat
  | .unparse => Except PyExn Received
  | .readall _ => Except PyExn Bytes

abbrev Actions : Sig := ⟨Act, Act.Ans⟩

abbrev Method := Exc Actions ClientState PyExn

open Exc (vars assign throw)

def perform (e : Act) : Method e.Ans := Exc.perform (S := Actions) e

/-- The result of an action that may raise. -/
def attempt {α : Type} : Except PyExn α → Method α
  | .ok a => pure a
  | .error e => throw e

/-- `Client.request` -/
def request (req : Request) : Method Received := do
  let sent ← perform (.send (encode req.parse))
  let _ ← attempt sent
  let res ← perform .unparse
  attempt res

/-- `request`, and the body of the response. -/
def exchange (req : Request) : Method (Received × Except PyExn Bytes) := do
  let res ← request req
  let body ← perform (.readall res.body)
  return (res, body)

/-- `self._cseq += 1` -/
def count : Method Unit := assign fun c => { c with cseq := c.cseq + 1 }

/-- `raise Exception(res.status_text)` -/
def refuse {α : Type} (res : Received) : Method α :=
  throw (.Exception (String.ofList res.status_text))

def setup (auth : Option Text) : Method Unit := do
  let req := (← vars).setupRequest auth
  count
  let (res, _) ← exchange req
  if res.status ≠ 200 then refuse res
  else
    match res.headers.get? (text "Session") with
    | none => throw .KeyError
    | some session => assign fun c => { c with session := session }

def play (range : Option Text) : Method (Received × Except PyExn Bytes) := do
  let req := (← vars).rangeRequest range
  assign fun c => { c with play_record := c.play_record ++ [req] }
  count
  let (res, body) ← exchange req
  if res.status ≠ 200 ∧ res.status ≠ 206 then refuse res else return (res, body)

def teardown : Method Unit := do
  let req := (← vars).teardownRequest
  count
  let (res, _) ← exchange req
  if res.status ≠ 200 then refuse res else return ()

def options : Method (Received × Except PyExn Bytes) := do
  let req := (← vars).optionsRequest
  count
  let (res, body) ← exchange req
  if res.status ≠ 200 then refuse res else return (res, body)

/-! ## Calls -/

/-- A call of one of the methods. -/
inductive Call where
  | setup (auth : Option Text)
  | play (range : Option Text)
  | teardown
  | options

/-- What a call returns, if anything: the response and its body. -/
abbrev Result := Except PyExn (Option (Received × Except PyExn Bytes))

def Call.run : Call → Method (Option (Received × Except PyExn Bytes))
  | .setup auth => do
      Client.setup auth
      return none
  | .play range => do return some (← Client.play range)
  | .teardown => do
      Client.teardown
      return none
  | .options => do return some (← Client.options)

def Call.method : Call → Text
  | .setup _ => text "SETUP"
  | .play _ => text "PLAY"
  | .teardown => text "TEARDOWN"
  | .options => text "OPTIONS"

/-- The request that a call sends. -/
def Call.request (c : Client) : Call → Request
  | .setup auth => c.setupRequest auth
  | .play range => c.rangeRequest range
  | .teardown => c.teardownRequest
  | .options => c.optionsRequest

/-- The client when a call has built its request. -/
def Call.counted (c : ClientState) : Call → ClientState
  | .play range => { c with cseq := c.cseq + 1
                            play_record := c.play_record ++ [c.rangeRequest range] }
  | _ => { c with cseq := c.cseq + 1 }

/-- The statuses with which a call does not raise. -/
def Call.Accepts : Call → Int → Prop
  | .play _, status => status = 200 ∨ status = 206
  | _, status => status = 200

instance (call : Call) (status : Int) : Decidable (call.Accepts status) := by
  cases call <;> unfold Call.Accepts <;> infer_instance

/-- What a call makes of a response. -/
def Call.judge (res : Received) (body : Except PyExn Bytes) (c : ClientState) (call : Call) :
    Result × ClientState :=
  if ¬ call.Accepts res.status then (.error (.Exception (String.ofList res.status_text)), c)
  else match call with
    | .setup _ =>
        match res.headers.get? (text "Session") with
        | none => (.error .KeyError, c)
        | some session => (.ok none, { c with session := session })
    | .teardown => (.ok none, c)
    | _ => (.ok (some (res, body)), c)

/-- A response is awaited, and then its body; `k` is what follows. -/
def awaiting {α : Type}
    (k : Received → Except PyExn Bytes → Prog Actions (Except PyExn α × ClientState))
    (c : ClientState) : Except PyExn Nat → Prog Actions (Except PyExn α × ClientState)
  | .error e => .ret (.error e, c)
  | .ok _ => .act (S := Actions) .unparse fun
      | .error e => .ret (.error e, c)
      | .ok res => .act (S := Actions) (.readall res.body) fun body => k res body

theorem exchange_bind {α : Type} (req : Request) (f : Received × Except PyExn Bytes → Method α)
    (c : ClientState) :
    (exchange req >>= f).run c = .act (S := Actions) (.send (encode req.parse))
      (awaiting (fun res body => (f (res, body)).run c) c) := by
  have hcongr : ∀ (e : Act) {k k' : e.Ans → Prog Actions (Except PyExn α × ClientState)},
      (∀ r, k r = k' r) → Prog.act (S := Actions) e k = .act e k' :=
    fun _ _ _ h => congrArg _ (funext h)
  refine hcongr (.send _) fun sent => ?_
  rcases sent with e | n
  · rfl
  refine hcongr .unparse fun res => ?_
  rcases res with e | res
  · rfl
  · rfl

/-- **The methods of a client**: each of them builds its request, counts it, sends it, reads a
response and its body, and looks at the status. -/
theorem Call.run_eq (call : Call) (c : ClientState) :
    call.run.run c = .act (S := Actions) (.send (encode (call.request c.toClient).parse))
      (awaiting (fun res body => .ret (call.judge res body (call.counted c))) (call.counted c)) := by
  cases call with
  | setup auth =>
      have hrun : (Call.setup auth).run.run c = ((exchange (c.setupRequest auth) >>= fun x =>
          if x.1.status ≠ 200 then refuse x.1
          else match x.1.headers.get? (text "Session") with
            | none => throw .KeyError
            | some session => assign fun c => { c with session := session }) >>=
          fun _ => pure none).run (Call.counted c (.setup auth)) := rfl
      rw [hrun, Exc.bind_assoc, exchange_bind]
      congr 2
      funext res body
      unfold judge
      by_cases hstatus : res.status = 200
      · have haccepts : (Call.setup auth).Accepts res.status := hstatus
        rw [if_neg (not_not.mpr hstatus), if_neg (not_not.mpr haccepts)]
        dsimp only
        cases res.headers.get? (text "Session") with
        | none => rfl
        | some session => rfl
      · have haccepts : ¬ (Call.setup auth).Accepts res.status := hstatus
        rw [if_pos hstatus, if_pos haccepts]
        rfl
  | play range =>
      have hrun : (Call.play range).run.run c = ((exchange (c.rangeRequest range) >>= fun x =>
          if x.1.status ≠ 200 ∧ x.1.status ≠ 206 then refuse x.1 else pure (x.1, x.2)) >>=
          fun x => pure (some x)).run (Call.counted c (.play range)) := rfl
      rw [hrun, Exc.bind_assoc, exchange_bind]
      congr 2
      funext res body
      unfold judge
      by_cases hstatus : res.status ≠ 200 ∧ res.status ≠ 206
      · have haccepts : ¬ (Call.play range).Accepts res.status := not_or.mpr hstatus
        rw [if_pos hstatus, if_pos haccepts]
        rfl
      · have haccepts : ¬ ¬ (Call.play range).Accepts res.status := mt not_or.mp hstatus
        rw [if_neg hstatus, if_neg haccepts]
        rfl
  | teardown =>
      have hrun : Call.teardown.run.run c = ((exchange c.teardownRequest >>= fun x =>
          if x.1.status ≠ 200 then refuse x.1 else pure ()) >>= fun _ => pure none).run
          (Call.counted c .teardown) := rfl
      rw [hrun, Exc.bind_assoc, exchange_bind]
      congr 2
      funext res body
      unfold judge
      by_cases hstatus : res.status = 200
      · have haccepts : Call.teardown.Accepts res.status := hstatus
        rw [if_neg (not_not.mpr hstatus), if_neg (not_not.mpr haccepts)]
        rfl
      · have haccepts : ¬ Call.teardown.Accepts res.status := hstatus
        rw [if_pos hstatus, if_pos haccepts]
        rfl
  | options =>
      have hrun : Call.options.run.run c = ((exchange c.optionsRequest >>= fun x =>
          if x.1.status ≠ 200 then refuse x.1 else pure (x.1, x.2)) >>= fun x => pure (some x)).run
          (Call.counted c .options) := rfl
      rw [hrun, Exc.bind_assoc, exchange_bind]
      congr 2
      funext res body
      unfold judge
      by_cases hstatus : res.status = 200
      · have haccepts : Call.options.Accepts res.status := hstatus
        rw [if_neg (not_not.mpr hstatus), if_neg (not_not.mpr haccepts)]
        rfl
      · have haccepts : ¬ Call.options.Accepts res.status := hstatus
        rw [if_pos hstatus, if_pos haccepts]
        rfl

/-! ## Any connection

What a client sends does not depend on what it is answered, but for the id of its session. Here the
socket may do anything: accept a part of a request, raise, and return any response. -/

/-- What a call leaves of the client, whatever it has been answered. -/
structure Call.Leaves (call : Call) (c : ClientState) (x : Result × ClientState) : Prop where
  url : x.2.url = c.url
  cseq : x.2.cseq = c.cseq + 1
  play_record : x.2.play_record = c.play_record ++
    [call.request c.toClient].filter (·.method = text "PLAY")
  /-- only a SETUP that does not raise changes the session -/
  session : x.2.session ≠ c.session → x.1 = .ok none ∧ ∃ auth, call = .setup auth

theorem Call.counted_leaves (call : Call) (c : ClientState) (r : Result) :
    call.Leaves c (r, call.counted c) := by
  cases call with
  | play range =>
      refine ⟨rfl, rfl, ?_, fun hne => absurd rfl hne⟩
      have hplay : (c.rangeRequest range).method = text "PLAY" := by
        unfold rangeRequest
        split <;> rfl
      simp [Call.counted, Call.request, hplay]
  | setup auth => exact ⟨rfl, rfl, (List.append_nil _).symm, fun hne => absurd rfl hne⟩
  | teardown => exact ⟨rfl, rfl, (List.append_nil _).symm, fun hne => absurd rfl hne⟩
  | options => exact ⟨rfl, rfl, (List.append_nil _).symm, fun hne => absurd rfl hne⟩

/-- Only a SETUP that does not raise changes the client: it takes the session of the response. -/
theorem Call.judge_cases (call : Call) (c : ClientState) (res : Received)
    (body : Except PyExn Bytes) : (call.judge res body c).2 = c ∨ ∃ auth session,
      call = .setup auth ∧ res.status = 200 ∧ res.headers.get? (text "Session") = some session ∧
        call.judge res body c = (.ok none, { c with session := session }) := by
  unfold judge
  by_cases haccepts : call.Accepts res.status
  · rw [if_neg (not_not.mpr haccepts)]
    cases call with
    | setup auth =>
        dsimp only
        cases res.headers.get? (text "Session") with
        | none => exact Or.inl rfl
        | some session => exact Or.inr ⟨auth, session, rfl, haccepts, rfl, rfl⟩
    | play range => exact Or.inl rfl
    | teardown => exact Or.inl rfl
    | options => exact Or.inl rfl
  · rw [if_pos haccepts]
    exact Or.inl rfl

theorem Call.judge_leaves (call : Call) (c : ClientState) (res : Received)
    (body : Except PyExn Bytes) : call.Leaves c (call.judge res body (call.counted c)) := by
  rcases call.judge_cases (call.counted c) res body with heq | ⟨auth, session, rfl, -, -, heq⟩
  · have hpair : call.judge res body (call.counted c) =
        ((call.judge res body (call.counted c)).1, call.counted c) := Prod.ext rfl heq
    rw [hpair]
    exact call.counted_leaves c _
  · rw [heq]
    exact ⟨rfl, rfl, (List.append_nil _).symm, fun _ => ⟨rfl, auth, rfl⟩⟩

theorem Call.run_leaves (call : Call) (c : ClientState) :
    (call.run.run c).Ends (call.Leaves c) := by
  rw [Call.run_eq]
  intro sent
  rcases sent with e | n
  · exact call.counted_leaves c _
  · intro res
    rcases res with e | res
    · exact call.counted_leaves c _
    · exact fun body => call.judge_leaves c res body

theorem Call.request_cseq (call : Call) (c : Client) :
    (call.request c).headers.get? (text "CSeq") = some (str c.cseq) := by
  have hkeys : text "CSeq" ≠ text "Transport" ∧ text "CSeq" ≠ text "Authorization" ∧
      text "CSeq" ≠ text "Session" ∧ text "CSeq" ≠ text "Range" := by decide
  cases call with
  | setup auth =>
      simp only [Call.request, setupRequest]
      split <;> simp [Dict.get?_set, hkeys]
  | play range =>
      simp only [Call.request, rangeRequest]
      split <;> simp [playRequest, Dict.get?_set, hkeys]
  | teardown => simp [Call.request, teardownRequest, Dict.get?_set, hkeys]
  | options => simp [Call.request, optionsRequest, Dict.get?_set]

section

variable {τ : Type} (handler : (e : Act) → τ → e.Ans × τ)

/-- The socket `handler`, with a record of what it has been given to send. -/
def recording (e : Act) (x : τ × List Bytes) : e.Ans × (τ × List Bytes) :=
  let (r, t) := handler e x.1
  (r, t, match e with
    | .send data => x.2 ++ [data]
    | _ => x.2)

/-- Calls one after another, whatever they raise: the results, each with the client after the call;
and what the client and the socket have come to. -/
def calls : List Call → ClientState → τ → List (Result × ClientState) × ClientState × τ
  | [], c, t => ([], c, t)
  | call :: rest, c, t =>
      let x := (call.run.run c).interp handler t
      let xs := calls rest x.1.2 x.2
      (x.1 :: xs.1, xs.2)

/-- A call sends its request, and nothing else. -/
theorem interp_recording (call : Call) (c : ClientState) (x : τ × List Bytes) :
    ((call.run.run c).interp (recording handler) x).2.2 =
      x.2 ++ [encode (call.request c.toClient).parse] := by
  rw [Call.run_eq]
  show ((awaiting _ _ _).interp (recording handler) (_, x.2 ++ [_])).2.2 = _
  generalize (recording handler (.send (encode (call.request c.toClient).parse)) x).1 = sent
  rcases sent with e | n
  · rfl
  · generalize hx : (recording handler (.send (encode (call.request c.toClient).parse)) x).2.1 = t
    rw [awaiting, Prog.interp]
    generalize (recording handler .unparse _).1 = res
    rcases res with e | res
    · rfl
    · rfl

/-- Whether a call names a session. -/
def Call.NamesSession : Call → Prop
  | .setup _ => False
  | .play _ => True
  | .teardown => True
  | .options => False

theorem Call.request_session {call : Call} (h : call.NamesSession) (c : Client) :
    (call.request c).headers.get? (text "Session") = some c.session := by
  have hkey : text "Session" ≠ text "Range" := by decide
  cases call with
  | setup auth => exact absurd h id
  | play range =>
      simp only [Call.request, rangeRequest]
      split <;> simp [playRequest, Dict.get?_set, hkey]
  | teardown => simp [Call.request, teardownRequest, Dict.get?_set]
  | options => exact absurd h id

theorem Call.request_line (call : Call) (c : Client) :
    (call.request c).method = call.method ∧ (call.request c).url = c.url ∧
      (call.request c).version = VERSION := by
  cases call with
  | play range =>
      simp only [Call.request, rangeRequest]
      split <;> exact ⟨rfl, rfl, rfl⟩
  | setup auth => exact ⟨rfl, rfl, rfl⟩
  | teardown => exact ⟨rfl, rfl, rfl⟩
  | options => exact ⟨rfl, rfl, rfl⟩

/-- The session that the client knows after calls with these results: that of the last state, or the
one at the start. -/
def sessionAfter (c : ClientState) (xs : List (Result × ClientState)) : Text :=
  ((xs.getLast?).map (·.2.session)).getD c.session

/-- What is known of the request with the index `i` in a run of calls. -/
structure Numbered (c : ClientState) (xs : List (Result × ClientState)) (i : Nat) (call : Call)
    (request : Request) : Prop where
  method : request.method = call.method
  url : request.url = c.url
  cseq : request.headers.get? (text "CSeq") = some (str (c.cseq + i : Nat))
  session : call.NamesSession →
    request.headers.get? (text "Session") = some (sessionAfter c (xs.take i))
  /-- only a SETUP that does not raise changes the session -/
  changed : sessionAfter c (xs.take (i + 1)) ≠ sessionAfter c (xs.take i) →
    (xs[i]?).map Prod.fst = some (.ok none) ∧ ∃ auth, call = .setup auth

theorem sessionAfter_cons (c : ClientState) (x : Result × ClientState)
    (xs : List (Result × ClientState)) : sessionAfter c (x :: xs) = sessionAfter x.2 xs := by
  unfold sessionAfter
  rw [List.getLast?_cons]
  cases xs.getLast? with
  | none => rfl
  | some y => rfl

/-- The first request of a run. -/
theorem numbered_zero {c : ClientState} {x : Result × ClientState}
    {xs : List (Result × ClientState)} {call : Call} (h : call.Leaves c x) :
    Numbered c (x :: xs) 0 call (call.request c.toClient) where
  method := (call.request_line c.toClient).1
  url := (call.request_line c.toClient).2.1
  cseq := call.request_cseq c.toClient
  session := fun hnames => Call.request_session hnames c.toClient
  changed := by
    intro hne
    obtain ⟨hok, hsetup⟩ := h.session hne
    exact ⟨congrArg some hok, hsetup⟩

/-- The requests behind the first one. -/
theorem Numbered.succ {c : ClientState} {x : Result × ClientState}
    {xs : List (Result × ClientState)} {first call : Call} {i : Nat} {request : Request}
    (hleaves : first.Leaves c x) (h : Numbered x.2 xs i call request) :
    Numbered c (x :: xs) (i + 1) call request where
  method := h.method
  url := h.url.trans hleaves.url
  cseq := by
    have hnumber : x.2.cseq + i = c.cseq + (i + 1) := by
      rw [hleaves.cseq]
      omega
    rw [← hnumber]
    exact h.cseq
  session := by
    intro hnames
    rw [List.take_succ_cons, sessionAfter_cons]
    exact h.session hnames
  changed := by
    rw [List.take_succ_cons, List.take_succ_cons, sessionAfter_cons, sessionAfter_cons]
    exact h.changed

/-- **The requests of a client**, whatever the socket does: every call sends one request, raising or
not; they are numbered one after the other; PLAY and TEARDOWN name the session known at that time;
the requests in `play_record` are those with the method PLAY, in their order. -/
theorem requests_numbered (cs : List Call) (c : ClientState) (x : τ × List Bytes) :
    ∃ requests : List Request, requests.length = cs.length ∧
      (calls (recording handler) cs c x).2.2.2 = x.2 ++ requests.map (fun r => encode r.parse) ∧
      (∀ i call request, cs[i]? = some call → requests[i]? = some request →
        Numbered c (calls (recording handler) cs c x).1 i call request) ∧
      (calls (recording handler) cs c x).2.1.play_record =
        c.play_record ++ requests.filter (·.method = text "PLAY") := by
  induction cs generalizing c x with
  | nil => exact ⟨[], rfl, (List.append_nil _).symm, nofun, (List.append_nil _).symm⟩
  | cons call cs ih =>
      have hleaves : call.Leaves c ((call.run.run c).interp (recording handler) x).1 :=
        (call.run_leaves c).interp (recording handler) x
      have hsent := interp_recording handler call c x
      obtain ⟨requests, hlen, hlog, hnumbered, hrecord⟩ :=
        ih ((call.run.run c).interp (recording handler) x).1.2
          ((call.run.run c).interp (recording handler) x).2
      refine ⟨call.request c.toClient :: requests, ?_, ?_, ?_, ?_⟩
      · rw [List.length_cons, hlen, List.length_cons]
      · rw [hsent, List.append_assoc] at hlog
        exact hlog
      · intro i call' request hcall hrequest
        cases i with
        | zero =>
            cases hcall
            cases hrequest
            exact numbered_zero hleaves
        | succ i => exact .succ hleaves (hnumbered i call' request hcall hrequest)
      · rw [hleaves.play_record, List.append_assoc, ← List.filter_append] at hrecord
        exact hrecord

end

end Client

end DianProtocol.Py
