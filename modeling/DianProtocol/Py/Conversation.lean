import DianProtocol.Py.Replies
import DianProtocol.Py.Uuid

set_option autoImplicit false

/-! # A client and a worker

One client and the worker that serves its connection, each on its own side of two channels. On the
whole the two do what a queue does: a call puts the items of its answer at the end, and takes the
item at the front, which is the answer to it only as long as nothing has been left behind.

`Answer` says what the answers are, in terms of the sessions that the client has set up and of their
files, and `Reaction` adds the calls after which the worker does not serve the connection any more. The
ranges for which it announces another length than it sends are left out.
-/

namespace DianProtocol.Py

open Concurrent Channels Client

/-! ## The server, as its client sees it -/

/-- A session that has been set up on the connection of a machine, and what is in its file. -/
structure Setup (m : Machine) (id : UUID) where
  session : Session
  content : Bytes
  id_lt : id < 2 ^ 128
  session_id : session.session_id = id
  socket : session.socket = m.socket
  request_sock : session.request.sock = m.socket
  file_size : session.file_size = content.length
  headers : LegalHeaders session.request.headers
  file : ∃ path, m.target session.request.url = some path ∧ m.files path = some (some content)

/-- The sessions of a connection, and how many ids have been drawn for them. -/
structure Store (m : Machine) where
  setups : (id : UUID) → Option (Setup m id) := fun _ => none
  drawn : Nat := 0

/-- A request as it arrives. -/
def Machine.arrived (m : Machine) (r : Request) : SockRequest where
  toRequest := { r with version := r.version ++ ['\r'] }
  sock := m.socket

/-- A SETUP with these arguments gets past the credentials. -/
def Machine.Admits (m : Machine) (auth : Option Text) : Prop :=
  m.srv.use_auth = true → ∃ key ∈ m.auths, given auth = some key

/-- The arguments are values that a header line can hold. -/
def Client.Call.Legal : Call → Prop
  | .setup auth => ∀ key, given auth = some key → LegalValue (text "Bearer " ++ key)
  | .play range => ∀ range', given range = some range' → LegalValue range'
  | _ => True

/-- The url of a client stands on one line. -/
structure LegalUrl (url : Text) : Prop where
  url_line : '\n' ∉ url
  url_ne_nil : url ≠ []

/-- The headers that a client sends. -/
theorem request_headers_legal {c : Client} {call : Call} (hcall : call.Legal)
    (hsession : LegalValue c.session) : LegalHeaders (call.request c).headers := by
  have hempty : LegalHeaders {} := fun item hitem => by cases hitem
  have hnumber : LegalValue ([] ++ str (c.cseq : Int)) := legalValue_number _ (by simp) rfl
  have hcseq : LegalHeaders (Dict.set {} (text "CSeq") (str c.cseq)) :=
    hempty.set ⟨by decide, by decide, by decide, by decide⟩ hnumber
  have hnamed : LegalHeaders ((Dict.set {} (text "CSeq") (str c.cseq)).set (text "Session")
      c.session) := hcseq.set ⟨by decide, by decide, by decide, by decide⟩ hsession
  cases call with
  | setup auth =>
      have hheaders : LegalHeaders ((Dict.set {} (text "CSeq") (str c.cseq)).set
          (text "Transport") (text "TCP")) :=
        hcseq.set ⟨by decide, by decide, by decide, by decide⟩ ⟨by decide, by decide⟩
      simp only [Call.request, setupRequest]
      cases hgiven : given auth with
      | none => exact hheaders
      | some key =>
          exact hheaders.set ⟨by decide, by decide, by decide, by decide⟩ (hcall key hgiven)
  | play range =>
      simp only [Call.request, rangeRequest]
      cases hgiven : given range with
      | none => exact hnamed
      | some range' =>
          exact hnamed.set ⟨by decide, by decide, by decide, by decide⟩ (hcall range' hgiven)
  | teardown => exact hnamed
  | options => exact hcseq

theorem Client.Call.method_legal (call : Call) :
    call.method ≠ [] ∧ ∀ c ∈ call.method, ascii_upper c = true := by
  have hall : ∀ t ∈ [text "SETUP", text "PLAY", text "TEARDOWN", text "OPTIONS"],
      t ≠ [] ∧ t.all ascii_upper = true := by decide
  have hmem : call.method ∈ [text "SETUP", text "PLAY", text "TEARDOWN", text "OPTIONS"] := by
    cases call <;> simp [Call.method]
  exact ⟨(hall _ hmem).1, List.all_eq_true.mp (hall _ hmem).2⟩

theorem request_legal {c : Client} {call : Call} (hcall : call.Legal) (hurl : LegalUrl c.url)
    (hsession : LegalValue c.session) : LegalRequest (call.request c) := by
  obtain ⟨hmethod, hurl', hversion⟩ := call.request_line c
  constructor
  · rw [hmethod]
    exact call.method_legal.2
  · rw [hmethod]
    exact call.method_legal.1
  · rw [hurl']
    exact hurl.url_line
  · rw [hurl']
    exact hurl.url_ne_nil
  · rw [hversion]
    decide
  · rw [hversion]
    decide
  · exact request_headers_legal hcall hsession

/-- The worker reads a request of the client as it was sent. -/
theorem read_request {c : Client} {call : Call} (hcall : call.Legal) (hurl : LegalUrl c.url)
    (hsession : LegalValue c.session) (rest : Bytes) :
    Reader.request (encode (call.request c).parse ++ rest) =
      some (.ok { call.request c with version := (call.request c).version ++ ['\r'] }, rest) := by
  have hunparse := unparse_parse (request_legal hcall hurl hsession) rest
  rw [leftover_of_get? (call.request_cseq c)] at hunparse
  exact Reader.request_of_unparse hunparse

/-! ## Answers -/

/-- The session that SETUP creates. -/
def Machine.newSetup (m : Machine) (c : Client) (auth : Option Text) (n : Nat) (content : Bytes)
    (hcall : (Call.setup auth).Legal) (hsession : LegalValue c.session)
    (hfile : ∃ path, m.target c.url = some path ∧ m.files path = some (some content)) :
    Setup m (m.ids n) where
  session := m.created (m.arrived (c.setupRequest auth)) (m.ids n) content
  content := content
  id_lt := m.ids_lt n
  session_id := rfl
  socket := rfl
  request_sock := rfl
  file_size := rfl
  headers := @request_headers_legal c (.setup auth) hcall hsession
  file := hfile

def Store.draw {m : Machine} (st : Store m) : Store m := { st with drawn := st.drawn + 1 }

/-- A session is stored under the id that is drawn. -/
def Store.add {m : Machine} (st : Store m) (x : Setup m (m.ids st.drawn)) : Store m where
  setups := Function.update st.setups (m.ids st.drawn) (some x)
  drawn := st.drawn + 1

open Machine in
/-- What a worker answers, and what it has stored then. -/
inductive Answer (m : Machine) (c : Client) (st : Store m) : Call → Response → Store m → Prop where
  | options : Answer m c st .options {} st
  | unauthorized {auth : Option Text} (huse : m.srv.use_auth = true) (hgiven : given auth = none) :
      Answer m c st (.setup auth) Machine.unauthorized st
  | forbidden {auth : Option Text} {key : Text} (huse : m.srv.use_auth = true)
      (hgiven : given auth = some key) (hkey : key ∉ m.auths) :
      Answer m c st (.setup auth) Machine.forbidden st
  | badRequest {auth : Option Text} (hallowed : m.Admits auth) (hurl : m.target c.url = none) :
      Answer m c st (.setup auth) Machine.badRequest st.draw
  | notFound {auth : Option Text} {path : Text} (hallowed : m.Admits auth)
      (hurl : m.target c.url = some path) (hfile : m.files path = none) :
      Answer m c st (.setup auth) (Machine.notFound (m.ids st.drawn)) st.draw
  | created {auth : Option Text} {path : Text} {content : Bytes} (hallowed : m.Admits auth)
      (hurl : m.target c.url = some path) (hfile : m.files path = some (some content))
      (hcall : (Call.setup auth).Legal) (hsession : LegalValue c.session) :
      Answer m c st (.setup auth) (createdAnswer (m.ids st.drawn) (text "TCP"))
        (st.add (m.newSetup c auth st.drawn content hcall hsession ⟨path, hurl, hfile⟩))
  | whole {range : Option Text} {id : UUID} {x : Setup m id} (hgiven : given range = none)
      (hsession : c.session = UUID.str id) (hx : st.setups id = some x) :
      Answer m c st (.play range) (wholeResponse x.session x.content) st
  | part {range : Option Text} {range' : Text} {start stop : Nat} {id : UUID} {x : Setup m id}
      (hgiven : given range = some range') (hrange : RangeText range' start (some stop))
      (hne : stop ≠ 0) (hle : start ≤ stop) (hlt : stop < x.content.length)
      (hsession : c.session = UUID.str id) (hx : st.setups id = some x) :
      Answer m c st (.play range) (partResponse x.session x.content start stop) st

/-- Whether the worker serves the connection, and what it has stored then. After TEARDOWN of a session
it waits for the next client, and after any other exception than those it catches it is dead. -/
inductive Service (m : Machine) where
  | serving (st : Store m)
  | left (id : UUID)
  | died (e : PyExn)

/-- What a worker sends when it serves a call, as the items that it makes, and how it goes on. -/
inductive Reaction (m : Machine) (c : Client) (st : Store m) :
    Call → List Item → Service m → Prop where
  | answered {call : Call} {r : Response} {st' : Store m} (ha : Answer m c st call r st') :
      Reaction m c st call (items r) (.serving st')
  | tornDown {id : UUID} {x : Setup m id} (hsession : c.session = UUID.str id)
      (hx : st.setups id = some x) : Reaction m c st .teardown (items {}) (.left id)
  | invalid {call : Call} (hnames : call.NamesSession) (hsession : UUID.ofText c.session = none) :
      Reaction m c st call [] (.died .ValueError)
  | unopened {auth : Option Text} {path : Text} (hallowed : m.Admits auth)
      (hurl : m.target c.url = some path) (hfile : m.files path = some none) :
      Reaction m c st (.setup auth) [] (.died .OSError)
  | noRange {range : Option Text} {range' : Text} {id : UUID} {x : Setup m id}
      (hgiven : given range = some range') (hrange : Range_re.match? range' = none)
      (hsession : c.session = UUID.str id) (hx : st.setups id = some x) :
      Reaction m c st (.play range) [] (.died (.Exception "Invalid range"))
  | noEnd {range : Option Text} {range' : Text} {start : Nat} {id : UUID} {x : Setup m id}
      (hgiven : given range = some range') (hrange : RangeText range' start none)
      (hsession : c.session = UUID.str id) (hx : st.setups id = some x) :
      Reaction m c st (.play range) [] (.died .TypeError)

/-- What is stored on the machine for the sessions of the connection. -/
structure Holds {m : Machine} (h : Host) (st : Store m) : Prop where
  open_ : h.closed = false
  drawn : h.drawn = st.drawn
  sessions : ∀ id x, st.setups id = some x → h.sessions id = some x.session ∧
    (h.opened id).content = x.content ∧ (h.opened id).closed = false

section

variable {m : Machine} {h : Host} {c : Client} {st st' : Store m}

theorem Holds.draw (hst : Holds h st) : Holds (Machine.draw h) st.draw where
  open_ := hst.open_
  drawn := congrArg (· + 1) hst.drawn
  sessions := hst.sessions

theorem Holds.moved (hst : Holds h st) (id : UUID) (pos : Nat) :
    Holds (Machine.moved h id pos) st where
  open_ := hst.open_
  drawn := hst.drawn
  sessions := by
    intro id' x hx
    obtain ⟨hs, hcontent, hopen⟩ := hst.sessions id' x hx
    by_cases hid : id' = id
    · subst hid
      have hself : (Machine.moved h id' pos).opened id' = { h.opened id' with pos := pos } :=
        Function.update_self _ _ _
      rw [hself]
      exact ⟨hs, hcontent, hopen⟩
    · have hother : (Machine.moved h id pos).opened id' = h.opened id' :=
        Function.update_of_ne hid _ _
      rw [hother]
      exact ⟨hs, hcontent, hopen⟩

theorem Holds.add (hst : Holds h st) {x : Setup m (m.ids st.drawn)} :
    Holds { h with
      sessions := Function.update h.sessions (m.ids st.drawn) (some x.session)
      opened := Function.update h.opened (m.ids st.drawn) { content := x.content }
      drawn := h.drawn + 1 } (st.add x) where
  open_ := hst.open_
  drawn := congrArg (· + 1) hst.drawn
  sessions := by
    intro id y hy
    have hy' : Function.update st.setups (m.ids st.drawn) (some x) id = some y := hy
    by_cases hid : id = m.ids st.drawn
    · subst hid
      rw [Function.update_self] at hy'
      obtain rfl := Option.some.inj hy'
      have hself : Function.update h.opened (m.ids st.drawn) { content := x.content }
          (m.ids st.drawn) = { content := x.content } := Function.update_self _ _ _
      exact ⟨Function.update_self _ _ _, congrArg OpenFile.content hself,
        congrArg OpenFile.closed hself⟩
    · rw [Function.update_of_ne hid] at hy'
      simp only [Function.update_of_ne hid]
      exact hst.sessions id y hy'

/-! ## Serving a call -/

theorem setupRequest_transport (c : Client) (auth : Option Text) :
    (c.setupRequest auth).headers.get? (text "Transport") = some (text "TCP") := by
  have hkey : text "Transport" ≠ text "Authorization" := by decide
  simp only [setupRequest]
  split <;> simp [Dict.get?_set, hkey]

theorem setupRequest_authorization (c : Client) (auth : Option Text) :
    (c.setupRequest auth).headers.get? (text "Authorization") =
      (given auth).map (text "Bearer " ++ ·) := by
  have hkeys : text "Authorization" ≠ text "Transport" ∧ text "Authorization" ≠ text "CSeq" := by
    decide
  simp only [setupRequest]
  cases given auth with
  | none =>
      simp [Dict.get?_set, hkeys]
      rfl
  | some key => simp [Dict.get?_set]

theorem rangeRequest_range (c : Client) (range : Option Text) :
    (c.rangeRequest range).headers.get? (text "Range") = given range := by
  have hkeys : text "Range" ≠ text "Session" ∧ text "Range" ≠ text "CSeq" := by decide
  simp only [rangeRequest]
  cases given range with
  | none =>
      simp [playRequest, Dict.get?_set, hkeys]
      rfl
  | some key => simp [Dict.get?_set]

/-- The credentials that are let through. -/
theorem exec_allowed {auth : Option Text} (hallowed : m.Admits auth) (hopen : h.closed = false)
    (rest : Bytes) :
    m.thread.exec ((authenticate m.srv (m.arrived (c.setupRequest auth))).run ()) h rest =
      some ⟨(.ok true, ()), h, rest, []⟩ := by
  cases huse : m.srv.use_auth with
  | false => exact Machine.exec_authenticate_open huse
  | true =>
      obtain ⟨key, hkey, hgiven⟩ := hallowed huse
      have hheader : (m.arrived (c.setupRequest auth)).headers.get? (text "Authorization") =
          some (text "Bearer " ++ key) := by
        show (c.setupRequest auth).headers.get? _ = _
        rw [setupRequest_authorization, hgiven]
        rfl
      rw [Machine.exec_authenticate_some huse rfl hopen hheader,
        if_pos (List.mem_map.mpr ⟨key, hkey, rfl⟩)]

/-- What is known of a session that the client names. -/
theorem Holds.opened (hst : Holds h st) {id : UUID} {x : Setup m id} (hx : st.setups id = some x) :
    Machine.Opened h x.session x.content where
  content_eq := by
    rw [x.session_id]
    exact (hst.sessions id x hx).2.1
  open_ := by
    rw [x.session_id]
    exact (hst.sessions id x hx).2.2
  file_size := x.file_size

/-- PLAY of a session that the client has set up. -/
theorem exec_play {h' : Host} {range : Option Text} {o : Bytes} {id : UUID} {x : Setup m id}
    (hst : Holds h st) (hsession : c.session = UUID.str id) (hx : st.setups id = some x)
    (hplay : m.thread.exec ((x.session.play (given range)).run ()) h [] =
      some ⟨(.ok (), ()), h', [], o⟩) :
    m.thread.exec ((dispatch m.srv (m.arrived (c.rangeRequest range)) m.socket).run ()) h [] =
      some ⟨(.ok .continue_, ()), h', [], o⟩ := by
  have hid : UUID.ofText c.session = some id := by
    rw [hsession]
    exact UUID.ofText_str x.id_lt
  have hrange : (m.arrived (c.rangeRequest range)).headers.get? (text "Range") = given range :=
    rangeRequest_range c range
  rw [← hrange] at hplay
  exact Machine.exec_dispatch_play (Call.request_line (.play range) c).1
    (@Call.request_session (.play range) trivial c) hid (hst.sessions id x hx).1 x.socket hplay

/-- How a worker goes on when it has answered. -/
def GoesOn (flow : Except PyExn Flow) : Prop := flow = .ok .continue_ ∨ flow = .error .StopHandler

/-- **The answers**: a worker serves a call with the response that `Answer` gives for it. -/
theorem serve_answer {call : Call} {r : Response} (hst : Holds h st)
    (ha : Answer m c st call r st') :
    ∃ flow h', GoesOn flow ∧ Holds h' st' ∧
      m.thread.exec ((dispatch m.srv (m.arrived (call.request c)) m.socket).run ()) h [] =
        some ⟨(flow, ()), h', [], r.wire⟩ := by
  cases ha with
  | options =>
      exact ⟨_, h, Or.inl rfl, hst, Machine.exec_dispatch_options rfl rfl hst.open_⟩
  | @unauthorized auth huse hgiven =>
      have hheader : (m.arrived (c.setupRequest auth)).headers.get? (text "Authorization") =
          none := by
        show (c.setupRequest auth).headers.get? _ = _
        rw [setupRequest_authorization, hgiven]
        rfl
      exact ⟨_, h, Or.inl rfl, hst, Machine.exec_dispatch_refused rfl
        (setupRequest_transport c auth)
        (Machine.exec_authenticate_none huse rfl hst.open_ hheader)⟩
  | @forbidden auth key huse hgiven hkey =>
      have hheader : (m.arrived (c.setupRequest auth)).headers.get? (text "Authorization") =
          some (text "Bearer " ++ key) := by
        show (c.setupRequest auth).headers.get? _ = _
        rw [setupRequest_authorization, hgiven]
        rfl
      have hno : text "Bearer " ++ key ∉ m.auths.map (text "Bearer " ++ ·) := by
        intro hmem
        obtain ⟨key', hkey', heq⟩ := List.mem_map.mp hmem
        obtain rfl : key' = key := List.append_cancel_left heq
        exact hkey hkey'
      have hauth := Machine.exec_authenticate_some (c := []) huse rfl hst.open_ hheader
      rw [if_neg hno] at hauth
      exact ⟨_, h, Or.inl rfl, hst, Machine.exec_dispatch_refused rfl
        (setupRequest_transport c auth) hauth⟩
  | @badRequest auth hallowed hurl =>
      have hmatch : SessionUrl_re.match? (m.arrived (c.setupRequest auth)).url = none :=
        Option.map_eq_none_iff.mp hurl
      exact ⟨_, Machine.draw h, Or.inr rfl, hst.draw, Machine.exec_dispatch_raises rfl
        (setupRequest_transport c auth) (exec_allowed hallowed hst.open_ [])
        (Machine.exec_init_badRequest _ rfl hst.open_ hmatch)⟩
  | @notFound auth path hallowed hurl hfile =>
      rw [← hst.drawn]
      exact ⟨_, Machine.draw h, Or.inr rfl, hst.draw, Machine.exec_dispatch_raises rfl
        (setupRequest_transport c auth) (exec_allowed hallowed hst.open_ [])
        (Machine.exec_init_notFound _ rfl hst.open_ hurl hfile)⟩
  | @created auth path content hallowed hurl hfile hcall hsession =>
      have hopened : ∀ opened, ({ Machine.draw h with opened := opened } : Host).closed = false :=
        fun _ => hst.open_
      have hserve := Machine.exec_dispatch_created rfl (setupRequest_transport c auth) rfl
        (hopened _) (exec_allowed hallowed hst.open_ [])
        (Machine.exec_init_created (m.ids h.drawn) hurl hfile)
      rw [hst.drawn] at hserve
      exact ⟨_, _, Or.inl rfl, hst.add, hserve⟩
  | @whole range id x hgiven hsession hx =>
      obtain ⟨pos, hplay⟩ := @Machine.exec_playAll m h [] x.session x.content x.request_sock
        hst.open_ (hst.opened hx)
      refine ⟨_, _, Or.inl rfl, hst.moved x.session.session_id pos,
        exec_play hst hsession hx ?_⟩
      rw [hgiven]
      exact hplay
  | @part range range' start stop id x hgiven hrange hne hle hlt hsession hx =>
      obtain ⟨pos, hplay⟩ := @Machine.exec_playRange m h [] x.session x.content range' start stop
        hrange hne hle x.request_sock hst.open_ (hst.opened hx)
      refine ⟨_, _, Or.inl rfl, hst.moved x.session.session_id pos,
        exec_play hst hsession hx ?_⟩
      have hplayed : x.session.play (some range') = x.session.playRange range' :=
        if_neg (rangeText_ne_nil hrange)
      rw [hgiven, hplayed]
      exact hplay

/-- How a worker goes on, and what is on the machine then. -/
def Continues (flow : Except PyExn Flow) (h : Host) : Service m → Prop
  | .serving st => GoesOn flow ∧ Holds h st
  | .left id => flow = .ok .break_ ∧ h.closed = true ∧ h.sessions id = none ∧
      (h.opened id).closed = true
  | .died e => flow = .error e ∧ e ≠ .StopHandler ∧ ∀ errno, e ≠ .ConnectionResetError errno

/-- PLAY of a session that the client has set up, when `play` raises. -/
theorem exec_play_raises {e : PyExn} {range : Option Text} {range' : Text} {id : UUID}
    {x : Setup m id} (hst : Holds h st) (hgiven : given range = some range')
    (hsession : c.session = UUID.str id) (hx : st.setups id = some x)
    (hplay : m.thread.exec ((x.session.playRange range').run ()) h [] =
      some ⟨(.error e, ()), h, [], []⟩) :
    m.thread.exec ((dispatch m.srv (m.arrived (c.rangeRequest range)) m.socket).run ()) h [] =
      some ⟨(.error e, ()), h, [], []⟩ := by
  have hid : UUID.ofText c.session = some id := by
    rw [hsession]
    exact UUID.ofText_str x.id_lt
  have hrange : (m.arrived (c.rangeRequest range)).headers.get? (text "Range") = some range' :=
    (rangeRequest_range c range).trans hgiven
  have hne : range' ≠ [] := by
    have hmem : range' ∈ given range := hgiven
    simpa using (Option.mem_filter_iff.mp hmem).2
  have hplayed : x.session.play (some range') = x.session.playRange range' := if_neg hne
  rw [← hplayed, ← hrange] at hplay
  exact Machine.exec_dispatch_play_raises (Call.request_line (.play range) c).1
    (@Call.request_session (.play range) trivial c) hid (hst.sessions id x hx).1 x.socket hplay

/-! ## The answers are read as they were sent -/

theorem legalHeaders_empty : LegalHeaders {} := fun item hitem => by cases hitem

/-- A head without a body, with a version and a status text of the source. -/
theorem clean_answer {r : Response} (hversion : r.version = VERSION) (hstatus : 0 ≤ r.status)
    (htext : r.status_text.all fun c => decide (c ≠ '\n') && !ascii_digit c)
    (hheaders : LegalHeaders r.headers)
    (hlength : r.headers.get? (text "Content-Length") = none) (hbody : r.body.encode = []) :
    Clean r where
  version_ne_nil := hversion ▸ by decide
  version_line := hversion ▸ by decide
  status_text_line := by
    intro hmem
    have hall := List.all_eq_true.mp htext _ hmem
    simp at hall
  headers := hheaders
  status := hstatus
  no_number := by
    rw [List.any_eq_false]
    intro ch hch
    have hall := List.all_eq_true.mp htext _ hch
    simp only [Bool.and_eq_true, Bool.not_eq_true'] at hall
    simp [hall.2]
  length := Or.inr ⟨hlength, hbody⟩

theorem notFound_clean {id : UUID} (hid : id < 2 ^ 128) : Clean (Machine.notFound id) := by
  have hkey : text "Content-Length" ≠ text "Session" := by decide
  refine clean_answer rfl (by decide : (0 : Int) ≤ 404)
    (by decide : (text "Not Found").all _ = true) ?_ ?_ rfl
  · exact legalHeaders_empty.set ⟨by decide, by decide, by decide, by decide⟩ (legalValue_str hid)
  · rw [Machine.notFound, Dict.get?_set, if_neg hkey]
    rfl

theorem createdAnswer_clean {id : UUID} (hid : id < 2 ^ 128) :
    Clean (Machine.createdAnswer id (text "TCP")) := by
  have hkeys : text "Content-Length" ≠ text "Transport" ∧
      text "Content-Length" ≠ text "Session" := by
    decide
  refine clean_answer rfl (by decide : (0 : Int) ≤ 200) (by decide : (text "OK").all _ = true)
    ?_ ?_ rfl
  · exact (legalHeaders_empty.set ⟨by decide, by decide, by decide, by decide⟩
      (legalValue_str hid)).set ⟨by decide, by decide, by decide, by decide⟩
        ⟨by decide, by decide⟩
  · rw [Machine.createdAnswer, Dict.get?_set, if_neg hkeys.1, Dict.get?_set, if_neg hkeys.2]
    rfl

theorem unauthorized_clean : Clean Machine.unauthorized := by
  refine clean_answer rfl (by decide) (by decide) ?_ (by decide) rfl
  exact legalHeaders_empty.set ⟨by decide, by decide, by decide, by decide⟩
    ⟨by decide, by decide⟩

/-- A client that has set a session up and names it is ready to play. -/
theorem Setup.ready {id : UUID} (x : Setup m id) (hurl : LegalUrl c.url)
    (hsession : c.session = UUID.str id) :
    Ready c m.socket (fun _ => some x.session) x.content x.session where
  url_line := hurl.url_line
  url_ne_nil := hurl.url_ne_nil
  session := hsession ▸ legalValue_str x.id_lt
  found := ⟨id, hsession ▸ UUID.ofText_str x.id_lt, rfl⟩
  session_socket := x.socket
  request_sock := x.request_sock
  headers := x.headers
  file_size := x.file_size

/-- A response of `play` whose `Content-Length` is the length of its body. -/
theorem clean_partialContent {r : Response} (hversion : r.version = VERSION)
    (hstatus : r.status = 206) (htext : r.status_text = text "Partial Content")
    (hheaders : LegalHeaders r.headers)
    (hlength : r.headers.get? (text "Content-Length") = some (str (r.body.encode.length : Int))) :
    Clean r where
  version_ne_nil := hversion ▸ by decide
  version_line := hversion ▸ by decide
  status_text_line := htext ▸ by decide
  headers := hheaders
  status := by
    rw [hstatus]
    decide
  no_number := htext ▸ by decide
  length := Or.inl hlength

theorem Answer.clean {call : Call} {r : Response} (ha : Answer m c st call r st')
    (hurl : LegalUrl c.url) : Clean r := by
  cases ha with
  | options => exact clean_answer rfl (by decide) (by decide) legalHeaders_empty rfl rfl
  | unauthorized => exact unauthorized_clean
  | forbidden => exact clean_answer rfl (by decide) (by decide) legalHeaders_empty rfl rfl
  | badRequest => exact clean_answer rfl (by decide) (by decide) legalHeaders_empty rfl rfl
  | notFound => exact notFound_clean (m.ids_lt _)
  | created => exact createdAnswer_clean (m.ids_lt _)
  | @whole range id x hgiven hsession hx =>
      refine clean_partialContent rfl rfl rfl (fileResponse_legal (x.ready hurl hsession)) ?_
      show x.session.fileResponse.headers.get? _ = some (str (x.content.length : Int))
      rw [← x.file_size]
      exact playHeaders_length _ _ _ _
  | @part range range' start stop id x hgiven hrange hne hle hlt hsession hx =>
      refine clean_partialContent rfl rfl rfl (rangeResponse_legal x.session hle) ?_
      have hcount : (Machine.part x.content start (stop + 1 - start)).length =
          stop + 1 - start := by
        rw [Machine.part, List.length_take, List.length_drop]
        omega
      show (x.session.rangeResponse start stop).headers.get? _ =
        some (str ((Machine.part x.content start (stop + 1 - start)).length : Int))
      rw [hcount]
      exact rangeResponse_length x.session hle

theorem clean_empty : Clean {} :=
  clean_answer rfl (by decide) (by decide) legalHeaders_empty rfl rfl

/-- **What a worker does with a call** that `Reaction` covers. -/
theorem serve_reaction {call : Call} {out : List Item} {service : Service m} (hst : Holds h st)
    (hurl : LegalUrl c.url) (hs : Reaction m c st call out service) :
    ∃ flow h', m.thread.exec ((dispatch m.srv (m.arrived (call.request c)) m.socket).run ()) h [] =
        some ⟨(flow, ()), h', [], queueBytes out⟩ ∧ Continues flow h' service := by
  cases hs with
  | answered ha =>
      obtain ⟨flow, h', hflow, hst', hexec⟩ := serve_answer hst ha
      rw [← queueBytes_items (ha.clean hurl)] at hexec
      exact ⟨flow, h', hexec, hflow, hst'⟩
  | @tornDown id x hsession hx =>
      have hid : UUID.ofText c.session = some id := by
        rw [hsession]
        exact UUID.ofText_str x.id_lt
      have hexec := @Machine.exec_dispatch_teardown m h [] (m.arrived c.teardownRequest) id
        c.session x.session rfl rfl hst.open_
        (@Call.request_session .teardown trivial c) hid (hst.sessions id x hx).1 x.session_id
        x.socket
      rw [← queueBytes_items clean_empty] at hexec
      exact ⟨_, _, hexec, rfl, rfl, Machine.tornDown_closed h id⟩
  | invalid hnames hsession =>
      have hmethod : (m.arrived (call.request c)).method = text "PLAY" ∨
          (m.arrived (call.request c)).method = text "TEARDOWN" := by
        have hline := (call.request_line c).1
        cases call with
        | setup auth => exact absurd hnames id
        | play range => exact Or.inl hline
        | teardown => exact Or.inr hline
        | options => exact absurd hnames id
      exact ⟨_, h, Machine.exec_dispatch_invalid hmethod (Call.request_session hnames c) hsession,
        rfl, by simp, by simp⟩
  | @unopened auth path hallowed htarget hfile =>
      exact ⟨_, Machine.draw h, Machine.exec_dispatch_raises rfl (setupRequest_transport c auth)
        (exec_allowed hallowed hst.open_ []) (Machine.exec_init_fails _ htarget hfile),
        rfl, by simp, by simp⟩
  | noRange hgiven hrange hsession hx =>
      exact ⟨_, h, exec_play_raises hst hgiven hsession hx (Machine.exec_playRange_invalid hrange),
        rfl, by simp, by simp⟩
  | noEnd hgiven hrange hsession hx =>
      exact ⟨_, h, exec_play_raises hst hgiven hsession hx (Machine.exec_playRange_open hrange),
        rfl, by simp, by simp⟩

end

end DianProtocol.Py
