import DianProtocol.Py.Conversation
import DianProtocol.Py.Talk

set_option autoImplicit false

/-! # A client and its worker

The worker as the other side of a connection: `Machine.peer` reacts to the calls of a client as
`Reaction` says. For any calls the two come to the end of a run of the queue, in every interleaving
(`conversation`).
-/

namespace DianProtocol.Py

open Concurrent Channels Client

/-! ## Items -/

/-- What a call finds at an item. -/
def Item.found : Item → Incoming
  | none => .error (.Exception "Invalid head")
  | some r => .ok (received r, r.body.encode)

theorem Item.found_at {i : Item} (hclean : ∀ r, i = some r → Clean r) : i.found.At i.bytes := by
  cases i with
  | none => exact .raises read_emptyLine
  | some r =>
      have hr := hclean r rfl
      exact .response (read_response hr) (read_body hr)

theorem mem_items {r r' : Response} (h : some r' ∈ items r) : r' = r := by
  unfold items at h
  split at h
  · simpa using h
  · simpa using h

section

variable {m : Machine}

theorem Reaction.clean {c : Client} {st : Store m} {call : Call} {out : List Item}
    {service : Service m} (hr : Reaction m c st call out service) (hurl : LegalUrl c.url)
    {r : Response} (hmem : some r ∈ out) : Clean r := by
  cases hr with
  | answered ha =>
      rw [mem_items hmem]
      exact ha.clean hurl
  | tornDown hsession hx =>
      rw [mem_items hmem]
      exact clean_empty
  | invalid => cases hmem
  | unopened => cases hmem
  | noRange => cases hmem
  | noEnd => cases hmem

/-! ## The worker as a peer -/

/-- What a worker does with a call whose request can be sent. -/
structure Machine.Reacts (m : Machine) (c : ClientState) (s : Service m) (call : Call)
    (out : List Item) (s' : Service m) : Prop where
  legal : call.Legal
  url : LegalUrl c.url
  session : LegalValue c.session
  serves : ∃ st, s = .serving st ∧ Reaction m c.toClient st call out s'

/-- A worker that waits for the next request or for the next client, or that is dead. -/
inductive Service.AtRest {m : Machine} : Service m → Prog Actions Ctl × Host → Prop where
  | serving {req : Option SockRequest} {h : Host} {st : Store m} (hst : Holds h st) :
      AtRest (.serving st)
        (.act (S := Actions) (.unparse m.socket) (afterUnparse req m.socket), h)
  | left {req : Option SockRequest} {p : Prog Actions Ctl} {h : Host} {id : UUID}
      (hround : round m.srv (.accept req) = some p) (hclosed : h.closed = true)
      (hsession : h.sessions id = none) (hfile : (h.opened id).closed = true) :
      AtRest (.left id) (p, h)
  | died {h : Host} {e : PyExn} : AtRest (.died e) (.ret (.dead e), h)

theorem Service.AtRest.step_none {service : Service m} {p : Prog Actions Ctl × Host}
    (h : service.AtRest p) : m.thread.step p [] = none := by
  cases h with
  | serving hst =>
      show (if m.socket = m.socket then _ else _ : Option _).map _ = _
      rw [if_pos rfl]
      rfl
  | left hround =>
      cases hround
      rfl
  | died => rfl

section

variable {P : Type} {R : Process P UInt8}

/-- How a worker comes to rest again. -/
theorem rest_after {h : Host} {service : Service m} {flow : Except PyExn Flow}
    (hflow : Continues flow h service) (req : SockRequest) (p : P)
    (c : Bytes) :
    ∃ ctl, afterDispatch req m.socket (flow, ()) = .ret ctl ∧
      ∃ k q, Run R m.thread.process ⟨p, (.ret ctl, h), c, []⟩ k ⟨p, q, c, []⟩ ∧
        service.AtRest q := by
  cases service with
  | serving st =>
      obtain ⟨hgoes, hst⟩ := hflow
      have hnext : afterDispatch req m.socket (flow, ()) =
          .ret (.serve (some req) m.socket) := by
        rcases hgoes with rfl | rfl
        · rfl
        · rfl
      exact ⟨_, hnext, 1, _, start_right (d := []) rfl h p c, .serving hst⟩
  | left id =>
      obtain ⟨rfl, hclosed, hsession, hfile⟩ := hflow
      exact ⟨_, rfl, 1, _, start_right (d := []) rfl h p c, .left rfl hclosed hsession hfile⟩
  | died e =>
      obtain ⟨rfl, hstop, hreset⟩ := hflow
      have hnext : afterDispatch req m.socket (.error e, ()) = .ret (.dead e) := by
        cases e with
        | StopHandler => exact absurd rfl hstop
        | ConnectionResetError errno => exact absurd rfl (hreset errno)
        | _ => rfl
      exact ⟨_, hnext, 0, _, .nil, .died⟩

/-- The worker reads the request of a call and serves it. -/
theorem serve_runs {c : Client} {st : Store m} {call : Call} {out : List Item}
    {service : Service m} {h : Host} (hst : Holds h st) (hlegal : call.Legal)
    (hurl : LegalUrl c.url) (hsession : LegalValue c.session)
    (hr : Reaction m c st call out service) (req : Option SockRequest)
    (p : P) (q : List Item) :
    ∃ k w, Run R m.thread.process
        ⟨p, (.act (S := Actions) (.unparse m.socket) (afterUnparse req m.socket), h),
          queueBytes q, encode (call.request c).parse⟩ k
        ⟨p, w, queueBytes (q ++ out), []⟩ ∧ service.AtRest w := by
  obtain ⟨flow, h', hserve, hflow⟩ := serve_reaction hst hurl hr
  have hread := read_request hlegal hurl hsession []
  rw [List.append_nil] at hread
  have hunparse : m.thread.exec (.act (S := Actions) (.unparse m.socket)
      (afterUnparse req m.socket)) h (encode (call.request c).parse) =
      some ⟨.dispatch (m.arrived (call.request c)) m.socket, h, [], []⟩ := by
    have hact : m.thread.perform (.unparse m.socket) h (encode (call.request c).parse) =
        some ⟨.ok { call.request c with version := (call.request c).version ++ ['\r'] }, h, [],
          []⟩ := by
      show (if m.socket = m.socket then _ else _) = _
      rw [if_pos rfl, hread]
      rfl
    rw [Thread.exec_act _ hact]
    rfl
  obtain ⟨ctl, hnext, k, w, hrest, hw⟩ :=
    rest_after hflow (m.arrived (call.request c)) p (queueBytes (q ++ out))
  have hdispatch : m.thread.exec (((dispatch m.srv (m.arrived (call.request c)) m.socket).run
      ()).bind (afterDispatch (m.arrived (call.request c)) m.socket)) h [] =
      some ⟨ctl, h', [], queueBytes out⟩ := by
    rw [Thread.exec_bind _ hserve]
    dsimp only
    rw [hnext]
    exact Effect.map_after _ _ _ _
  obtain ⟨i, hfirst⟩ := exec_right (R := R) hunparse p (queueBytes q)
  have hround : m.thread.round (.dispatch (m.arrived (call.request c)) m.socket) [] =
      some (((dispatch m.srv (m.arrived (call.request c)) m.socket).run ()).bind
        (afterDispatch (m.arrived (call.request c)) m.socket), []) := rfl
  obtain ⟨j, hsecond⟩ := round_right (R := R) hround hdispatch p (queueBytes q)
  rw [List.append_nil] at hfirst
  rw [← queueBytes_append] at hsecond
  exact ⟨i + j + k, w, (hfirst.trans hsecond).trans hrest, hw⟩

end

/-- The worker of a machine as the other side of a connection. -/
@[reducible] def Machine.peer (m : Machine) : Peer where
  W := Prog Actions Ctl × Host
  S := Service m
  I := Item
  process := m.thread.process
  AtRest := Service.AtRest
  Reacts := m.Reacts
  Clean := fun i => ∀ r, i = some r → Clean r
  bytes := Item.bytes
  found := Item.found
  rests := Service.AtRest.step_none
  clean := by
    rintro c s s' call out h i hi r rfl
    obtain ⟨st, -, hr⟩ := h.serves
    exact hr.clean h.url hi
  reads := Item.found_at
  serves := by
    intro c s s' w call out hrest h p q
    obtain ⟨st, rfl, hr⟩ := h.serves
    cases hrest with
    | serving hst => exact serve_runs hst h.legal h.url h.session hr _ p q

end

/-! ## Every call has its step -/

section

variable {m : Machine}

/-- The id of a session that is stored. -/
def Store.Stored (st : Store m) (session : Text) : Prop :=
  ∃ id x, session = UUID.str id ∧ st.setups id = some x

/-- What a client knows of the sessions, and what waits for it, is stored. -/
structure Store.Known (st : Store m) (c : Client) (q : List Item) : Prop where
  session : UUID.ofText c.session = none ∨ st.Stored c.session
  queue : ∀ r session, some r ∈ q → r.status = 200 →
    r.headers.get? (text "Session") = some session → st.Stored session
  url : ∀ id x, st.setups id = some x → x.session.request.url = c.url

theorem Store.Stored.add {st : Store m} {session : Text} (h : st.Stored session)
    (x : Setup m (m.ids st.drawn)) : (st.add x).Stored session := by
  obtain ⟨id, y, rfl, hy⟩ := h
  by_cases hid : id = m.ids st.drawn
  · subst hid
    exact ⟨_, x, rfl, Function.update_self _ _ _⟩
  · exact ⟨id, y, rfl, (Function.update_of_ne hid _ _).trans hy⟩

theorem Store.Known.draw {st : Store m} {c : Client} {q : List Item} (h : st.Known c q) :
    st.draw.Known c q := ⟨h.session, h.queue, h.url⟩

/-- An answer leaves what is known, and the session that it names is stored. -/
theorem Answer.known {c : Client} {st st' : Store m} {call : Call} {r : Response} {q : List Item}
    (ha : Answer m c st call r st') (h : st.Known c q) : st'.Known c (q ++ items r) := by
  have hsame : (∀ session, r.headers.get? (text "Session") = some session → r.status ≠ 200) →
      st.Known c (q ++ items r) := by
    intro hno
    refine ⟨h.session, fun r' session hmem hstatus hget => ?_, h.url⟩
    rcases List.mem_append.mp hmem with hqueue | hitem
    · exact h.queue r' session hqueue hstatus hget
    · obtain rfl := mem_items hitem
      exact absurd hstatus (hno session hget)
  cases ha with
  | options => exact hsame fun session hget => by cases hget
  | unauthorized => exact hsame fun session _ => (by decide : (401 : Int) ≠ 200)
  | forbidden => exact hsame fun session _ => (by decide : (403 : Int) ≠ 200)
  | badRequest => exact (hsame fun session _ => (by decide : (400 : Int) ≠ 200)).draw
  | notFound => exact (hsame fun session _ => (by decide : (404 : Int) ≠ 200)).draw
  | whole => exact hsame fun session _ => (by decide : (206 : Int) ≠ 200)
  | part => exact hsame fun session _ => (by decide : (206 : Int) ≠ 200)
  | @created auth path content hallowed hurl hfile hcall hsession =>
      let x := m.newSetup c auth st.drawn content hcall hsession ⟨path, hurl, hfile⟩
      have hself : (st.add x).Stored (UUID.str (m.ids st.drawn)) :=
        ⟨_, x, rfl, Function.update_self _ _ _⟩
      refine ⟨h.session.imp_right fun hs => hs.add x, fun r' session hmem hstatus hget => ?_,
        fun id y hy => ?_⟩
      · rcases List.mem_append.mp hmem with hqueue | hitem
        · exact (h.queue r' session hqueue hstatus hget).add x
        · obtain rfl := mem_items hitem
          have hkey : text "Session" ≠ text "Transport" := by decide
          rw [Machine.createdAnswer, Dict.get?_set, if_neg hkey, Dict.get?_set, if_pos rfl] at hget
          obtain rfl := Option.some.inj hget
          exact hself
      · have hy' : Function.update st.setups (m.ids st.drawn) (some x) id = some y := hy
        by_cases hid : id = m.ids st.drawn
        · subst hid
          rw [Function.update_self] at hy'
          obtain rfl := Option.some.inj hy'
          rfl
        · rw [Function.update_of_ne hid] at hy'
          exact h.url id y hy'

/-- What a client is given can be sent, and the sessions that it knows are stored as long as the
worker serves the connection. -/
structure Machine.Good (m : Machine) (url : Text) (s : m.peer.State) : Prop where
  url_eq : s.client.url = url
  session : LegalValue s.client.session
  queue : s.Clean
  known : ∀ st, s.service = .serving st → st.Known s.client.toClient s.queue

/-- A session that a client finds in an item that it can read. -/
theorem found_session {i : Item} {res : Received} {body : Bytes} {session : Text}
    (hclean : ∀ r, i = some r → Clean r) (hfound : i.found = .ok (res, body))
    (hget : res.headers.get? (text "Session") = some session) :
    LegalValue session ∧ ∃ r, i = some r ∧ r.status = res.status ∧
      r.headers.get? (text "Session") = some session := by
  cases i with
  | none => cases hfound
  | some r =>
      obtain ⟨rfl, rfl⟩ := Prod.mk.inj (Except.ok.inj hfound)
      obtain ⟨before, after, hsplit, -⟩ := List.lookup_eq_some_iff.mp hget
      have hmem : (text "Session", session) ∈ r.headers.items := by
        have hitems : r.headers.items = before ++ (text "Session", session) :: after := hsplit
        simp [hitems]
      exact ⟨((hclean r rfl).headers _ hmem).2, r, rfl, rfl, hget⟩

theorem Machine.Good.step {url : Text} {s s' : m.peer.State} {call : Call} {out : List Item}
    {result : Result} (hs : m.Good url s) (h : Peer.Step s call out result s') :
    m.Good url s' := by
  have hqueue := h.clean hs.queue
  cases h with
  | @call service i q hreacts hq =>
      have hi : ∀ r, i = some r → Clean r := by
        have hmem : i ∈ s.queue ++ out := by
          rw [hq]
          exact List.mem_cons_self
        rcases List.mem_append.mp hmem with hmem | hmem
        · exact hs.queue i hmem
        · exact m.peer.clean hreacts i hmem
      obtain ⟨hcounted, -⟩ := counted_session call s.client
      have hknown : ∀ st', service = .serving st' →
          st'.Known s.client.toClient (s.queue ++ out) := by
        rintro st' rfl
        obtain ⟨st, hserving, hr⟩ := hreacts.serves
        cases hr with
        | answered ha => exact ha.known (hs.known _ hserving)
      rw [hq] at hknown
      have hurl : (call.next (call.counted s.client) i.found).url = s.client.url :=
        next_url call s.client i.found
      have hbehind : ∀ {st' : Store m}, service = .serving st' → ∀ r session, some r ∈ q →
          r.status = 200 → r.headers.get? (text "Session") = some session →
          st'.Stored session :=
        fun hst r session hmem => (hknown _ hst).queue r session (List.mem_cons_of_mem i hmem)
      rcases next_cases call (call.counted s.client) i.found with
        heq | ⟨res, body, session, hfound, hstatus, hget, heq⟩
      · have hsame : (call.next (call.counted s.client) i.found).session = s.client.session :=
          (congrArg (·.session) heq).trans hcounted
        refine ⟨hurl.trans hs.url_eq, hsame ▸ hs.session, hqueue,
          fun st' hst => ⟨?_, hbehind hst, ?_⟩⟩
        · exact hsame ▸ (hknown st' hst).session
        · exact hurl ▸ (hknown st' hst).url
      · obtain ⟨hlegal, r, rfl, hr, hheader⟩ := found_session hi hfound hget
        have hnew : (call.next (call.counted s.client) (Item.found (some r))).session = session :=
          congrArg (·.session) heq
        refine ⟨hurl.trans hs.url_eq, hnew ▸ hlegal, hqueue, fun st' hst => ⟨?_, hbehind hst, ?_⟩⟩
        · rw [hnew]
          exact Or.inr ((hknown st' hst).queue r session List.mem_cons_self (hr.trans hstatus)
            hheader)
        · exact hurl ▸ (hknown st' hst).url

end

/-! ## The start -/

/-- The connection has been accepted, and the client has been created. -/
def Machine.fresh (m : Machine) (url : Text) : m.peer.State :=
  { client := .new url, service := .serving {} }

theorem legalValue_none : LegalValue (text "None") :=
  ⟨(by decide : strip (text "None") = text "None"), (by decide : '\n' ∉ text "None")⟩

theorem Machine.fresh_good {m : Machine} {url : Text} : m.Good url (m.fresh url) where
  url_eq := rfl
  session := legalValue_none
  queue := fun i hmem => by cases hmem
  known := by
    intro st hst
    cases hst
    have hnone : UUID.ofText (text "None") = none := by decide
    refine ⟨Or.inl hnone, fun r session hmem => ?_, fun id x hx => ?_⟩
    · cases hmem
    · cases hx

section

variable {m : Machine} {s s' : m.peer.State} {calls left : List Call} {outs : List (List Item)}
  {results : List Result}

end

/-- The number of the answers without headers. -/
def headless (answers : List Response) : Nat := answers.countP fun r => r.headers.items = []

/-- What is said about the answers to calls, when these return `results`. -/
structure InOrder (calls : List Call) (answers : List Response) (results : List Result) : Prop where
  results_eq : results =
    List.zipWith (fun call i => call.result i.found) calls (answers.flatMap items)
  /-- An answer goes to a call that is as much later as there are answers without headers. -/
  answer : ∀ j r, answers[j]? = some r →
    results[j + headless (answers.take j)]? =
      (calls[j + headless (answers.take j)]?).map (·.result (Item.found (some r)))
  /-- An answer without headers is followed by a head that is invalid. -/
  invalid : ∀ j r, answers[j]? = some r → r.headers.items = [] →
    results[j + headless (answers.take j) + 1]? =
      (calls[j + headless (answers.take j) + 1]?).map fun _ => .error (.Exception "Invalid head")

/-- What PLAY of a file is asked for, and the bytes of it. -/
inductive Asks (content : Bytes) : Option Text → Bytes → Prop where
  | whole {range : Option Text} (hgiven : given range = none) : Asks content range content
  | part {range : Option Text} {range' : Text} {start stop : Nat}
      (hgiven : given range = some range') (hrange : RangeText range' start (some stop))
      (hne : stop ≠ 0) (hle : start ≤ stop) (hlt : stop < content.length) :
      Asks content range (Machine.part content start (stop + 1 - start))

/-- A PLAY has brought this data. -/
def Brings (x : Option Text × Bytes) (result : Result) : Prop :=
  ∃ res, result = .ok (some (res, .ok x.2)) ∧ res.status = 206

theorem items_of_get? {r : Response} {key value : Text} (h : r.headers.get? key = some value) :
    items r = [some r] := by
  refine if_neg fun hempty => ?_
  rw [Dict.get?, hempty] at h
  cases h

section

variable {m : Machine} {s : m.peer.State} {id : UUID}

/-- A client that is ready to play, with nothing waiting for it. -/
structure Playing (s : m.peer.State) (url : Text) (content : Bytes) (id : UUID) : Prop where
  url_eq : s.client.url = url
  session : s.client.session = UUID.str id
  serving : ∃ st x, s.service = .serving st ∧ st.setups id = some x ∧ x.content = content
  queue : s.queue = []

theorem Playing.play {url : Text} {content data : Bytes} {range : Option Text}
    (h : Playing s url content id) (hurl : LegalUrl url) (hasks : Asks content range data)
    (hlegal : (Call.play range).Legal) :
    ∃ out result s', Peer.Step s (.play range) out result s' ∧ Brings (range, data) result ∧
      Playing s' url content id := by
  obtain ⟨rfl, hsession, ⟨st, x, hserving, hx, rfl⟩, hqueue⟩ := h
  have hstep : ∀ r : Response, Answer m s.client.toClient st (.play range) r st →
      r.status = 206 → items r = [some r] → r.body.encode = data →
      ∃ out result s', Peer.Step s (.play range) out result s' ∧ Brings (range, data) result ∧
        Playing s' s.client.url x.content id := by
    intro r ha hstatus hitems hbody
    have haccepts : ¬ ¬ (Call.play range).Accepts (received r).status :=
      not_not.mpr (Or.inr hstatus)
    have hjudge : (Call.play range).judge (received r) (.ok r.body.encode)
        (Call.counted s.client (.play range)) =
        (.ok (some (received r, .ok data)), Call.counted s.client (.play range)) := by
      simp only [Call.judge]
      rw [if_neg haccepts, hbody]
    rw [judge_eq] at hjudge
    obtain ⟨hresult, hnext⟩ := Prod.mk.inj hjudge
    have hq : s.queue ++ items r = some r :: [] := by
      rw [hqueue, hitems]
      rfl
    have hreacts : m.Reacts s.client s.service (.play range) (items r) (.serving st) :=
      ⟨hlegal, hurl, hsession ▸ legalValue_str x.id_lt, st, hserving, .answered ha⟩
    have hcall := Peer.Step.call (P := m.peer) hreacts hq
    have hfound : m.peer.found (some r) = .ok (received r, r.body.encode) := rfl
    rw [hfound, hresult, hnext] at hcall
    exact ⟨_, _, _, hcall, ⟨received r, rfl, hstatus⟩,
      rfl, hsession, ⟨st, x, rfl, hx, rfl⟩, rfl⟩
  cases hasks with
  | whole hgiven =>
      exact hstep _ (.whole hgiven hsession hx) rfl (items_of_get? (playHeaders_length _ _ _ _)) rfl
  | part hgiven hrange hne hle hlt =>
      exact hstep _ (.part hgiven hrange hne hle hlt hsession hx) rfl
        (items_of_get? (playHeaders_length _ _ _ _)) rfl

/-- PLAYs and a TEARDOWN. -/
theorem Playing.run {url : Text} {content : Bytes} (h : Playing s url content id)
    (hurl : LegalUrl url) {plays : List (Option Text × Bytes)}
    (hplays : ∀ x ∈ plays, Asks content x.1 x.2 ∧ (Call.play x.1).Legal) :
    ∃ outs results c, List.Forall₂ Brings plays results ∧
      Peer.Run s (plays.map (fun x => .play x.1) ++ [.teardown]) outs (results ++ [.ok none])
        ⟨c, .left id, [none]⟩ [] := by
  induction plays generalizing s with
  | nil =>
      obtain ⟨rfl, hsession, ⟨st, x, hserving, hx, -⟩, hqueue⟩ := h
      have hq : s.queue ++ items {} = some {} :: [none] := by
        rw [hqueue]
        rfl
      have hreacts : m.Reacts s.client s.service .teardown (items {}) (.left id) :=
        ⟨trivial, hurl, hsession ▸ legalValue_str x.id_lt, st, hserving, .tornDown hsession hx⟩
      have hcall := Peer.Step.call (P := m.peer) hreacts hq
      exact ⟨_, [], _, .nil, .cons hcall .done⟩
  | cons x plays ih =>
      obtain ⟨hasks, hlegal⟩ := hplays x List.mem_cons_self
      obtain ⟨out, result, s', hstep, hbrings, hs'⟩ := h.play hurl hasks hlegal
      obtain ⟨outs, results, c, hall, hrun⟩ :=
        ih hs' fun y hy => hplays y (List.mem_cons_of_mem x hy)
      exact ⟨out :: outs, result :: results, c, .cons hbrings hall, .cons hstep hrun⟩

end

/-! ## The conversation -/

section

variable {m : Machine} {url : Text} {calls : List Call}

/-- The connection has been accepted, and the client has been created. -/
def Machine.opening (m : Machine) (url : Text) (calls : List Call) : m.peer.Connection :=
  ⟨(.ret ⟨.new url, calls, []⟩, ()), (.ret (.serve none m.socket), {}), [], []⟩

/-- Every interleaving leads to the end of the run. -/
theorem Machine.ends {left : List Call} {outs : List (List Item)} {results : List Result}
    {s : m.peer.State} (h : Peer.Run (m.fresh url) calls outs results s left) :
    ∃ k e, Peer.End s results left e ∧ ∀ j n, m.peer.Talks (m.opening url calls) j n →
      ∃ i, j + i = k ∧ m.peer.Talks n i e := by
  have hholds : Holds ({} : Host) ({} : Store m) :=
    ⟨rfl, rfl, fun id x hx => by cases hx⟩
  have hfirst : m.peer.Talks (m.opening url calls) 1 ⟨(.ret ⟨.new url, calls, []⟩, ()),
      (.act (S := Actions) (.unparse m.socket) (afterUnparse none m.socket), {}), [], []⟩ :=
    start_right (T := m.thread) (l := .serve none m.socket) rfl {} _ []
  have hbetween : Peer.Between (m.fresh url) calls [] ⟨(.ret ⟨.new url, calls, []⟩, ()),
      (.act (S := Actions) (.unparse m.socket) (afterUnparse none m.socket), {}), [], []⟩ :=
    ⟨rfl, rfl, .serving hholds, rfl⟩
  obtain ⟨k, e, hrest, hend⟩ := h.runs Machine.fresh_good.queue hbetween
  have hall := hfirst.trans hrest
  exact ⟨_, e, hend, fun j n hn => hall.complete hend.stuck hn⟩

end

end DianProtocol.Py
