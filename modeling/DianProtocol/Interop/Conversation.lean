import DianProtocol.Interop.Calls

set_option autoImplicit false

/-! # The Python client at the C++ server

The server as the other side of the client's connection. Each request is answered before the next
one is sent, so that the two threads and the two byte streams between them make no difference: the
calls return what they would return if the server were a function (`remote_calls`).
-/

namespace DianProtocol.Interop

open Concurrent Channels Py.Client

/-! ## The calls without a connection -/

/-- Calls one after the other, each of them with the answer of the server to its own request. The
client has the answer as it shows to it. -/
inductive Remote (inst : Cpp.Installation) : Py.ClientState → Option (Cpp.Store inst) →
    List Call → List Result → Py.ClientState → Option (Cpp.Store inst) → Prop where
  | done {c : Py.ClientState} {s : Option (Cpp.Store inst)} : Remote inst c s [] [] c s
  | cons {c c' : Py.ClientState} {st : Cpp.Store inst} {s s' : Option (Cpp.Store inst)}
      {call : Call} {calls : List Call} {reply : Cpp.Reply} {received : Py.Received}
      {results : List Result}
      (hserve : inst.serve st (arrived (call.request c.toClient)) = (reply, s))
      (hshows : Shows reply received) :
      Remote inst (call.next (call.counted c) (.ok (received, reply.content))) s calls results
        c' s' →
      Remote inst c (some st) (call :: calls)
        (call.result (.ok (received, reply.content)) :: results) c' s'

/-! ## The server as a peer -/

/-- An answer of the server, and how the client finds it. -/
structure Answer where
  reply : Cpp.Reply
  received : Py.Received
  incoming : Py.Incoming.At (.ok (received, reply.content)) reply.bytes
  shows : Shows reply received

section

variable {inst : Cpp.Installation}

/-- What the server does with a call whose request it can be relied on to answer. -/
structure Reacts (inst : Cpp.Installation) (c : Py.ClientState) (s : Option (Cpp.Store inst))
    (call : Call) (out : List Answer) (s' : Option (Cpp.Store inst)) : Prop where
  sendable : Sendable (call.request c.toClient)
  serves : ∃ st answer, s = some st ∧ out = [answer] ∧
    Cpp.Servable st (arrived (call.request c.toClient)) ∧
    inst.serve st (arrived (call.request c.toClient)) = (answer.reply, s')

/-- The worker reads a request and answers it. -/
theorem serve_runs {st : Cpp.Store inst} {request : Py.Request} {reply : Cpp.Reply}
    {s : Option (Cpp.Store inst)} {w : Prog Cpp.Actions Cpp.Ctl × Cpp.Host}
    (hw : Cpp.AtRest inst (some st) w) (hsendable : Sendable request)
    (hservable : Cpp.Servable st (arrived request))
    (hserve : inst.serve st (arrived request) = (reply, s)) {P : Type} {R : Process P UInt8}
    (p : P) (c : Cpp.Str) :
    ∃ k w', Channels.Run R inst.thread.process ⟨p, w, c, Py.encode request.parse⟩ k
      ⟨p, w', c ++ reply.bytes, []⟩ ∧ Cpp.AtRest inst s w' := by
  obtain ⟨conn, rfl⟩ := hw
  obtain ⟨heap, hparse⟩ := parseThis_arrived hsendable [] conn.heap
  rw [List.append_nil] at hparse
  have hround : inst.thread.round (.serve conn) (Py.encode request.parse) =
      some (.ret (.dispatch (arrived request) (Cpp.wire [] heap).taken), []) := by
    show inst.round (.serve conn) _ = _
    simp only [Cpp.Installation.round, Cpp.round, hparse]
    rfl
  obtain ⟨k, w, hrun, hw⟩ :=
    Cpp.exec_worker (Cpp.wire [] heap).taken hservable hserve (R := R) p c
  exact ⟨1 + k, w, (start_right hround st.host p c).trans hrun, hw⟩

/-- The server as the other side of a connection. -/
@[reducible] def peer (inst : Cpp.Installation) : Py.Peer where
  W := Prog Cpp.Actions Cpp.Ctl × Cpp.Host
  S := Option (Cpp.Store inst)
  I := Answer
  process := inst.thread.process
  AtRest := Cpp.AtRest inst
  Reacts := Reacts inst
  Clean := fun _ => True
  bytes := fun answer => answer.reply.bytes
  found := fun answer => .ok (answer.received, answer.reply.content)
  rests := Cpp.AtRest.rests
  clean := fun _ _ _ => trivial
  reads := fun {answer} _ => answer.incoming
  serves := by
    intro c s s' w call out hrest hreacts p q
    obtain ⟨st, answer, rfl, rfl, hservable, hserve⟩ := hreacts.serves
    have hbytes : (q ++ [answer]).flatMap (fun answer => answer.reply.bytes) =
        q.flatMap (fun answer => answer.reply.bytes) ++ answer.reply.bytes := by
      simp
    rw [hbytes]
    exact serve_runs hrest hreacts.sendable hservable hserve p _

/-- What is known when `n` calls are left. -/
structure Good (inst : Cpp.Installation) (url : Py.Text) (total n : Nat) (s : (peer inst).State) :
    Prop where
  url_eq : s.client.url = url
  session : Fits s.client.session
  cseq : s.client.cseq + n ≤ 10 ^ 250
  queue : s.queue = []
  drawn : ∀ st, s.service = some st → st.drawn + n ≤ total

section

variable {url : Py.Text} {total n : Nat} {s s' : (peer inst).State} {call : Call}
  {out : List Answer} {result : Result}

/-- The client has its session from a SETUP, or as before. -/
theorem next_session {c : Py.ClientState} {st : Cpp.Store inst} {answer : Answer}
    {service : Option (Cpp.Store inst)}
    (hlegal : Py.LegalHeaders (call.request c.toClient).headers)
    (hserve : inst.serve st (arrived (call.request c.toClient)) = (answer.reply, service)) :
    (call.next (call.counted c) (.ok (answer.received, answer.reply.content))).session =
        c.session ∨
      (call.next (call.counted c) (.ok (answer.received, answer.reply.content))).session =
        idText inst st.drawn := by
  have hanswered := serve_answered st hlegal
  rw [hserve] at hanswered
  rcases call.judge_cases (call.counted c) answer.received (.ok answer.reply.content) with
    heq | ⟨auth, session, rfl, hstatus, hget, heq⟩
  · left
    calc (call.next (call.counted c) (.ok (answer.received, answer.reply.content))).session
        = (call.counted c).session := congrArg (·.session) heq
      _ = c.session := (Py.counted_session call c).1
  · right
    have hmethod := method_arrived (.setup auth) c.toClient
    have hheader := hanswered.session (hmethod.trans (str_encode _).symm)
      (answer.shows.status.symm.trans hstatus)
    have hshown := (answer.shows.headers (Cpp.str "Session") (Py.encode session)).mpr
      ⟨_, (lookup_iff_mem answer.received.headers.nodup).mp hget, str_encode _, rfl⟩
    rw [hheader, id_encode] at hshown
    calc (Call.next (.setup auth) (Call.counted c (.setup auth))
          (.ok (answer.received, answer.reply.content))).session
        = session := congrArg (·.2.session) heq
      _ = idText inst st.drawn := (Py.encode_injective (Option.some.inj hshown)).symm

theorem Good.step (hs : Good inst url total (n + 1) s) (h : Py.Peer.Step s call out result s') :
    Good inst url total n s' := by
  cases h with
  | @call service answer q hreacts hq =>
      obtain ⟨st, answer', hst, rfl, -, hserve⟩ := hreacts.serves
      rw [hs.queue] at hq
      cases hq
      have hlegal : Py.LegalHeaders (call.request s.client.toClient).headers := fun item hitem =>
        ⟨(hreacts.sendable.headers item hitem).1, (hreacts.sendable.headers item hitem).2.1⟩
      have hanswered := serve_answered st hlegal
      rw [hserve] at hanswered
      have hcseq := hs.cseq
      have hdrawn := hs.drawn st hst
      constructor
      · exact (Py.next_url call s.client _).trans hs.url_eq
      · rcases next_session hlegal hserve with heq | heq
        · exact heq.symm ▸ hs.session
        · exact heq.symm ▸ idText_fits inst st.drawn
      · have hnext : (call.next (call.counted s.client)
            (.ok (answer.received, answer.reply.content))).cseq = s.client.cseq + 1 := by
          calc (call.next (call.counted s.client)
                (.ok (answer.received, answer.reply.content))).cseq
              = (call.counted s.client).cseq := by
                rcases Py.next_cases call (call.counted s.client)
                  (.ok (answer.received, answer.reply.content)) with
                  heq | ⟨res, body, session, -, -, -, heq⟩
                · rw [heq]
                · rw [heq]
            _ = s.client.cseq + 1 := by
                cases call <;> rfl
        show (call.next (call.counted s.client) _).cseq + n ≤ _
        rw [hnext]
        omega
      · rfl
      · intro st' hst'
        have hmore := hanswered.drawn st' hst'
        omega

end

/-! ## The conversation -/

/-- A client that makes its calls at a server with these sessions. -/
def opening (st : Cpp.Store inst) (conn : Cpp.Conn) (c : Py.ClientState) (calls : List Call) :
    (peer inst).Connection :=
  ⟨(.ret ⟨c, calls, []⟩, ()), (.ret (.serve conn), st.host), [], []⟩

/-- All calls have been made, and nothing is left unread. -/
structure Finished (c : Py.ClientState) (s : Option (Cpp.Store inst)) (results : List Result)
    (e : (peer inst).Connection) : Prop where
  client : e.left = (Prog.ret (⟨c, [], results⟩ : Py.Talk), ())
  toLeft : e.toLeft = []
  right : Cpp.AtRest inst s e.right
  toRight : e.toRight = []
  stuck : Stuck Py.Talk.thread.process (peer inst).process e

/-- The start of a conversation. -/
def start (st : Cpp.Store inst) (c : Py.ClientState) : (peer inst).State := ⟨c, some st, []⟩

section

variable {st : Cpp.Store inst} {c : Py.ClientState} {calls : List Call}

/-- What is relied on of the calls of a client. -/
structure Legal (st : Cpp.Store inst) (c : Py.ClientState) (calls : List Call) : Prop where
  url : FitUrl c.url
  session : Fits c.session
  cseq : c.cseq + calls.length ≤ 10 ^ 250
  distinct : ∀ i j, i < j → j < st.drawn + calls.length → inst.id i ≠ inst.id j
  calls : ∀ call ∈ calls, CallFits call ∧ Playable inst.toMachine c.url call

end

end

end DianProtocol.Interop
