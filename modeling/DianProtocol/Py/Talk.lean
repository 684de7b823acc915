import DianProtocol.Lib.Channels
import DianProtocol.Py.Client
import DianProtocol.Py.Stream

set_option autoImplicit false

/-! # A client and the other side of its connection

A client makes its calls one after the other while the other side serves them, in any interleaving
of the two. What one `send` transfers arrives at once.

On the whole the two do what a queue does: a call puts the items of its answer at the end and takes
the item at the front (`Peer.Step`). `Peer.Run.ends` says that every interleaving comes to the end of
such a run. A run of calls ends when the other side does not serve the connection any more: what a
client finds at a socket that the other side may have closed is left open.
-/

namespace DianProtocol.Py

open Concurrent Channels Client

/-! ## What a call finds -/

/-- What a call finds in front of its input: a response with its body, or no response. -/
abbrev Incoming := Except PyExn (Received × Bytes)

/-- What is found when these bytes arrive. -/
inductive Incoming.At : Incoming → Bytes → Prop where
  | response {b body : Bytes} {res : Received}
      (hhead : ∀ rest, Reader.response (b ++ rest) = some (.ok res, body ++ rest))
      (hbody : ∀ rest, Reader.readall res.body (body ++ rest) = some (.ok body, rest)) :
      At (.ok (res, body)) b
  | raises {b : Bytes} {e : PyExn}
      (hhead : ∀ rest, Reader.response (b ++ rest) = some (.error e, rest)) : At (.error e) b

/-- What a call returns. -/
def Client.Call.result (call : Call) : Incoming → Result
  | .error e => .error e
  | .ok (res, body) =>
      if ¬ call.Accepts res.status then .error (.Exception (String.ofList res.status_text))
      else match call with
        | .setup _ =>
            if (res.headers.get? (text "Session")).isSome then .ok none else .error .KeyError
        | .teardown => .ok none
        | _ => .ok (some (res, .ok body))

/-- What a call leaves of the client. -/
def Client.Call.next (call : Call) (c : ClientState) : Incoming → ClientState
  | .error _ => c
  | .ok (res, body) => (call.judge res (.ok body) c).2

theorem judge_eq (call : Call) (c : ClientState) (res : Received) (body : Bytes) :
    call.judge res (.ok body) c =
      (call.result (.ok (res, body)), call.next c (.ok (res, body))) := by
  refine Prod.ext ?_ rfl
  simp only [Call.judge, Call.result]
  by_cases haccepts : call.Accepts res.status
  · rw [if_neg (not_not.mpr haccepts), if_neg (not_not.mpr haccepts)]
    cases call with
    | setup auth =>
        dsimp only
        cases res.headers.get? (text "Session") with
        | none => rfl
        | some session => rfl
    | play range => rfl
    | teardown => rfl
    | options => rfl
  · rw [if_pos haccepts, if_pos haccepts]

theorem counted_session (call : Call) (c : ClientState) :
    (call.counted c).session = c.session ∧ (call.counted c).url = c.url := by
  cases call <;> exact ⟨rfl, rfl⟩

/-- What a call leaves of the client: it is the same, or it has the session of a response. -/
theorem next_cases (call : Call) (c : ClientState) (x : Incoming) : call.next c x = c ∨
    ∃ res body session, x = .ok (res, body) ∧ res.status = 200 ∧
      res.headers.get? (text "Session") = some session ∧
      call.next c x = { c with session := session } := by
  cases x with
  | error e => exact Or.inl rfl
  | ok y =>
      obtain ⟨res, body⟩ := y
      rcases call.judge_cases c res (.ok body) with heq | ⟨auth, session, -, hstatus, hget, heq⟩
      · exact Or.inl heq
      · exact Or.inr ⟨res, body, session, rfl, hstatus, hget, congrArg Prod.snd heq⟩

theorem next_url (call : Call) (c : ClientState) (x : Incoming) :
    (call.next (call.counted c) x).url = c.url := by
  calc (call.next (call.counted c) x).url
      = (call.counted c).url := by
        rcases next_cases call (call.counted c) x with heq | ⟨res, body, session, -, -, -, heq⟩
        · rw [heq]
        · rw [heq]
    _ = c.url := (counted_session call c).2

/-! ## The client -/

/-- A client with the calls that it has still to make, and the results of those that it has made. -/
structure Talk where
  client : ClientState
  calls : List Call
  results : List Result := []

namespace Talk

/-- The next call. -/
def round : Talk → Option (Prog Client.Actions Talk)
  | ⟨_, [], _⟩ => none
  | ⟨c, call :: calls, results⟩ =>
      some ((call.run.run c).bind fun x => .ret ⟨x.2, calls, results ++ [x.1]⟩)

/-- What an action of the client answers; `c` has arrived. `send` transfers all its data. -/
def perform : (e : Client.Act) → Unit → Bytes → Option (Effect e.Ans Unit UInt8)
  | .send data, _, c => some ⟨.ok data.length, (), c, data⟩
  | .unparse, _, c => (Reader.response c).map fun x => ⟨x.1, (), x.2, []⟩
  | .readall body, _, c => (Reader.readall body c).map fun x => ⟨x.1, (), x.2, []⟩

theorem perform_mono {e : Client.Act} {t : Unit} {c : Bytes} {x : Effect e.Ans Unit UInt8}
    (hx : perform e t c = some x) (d : Bytes) :
    perform e t (c ++ d) = some { x with rest := x.rest ++ d } := by
  cases e with
  | send data =>
      cases hx
      rfl
  | unparse =>
      obtain ⟨⟨r, rest⟩, hread, rfl⟩ := Option.map_eq_some_iff.mp hx
      exact Option.map_eq_some_iff.mpr ⟨_, Reader.mono_response c r rest hread d, rfl⟩
  | readall body =>
      obtain ⟨⟨r, rest⟩, hread, rfl⟩ := Option.map_eq_some_iff.mp hx
      exact Option.map_eq_some_iff.mpr ⟨_, Reader.mono_readall body c r rest hread d, rfl⟩

def thread : Thread Client.Actions Talk Unit UInt8 where
  round := blind round
  perform := perform
  round_mono := blind_mono
  mono := fun hx d => perform_mono hx d

/-- A client whose call has sent its request. -/
def waiting (c : ClientState) (call : Call) (calls : List Call) (results : List Result) :
    Prog Client.Actions Talk :=
  (awaiting (fun res body => .ret (call.judge res body c)) c (.ok 0)).bind fun x =>
    .ret ⟨x.2, calls, results ++ [x.1]⟩

/-- The client at the end of a run, with the call that is left. -/
def atEnd (c : ClientState) (results : List Result) : List Call → Prog Client.Actions Talk
  | [] => .ret ⟨c, [], results⟩
  | call :: calls => waiting (call.counted c) call calls results

section

variable {c : ClientState} {call : Call} {calls : List Call} {results : List Result}

/-- A call takes what it finds. -/
theorem exec_waiting {b : Bytes} {x : Incoming} (hx : Incoming.At x b) (rest : Bytes) :
    thread.exec (waiting c call calls results) () (b ++ rest) =
      some ⟨⟨call.next c x, calls, results ++ [call.result x]⟩, (), rest, []⟩ := by
  cases hx with
  | @response _ body res hhead hbody =>
      have hresponse : thread.perform .unparse () (b ++ rest) =
          some ⟨.ok res, (), body ++ rest, []⟩ := by
        show (Reader.response _).map _ = _
        rw [hhead]
        rfl
      have hread : thread.perform (.readall res.body) () (body ++ rest) =
          some ⟨.ok body, (), rest, []⟩ := by
        show (Reader.readall _ _).map _ = _
        rw [hbody]
        rfl
      have hpair := judge_eq call c res body
      calc thread.exec (waiting c call calls results) () (b ++ rest)
          = (thread.exec (.act (S := Client.Actions) (.readall res.body) fun body =>
              .ret ⟨(call.judge res body c).2, calls, results ++ [(call.judge res body c).1]⟩) ()
                (body ++ rest)).map (Effect.after []) := Thread.exec_act _ hresponse
        _ = some ⟨⟨(call.judge res (.ok body) c).2, calls,
              results ++ [(call.judge res (.ok body) c).1]⟩, (), rest, []⟩ := by
            rw [Thread.exec_act _ hread]
            rfl
        _ = _ := by rw [hpair]
  | @raises _ e hhead =>
      have hresponse : thread.perform .unparse () (b ++ rest) = some ⟨.error e, (), rest, []⟩ := by
        show (Reader.response _).map _ = _
        rw [hhead]
        rfl
      exact Thread.exec_act _ hresponse

end

end Talk

/-! ## The other side -/

/-- The other side of a connection: a process that answers the requests of a client with items of
`I`. `S` is what is known of it between two calls. -/
structure Peer where
  W : Type
  S : Type
  I : Type
  process : Process W UInt8
  /-- it waits for a request, or does not serve the connection any more -/
  AtRest : S → W → Prop
  Reacts : ClientState → S → Call → List I → S → Prop
  Clean : I → Prop
  bytes : I → Bytes
  found : I → Incoming
  rests : ∀ {s : S} {w : W}, AtRest s w → process.step w [] = none
  clean : ∀ {c : ClientState} {s s' : S} {call : Call} {out : List I},
    Reacts c s call out s' → ∀ i ∈ out, Clean i
  reads : ∀ {i : I}, Clean i → Incoming.At (found i) (bytes i)
  serves : ∀ {c : ClientState} {s s' : S} {w : W} {call : Call} {out : List I},
    AtRest s w → Reacts c s call out s' →
    ∀ (p : Prog Client.Actions Talk × Unit) (q : List I), ∃ k w',
      Run Talk.thread.process process
        ⟨p, w, q.flatMap bytes, encode (call.request c.toClient).parse⟩ k
        ⟨p, w', (q ++ out).flatMap bytes, []⟩ ∧ AtRest s' w'

namespace Peer

variable {P : Peer}

/-! ## The queue -/

/-- A client, what is known of the other side, and the items that wait for the client. -/
structure State (P : Peer) where
  client : ClientState
  service : P.S
  queue : List P.I := []

/-- A call: it sends its request, and takes the first item of the queue. -/
inductive Step : P.State → Call → List P.I → Result → P.State → Prop where
  | call {s : P.State} {call : Call} {out : List P.I} {service : P.S} {i : P.I} {q : List P.I}
      (hreacts : P.Reacts s.client s.service call out service) (hq : s.queue ++ out = i :: q) :
      Step s call out (call.result (P.found i))
        ⟨call.next (call.counted s.client) (P.found i), service, q⟩

/-- Calls one after the other, with what is put into the queue for them and their results. The last
index is the call, if there is one, that finds no item. -/
inductive Run : P.State → List Call → List (List P.I) → List Result → P.State → List Call →
    Prop where
  | done {s : P.State} : Run s [] [] [] s []
  | waits {s : P.State} {call : Call} {service : P.S}
      (hreacts : P.Reacts s.client s.service call [] service) (hq : s.queue = []) :
      Run s [call] [] [] { s with service := service } [call]
  | cons {s s' s'' : P.State} {call : Call} {calls left : List Call} {out : List P.I}
      {outs : List (List P.I)} {result : Result} {results : List Result} :
      Step s call out result s' → Run s' calls outs results s'' left →
        Run s (call :: calls) (out :: outs) (result :: results) s'' left

section

variable {s s' : P.State} {call : Call} {calls left : List Call} {out : List P.I}
  {outs : List (List P.I)} {result : Result} {results more : List Result}

/-- What waits for a client can be read. -/
def State.Clean (s : P.State) : Prop := ∀ i ∈ s.queue, P.Clean i

theorem Step.clean (h : Step s call out result s') (hs : s.Clean) : s'.Clean := by
  cases h with
  | @call service i q hreacts hq =>
      intro j hj
      have hmem : j ∈ s.queue ++ out := by
        rw [hq]
        exact List.mem_cons_of_mem i hj
      rcases List.mem_append.mp hmem with hqueue | hout
      · exact hs j hqueue
      · exact P.clean hreacts j hout

/-- Every list of calls has a run, up to the call at which the other side goes: `G` says that it has
gone, and `K n` holds when `n` calls are left. -/
theorem Run.total {K : Nat → P.State → Prop} {Legal : Call → Prop} {G : P.S → Prop}
    (hkeeps : ∀ {n : Nat} {s s' : P.State} {call : Call} {out : List P.I} {result : Result},
      K (n + 1) s → Step s call out result s' → K n s')
    (hreacts : ∀ {n : Nat} {s : P.State} {call : Call}, K (n + 1) s → Legal call → G s.service ∨
      ∃ out service, P.Reacts s.client s.service call out service ∧ (out = [] → G service))
    (hs : K calls.length s) (hcalls : ∀ call ∈ calls, Legal call) :
    ∃ made rest outs results s' left, calls = made ++ rest ∧ (rest = [] ∨ G s'.service) ∧
      Run s made outs results s' left := by
  induction calls generalizing s with
  | nil => exact ⟨[], [], [], [], s, [], rfl, Or.inl rfl, .done⟩
  | cons call calls ih =>
      rcases hreacts hs (hcalls call List.mem_cons_self) with
        hgone | ⟨out, service, hr, hnothing⟩
      · exact ⟨[], call :: calls, [], [], s, [], rfl, Or.inr hgone, .done⟩
      cases hq : s.queue ++ out with
      | nil =>
          obtain ⟨hqueue, rfl⟩ := List.append_eq_nil_iff.mp hq
          exact ⟨[call], calls, [], [], _, [call], rfl, Or.inr (hnothing rfl), .waits hr hqueue⟩
      | cons i q =>
          have hstep : Step s call out _ _ := .call hr hq
          obtain ⟨made, rest, outs, results, s', left, rfl, hrest, hrun⟩ :=
            ih (hkeeps hs hstep) fun call' hmem => hcalls call' (List.mem_cons_of_mem _ hmem)
          exact ⟨_, _, _, _, _, _, rfl, hrest, .cons hstep hrun⟩

/-! ## The two threads -/

/-- The client and the other side. -/
abbrev Connection (P : Peer) : Type := Net (Prog Client.Actions Talk × Unit) P.W UInt8

abbrev Talks (P : Peer) : P.Connection → Nat → P.Connection → Prop :=
  Channels.Run Talk.thread.process P.process

/-- Between two calls. -/
structure Between (s : P.State) (calls : List Call) (results : List Result) (n : P.Connection) :
    Prop where
  left : n.left = (Prog.ret (⟨s.client, calls, results⟩ : Talk), ())
  toLeft : n.toLeft = s.queue.flatMap P.bytes
  right : P.AtRest s.service n.right
  toRight : n.toRight = []

/-- A call has sent its request, and the other side has done with it. -/
structure Awaits (c : ClientState) (call : Call) (calls : List Call) (results : List Result)
    (q : List P.I) (service : P.S) (n : P.Connection) : Prop where
  left : n.left = (Talk.waiting c call calls results, ())
  toLeft : n.toLeft = q.flatMap P.bytes
  right : P.AtRest service n.right
  toRight : n.toRight = []

/-- The end of a run: nobody can take a step. -/
structure End (s : P.State) (results : List Result) (left : List Call) (e : P.Connection) :
    Prop where
  client : e.left = (Talk.atEnd s.client results left, ())
  toLeft : e.toLeft = s.queue.flatMap P.bytes
  right : P.AtRest s.service e.right
  toRight : e.toRight = []
  stuck : Stuck Talk.thread.process P.process e

variable {n : P.Connection}

/-- A call sends its request, and the other side serves it. -/
theorem send_runs {service : P.S} (hn : Between s (call :: calls) results n)
    (hreacts : P.Reacts s.client s.service call out service) :
    ∃ k n', P.Talks n k n' ∧
      Awaits (call.counted s.client) call calls results (s.queue ++ out) service n' := by
  obtain ⟨left, right, toLeft, toRight⟩ := n
  obtain ⟨hleft, hqueue, hright, hempty⟩ := hn
  dsimp only at hleft hqueue hright hempty
  subst hleft hqueue hempty
  let data := encode (call.request s.client.toClient).parse
  let k : Except PyExn Nat → Prog Client.Actions Talk := fun sent =>
    (awaiting (fun res body => .ret (call.judge res body (call.counted s.client)))
      (call.counted s.client) sent).bind fun x => .ret ⟨x.2, calls, results ++ [x.1]⟩
  have hround : Talk.round ⟨s.client, call :: calls, results⟩ =
      some (.act (S := Client.Actions) (.send data) k) := by
    show some ((call.run.run s.client).bind _) = _
    rw [call.run_eq]
    rfl
  have hsend : Talk.thread.perform (.send data) () (s.queue.flatMap P.bytes) =
      some ⟨.ok data.length, (), s.queue.flatMap P.bytes, data⟩ := rfl
  have hsent : P.Talks ⟨(.ret ⟨s.client, call :: calls, results⟩, ()), right,
      s.queue.flatMap P.bytes, []⟩ (1 + 1)
      ⟨(Talk.waiting (call.counted s.client) call calls results, ()), right,
        s.queue.flatMap P.bytes, data⟩ :=
    (start_left (blind_some hround _) () right []).trans (act_left hsend right [])
  obtain ⟨j, w, hserve, hw⟩ := P.serves hright hreacts
    (Talk.waiting (call.counted s.client) call calls results, ()) s.queue
  exact ⟨_, _, hsent.trans hserve, rfl, rfl, hw, rfl⟩

/-- **A step of the queue** is what comes of a call. -/
theorem step_runs (hs : s.Clean) (hn : Between s (call :: calls) results n)
    (h : Step s call out result s') :
    ∃ k n', P.Talks n k n' ∧ Between s' calls (results ++ [result]) n' := by
  have hs' := h.clean hs
  cases h with
  | @call service i q hreacts hq =>
      obtain ⟨j, n', hsent, hawaits⟩ := send_runs hn hreacts
      obtain ⟨left, right, toLeft, toRight⟩ := n'
      obtain ⟨hleft, hqueue, hright, hempty⟩ := hawaits
      dsimp only at hleft hqueue hright hempty
      rw [hq, List.flatMap_cons] at hqueue
      subst hleft hqueue hempty
      have hclean : P.Clean i := by
        have hmem : i ∈ s.queue ++ out := by
          rw [hq]
          exact List.mem_cons_self
        rcases List.mem_append.mp hmem with hqueue | hout
        · exact hs i hqueue
        · exact P.clean hreacts i hout
      have htake := @Talk.exec_waiting (call.counted s.client) call calls results _ _
        (P.reads hclean) (q.flatMap P.bytes)
      obtain ⟨k, hrun⟩ := exec_left (R := P.process) htake right []
      exact ⟨j + k, _, hsent.trans hrun, rfl, rfl, hright, rfl⟩

/-- **A run of the queue** is what comes of the calls, in every interleaving. -/
theorem Run.runs (hs : s.Clean) (hn : Between s calls results n)
    (h : Run s calls outs more s' left) :
    ∃ k e, P.Talks n k e ∧ End s' (results ++ more) left e := by
  induction h generalizing n results with
  | @done s =>
      have hstuck : Stuck Talk.thread.process P.process n := by
        refine ⟨?_, ?_⟩
        · rw [hn.left]
          rfl
        · rw [hn.toRight]
          exact P.rests hn.right
      have hclient : n.left = (Talk.atEnd s.client (results ++ []) [], ()) := by
        rw [hn.left, List.append_nil]
        rfl
      exact ⟨0, n, .nil, hclient, hn.toLeft, hn.right, hn.toRight, hstuck⟩
  | @waits s call service hreacts hq =>
      obtain ⟨k, n', hrun, hawaits⟩ := send_runs hn hreacts
      have hempty : n'.toLeft = s.queue.flatMap P.bytes := by
        rw [hawaits.toLeft, List.append_nil]
      have hstuck : Stuck Talk.thread.process P.process n' := by
        refine ⟨?_, ?_⟩
        · rw [hawaits.left, hempty, hq]
          rfl
        · rw [hawaits.toRight]
          exact P.rests hawaits.right
      have hclient : n'.left = (Talk.atEnd s.client (results ++ []) [call], ()) := by
        rw [hawaits.left, List.append_nil]
        rfl
      exact ⟨k, n', hrun, hclient, hempty, hawaits.right, hawaits.toRight, hstuck⟩
  | cons hstep _ ih =>
      obtain ⟨j, n', hfirst, hn'⟩ := step_runs hs hn hstep
      obtain ⟨k, e, hrest, hend⟩ := ih (hstep.clean hs) hn'
      rw [List.append_assoc] at hend
      exact ⟨j + k, e, hfirst.trans hrest, hend⟩

theorem Run.ends (hs : s.Clean) (hn : Between s calls [] n) (h : Run s calls outs results s' left) :
    ∃ k e, End s' results left e ∧ ∀ j n', P.Talks n j n' → ∃ i, j + i = k ∧ P.Talks n' i e := by
  obtain ⟨k, e, hrun, hend⟩ := h.runs hs hn
  exact ⟨k, e, hend, fun j n' hn' => hrun.complete hend.stuck hn'⟩

end

end Peer

end DianProtocol.Py
