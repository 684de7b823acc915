import DianProtocol.Cpp.Answers
import DianProtocol.Cpp.Heads

set_option autoImplicit false

/-! # Requests one after the other

The body of a request is left to the callbacks: `start` attaches a reader of the socket to the
request and reads nothing itself. Where a callback does not read the body, the next call of
`parseThis` begins with its first byte. `pipeline_parsed` says which bodies go unnoticed: those that
look like the empty lines in front of a request line.
-/

namespace DianProtocol.Cpp

open Concurrent Lines

/-! ## Messages -/

/-- A request as it is sent: a request line of three words, headers, and a body, of which the header
`Content-Length` gives the length; without the header there is no body. -/
structure Message where
  method : Str
  url : Str
  version : Str
  major : Int
  minor : Int
  items : List (Str × Str)
  body : Str
  method_word : Word space method
  url_word : Word space url
  version_word : Word cr version
  numbers : sscanf_d_d (cstr version) = some (major, minor)
  line : lf ∉ method ++ url ++ version
  length : (method ++ space :: (url ++ space :: (version ++ crlf))).length ≤ 1024
  headers : ∀ item ∈ items, HeaderItem item
  content_length : (insertAll ∅ items)[str "Content-Length"]? = some (to_string body.length) ∨
    (insertAll ∅ items)[str "Content-Length"]? = none ∧ body = []

namespace Message

variable (m : Message)

/-- The request that `parseThis` should return. -/
def request : Request where
  method := m.method
  url := m.url
  version := ⟨BitVec.ofInt 4 m.major, BitVec.ofInt 4 m.minor⟩
  headers := insertAll ∅ m.items

def firstLine : Str := m.method ++ space :: (m.url ++ space :: (m.version ++ crlf))

/-- The request without its body. -/
def head : Str := m.firstLine ++ (m.items.flatMap headerText ++ crlf)

end Message

/-- The bytes of a pipeline of requests. -/
def bytes (ms : List Message) : Str := ms.flatMap fun m => m.head ++ m.body

theorem bytes_cons (m : Message) (ms : List Message) :
    bytes (m :: ms) = m.head ++ (m.body ++ bytes ms) := by
  rw [bytes, List.flatMap_cons, List.append_assoc]
  rfl

section

variable (m : Message)

theorem Message.firstLine_line : Line crlf m.firstLine := words_line m.line

theorem Message.firstLine_head : m.firstLine.head? ≠ some lf := words_head m.line

theorem Message.firstLine_ne : m.firstLine ≠ crlf := words_ne _ _ _

/-- **A head is parsed for what it is**, whatever comes behind it. -/
theorem Message.parse_head (rest : Str) (heap : Nat → Str) : ∃ heap',
    parseThis {} (wire (m.head ++ rest) heap) = .done m.request (wire rest heap') := by
  have hpiece : Piece m.firstLine := Or.inl ⟨m.firstLine_line, m.length⟩
  have hscan := requestLine_words m.method_word m.url_word m.version_word m.numbers {}
  have hnul : m.firstLine ++ [nul] =
      m.method ++ space :: (m.url ++ space :: (m.version ++ crlf ++ [nul])) := by
    simp [Message.firstLine]
  rw [← hnul] at hscan
  have hsplit : m.head ++ rest =
      m.firstLine ++ (m.items.flatMap headerText ++ (crlf ++ rest)) := by
    simp [Message.head]
  have hrecv := recvUntil_first hpiece m.firstLine_head
    (m.items.flatMap headerText ++ (crlf ++ rest)) heap
  have hitems := length_le_lines m.items
  have hpos := List.length_pos_of_ne_nil m.firstLine_line.ne_nil
  rw [hsplit, parseThis_line m.firstLine_line m.length m.firstLine_ne hscan hrecv,
    readHeaders_items m.headers _ _ (by simp only [List.length_append]; omega)]
  exact ⟨_, rfl⟩

end

/-! ## Empty lines -/

/-- The loop over empty lines at the beginning of `parseThis`, as far as it can go: the connection
from which the request line is read. -/
def skipEmpty : Nat → Conn → Conn
  | 0, conn => conn
  | fuel + 1, conn =>
      match conn.recvUntil crlf with
      | .done line conn' => if strcmpEq line crlf then skipEmpty fuel conn' else conn
      | _ => conn

/-- The connection from which a call of `parseThis` reads the request line. -/
def Conn.requestStart (conn : Conn) : Conn := skipEmpty (conn.recvs.length + 1) conn

/-- Nothing but empty lines. -/
def EmptyLines (t : Str) : Prop := ∃ k, t = (List.replicate k crlf).flatten

theorem emptyLines_nil : EmptyLines [] := ⟨0, rfl⟩

theorem EmptyLines.cons {t : Str} (h : EmptyLines t) : EmptyLines (crlf ++ t) := by
  obtain ⟨k, rfl⟩ := h
  exact ⟨k + 1, rfl⟩

theorem recvUntil_crlf (t : Str) (heap : Nat → Str) :
    (wire (crlf ++ t) heap).recvUntil crlf =
      .done (crlf ++ [nul]) (wire t fun n => heap (n + 1)) :=
  recvUntil_first piece_crlf (by decide) t heap

/-- An empty line in front of a request is not noticed. -/
theorem parseThis_crlf (base : Base) (t : Str) (heap : Nat → Str) :
    parseThis base (wire (crlf ++ t) heap) = parseThis base (wire t fun n => heap (n + 1)) := by
  rw [parseThis, readRequest, recvUntil_crlf]
  dsimp only
  rw [if_pos ((strcmpEq_crlf piece_crlf).mpr rfl)]
  exact readRequest_fuel (by simp [wire, crlf]) (by simp [wire])

theorem parseThis_emptyLines {e : Str} (he : EmptyLines e) (base : Base) (t : Str)
    (heap : Nat → Str) : ∃ heap',
    parseThis base (wire (e ++ t) heap) = parseThis base (wire t heap') := by
  obtain ⟨k, rfl⟩ := he
  induction k generalizing heap with
  | zero => exact ⟨heap, rfl⟩
  | succ k ih =>
      obtain ⟨heap', hparse⟩ := ih fun n => heap (n + 1)
      refine ⟨heap', ?_⟩
      rw [List.replicate_succ, List.flatten_cons, List.append_assoc, parseThis_crlf, hparse]

/-- What the loop passes over is empty lines, and it passes over all of them. -/
theorem skipEmpty_wire (fuel : Nat) (t : Str) (heap : Nat → Str) (hfuel : t.length < fuel) :
    ∃ e t' heap', EmptyLines e ∧ t = e ++ t' ∧ ¬ crlf <+: t' ∧
      skipEmpty fuel (wire t heap) = wire t' heap' := by
  induction fuel generalizing t heap with
  | zero => omega
  | succ fuel ih =>
      rcases recvUntil_wire t heap with ⟨hrecv, hfree, -⟩ | ⟨data, rest, rfl, hdata, hrecv⟩
      · refine ⟨[], t, heap, emptyLines_nil, rfl, fun hp => hfree hp.isInfix, ?_⟩
        rw [skipEmpty, hrecv]
      · rw [skipEmpty, hrecv]
        dsimp only
        rcases hdata.piece_or_lf with hpiece | ⟨rfl, -⟩
        · by_cases heq : data = crlf
          · subst heq
            rw [if_pos ((strcmpEq_crlf hpiece).mpr rfl)]
            have hlt : rest.length < fuel := by
              rw [List.length_append] at hfuel
              have hlen : crlf.length = 2 := rfl
              omega
            obtain ⟨e, t', heap', he, rfl, hnot, hskip⟩ := ih rest _ hlt
            exact ⟨crlf ++ e, t', heap', he.cons, by simp, hnot, hskip⟩
          · rw [if_neg fun h => heq ((strcmpEq_crlf hpiece).mp h)]
            refine ⟨[], data ++ rest, heap, emptyLines_nil, rfl, ?_, rfl⟩
            rintro ⟨tail, htail⟩
            exact heq (hpiece.append_inj piece_crlf htail.symm).1
        · -- a lone LF is no empty line
          have hcmp : ¬ strcmpEq ([lf] ++ [nul]) crlf = true := by decide
          rw [if_neg hcmp]
          refine ⟨[], [lf] ++ rest, heap, emptyLines_nil, rfl, ?_, rfl⟩
          rintro ⟨tail, htail⟩
          have hlf : cr = lf := (List.cons.inj htail).1
          exact absurd hlf (by decide)

theorem emptyLines_unique {e e' t t' : Str} (he : EmptyLines e) (he' : EmptyLines e')
    (ht : ¬ crlf <+: t) (ht' : ¬ crlf <+: t') (heq : e ++ t = e' ++ t') : t = t' := by
  obtain ⟨k, rfl⟩ := he
  obtain ⟨k', rfl⟩ := he'
  induction k generalizing k' with
  | zero =>
      cases k' with
      | zero => exact heq
      | succ k' =>
          refine absurd ⟨(List.replicate k' crlf).flatten ++ t', ?_⟩ ht
          rw [← List.append_assoc, ← List.flatten_cons, ← List.replicate_succ]
          exact heq.symm
  | succ k ih =>
      cases k' with
      | zero =>
          refine absurd ⟨(List.replicate k crlf).flatten ++ t, ?_⟩ ht'
          rw [← List.append_assoc, ← List.flatten_cons, ← List.replicate_succ]
          exact heq
      | succ k' =>
          rw [List.replicate_succ, List.replicate_succ, List.flatten_cons, List.flatten_cons,
            List.append_assoc, List.append_assoc] at heq
          exact ih k' (List.append_cancel_left heq)

/-- The request line is read behind the empty lines. -/
theorem requestStart_wire {e t : Str} (he : EmptyLines e) (ht : ¬ crlf <+: t) (heap : Nat → Str) :
    ∃ heap', (wire (e ++ t) heap).requestStart = wire t heap' := by
  obtain ⟨e', t', heap', he', heq, ht', hskip⟩ := skipEmpty_wire
    ((wire (e ++ t) heap).recvs.length + 1) (e ++ t) heap (by simp [wire])
  obtain rfl := emptyLines_unique he he' ht ht' heq
  exact ⟨heap', hskip⟩

/-- Where the request line is read in front of the end of a text, empty lines come first. -/
theorem emptyLines_of_requestStart {body t : Str} {heap heap' : Nat → Str}
    (h : (wire (body ++ t) heap).requestStart = wire t heap') : EmptyLines body := by
  obtain ⟨e, t', heap'', he, heq, -, hskip⟩ := skipEmpty_wire
    ((wire (body ++ t) heap).recvs.length + 1) (body ++ t) heap (by simp [wire])
  have hrecvs : t'.map Recv.byte = t.map Recv.byte :=
    congrArg Conn.recvs (hskip.symm.trans h)
  have ht : t' = t := by
    refine List.map_injective_iff.mpr (fun a b hab => ?_) hrecvs
    exact Recv.byte.inj hab
  rw [ht] at heq
  exact List.append_cancel_right heq ▸ he

/-! ## The calls of `parseThis` on one connection -/

/-- A call of `parseThis` when the requests `ms` are still to come: it reads the request line of the
first of them, and returns it. -/
def Turn : List Message → Conn → Prop
  | [], conn => (∃ heap, conn.requestStart = wire [] heap) ∧ parseThis {} conn = .blocked
  | m :: ms, conn => (∃ heap, conn.requestStart = wire (bytes (m :: ms)) heap) ∧
      ∃ conn', parseThis {} conn = .done m.request conn'

/-- The calls parse exactly the requests, one after the other, and then wait for another. -/
def InOrder : List Message → List Conn → Prop
  | _, [] => True
  | ms, conn :: conns => Turn ms conn ∧ InOrder ms.tail conns

/-- The bodies that further calls have come to are empty lines. -/
def BodiesEmpty : List Message → List Conn → Prop
  | m :: ms, _ :: conn :: conns => EmptyLines m.body ∧ BodiesEmpty ms (conn :: conns)
  | _, _ => True

/-- The loop goes on to `conn'` after a call of `parseThis` on `conn`. -/
def GoesOn (conn conn' : Conn) : Prop :=
  match parseThis {} conn with
  | .done _ left => conn' = left
  | .thrown (.RecvError _) _ left => conn' = left
  | _ => False

theorem not_crlf_bytes (ms : List Message) : ¬ crlf <+: bytes ms := by
  cases ms with
  | nil => decide
  | cons m ms =>
      rw [bytes_cons, Message.head, List.append_assoc]
      rintro ⟨t, ht⟩
      exact m.firstLine_ne (line_crlf.append_inj m.firstLine_line ht).1.symm

/-- **Behind empty lines the next request is parsed.** -/
theorem turn_emptyLines {e : Str} (he : EmptyLines e) (ms : List Message) (heap : Nat → Str) :
    Turn ms (wire (e ++ bytes ms) heap) := by
  have hstart := requestStart_wire he (not_crlf_bytes ms) heap
  obtain ⟨heap', hparse⟩ := parseThis_emptyLines he {} (bytes ms) heap
  cases ms with
  | nil => exact ⟨hstart, hparse⟩
  | cons m ms =>
      obtain ⟨heap'', hhead⟩ := m.parse_head (m.body ++ bytes ms) heap'
      rw [bytes_cons] at hparse hstart ⊢
      refine ⟨?_, _, hparse.trans hhead⟩
      rw [bytes_cons]
      exact hstart

/-- **The bodies decide**: along the calls on a connection on which a pipeline arrives, exactly the
requests of the pipeline are parsed if and only if the bodies are empty lines. -/
theorem inOrder_iff (ms : List Message) {e : Str} (he : EmptyLines e) (heap : Nat → Str)
    (conns : List Conn) (hcalls : List.IsChain GoesOn (wire (e ++ bytes ms) heap :: conns)) :
    InOrder ms (wire (e ++ bytes ms) heap :: conns) ↔
      BodiesEmpty ms (wire (e ++ bytes ms) heap :: conns) := by
  induction conns generalizing ms e heap with
  | nil =>
      cases ms with
      | nil => exact iff_of_true ⟨turn_emptyLines he [] heap, trivial⟩ trivial
      | cons m ms => exact iff_of_true ⟨turn_emptyLines he (m :: ms) heap, trivial⟩ trivial
  | cons conn conns ih =>
      obtain ⟨hgoes, hrest⟩ := List.isChain_cons_cons.mp hcalls
      obtain ⟨heap', hparse⟩ := parseThis_emptyLines he {} (bytes ms) heap
      have hturn := turn_emptyLines he ms heap
      cases ms with
      | nil =>
          -- the loop does not go on when nothing arrives
          unfold GoesOn at hgoes
          rw [hturn.2] at hgoes
          exact hgoes.elim
      | cons m ms =>
          obtain ⟨heap'', hhead⟩ := m.parse_head (m.body ++ bytes ms) heap'
          unfold GoesOn at hgoes
          have hdone : parseThis {} (wire (e ++ bytes (m :: ms)) heap) =
              .done m.request (wire (m.body ++ bytes ms) heap'') := by
            rw [hparse, bytes_cons, hhead]
          rw [hdone] at hgoes
          obtain rfl : conn = _ := hgoes
          constructor
          · rintro ⟨-, horder⟩
            obtain ⟨heap₁, hstart⟩ : ∃ heap₁,
                (wire (m.body ++ bytes ms) heap'').requestStart = wire (bytes ms) heap₁ := by
              cases ms with
              | nil => exact horder.1.1
              | cons m' ms => exact horder.1.1
            have hbody := emptyLines_of_requestStart hstart
            exact ⟨hbody, (ih ms hbody heap'' hrest).mp horder⟩
          · rintro ⟨hbody, hbodies⟩
            exact ⟨hturn, (ih ms hbody heap'' hrest).mpr hbodies⟩

/-! ## `_handle` leaves the connection alone -/

/-- The connection that a worker has accepted last, and those of the calls of `parseThis` since. -/
structure Calls where
  accepted : Option Conn := none
  conns : List Conn := []

def callsGhost : Ghost Actions Ctl Calls where
  init := {}
  act t e r := match e, r with
    | .accept, .ok conn => ⟨some conn, []⟩
    | _, _ => t
  enter t l := match l with
    | .serve conn => { t with conns := t.conns ++ [conn] }
    | _ => t

/-- Each call takes up where the one before has stopped. -/
structure Calls.Linked (t : Calls) : Prop where
  goesOn : List.IsChain GoesOn t.conns
  first : ∀ conn, t.conns.head? = some conn → t.accepted = some conn

/-- A callback has not read from the connection. -/
def LeavesBody : (e : Act) → e.Ans → Prop
  | .callback _ x _, ret => ret.vars.conn = x.conn
  | _, _ => True

/-- The specification of a worker's programs. -/
abbrev Calling {α : Type} (Post : Calls → α → Prop) (p : Prog Actions α) (t : Calls) : Prop :=
  p.Meets (callsGhost.step LeavesBody) (fun t _ => t.Linked) Post t

/-- A part of a handler that does not read from the connection. -/
def KeepsConn {α : Type} (m : Handler α) : Prop :=
  ∀ x t, t.Linked → Calling (fun t' r => t' = t ∧ r.2.conn = x.conn) (m.run x) t

namespace KeepsConn

variable {α β : Type}

theorem pure (a : α) : KeepsConn (pure a : Handler α) := fun _ _ _ => ⟨rfl, rfl⟩

theorem throw (e : Exn) : KeepsConn (Exc.throw e : Handler α) := fun _ _ _ => ⟨rfl, rfl⟩

theorem vars : KeepsConn (Exc.vars : Handler Locals) := fun _ _ _ => ⟨rfl, rfl⟩

theorem assign {f : Locals → Locals} (h : ∀ x, (f x).conn = x.conn) :
    KeepsConn (Exc.assign f : Handler Unit) := fun x _ _ => ⟨rfl, h x⟩

theorem perform {e : Act} (h : e ≠ .accept) : KeepsConn (DianProtocol.Cpp.perform e) := by
  intro x t ht
  refine ⟨ht, ?_⟩
  rintro r t' ⟨-, rfl⟩
  refine ⟨?_, rfl⟩
  cases e with
  | accept => exact absurd rfl h
  | _ => rfl

theorem bind {m : Handler α} {f : α → Handler β} (hm : KeepsConn m) (hf : ∀ a, KeepsConn (f a)) :
    KeepsConn (m >>= f) := by
  intro x t ht
  refine Prog.Meets.exc_bind ((hm x t ht).mono fun t' r hr => ?_)
  obtain ⟨rfl, hconn⟩ := hr
  rcases r with ⟨e | a, x'⟩
  · exact ⟨rfl, hconn⟩
  · refine (hf a x' t' ht).mono fun t'' r hr => ?_
    exact ⟨hr.1, hr.2.trans hconn⟩

end KeepsConn

section

variable (srv : Server)

theorem requestHeader_keepsConn (key : Str) : KeepsConn (requestHeader key) :=
  .bind .vars fun _ => .bind (.assign fun _ => rfl) fun _ => .pure _

theorem setHeader_keepsConn (key value : Str) : KeepsConn (setHeader key value) :=
  .assign fun _ => rfl

theorem setStatus_keepsConn (status : Int) (reason : String) :
    KeepsConn (setStatus status reason) :=
  .assign fun _ => rfl

theorem setContentLength_keepsConn : KeepsConn setContentLength := by
  refine .bind .vars fun x => ?_
  split
  · exact .pure _
  · split
    · exact .throw _
    · exact setHeader_keepsConn _ _

theorem transmit_keepsConn (site : Site) (body : Option StreamReader) :
    KeepsConn (transmit site body) := by
  cases body with
  | none => exact .pure _
  | some body =>
      refine .bind (.perform (by simp)) fun thrown => ?_
      split
      · exact .pure _
      · exact .throw _

theorem send_keepsConn (site : Site) : KeepsConn (send site) := by
  refine .bind .vars fun x => ?_
  split
  · exact .throw _
  · refine .bind setContentLength_keepsConn fun _ => .bind .vars fun x => ?_
    refine .bind (.perform (by simp)) fun sent => ?_
    split
    · exact .bind (transmit_keepsConn site _) fun _ => .assign fun _ => rfl
    · exact .throw _

theorem unlessSended_keepsConn {m : Handler Unit} (hm : KeepsConn m) :
    KeepsConn (unlessSended m) := by
  refine .bind .vars fun x => ?_
  split
  · exact .pure _
  · exact hm

/-- The only place where the connection might be read from. -/
theorem call_keepsConn (cb : Callback) (ptr : SessionPtr) : KeepsConn (call cb ptr) := by
  intro x t ht
  rw [call_run]
  refine ⟨ht, ?_⟩
  rintro ret t' ⟨hconn, rfl⟩
  exact ⟨rfl, hconn⟩

theorem callEntry_keepsConn (isSet : Bool) (cb : Callback) (key : Str) :
    KeepsConn (callEntry isSet cb key) := by
  unfold callEntry
  split
  · exact .bind (call_keepsConn cb _) fun _ => .pure _
  · exact .pure _

theorem callSetup_keepsConn (session : Session) : KeepsConn (callSetup srv session) := by
  unfold callSetup
  split
  · exact call_keepsConn _ _
  · exact .pure _

theorem handleOptions_keepsConn : KeepsConn handleOptions := by
  refine .bind (setStatus_keepsConn _ _) fun _ => .bind (setHeader_keepsConn _ _) fun _ => ?_
  refine .bind .vars fun x => ?_
  split
  · exact .bind (setStatus_keepsConn _ _) fun _ => send_keepsConn _
  · exact send_keepsConn _

theorem unauthorized_keepsConn : KeepsConn unauthorized :=
  .bind (setStatus_keepsConn _ _) fun _ => .bind (send_keepsConn _) fun _ => .pure _

theorem checkAuth_keepsConn (session : Session) : KeepsConn (checkAuth srv session) := by
  unfold checkAuth
  split
  · refine .bind (.perform (by simp)) fun accepted => ?_
    split
    · exact .throw _
    · exact .pure _
    · exact unauthorized_keepsConn
  · exact .bind (.perform (by simp)) fun r => nomatch r

theorem authenticate_keepsConn (session : Session) : KeepsConn (authenticate srv session) := by
  refine .bind .vars fun x => ?_
  split
  · refine .bind (requestHeader_keepsConn _) fun user =>
      .bind (requestHeader_keepsConn _) fun _ => ?_
    dsimp only
    split
    · exact checkAuth_keepsConn srv _
    · exact .pure _
  · split
    · exact unauthorized_keepsConn
    · exact .pure _

theorem setupSession_keepsConn (session : Session) : KeepsConn (setupSession srv session) := by
  refine .bind (requestHeader_keepsConn _) fun transport => ?_
  split
  · exact .throw _
  · refine .bind (requestHeader_keepsConn _) fun _ => .bind (callSetup_keepsConn srv _) fun _ => ?_
    refine .bind (.perform (by simp)) fun _ => .bind (.perform (by simp)) fun _ => ?_
    refine .bind (.perform (by simp)) fun _ => unlessSended_keepsConn ?_
    exact .bind (setStatus_keepsConn _ _) fun _ => .bind (setHeader_keepsConn _ _) fun _ =>
      .bind (setHeader_keepsConn _ _) fun _ => send_keepsConn _

theorem handleSetup_keepsConn : KeepsConn (handleSetup srv) := by
  refine .bind .vars fun x => ?_
  split
  · exact .throw _
  · refine .bind (.perform (by simp)) fun _ => .bind (.perform (by simp)) fun _ => ?_
    refine .bind (.perform (by simp)) fun _ =>
      .bind (authenticate_keepsConn srv _) fun session => ?_
    split
    · exact .pure _
    · exact setupSession_keepsConn srv _

theorem sessionNotFound_keepsConn : KeepsConn sessionNotFound :=
  .bind (setStatus_keepsConn _ _) fun _ => .bind (send_keepsConn _) fun _ => .perform (by simp)

theorem handleTeardown_keepsConn : KeepsConn (handleTeardown srv) := by
  refine .bind (requestHeader_keepsConn _) fun _ => .bind (.perform (by simp)) fun _ => ?_
  refine .bind (.perform (by simp)) fun found => ?_
  split
  · refine .bind (.perform (by simp)) fun _ => .bind (.perform (by simp)) fun _ => ?_
    refine .bind (callEntry_keepsConn _ _ _) fun _ => .bind (unlessSended_keepsConn ?_) fun _ => ?_
    · exact .bind (setStatus_keepsConn _ _) fun _ => .bind (requestHeader_keepsConn _) fun _ =>
        .bind (setHeader_keepsConn _ _) fun _ => send_keepsConn _
    · refine .bind (.perform (by simp)) fun _ => .bind (requestHeader_keepsConn _) fun _ => ?_
      exact .bind (.perform (by simp)) fun _ => .perform (by simp)
  · exact sessionNotFound_keepsConn

theorem playSession_keepsConn (session_id : Str) : KeepsConn (playSession srv session_id) := by
  refine .bind .vars fun x => ?_
  split
  · refine .bind (.perform (by simp)) fun _ => .bind (.perform (by simp)) fun _ => ?_
    refine .bind (.perform (by simp)) fun _ => .bind (requestHeader_keepsConn _) fun _ => ?_
    refine .bind (setHeader_keepsConn _ _) fun _ => .bind (setHeader_keepsConn _ _) fun _ => ?_
    refine .bind (callEntry_keepsConn _ _ _) fun _ => unlessSended_keepsConn ?_
    refine .bind (setStatus_keepsConn _ _) fun _ => .bind (requestHeader_keepsConn _) fun _ => ?_
    refine .bind (setHeader_keepsConn _ _) fun _ => .bind (setHeader_keepsConn _ _) fun _ => ?_
    exact .bind .vars fun _ => .bind (setHeader_keepsConn _ _) fun _ => send_keepsConn _
  · exact .bind (setStatus_keepsConn _ _) fun _ => send_keepsConn _

theorem handlePlay_keepsConn : KeepsConn (handlePlay srv) := by
  refine .bind (.perform (by simp)) fun _ => .bind (requestHeader_keepsConn _) fun _ => ?_
  refine .bind (.perform (by simp)) fun found => ?_
  split
  · exact .bind (.perform (by simp)) fun _ => playSession_keepsConn srv _
  · exact sessionNotFound_keepsConn

/-- `_handle` does not read from the connection if the callbacks do not. -/
theorem handle_keepsConn : KeepsConn (handle srv) := by
  refine .bind .vars fun x => ?_
  dsimp only
  split
  · exact handleOptions_keepsConn
  split
  · exact handleSetup_keepsConn srv
  split
  · exact handleTeardown_keepsConn srv
  split
  · exact handlePlay_keepsConn srv
  · exact .bind (setStatus_keepsConn _ _) fun _ =>
      .bind (setHeader_keepsConn _ _) fun _ => send_keepsConn _

end

/-! ## The inner loop -/

/-- The next call takes up at `conn`. -/
structure Calls.Next (t : Calls) (conn : Conn) : Prop extends t.Linked where
  next : match t.conns.getLast? with
    | none => t.accepted = some conn
    | some last => GoesOn last conn

/-- The assertion about a worker between two rounds. -/
def Calls.AtTop (t : Calls) : Ctl → Prop
  | .serve conn => t.Next conn
  | .dispatch _ conn => t.Next conn
  | _ => t.Linked

theorem Calls.Next.push {t : Calls} {conn : Conn} (h : t.Next conn) :
    Calls.Linked { t with conns := t.conns ++ [conn] } where
  goesOn := by
    refine List.isChain_append.mpr ⟨h.goesOn, List.isChain_singleton _, ?_⟩
    rintro last hlast conn' hconn'
    obtain rfl := Option.some.inj hconn'
    have hnext := h.next
    rw [Option.mem_def.mp hlast] at hnext
    exact hnext
  first := by
    intro conn' hconn'
    have hnext := h.next
    cases hconns : t.conns with
    | nil =>
        rw [hconns] at hconn' hnext
        obtain rfl := Option.some.inj hconn'
        exact hnext
    | cons c conns =>
        rw [hconns] at hconn'
        refine h.first conn' ?_
        rw [hconns]
        exact hconn'

/-- After a call from which the loop goes on. -/
theorem Calls.Linked.next {t : Calls} {conn conn' : Conn}
    (h : Calls.Linked { t with conns := t.conns ++ [conn] }) (hgoes : GoesOn conn conn') :
    Calls.Next { t with conns := t.conns ++ [conn] } conn' where
  toLinked := h
  next := by
    dsimp only
    rw [List.getLast?_concat]
    exact hgoes

/-- A reply of a catch handler. -/
theorem replyError_calling {t : Calls} (status : Int) (reason : String) (x : Locals)
    (h : t.Linked) :
    Calling (fun t l => t.AtTop l) (((replyError status reason).run x).bind afterReply) t := by
  have hleaves : KeepsConn (replyError status reason) :=
    .bind (setStatus_keepsConn _ _) fun _ => .bind (send_keepsConn _) fun _ => .perform (by simp)
  refine Prog.Meets.bind ((hleaves x t h).mono fun t' r hr => ?_)
  obtain ⟨rfl, -⟩ := hr
  rcases r with ⟨e | a, x'⟩
  · exact h
  · exact h

theorem rounds_calling {srv : Server} {t : Calls} {l : Ctl} {p : Prog Actions Ctl}
    (hl : t.AtTop l) (hround : round srv l = some p) :
    Calling (fun t l => t.AtTop l) p (callsGhost.enter t l) := by
  cases l with
  | accept =>
      cases hround
      refine ⟨hl, ?_⟩
      rintro r t' ⟨-, rfl⟩
      cases r with
      | error e => exact hl
      | ok conn => exact ⟨⟨List.isChain_nil, nofun⟩, rfl⟩
  | serve conn =>
      obtain rfl := Option.some.inj hround
      have hlinked := Calls.Next.push hl
      dsimp only
      split
      · next request conn' hparse =>
        refine hlinked.next ?_
        unfold GoesOn
        rw [hparse]
      · next errcode request conn' hparse =>
        show Calls.AtTop _ (if errcode = 10054 then Ctl.accept else .dispatch request conn')
        split
        · exact hlinked
        · refine hlinked.next ?_
          unfold GoesOn
          rw [hparse]
      · exact hlinked
      · exact ⟨hlinked, fun r => nomatch r⟩
  | dispatch request conn =>
      obtain rfl := Option.some.inj hround
      refine Prog.Meets.bind ((handle_keepsConn srv _ t hl.toLinked).mono fun t' r hr => ?_)
      obtain ⟨rfl, hconn⟩ := hr
      have hnext : Calls.Next t' r.2.conn := hconn ▸ hl
      rcases r with ⟨e | a, x⟩
      · cases e with
        | SendError errcode =>
            show Calls.AtTop _ (if errcode = 10054 then Ctl.accept else .serve x.conn)
            split
            · exact hnext.toLinked
            · exact hnext
        | _ => exact hnext.toLinked
      · exact hnext
  | badRequest request conn =>
      cases hround
      exact replyError_calling _ _ _ hl
  | serverError x =>
      cases hround
      exact replyError_calling _ _ _ hl
  | terminate e => cases hround

/-- The calls of `parseThis` of worker `i` on its last connection. -/
def calls {ι : Type} [DecidableEq ι] (i : ι) (trace : List (Label Actions ι (Shared ι) Ctl)) :
    Calls := callsGhost.of i trace

/-- The callbacks do not read the body. -/
def LeaveBodies (srv : Server) : Prop :=
  ∀ cb x session ret, srv.behaves cb x session ret → ret.vars.conn = x.conn

section

variable {ι : Type} [DecidableEq ι] {srv : Server}

theorem calls_linked (hsrv : LeaveBodies srv) {w : World Actions ι (Shared ι) Ctl}
    (h : Reach (system srv) initial w) (i : ι) : (calls i w.obs.trace).Linked := by
  have hans : Answered (S := Actions) LeavesBody w.obs.trace := by
    intro l hl e r hev
    cases e with
    | callback cb x ptr =>
        obtain ⟨session, hbehaves⟩ := reach_behaves h rfl l hl cb x ptr r hev
        exact hsrv cb x session r hbehaves
    | _ => trivial
  have hmeets : Calling (fun t l => t.AtTop l) (w.prog i) (calls i w.obs.trace) := by
    refine Ghost.meets_reach (fun t l p hhead hround => rounds_calling hhead hround)
      (fun i => ?_) h hans i
    exact (⟨List.isChain_nil, nofun⟩ : Calls.AtTop {} .accept)
  cases hprog : w.prog i with
  | ret l =>
      rw [hprog] at hmeets
      have hl : (calls i w.obs.trace).AtTop l := hmeets
      cases l with
      | serve conn => exact hl.toLinked
      | dispatch request conn => exact hl.toLinked
      | accept => exact hl
      | badRequest request conn => exact hl
      | serverError x => exact hl
      | terminate e => exact hl
  | act e k =>
      rw [hprog] at hmeets
      exact hmeets.1

theorem Calls.Linked.inOrder_iff {t : Calls} (h : t.Linked) (ms : List Message)
    (heap : Nat → Str) (haccepted : t.accepted = some (wire (bytes ms) heap)) :
    InOrder ms t.conns ↔ BodiesEmpty ms t.conns := by
  cases hconns : t.conns with
  | nil =>
      cases ms with
      | nil => exact Iff.rfl
      | cons m ms => exact Iff.rfl
  | cons conn conns =>
      have hfirst := h.first conn (by rw [hconns]; rfl)
      obtain rfl := Option.some.inj (hfirst.symm.trans haccepted)
      have hgoes := h.goesOn
      rw [hconns] at hgoes
      exact DianProtocol.Cpp.inOrder_iff ms emptyLines_nil heap conns hgoes

/-- **Requests one after the other**: when a pipeline arrives on a connection, the calls of
`parseThis` on it parse exactly the requests of the pipeline, in order, if and only if the bodies
behind which the loop goes on are empty lines. -/
theorem pipeline_parsed (srv : Server) (hsrv : LeaveBodies srv) (ms : List Message)
    (heap : Nat → Str) (w : World Actions ι (Shared ι) Ctl) (hreach : Reach (system srv) initial w)
    (i : ι) (haccepted : (calls i w.obs.trace).accepted = some (wire (bytes ms) heap)) :
    InOrder ms (calls i w.obs.trace).conns ↔ BodiesEmpty ms (calls i w.obs.trace).conns :=
  (calls_linked hsrv hreach i).inOrder_iff ms heap haccepted

end

/-! ### A body that looks like a request -/

/-- OPTIONS with a body that is an empty line. -/
def emptyLineBody : Message where
  method := str "OPTIONS"
  url := str "diantp://a/b"
  version := str "0.5"
  major := 0
  minor := 5
  items := [(str "Content-Length", str "2")]
  body := crlf
  method_word := ⟨by decide +kernel, by decide +kernel⟩
  url_word := ⟨by decide +kernel, by decide +kernel⟩
  version_word := ⟨by decide +kernel, by decide +kernel⟩
  numbers := by decide +kernel
  line := by decide +kernel
  length := by decide +kernel
  headers := by
    intro item hitem
    rw [List.mem_singleton.mp hitem]
    exact ⟨⟨by decide +kernel, by decide +kernel⟩, ⟨by decide +kernel, by decide +kernel⟩,
      by decide +kernel, by decide +kernel, by decide +kernel⟩
  content_length := Or.inl (by decide +kernel)

/-- OPTIONS with a body that is a TEARDOWN. -/
def teardownBody : Message where
  method := str "OPTIONS"
  url := str "diantp://a/b"
  version := str "0.5"
  major := 0
  minor := 5
  items := [(str "Content-Length", str "18")]
  body := str "TEARDOWN u 0.5\r\n\r\n"
  method_word := emptyLineBody.method_word
  url_word := emptyLineBody.url_word
  version_word := emptyLineBody.version_word
  numbers := emptyLineBody.numbers
  line := emptyLineBody.line
  length := emptyLineBody.length
  headers := by
    intro item hitem
    rw [List.mem_singleton.mp hitem]
    exact ⟨⟨by decide +kernel, by decide +kernel⟩, ⟨by decide +kernel, by decide +kernel⟩,
      by decide +kernel, by decide +kernel, by decide +kernel⟩
  content_length := Or.inl (by decide +kernel)

/-- A client sends `text`; the worker parses and handles a first request and parses a second. -/
def twoCalls (text : Str) : List (Unit × Choice) :=
  List.replicate 6 ((), { conn := wire text fun _ => [] })

/-- The worker has called `parseThis` twice on a connection on which `text` arrives, and is about to
dispatch a request with the method `method`. -/
def secondRequest (text : Str) (method : String) (w : World Actions Unit (Shared Unit) Ctl) :
    Bool :=
  match (calls () w.obs.trace).accepted, (calls () w.obs.trace).conns, w.prog () with
  | some conn, [_, _], .ret (.dispatch request _) =>
      decide (conn.recvs = text.map .byte ∧ request.method = str method)
  | _, _, _ => false

theorem secondRequest_spec {text : Str} {method : String} {w : World Actions Unit (Shared Unit) Ctl}
    (h : secondRequest text method w = true) :
    (∃ heap, (calls () w.obs.trace).accepted = some (wire text heap)) ∧
      (∃ conn conn', (calls () w.obs.trace).conns = [conn, conn']) ∧
      ∃ request conn, w.prog () = .ret (.dispatch request conn) ∧ request.method = str method := by
  unfold secondRequest at h
  split at h
  · next conn c c' request conn' haccepted hconns hprog =>
    obtain ⟨hrecvs, hmethod⟩ := of_decide_eq_true h
    obtain ⟨recvs, heap⟩ := conn
    have hrecvs' : recvs = text.map .byte := hrecvs
    subst hrecvs'
    exact ⟨⟨heap, haccepted⟩, ⟨c, c', hconns⟩, request, conn', hprog, hmethod⟩
  · cases h

/-- A body that is an empty line stays between its request and the next. -/
theorem pipeline_parsed_emptyLine : ∃ w : World Actions Unit (Shared Unit) Ctl,
    Reach (system plainServer) initial w ∧
      (∃ request conn, w.prog () = .ret (.dispatch request conn) ∧
        request.method = str "OPTIONS") ∧
      InOrder [emptyLineBody, emptyLineBody] (calls () w.obs.trace).conns := by
  obtain ⟨w, hreach, hw⟩ := run_map plainServer (twoCalls (bytes [emptyLineBody, emptyLineBody]))
    (secondRequest (bytes [emptyLineBody, emptyLineBody]) "OPTIONS") true (by decide)
  obtain ⟨⟨heap, haccepted⟩, ⟨conn, conn', hconns⟩, hdispatch⟩ := secondRequest_spec hw
  refine ⟨w, hreach, hdispatch, (pipeline_parsed plainServer (fun _ _ _ _ h => h.elim) _ heap w
    hreach () haccepted).mpr ?_⟩
  rw [hconns]
  exact ⟨⟨1, rfl⟩, trivial⟩

/-- A TEARDOWN in the body of the only request is about to be handled. -/
theorem body_dispatched : ∃ w : World Actions Unit (Shared Unit) Ctl,
    Reach (system plainServer) initial w ∧
      (∃ heap, (calls () w.obs.trace).accepted = some (wire (bytes [teardownBody]) heap)) ∧
      (∃ request conn, w.prog () = .ret (.dispatch request conn) ∧
        request.method = str "TEARDOWN") ∧
      ¬ InOrder [teardownBody] (calls () w.obs.trace).conns := by
  obtain ⟨w, hreach, hw⟩ := run_map plainServer (twoCalls (bytes [teardownBody]))
    (secondRequest (bytes [teardownBody]) "TEARDOWN") true (by decide)
  obtain ⟨⟨heap, haccepted⟩, ⟨conn, conn', hconns⟩, hdispatch⟩ := secondRequest_spec hw
  refine ⟨w, hreach, ⟨heap, haccepted⟩, hdispatch, fun horder => ?_⟩
  have hleave : LeaveBodies plainServer := fun _ _ _ _ h => h.elim
  have hlinked := calls_linked hleave hreach ()
  have hbodies := (hlinked.inOrder_iff [teardownBody] heap haccepted).mp horder
  rw [hconns] at hbodies
  obtain ⟨⟨k, hk⟩, -⟩ := hbodies
  -- the body starts with a T
  have hhead : teardownBody.body.head? = some 84 := by decide
  rw [hk] at hhead
  cases k with
  | zero => cases hhead
  | succ k =>
      have hcr : cr = 84 := Option.some.inj hhead
      exact absurd hcr (by decide)

end DianProtocol.Cpp
