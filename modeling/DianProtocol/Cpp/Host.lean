import DianProtocol.Lib.Channels
import DianProtocol.Cpp.Answers
import DianProtocol.Cpp.Heads
import DianProtocol.Cpp.PlayCallback

set_option autoImplicit false

/-! # The server of `server-main` on a machine

A worker that serves one connection, as a thread: what arrives for it are the bytes that the other
side has sent, and `::send` transmits its whole buffer. A socket that is closed takes nothing. The
worker waits for a whole head, and what it has not read is left in the channel (`Ctl.unread`).

`perform_sound` says that the actions do what they do in a system of workers (`Performs`).
-/

namespace DianProtocol.Cpp

open Concurrent Channels

/-! ## What arrives behind a head -/

/-- The connection when more has arrived. -/
def Conn.more (conn : Conn) (d : List Recv) : Conn := { conn with recvs := conn.recvs ++ d }

def Fetch.more {α : Type} (d : List Recv) : Fetch α → Fetch α
  | .done a conn => .done a (conn.more d)
  | .thrown e conn => .thrown e (conn.more d)
  | .blocked => .blocked

def Parse.more (d : List Recv) : Parse → Parse
  | .done base conn => .done base (conn.more d)
  | .thrown e base conn => .thrown e base (conn.more d)
  | .blocked => .blocked

theorem recvLoop_more {before delim data : Str} {left : Option Nat} {rs rs' : List Recv}
    {res : Except Int Str} (h : recvLoop before delim left data rs = some (res, rs'))
    (d : List Recv) : recvLoop before delim left data (rs ++ d) = some (res, rs' ++ d) := by
  fun_induction recvLoop before delim left data rs with
  | case1 data rs =>
      cases h
      rw [recvLoop]
  | case2 => cases h
  | case3 left data errcode rs hleft =>
      cases h
      rw [List.cons_append, recvLoop]
      exact hleft
  | case4 left data r rs hleft herror data' hdelim =>
      cases h
      rw [List.cons_append, recvLoop, if_pos hdelim]
      · exact herror
      · exact hleft
  | case5 left data r rs hleft herror data' hdelim ih =>
      rw [List.cons_append, recvLoop, if_neg hdelim, ih h]
      · exact herror
      · exact hleft

section

variable {conn : Conn} {base : Base}

theorem recvUntil_more {delim : Str} (h : conn.recvUntil delim ≠ .blocked) (d : List Recv) :
    (conn.more d).recvUntil delim = (conn.recvUntil delim).more d := by
  have hloop : ∀ {x : Except Int Str × List Recv},
      recvLoop (conn.heap 0) delim (some 1024) [] conn.recvs = some x →
      recvLoop (conn.heap 0) delim (some 1024) [] (conn.recvs ++ d) = some (x.1, x.2 ++ d) :=
    fun hx => recvLoop_more hx d
  have hmax : (if (1024 : Int) = -1 then none else some (Int.toNat 1024)) = some 1024 := by decide
  unfold Conn.recvUntil Conn.more at *
  rw [hmax] at h ⊢
  cases hx : recvLoop (conn.heap 0) delim (some 1024) [] conn.recvs with
  | none =>
      rw [hx] at h
      exact absurd rfl h
  | some x =>
      obtain ⟨res, rs⟩ := x
      rw [hloop hx]
      cases res with
      | error errcode => rfl
      | ok data => rfl

theorem readHeaders_more {fuel : Nat} (h : readHeaders fuel base conn ≠ .blocked) (d : List Recv) :
    readHeaders fuel base (conn.more d) = (readHeaders fuel base conn).more d := by
  induction fuel generalizing base conn with
  | zero => exact absurd rfl h
  | succ fuel ih =>
      rw [readHeaders] at h ⊢
      rw [readHeaders]
      cases hrecv : conn.recvUntil crlf with
      | blocked =>
          rw [hrecv] at h
          exact absurd rfl h
      | thrown e conn' =>
          rw [recvUntil_more (by rw [hrecv]; simp) d, hrecv]
          rfl
      | done line conn' =>
          rw [recvUntil_more (by rw [hrecv]; simp) d, hrecv]
          rw [hrecv] at h
          dsimp only [Fetch.more] at h ⊢
          by_cases hempty : strcmpEq line crlf = true
          · rw [if_pos hempty, if_pos hempty]
            rfl
          · rw [if_neg hempty] at h ⊢
            rw [if_neg hempty]
            cases hscan : headerLine base line with
            | mk base' thrown =>
                rw [hscan] at h
                cases thrown with
                | none => exact ih h
                | some e => rfl

theorem readRequest_more {fuel : Nat} (h : readRequest fuel base conn ≠ .blocked) (d : List Recv) :
    readRequest fuel base (conn.more d) = (readRequest fuel base conn).more d := by
  induction fuel generalizing base conn with
  | zero => exact absurd rfl h
  | succ fuel ih =>
      rw [readRequest] at h ⊢
      rw [readRequest]
      cases hrecv : conn.recvUntil crlf with
      | blocked =>
          rw [hrecv] at h
          exact absurd rfl h
      | thrown e conn' =>
          rw [recvUntil_more (by rw [hrecv]; simp) d, hrecv]
          rfl
      | done line conn' =>
          rw [recvUntil_more (by rw [hrecv]; simp) d, hrecv]
          rw [hrecv] at h
          dsimp only [Fetch.more] at h ⊢
          by_cases hempty : strcmpEq line crlf = true
          · rw [if_pos hempty] at h ⊢
            rw [if_pos hempty]
            exact ih h
          · rw [if_neg hempty] at h ⊢
            rw [if_neg hempty]
            cases hscan : requestLine base line with
            | mk base' thrown =>
                rw [hscan] at h
                cases thrown with
                | none => exact readHeaders_more h d
                | some e => rfl

/-- What arrives behind a head is left unread. -/
theorem parseThis_more (h : parseThis base conn ≠ .blocked) (d : List Recv) :
    parseThis base (conn.more d) = (parseThis base conn).more d := by
  have hlen : conn.recvs.length < (conn.more d).recvs.length + 1 := by
    rw [Conn.more, List.length_append]
    omega
  have hfuel : parseThis base conn = readRequest ((conn.more d).recvs.length + 1) base conn :=
    readRequest_fuel (Nat.lt_succ_self _) hlen
  rw [hfuel] at h ⊢
  exact readRequest_more h d

end

/-! ## What a worker leaves in its channel -/

/-- The bytes that have not been read. -/
def Conn.unread (conn : Conn) : Str := conn.recvs.map Recv.value

/-- The connection without them. -/
def Conn.taken (conn : Conn) : Conn := { conn with recvs := [] }

theorem unread_more (conn : Conn) (d : Str) :
    (conn.more (d.map .byte)).unread = conn.unread ++ d := by
  have hvalue : (d.map Recv.byte).map Recv.value = d := by
    rw [List.map_map]
    exact List.map_id d
  rw [Conn.unread, Conn.more, List.map_append, hvalue]
  rfl

theorem taken_more (conn : Conn) (d : List Recv) : (conn.more d).taken = conn.taken := rfl

theorem wire_more (c d : Str) (heap : Nat → Str) :
    wire (c ++ d) heap = (wire c heap).more (d.map .byte) := by
  rw [wire, wire, Conn.more, List.map_append]

theorem works_wire (c : Str) (heap : Nat → Str) : (wire c heap).Works := by
  intro errcode hmem
  simp [wire] at hmem

/-- The control state behind a head, and what has not been read. -/
def Ctl.taken : Ctl → Ctl × Str
  | .accept => (.accept, [])
  | .serve conn => (.serve conn.taken, conn.unread)
  | .dispatch request conn => (.dispatch request conn.taken, conn.unread)
  | .badRequest request conn => (.badRequest request conn.taken, conn.unread)
  | .serverError x => (.serverError { x with conn := x.conn.taken }, x.conn.unread)
  | .terminate e => (.terminate e, [])

/-! ## The server -/

/-- A server with the play callback of `server-main`, on a machine. -/
structure Installation extends Machine where
  enable_auth : Bool := false
  /-- the memory that the buffers of a PLAY are allocated in -/
  memory : Nat → Nat → Junk
  /-- the values of `rand()`, two for each id that is tried -/
  draws : Nat → Nat × Nat
  draws_lt : ∀ n, (draws n).1 < 2 ^ 31 ∧ (draws n).2 < 2 ^ 31

/-- What happens on the side of the server. -/
structure Host where
  shared : Shared Unit := {}
  /-- the ids that have been tried -/
  drawn : Nat := 0
  /-- the calls of the play callback -/
  plays : Nat := 0
  closed : Bool := false

/-- The buffers of a body up to the empty one. -/
def drain : Nat → (Nat → Str) → Option Str
  | 0, _ => none
  | fuel + 1, reads =>
      if reads 0 = [] then some []
      else (drain fuel fun n => reads (n + 1)).map (reads 0 ++ ·)

/-- What `socket::send(StreamReader&)` sends of a body. Its buffers are not empty, so that as many
reads as there are bytes, and one, are enough. -/
def StreamReader.sent (body : StreamReader) : Option Str :=
  drain ((body.maxlen.getD 0) + 1) body.reads

theorem drain_of_transfers {reads : Nat → Str} {content : Str} (h : Transfers reads content)
    {fuel : Nat} (hfuel : content.length < fuel) : drain fuel reads = some content := by
  induction h generalizing fuel with
  | stop hnil =>
      obtain ⟨fuel, rfl⟩ : ∃ n, fuel = n + 1 := ⟨fuel - 1, by omega⟩
      rw [drain, if_pos hnil]
  | @chunk reads rest hne _ ih =>
      obtain ⟨fuel, rfl⟩ : ∃ n, fuel = n + 1 := ⟨fuel - 1, by omega⟩
      have hpos := List.length_pos_of_ne_nil hne
      rw [List.length_append] at hfuel
      rw [drain, if_neg hne, ih (by omega), Option.map_some]

/-- What is drained is what the body can transfer. -/
theorem drain_transfers {reads : Nat → Str} {content : Str} {fuel : Nat}
    (h : drain fuel reads = some content) : Transfers reads content := by
  induction fuel generalizing reads content with
  | zero => cases h
  | succ fuel ih =>
      rw [drain] at h
      by_cases hnil : reads 0 = []
      · rw [if_pos hnil] at h
        cases h
        exact .stop hnil
      · rw [if_neg hnil] at h
        obtain ⟨rest, hrest, rfl⟩ := Option.map_eq_some_iff.mp h
        exact .chunk hnil (ih hrest)

/-- The actions of `Response::send` in the play callback; the state is the heads that it has
sent. -/
def transmission : (e : Act) → List Str → Str → Option (Effect e.Ans (List Str) Byte)
  | .send _ x, heads, c =>
      some ⟨true, heads ++ [x.response.unparseHead], c, x.response.unparseHead⟩
  | .sendBody _ body, heads, c => body.sent.map fun content => ⟨none, heads, c, content⟩
  | _, _, _ => none

def callbackThread : Thread Actions Unit (List Str) Byte where
  round := fun _ _ => none
  perform := transmission
  round_mono := by
    intro l c c' p h
    cases h
  mono := by
    intro e heads c x h d
    cases e with
    | send site y =>
        cases h
        rfl
    | sendBody site body =>
        obtain ⟨content, hsent, rfl⟩ := Option.map_eq_some_iff.mp h
        exact Option.map_eq_some_iff.mpr ⟨content, hsent, rfl⟩
    | _ => cases h

namespace Installation

/-- The id that is made of the draw `n`. -/
def id (inst : Installation) (n : Nat) : Str :=
  to_string (inst.draws n).1 ++ to_string (inst.draws n).2

/-- The loop that generates an id, from the draw `n` on: the id and the next draw. -/
def drawId (inst : Installation) (sessions : Sessions) : Nat → Nat → Option (Str × Nat)
  | 0, _ => none
  | fuel + 1, n =>
      if inst.id n ∈ sessions then drawId inst sessions fuel (n + 1) else some (inst.id n, n + 1)

/-- What the play callback does, and what it leaves behind. -/
def played (inst : Installation) (n : Nat) (x : Locals) (session : Session) :
    Option (CallbackReturn × Str) :=
  (callbackThread.exec ((pcallback inst.toMachine (inst.memory n)).run x) [] []).map fun y =>
    ({ vars := y.ans.2
       session := session
       heads := y.state
       thrown := match y.ans.1 with
        | .ok () => none
        | .error e => some e }, y.out)

/-- The server: of the callbacks, `server-main` sets the one for PLAY. -/
def server (inst : Installation) : Server where
  enable_auth := inst.enable_auth
  playCallback := true
  behaves := fun cb x session ret => cb = .play ∧ ∃ n out, inst.played n x session = some (ret, out)

/-- What an action answers; `c` has arrived. There is no other client. -/
def perform (inst : Installation) : (e : Act) → Host → Str → Option (Effect e.Ans Host Byte)
  | .lock, h, c =>
      if h.shared.mutex = none then
        some ⟨(), { h with shared := { h.shared with mutex := some () } }, c, []⟩
      else none
  | .unlock, h, c =>
      if h.shared.mutex = some () then
        some ⟨(), { h with shared := { h.shared with mutex := none } }, c, []⟩
      else none
  | .generateId, h, c =>
      (inst.drawId h.shared.sessions (h.shared.sessions.size + 1) h.drawn).map fun x =>
        ⟨x.1, { h with drawn := x.2 }, c, []⟩
  | .find key, h, c => some ⟨decide (key ∈ h.shared.sessions), h, c, []⟩
  | .index _ key, h, c =>
      some ⟨(), { h with shared :=
        { h.shared with sessions := h.shared.sessions.insertIfNew key {} } }, c, []⟩
  | .store session, h, c =>
      some ⟨(), { h with shared :=
        { h.shared with sessions := h.shared.sessions.insert session.id session } }, c, []⟩
  | .erase key, h, c =>
      some ⟨(), { h with shared :=
        { h.shared with sessions := h.shared.sessions.erase key } }, c, []⟩
  | .callback .play x ptr, h, c =>
      (inst.played h.plays x ((ptr.pointee h.shared.sessions).getD {})).map fun y =>
        ⟨y.1, { h with
          shared := { h.shared with sessions := ptr.write h.shared.sessions y.1.session }
          plays := h.plays + 1 }, c, y.2⟩
  | .send _ x, h, c =>
      some (if h.closed then ⟨false, h, c, []⟩ else ⟨true, h, c, x.response.unparseHead⟩)
  | .sendBody _ body, h, c => body.sent.map fun content => ⟨none, h, c, content⟩
  | .close, h, c => some ⟨(), { h with closed := true }, c, []⟩
  | _, _, _ => none

theorem perform_mono (inst : Installation) {e : Act} {h : Host} {c : Str}
    {x : Effect e.Ans Host Byte} (hx : inst.perform e h c = some x) (d : Str) :
    inst.perform e h (c ++ d) = some { x with rest := x.rest ++ d } := by
  cases e with
  | lock =>
      simp only [perform, Option.ite_none_right_eq_some, Option.some.injEq] at hx ⊢
      obtain ⟨hfree, rfl⟩ := hx
      exact ⟨hfree, rfl⟩
  | unlock =>
      simp only [perform, Option.ite_none_right_eq_some, Option.some.injEq] at hx ⊢
      obtain ⟨hheld, rfl⟩ := hx
      exact ⟨hheld, rfl⟩
  | generateId =>
      obtain ⟨y, hy, rfl⟩ := Option.map_eq_some_iff.mp hx
      exact Option.map_eq_some_iff.mpr ⟨y, hy, rfl⟩
  | sendBody site body =>
      obtain ⟨y, hy, rfl⟩ := Option.map_eq_some_iff.mp hx
      exact Option.map_eq_some_iff.mpr ⟨y, hy, rfl⟩
  | send site y =>
      cases hclosed : h.closed with
      | true =>
          simp only [perform, hclosed, if_true, Option.some.injEq] at hx ⊢
          rw [← hx]
      | false =>
          simp only [perform, hclosed, Bool.false_eq_true, if_false, Option.some.injEq] at hx ⊢
          rw [← hx]
  | callback cb y ptr =>
      cases cb with
      | play =>
          obtain ⟨z, hz, rfl⟩ := Option.map_eq_some_iff.mp hx
          exact Option.map_eq_some_iff.mpr ⟨z, hz, rfl⟩
      | setup => cases hx
      | teardown => cases hx
  | auth session => cases hx
  | accept => cases hx
  | hang => cases hx
  | _ =>
      cases hx
      rfl

/-- The rounds of the worker: a head is taken from what has arrived. -/
def round (inst : Installation) : Ctl → Str → Option (Prog Actions Ctl × Str)
  | .serve conn, c =>
      match Cpp.round inst.server (.serve (wire c conn.heap)) with
      | some (.ret l) => some (.ret l.taken.1, l.taken.2)
      | _ => none
  | l, c => blind (Cpp.round inst.server) l c

theorem round_mono (inst : Installation) {l : Ctl} {c c' : Str} {p : Prog Actions Ctl}
    (h : inst.round l c = some (p, c')) (d : Str) : inst.round l (c ++ d) = some (p, c' ++ d) := by
  cases l with
  | serve conn =>
      simp only [round, Cpp.round] at h ⊢
      rw [wire_more]
      cases hparse : parseThis {} (wire c conn.heap) with
      | blocked =>
          rw [hparse] at h
          cases h
      | done request rest =>
          rw [hparse] at h
          rw [parseThis_more (by rw [hparse]; simp), hparse]
          cases h
          simp only [Parse.more, Ctl.taken, unread_more, taken_more]
      | thrown e request rest =>
          rw [hparse] at h
          rw [parseThis_more (by rw [hparse]; simp), hparse]
          -- no `recv` fails, so that it is the parser that has thrown
          have hfine : (parseThis {} (wire c conn.heap)).Fine :=
            readRequest_fine (works_wire c conn.heap)
          rw [hparse] at hfine
          obtain ⟨rfl, -⟩ := hfine
          cases h
          simp only [parseError, Parse.more, Ctl.taken, unread_more, taken_more]
  | _ => exact blind_mono h d

/-- The worker of an installation. -/
def thread (inst : Installation) : Thread Actions Ctl Host Byte where
  round := inst.round
  perform := inst.perform
  round_mono := inst.round_mono
  mono := inst.perform_mono

theorem drawId_sound (inst : Installation) {sessions : Sessions} {fuel n n' : Nat} {id : Str}
    (h : inst.drawId sessions fuel n = some (id, n')) :
    ∃ draws, generateId inst.server.newId sessions draws = some id := by
  induction fuel generalizing n with
  | zero => cases h
  | succ fuel ih =>
      rw [drawId] at h
      by_cases hmem : inst.id n ∈ sessions
      · rw [if_pos hmem] at h
        obtain ⟨draws, hdraws⟩ := ih h
        exact ⟨inst.draws n :: draws, (if_pos hmem).trans hdraws⟩
      · rw [if_neg hmem] at h
        cases h
        exact ⟨[inst.draws n], if_neg hmem⟩

/-- **The actions are those of a worker of the server.** -/
theorem perform_sound (inst : Installation) {e : Act} {h : Host} {c : Str}
    {x : Effect e.Ans Host Byte} (hx : inst.perform e h c = some x) :
    Performs inst.server () h.shared e x.ans x.state.shared := by
  cases e with
  | lock =>
      simp only [perform, Option.ite_none_right_eq_some, Option.some.injEq] at hx
      obtain ⟨hfree, rfl⟩ := hx
      exact ⟨hfree, rfl⟩
  | unlock =>
      simp only [perform, Option.ite_none_right_eq_some, Option.some.injEq] at hx
      obtain ⟨hheld, rfl⟩ := hx
      exact ⟨hheld, rfl⟩
  | generateId =>
      obtain ⟨⟨id, n⟩, hy, rfl⟩ := Option.map_eq_some_iff.mp hx
      exact ⟨inst.drawId_sound hy, rfl⟩
  | find key =>
      cases hx
      exact ⟨decide_eq_true_iff, rfl⟩
  | sendBody site body =>
      obtain ⟨y, hy, rfl⟩ := Option.map_eq_some_iff.mp hx
      rfl
  | send site y =>
      cases hclosed : h.closed with
      | true =>
          simp only [perform, hclosed, if_true, Option.some.injEq] at hx
          rw [← hx]
          rfl
      | false =>
          simp only [perform, hclosed, Bool.false_eq_true, if_false, Option.some.injEq] at hx
          rw [← hx]
          rfl
  | callback cb y ptr =>
      cases cb with
      | play =>
          obtain ⟨⟨ret, out⟩, hz, rfl⟩ := Option.map_eq_some_iff.mp hx
          refine ⟨⟨_, fun ses hses => ?_, rfl, h.plays, out, hz⟩, rfl⟩
          rw [hses]
          rfl
      | setup => cases hx
      | teardown => cases hx
  | auth session => cases hx
  | accept => cases hx
  | hang => cases hx
  | _ =>
      cases hx
      rfl

end Installation

end DianProtocol.Cpp
