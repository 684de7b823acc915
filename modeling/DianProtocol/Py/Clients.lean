import DianProtocol.Lib.Refinement
import DianProtocol.Py.Server

set_option autoImplicit false

/-! # The clients of the server

A client sends bytes and then nothing more, or it closes the connection or resets it. `unparse` sees
this in `recv(1)`, which returns no byte after the end of a connection: `read_until` then returns
what it has received so far, so that a head may be cut short, or empty. `Malformed` and `Complete`
say of the bytes of a client what `unparse` makes of them (`unparse_cases`).

In `served` the bytes of every client are given, and `unparse` returns what it reads from them;
otherwise it is the server of `system`.
-/

namespace DianProtocol.Py

open Concurrent Lines Regex

/-! ## Reading up to the end of a connection -/

/-- What comes behind the bytes of a client: nothing yet, the end of the connection, or a reset. -/
inductive Ending where
  | waits
  | closes
  | resets (errno : Int)
  deriving DecidableEq

/-- What `read_until` does when it has received `ret` and there are no more bytes. -/
def Ending.atEnd (ending : Ending) (ret : Bytes) : Outcome Bytes :=
  match ending with
  | .waits => .blocked
  | .closes => .ok ret []
  | .resets errno => .raised (.ConnectionResetError errno)

namespace Ending

variable (ending : Ending)

/-- The loop of `read_until`: `ret` has been received. -/
def readUntilLoop (until_ : Bytes) : Bytes → Bytes → Outcome Bytes
  | ret, [] => ending.atEnd ret
  | ret, c :: rest =>
      if until_ <:+ ret ++ [c] then .ok (ret ++ [c]) rest
      else readUntilLoop until_ (ret ++ [c]) rest

/-- `SocketStreamReader(socket).read_until(until)` -/
def read_until (until_ : Text) (s : Bytes) : Outcome Bytes :=
  ending.readUntilLoop (encode until_) [] s

/-- The loop over the header lines. A round that takes no byte is the last one. -/
def readHeaders : Nat → Dict → Bytes → Outcome Dict
  | 0, _, _ => .blocked
  | fuel + 1, headers, s =>
      (ending.read_until (text "\r\n") s).bind fun line s =>
        match decode line with
        | none => .raised .UnicodeDecodeError
        | some data =>
            match BaseHeader_re.match? data with
            | none => .ok headers s
            | some header =>
                let headers := headers.set (strip ((header.group? "key").getD []))
                  (strip ((header.group? "value").getD []))
                if data = text "\r\n" then .ok headers s else readHeaders fuel headers s

/-- The first line of a message, matched with `re`. -/
def readHead (re : Pat Char) (s : Bytes) : Outcome (Way Char) :=
  (ending.read_until (text "\r\n") s).bind fun line s =>
    match decode line with
    | none => .raised .UnicodeDecodeError
    | some data => .ofOption (.Exception "Invalid head") s (re.match? data)

/-- `Request.unparse` -/
def unparse (s : Bytes) : Outcome Request :=
  (ending.readHead RequestHead_re s).bind fun head s =>
    (ending.readHeaders (s.length + 1) {} s).bind fun headers s =>
      .ok { method := (head.group? "method").getD [], url := (head.group? "url").getD [],
            version := (head.group? "version").getD [], headers := headers } s

end Ending

/-! ### While the client waits -/

theorem readUntilLoop_waits (until_ ret s : Bytes) :
    Ending.waits.readUntilLoop until_ ret s = readUntilLoop until_ ret s := by
  induction s generalizing ret with
  | nil => rfl
  | cons c s ih => rw [Ending.readUntilLoop, readUntilLoop, ih]

theorem readHeaders_waits (fuel : Nat) (headers : Dict) (s : Bytes) :
    Ending.waits.readHeaders fuel headers s = readHeaders fuel headers s := by
  induction fuel generalizing headers s with
  | zero => rfl
  | succ fuel ih =>
      rw [Ending.readHeaders, readHeaders, Ending.read_until, readUntilLoop_waits]
      simp only [ih]
      rfl

/-- **As long as a client neither closes nor resets its connection**, its bytes are read as those of
a connection without an end. -/
theorem unparse_waits (s : Bytes) : Ending.waits.unparse s = Request.unparse s := by
  have hhead : Ending.waits.readHead RequestHead_re s = readHead RequestHead_re s := by
    rw [Ending.readHead, Ending.read_until, readUntilLoop_waits]
    rfl
  rw [Ending.unparse, Request.unparse, hhead]
  simp only [readHeaders_waits]

/-! ## Lines -/

/-- `read_until` takes `line` from `s` and leaves `rest`: a line, or what there is when the
connection ends. -/
def Cut (ending : Ending) (s line rest : Bytes) : Prop :=
  s = line ++ rest ∧ (Line crlf line ∨ ending = .closes ∧ ¬ crlf <:+: line ∧ rest = [])

/-- A reading has come to the end of the bytes: it waits for more, or there is a reset. -/
def RunsOut {α : Type} (ending : Ending) (x : Outcome α) : Prop :=
  ending = .waits ∧ x = .blocked ∨
    ∃ errno, ending = .resets errno ∧ x = .raised (.ConnectionResetError errno)

theorem RunsOut.bind {α β : Type} {ending : Ending} {x : Outcome α} (h : RunsOut ending x)
    (f : α → Bytes → Outcome β) : RunsOut ending (x.bind f) := by
  rcases h with ⟨hwaits, rfl⟩ | ⟨errno, hresets, rfl⟩
  · exact Or.inl ⟨hwaits, rfl⟩
  · exact Or.inr ⟨errno, hresets, rfl⟩

/-- The end of the bytes comes when all have been received. -/
theorem readUntilLoop_eq (ending : Ending) (until_ ret s : Bytes) :
    ending.readUntilLoop until_ ret s = match readUntilLoop until_ ret s with
      | .blocked => ending.atEnd (ret ++ s)
      | outcome => outcome := by
  induction s generalizing ret with
  | nil => simp [Ending.readUntilLoop, readUntilLoop]
  | cons c s ih =>
      rw [Ending.readUntilLoop, readUntilLoop]
      split
      · rfl
      · rw [ih, List.append_assoc]
        rfl

theorem readUntilLoop_free {d ret s : Bytes} (hfree : ¬ d <:+: ret) :
    (∃ line rest, readUntilLoop d ret s = .ok line rest) ∨
      readUntilLoop d ret s = .blocked ∧ ¬ d <:+: ret ++ s := by
  induction s generalizing ret with
  | nil =>
      refine Or.inr ⟨rfl, ?_⟩
      rw [List.append_nil]
      exact hfree
  | cons c s ih =>
      rw [readUntilLoop]
      split
      · exact Or.inl ⟨_, _, rfl⟩
      · rename_i hend
        have hassoc : ret ++ c :: s = ret ++ [c] ++ s := by simp
        rw [hassoc]
        exact ih (not_infix_snoc hfree hend)

section

variable {ending : Ending} {s line rest : Bytes}

theorem read_until_cases (ending : Ending) (s : Bytes) :
    (∃ line rest, Cut ending s line rest) ∨
      RunsOut ending (ending.read_until (text "\r\n") s) := by
  have hnil : ¬ crlf <:+: ([] : Bytes) := by decide
  unfold Ending.read_until
  rw [readUntilLoop_eq]
  rcases readUntilLoop_free (s := s) hnil with ⟨line, rest, hread⟩ | ⟨hread, hfree⟩
  · obtain ⟨rfl, hline⟩ := read_until_ok hread
    exact Or.inl ⟨line, rest, rfl, Or.inl hline⟩
  · have hloop : readUntilLoop (encode (text "\r\n")) [] s = .blocked := hread
    rw [hloop]
    cases ending with
    | closes => exact Or.inl ⟨s, [], by simp, Or.inr ⟨rfl, hfree, rfl⟩⟩
    | waits => exact Or.inr (Or.inl ⟨rfl, rfl⟩)
    | resets errno => exact Or.inr (Or.inr ⟨errno, rfl, rfl⟩)

/-- What can be cut is read. -/
theorem Cut.read (h : Cut ending s line rest) :
    ending.read_until (text "\r\n") s = .ok line rest := by
  obtain ⟨rfl, hline⟩ := h
  unfold Ending.read_until
  rw [readUntilLoop_eq]
  rcases hline with hline | ⟨rfl, hfree, rfl⟩
  · have hloop : readUntilLoop (encode (text "\r\n")) [] (line ++ rest) = .ok line rest :=
      read_until_line rest hline
    rw [hloop]
  · have hnil : ¬ crlf <:+: ([] : Bytes) := by decide
    rw [List.append_nil]
    rcases readUntilLoop_free (s := line) hnil with ⟨line', rest, hread⟩ | ⟨hread, -⟩
    · obtain ⟨rfl, hline'⟩ := read_until_ok hread
      exact absurd (hline'.ends.isInfix.trans (List.prefix_append _ _).isInfix) hfree
    · have hloop : readUntilLoop (encode (text "\r\n")) [] line = .blocked := hread
      rw [hloop]
      rfl

end

/-! ## Heads -/

/-- The first line of a request. -/
def RequestLine (line : Bytes) : Prop :=
  ∃ data way, decode line = some data ∧ RequestHead_re.match? data = some way

/-- A line of the headers. -/
def HeaderLine (line : Bytes) : Prop :=
  ∃ data way, decode line = some data ∧ BaseHeader_re.match? data = some way

/-- A line that ends the headers. -/
def LastLine (line : Bytes) : Prop :=
  ∃ data, decode line = some data ∧ BaseHeader_re.match? data = none

/-- A line that is not in UTF-8. -/
def Undecodable (line : Bytes) : Prop := decode line = none

/-- The header lines lead to a line in `P`. -/
inductive HeadersTo (ending : Ending) (P : Bytes → Prop) : Bytes → Prop where
  | here {s line rest : Bytes} : Cut ending s line rest → P line → HeadersTo ending P s
  | after {s line rest : Bytes} : Cut ending s line rest → HeaderLine line →
      HeadersTo ending P rest → HeadersTo ending P s

/-- The first line is no request line, or a line of the headers is not in UTF-8. -/
def Malformed (ending : Ending) (s : Bytes) : Prop :=
  ∃ line rest, Cut ending s line rest ∧
    (¬ RequestLine line ∨ HeadersTo ending Undecodable rest)

/-- A request line, and the headers up to a line that ends them. -/
def Complete (ending : Ending) (s : Bytes) : Prop :=
  ∃ line rest, Cut ending s line rest ∧ RequestLine line ∧ HeadersTo ending LastLine rest

section

variable {ending : Ending} {s line rest : Bytes} {P : Bytes → Prop}

theorem HeaderLine.ne_nil (h : HeaderLine line) : line ≠ [] := by
  rintro rfl
  obtain ⟨data, way, hdata, hmatch⟩ := h
  obtain rfl : [] = data := Option.some.inj ((decode_encode []).symm.trans hdata)
  have hnone : BaseHeader_re.match? [] = none := by decide
  rw [hnone] at hmatch
  cases hmatch

theorem HeaderLine.shorter (h : HeaderLine line) (hcut : Cut ending s line rest) :
    rest.length < s.length := by
  have hpos := List.length_pos_of_ne_nil h.ne_nil
  rw [hcut.1, List.length_append]
  omega

/-- The loop goes on behind a header line. The empty line, for which it has a test of its own, is no
header line. -/
theorem readHeaders_after (hcut : Cut ending s line rest) (hline : HeaderLine line) (fuel : Nat)
    (headers : Dict) :
    ∃ headers', ending.readHeaders (fuel + 1) headers s =
      ending.readHeaders fuel headers' rest := by
  obtain ⟨data, way, hdata, hmatch⟩ := hline
  have hne : data ≠ text "\r\n" := by
    rintro rfl
    have hnone : BaseHeader_re.match? (text "\r\n") = none := by decide
    rw [hnone] at hmatch
    cases hmatch
  rw [Ending.readHeaders, hcut.read, Outcome.bind, hdata]
  dsimp only
  rw [hmatch]
  dsimp only
  rw [if_neg hne]
  exact ⟨_, rfl⟩

/-- The loop comes to the line to which the header lines lead. -/
theorem HeadersTo.reads (h : HeadersTo ending P s) (fuel : Nat) (headers : Dict)
    (hfuel : s.length < fuel) : ∃ s' line rest fuel' headers', Cut ending s' line rest ∧ P line ∧
      ending.readHeaders fuel headers s = ending.readHeaders (fuel' + 1) headers' s' := by
  induction h generalizing fuel headers with
  | @here s line rest hcut hline =>
      obtain ⟨fuel', rfl⟩ : ∃ fuel', fuel = fuel' + 1 := ⟨fuel - 1, by omega⟩
      exact ⟨s, line, rest, fuel', headers, hcut, hline, rfl⟩
  | @after s line rest hcut hline hrest ih =>
      obtain ⟨fuel', rfl⟩ : ∃ fuel', fuel = fuel' + 1 := ⟨fuel - 1, by omega⟩
      obtain ⟨headers', hread⟩ := readHeaders_after hcut hline fuel' headers
      have hshorter := hline.shorter hcut
      rw [hread]
      exact ih fuel' headers' (by omega)

theorem readHeaders_undecodable (h : HeadersTo ending Undecodable s) {fuel : Nat} (headers : Dict)
    (hfuel : s.length < fuel) :
    ending.readHeaders fuel headers s = .raised .UnicodeDecodeError := by
  obtain ⟨s', line, rest, fuel', headers', hcut, hline, hread⟩ := h.reads fuel headers hfuel
  have hnone : decode line = none := hline
  rw [hread, Ending.readHeaders, hcut.read, Outcome.bind, hnone]

theorem readHeaders_last (h : HeadersTo ending LastLine s) {fuel : Nat} (headers : Dict)
    (hfuel : s.length < fuel) :
    ∃ headers' rest, ending.readHeaders fuel headers s = .ok headers' rest := by
  obtain ⟨s', line, rest, fuel', headers', hcut, ⟨data, hdata, hmatch⟩, hread⟩ :=
    h.reads fuel headers hfuel
  refine ⟨headers', rest, ?_⟩
  rw [hread, Ending.readHeaders, hcut.read, Outcome.bind, hdata]
  dsimp only
  rw [hmatch]

/-- The header lines lead to a line that makes the loop fail or ends it, or to the end of the bytes.
-/
theorem readHeaders_cases (ending : Ending) (s : Bytes) (fuel : Nat) (headers : Dict)
    (hfuel : s.length < fuel) :
    HeadersTo ending Undecodable s ∨ HeadersTo ending LastLine s ∨
      RunsOut ending (ending.readHeaders fuel headers s) := by
  induction fuel generalizing s headers with
  | zero => omega
  | succ fuel ih =>
      rcases read_until_cases ending s with ⟨line, rest, hcut⟩ | hout
      · cases hdata : decode line with
        | none => exact Or.inl (.here hcut hdata)
        | some data =>
            cases hmatch : BaseHeader_re.match? data with
            | none => exact Or.inr (Or.inl (.here hcut ⟨data, hdata, hmatch⟩))
            | some way =>
                have hline : HeaderLine line := ⟨data, way, hdata, hmatch⟩
                have hshorter := hline.shorter hcut
                obtain ⟨headers', hread⟩ := readHeaders_after hcut hline fuel headers
                rw [hread]
                rcases ih rest headers' (by omega) with hbad | hlast | hend
                · exact Or.inl (.after hcut hline hbad)
                · exact Or.inr (Or.inl (.after hcut hline hlast))
                · exact Or.inr (Or.inr hend)
      · rw [Ending.readHeaders]
        exact Or.inr (Or.inr (hout.bind _))

/-- **Malformed heads make `unparse` raise** what the server does not catch. -/
theorem unparse_malformed (h : Malformed ending s) : ∃ e,
    (∀ errno, e ≠ .ConnectionResetError errno) ∧ ending.unparse s = .raised e := by
  obtain ⟨line, rest, hcut, hbad⟩ := h
  have hdecode : ∀ errno, PyExn.UnicodeDecodeError ≠ .ConnectionResetError errno :=
    fun _ h => by cases h
  have hhead : ∀ errno, PyExn.Exception "Invalid head" ≠ .ConnectionResetError errno :=
    fun _ h => by cases h
  rw [Ending.unparse, Ending.readHead, hcut.read]
  cases hdata : decode line with
  | none => exact ⟨_, hdecode, by simp only [Outcome.bind, hdata]⟩
  | some data =>
      cases hmatch : RequestHead_re.match? data with
      | none => exact ⟨_, hhead, by simp only [Outcome.bind, hdata, hmatch, Outcome.ofOption]⟩
      | some way =>
          rcases hbad with hline | hheaders
          · exact absurd ⟨data, way, hdata, hmatch⟩ hline
          · have hread := readHeaders_undecodable hheaders {} (Nat.lt_succ_self _)
            refine ⟨_, hdecode, ?_⟩
            simp only [Outcome.bind, hdata, hmatch, Outcome.ofOption, hread]

/-- **Complete heads are requests.** -/
theorem unparse_complete (h : Complete ending s) :
    ∃ request rest, ending.unparse s = .ok request rest := by
  obtain ⟨line, rest, hcut, ⟨data, way, hdata, hmatch⟩, hheaders⟩ := h
  obtain ⟨headers, rest', hread⟩ := readHeaders_last hheaders {} (Nat.lt_succ_self _)
  rw [Ending.unparse, Ending.readHead, hcut.read]
  simp only [Outcome.bind, hdata, hmatch, Outcome.ofOption, hread]
  exact ⟨_, rest', rfl⟩

/-- There is no other head: else the bytes run out. -/
theorem unparse_cases (ending : Ending) (s : Bytes) :
    Malformed ending s ∨ Complete ending s ∨ RunsOut ending (ending.unparse s) := by
  rcases read_until_cases ending s with ⟨line, rest, hcut⟩ | hout
  · by_cases hline : RequestLine line
    · rcases readHeaders_cases ending rest (rest.length + 1) {} (Nat.lt_succ_self _) with
        hbad | hlast | hout
      · exact Or.inl ⟨line, rest, hcut, Or.inr hbad⟩
      · exact Or.inr (Or.inl ⟨line, rest, hcut, hline, hlast⟩)
      · obtain ⟨data, way, hdata, hmatch⟩ := hline
        rw [Ending.unparse, Ending.readHead, hcut.read]
        simp only [Outcome.bind, hdata, hmatch, Outcome.ofOption]
        exact Or.inr (Or.inr (hout.bind _))
    · exact Or.inl ⟨line, rest, hcut, Or.inl hline⟩
  · exact Or.inr (Or.inr ((hout.bind _).bind _))

end

/-! ## The server with its clients -/

/-- What a client still sends. -/
structure Visitor where
  bytes : Bytes
  ending : Ending
  deriving DecidableEq

/-- `unparse` reads from `c`, answers `r` and leaves `c'`. There are no bytes behind a reset, and
after another exception nobody reads on. -/
def Visitor.Reads (c : Visitor) (r : Except PyExn Request) (c' : Visitor) : Prop :=
  match c.ending.unparse c.bytes with
  | .ok request rest => r = .ok request ∧ c' = { c with bytes := rest }
  | .raised e => r = .error e ∧ c'.bytes = []
  | .blocked => False

/-- The state shared by the workers, and the client of every socket. -/
structure Served (ι : Type) extends Shared ι where
  clients : Sock → Visitor := fun _ => ⟨[], .waits⟩

/-- What an action of worker `i` can answer and do: `accept` comes with any client, whose bytes are
all those that it will ever send, and `unparse` reads from it. -/
def PerformsFor {ι : Type} (i : ι) (s : Served ι) (e : Act) (r : e.Ans) (s' : Served ι) : Prop :=
  Performs i s.toShared e r s'.toShared ∧
    match e, r with
    | .accept, .ok socket => ∃ c, s'.clients = Function.update s.clients socket c
    | .unparse socket, r =>
        if socket ∈ s.closedSockets then r = .error .OSError ∧ s'.clients = s.clients
        else ∃ c, (s.clients socket).Reads r c ∧ s'.clients = Function.update s.clients socket c
    | _, _ => s'.clients = s.clients

/-- The server, with its clients. -/
def served {ι : Type} (srv : Server) : System Actions ι (Served ι) Ctl where
  perform := PerformsFor
  round := round srv

/-- The workers have been started and no client has come. -/
def started {ι : Type} : World Actions ι (Served ι) Ctl := ⟨⟨[], {}⟩, fun _ => .ret (.accept none)⟩

/-- **The server does nothing for its clients that it does not do for any others.** -/
theorem served_refines {ι : Type} (srv : Server) :
    Refines Served.toShared (served (ι := ι) srv) (system srv) where
  perform _ _ _ _ _ h := h.1
  round _ := rfl

/-! ### Schedules -/

section

variable {ι : Type} [DecidableEq ι]

end

end DianProtocol.Py
