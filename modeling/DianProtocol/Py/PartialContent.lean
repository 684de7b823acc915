import DianProtocol.Py.Delivery

set_option autoImplicit false

/-! # The partial content of the Python server

`Session.play` answers a range with what the client decodes as a response 206: its head, and the
bytes of the body behind it. Both ends of a range are inclusive and the second one may be missing in
the text. `play_interval_iff` says for which ranges the answer is the interval that was asked for:
the second end must be there, must not be zero, which stands for a missing one, and must not lie
behind the file, because it is announced as it is.
-/

namespace DianProtocol.Py

open Concurrent Regex

/-- The actions of a worker on its own, when `send` transfers all its data. -/
def wholeHandler (socket : Sock) : (e : Act) → Side → e.Ans × Side
  | .send _ dest data, x =>
      (.ok data.length, { x with sent := if dest = socket then x.sent ++ data else x.sent })
  | e, x => handler socket e x

/-- What `Session.play` does with a file: its result, and what it sends. -/
def Session.playSent (s : Session) (file : Bytes) (range : Text) : Except PyExn Unit × Bytes :=
  let (result, x) := ((s.play (some range)).run ()).interp (wholeHandler s.request.sock)
    { sessions := fun _ => none, file := file, accepts := [] }
  (result.1, x.sent)

/-- The pattern of `play` matches the text with these numbers; `none` is a missing end. -/
def RangeText (range : Text) (start : Nat) (stop : Option Nat) : Prop :=
  ∃ m first, Range_re.match? range = some m ∧ m.group? "start" = some first ∧
    int first = some (start : Int) ∧ match stop with
      | none => m.group? "end" = none
      | some stop => ∃ last, m.group? "end" = some last ∧ int last = some (stop : Int)

/-- `play` sends exactly one response: it is a 206, its `Content-Length` is the number of the bytes
behind its head, and these are the bytes of the file from `start` to `last`. -/
structure PlaysInterval (s : Session) (file : Bytes) (range : Text) (start last : Nat) : Prop where
  returns : (s.playSent file range).1 = .ok ()
  sends : ∃ received, Response.unparse (s.playSent file range).2 =
      .ok received ((file.drop start).take (last + 1 - start)) ∧
    received.status = 206 ∧
    received.headers.get? (text "Content-Length") =
      some (str ((file.drop start).take (last + 1 - start)).length)

/-- The response of `Session.play(range)`, without its body. -/
def Session.rangeResponse (s : Session) (start stop : Int) : Response where
  status := 206
  status_text := text "Partial Content"
  headers := playHeaders {} (text "bytes=" ++ str start ++ text "-" ++ str stop)
    (str (stop - start + 1))
    (text "bytes " ++ str start ++ text "-" ++ str stop ++ text "/" ++ str s.file_size)

section

variable {s : Session} {file : Bytes} {range : Text} {start : Nat}

theorem interp_wholeSend (origin : Origin) (socket : Sock) (data : Bytes) (x : Side) :
    ((send origin socket data).run ()).interp (wholeHandler socket) x =
      ((.ok (), ()), { x with sent := x.sent ++ data }) := by
  have hperform : ((perform (.send origin socket data)).run ()).interp (wholeHandler socket) x =
      ((.ok (.ok data.length), ()), { x with sent := x.sent ++ data }) := by
    show ((_, ()), { x with sent := if socket = socket then _ else _ }) = _
    rw [if_pos rfl]
    rfl
  rw [send, Exc.interp_bind hperform]
  rfl

/-- A worker sends the head of the response and the bytes of the file. -/
theorem interp_sendFile (headers : Dict) (start stop : Int) :
    ((s.sendFile headers start stop).run ()).interp (wholeHandler s.request.sock)
        { sessions := fun _ => none, file := file, accepts := [] } =
      ((.ok (), ()),
        { sessions := fun _ => none, file := file, accepts := [],
          pos := start.toNat + ((file.drop start.toNat).take (stop - start).toNat).length,
          sent := encode ({ status := 206, status_text := text "Partial Content",
                            headers := headers } : Response).parsehead
            ++ (file.drop start.toNat).take (stop - start).toNat }) := by
  have hseek : ((perform (.seek s.session_id start)).run ()).interp (wholeHandler s.request.sock)
      { sessions := fun _ => none, file := file, accepts := [] } =
      ((.ok none, ()),
        { sessions := fun _ => none, file := file, accepts := [], pos := start.toNat }) := rfl
  have hread : ∀ sent : Bytes,
      ((perform (.read s.session_id (stop - start))).run ()).interp (wholeHandler s.request.sock)
        { sessions := fun _ => none, file := file, accepts := [], pos := start.toNat,
          sent := sent } =
      ((.ok (.ok ((file.drop start.toNat).take (stop - start).toNat)), ()),
        { sessions := fun _ => none, file := file, accepts := [],
          pos := start.toNat + ((file.drop start.toNat).take (stop - start).toNat).length,
          sent := sent }) := fun sent => rfl
  rw [Session.sendFile, Exc.interp_bind hseek]
  dsimp only
  rw [Exc.interp_bind (interp_wholeSend _ _ _ _), Exc.interp_bind (hread _)]
  exact interp_wholeSend _ _ _ _

end

/-! ## The numbers of a range -/

/-- Every text that the pattern matches has a start, and an end or none. -/
theorem rangeText_of_match {range : Text} {m : Way Char} (h : Range_re.match? range = some m) :
    ∃ start stop, RangeText range start stop := by
  obtain ⟨s₀, -, x₀, hx₀, hm⟩ := mem_literal.mp (List.mem_of_head? h)
  obtain ⟨blanks, hblanks, x₁, hx₁, rfl⟩ := mem_seq.mp hx₀
  obtain ⟨_, _, -, -, -, rfl⟩ := mem_rep.mp hblanks
  obtain ⟨equals, hequals, x₂, hx₂, rfl⟩ := mem_seq.mp hx₁
  obtain ⟨_, _, -, -, rfl⟩ := mem_one.mp hequals
  obtain ⟨blanks', hblanks', x₃, hx₃, rfl⟩ := mem_seq.mp hx₂
  obtain ⟨_, _, -, -, -, rfl⟩ := mem_rep.mp hblanks'
  obtain ⟨first, hfirst, x₄, hx₄, rfl⟩ := mem_seq.mp hx₃
  obtain ⟨digits, hdigits, rfl⟩ := mem_group.mp hfirst
  obtain ⟨d, _, -, hd, hdne, rfl⟩ := mem_rep.mp hdigits
  obtain ⟨dash, hdash, x₅, hx₅, rfl⟩ := mem_seq.mp hx₄
  obtain ⟨_, _, -, -, rfl⟩ := mem_one.mp hdash
  obtain ⟨last, hlast, x₆, hx₆, rfl⟩ := mem_seq.mp hx₅
  obtain ⟨blanks'', hblanks'', x₇, hx₇, rfl⟩ := mem_seq.mp hx₆
  obtain ⟨_, _, -, -, -, rfl⟩ := mem_rep.mp hblanks''
  obtain ⟨-, rfl⟩ := mem_eol.mp hx₇
  have hint := int_of_isDigit (List.ne_nil_of_length_pos hdne) hd
  have hall : m.groups = ("start", d) :: last.groups := by
    rw [hm]
    simp [Way.append]
  have hstart : m.group? "start" = some d := by
    rw [Way.group?, hall]
    simp [List.lookup]
  rw [results_opt] at hlast
  rcases List.mem_append.mp hlast with hlast | hlast
  · -- with an end
    obtain ⟨digits', hdigits', rfl⟩ := mem_group.mp hlast
    obtain ⟨d', _, -, hd', hdne', rfl⟩ := mem_rep.mp hdigits'
    refine ⟨_, some _, m, d, h, hstart, hint, d', ?_,
      int_of_isDigit (List.ne_nil_of_length_pos hdne') hd'⟩
    rw [Way.group?, hall]
    simp [List.lookup]
  · -- without
    rw [List.mem_singleton.mp hlast] at hall
    refine ⟨_, none, m, d, h, hstart, hint, ?_⟩
    show m.group? "end" = none
    rw [Way.group?, hall]
    simp [List.lookup]

/-! ## What `play` sends -/

section

variable {s : Session} {file : Bytes} {range : Text} {start : Nat}

theorem length_natCast {start stop : Nat} (hle : start ≤ stop) :
    (stop : Int) - start + 1 = ((stop + 1 - start : Nat) : Int) := by
  omega

theorem rangeResponse_legal (s : Session) {start stop : Nat} (hle : start ≤ stop) :
    LegalHeaders (s.rangeResponse start stop).headers := by
  have hempty : LegalHeaders {} := fun item hitem => by cases hitem
  have hrange :
      LegalValue (text "bytes=" ++ str (start : Int) ++ text "-" ++ str (stop : Int)) := by
    have hfixed : '\n' ∉ text "bytes=" ∧ '\n' ∉ text "-" := by decide
    exact legalValue_number _ (by simp [hfixed, lf_not_mem_str]) rfl
  have hlength : LegalValue ([] ++ str ((stop + 1 - start : Nat) : Int)) :=
    legalValue_number _ (by simp) rfl
  have hcontent : LegalValue (text "bytes " ++ str (start : Int) ++ text "-" ++ str (stop : Int)
      ++ text "/" ++ str (s.file_size : Int)) := by
    have hfixed : '\n' ∉ text "bytes " ∧ '\n' ∉ text "-" ∧ '\n' ∉ text "/" := by decide
    exact legalValue_number _ (by simp [hfixed, lf_not_mem_str]) rfl
  rw [Session.rangeResponse, length_natCast hle]
  exact playHeaders_legal hempty hrange hlength hcontent

/-- The client reads the head of a response to a range. -/
theorem unparse_rangeResponse (s : Session) {start stop : Nat} (hle : start ≤ stop) (rest : Bytes) :
    ∃ version status_text,
      Response.unparse (encode (s.rangeResponse start stop).parsehead ++ rest) =
      .ok ⟨version, 206, status_text, (s.rangeResponse start stop).headers,
        { max_read := (stop + 1 - start : Nat) }⟩ rest := by
  refine unparse_partialContent (rangeResponse_legal s hle) rfl rfl rfl ?_ rest
  rw [← length_natCast hle]
  exact playHeaders_length _ _ _ _

theorem rangeText_ne_nil {stop : Option Nat} (h : RangeText range start stop) : range ≠ [] := by
  rintro rfl
  obtain ⟨m, first, hmatch, -⟩ := h
  have hnone : Range_re.match? [] = none := by decide
  rw [hnone] at hmatch
  cases hmatch

/-- A number in the text. -/
theorem interp_intOf {socket : Sock} {t : Text} {n : Int} (h : int t = some n) (x : Side) :
    ((intOf (some t)).run ()).interp (wholeHandler socket) x = ((.ok n, ()), x) := by
  unfold intOf
  dsimp only
  rw [h]
  rfl

/-- A missing end makes `play` raise before it sends anything. -/
theorem playSent_open (hrange : RangeText range start none) :
    s.playSent file range = (.error .TypeError, []) := by
  have hne := rangeText_ne_nil hrange
  obtain ⟨m, first, hmatch, hfirst, hint, hend⟩ := hrange
  have hplay : s.play (some range) = s.playRange range := if_neg hne
  unfold Session.playSent
  rw [hplay, Session.playRange, hmatch]
  dsimp only
  rw [hfirst, Exc.interp_bind (interp_intOf hint _), hend]
  rfl

/-- With an end, `play` sends the head of its response and the bytes up to the end. -/
theorem playSent_closed {stop stop' : Nat} (hrange : RangeText range start (some stop))
    (hstop : stop' = if stop = 0 then s.file_size + 1 else stop) :
    s.playSent file range = (.ok (), encode (s.rangeResponse start stop').parsehead ++
      (file.drop start).take (stop' + 1 - start)) := by
  have hne := rangeText_ne_nil hrange
  obtain ⟨m, first, hmatch, hfirst, hint, last, hlast, hint'⟩ := hrange
  have hplay : s.play (some range) = s.playRange range := if_neg hne
  have hzero : (if (stop : Int) = 0 then (s.file_size : Int) + 1 else stop) = stop' := by
    rw [hstop]
    split <;> split <;> omega
  have hcount : ((stop' : Int) + 1 - start).toNat = stop' + 1 - start := by omega
  unfold Session.playSent
  rw [hplay, Session.playRange, hmatch]
  dsimp only
  rw [hfirst, Exc.interp_bind (interp_intOf hint _), hlast, Exc.interp_bind (interp_intOf hint' _),
    hzero, interp_sendFile]
  dsimp only
  rw [hcount, Int.toNat_natCast]
  rfl

theorem rangeResponse_length (s : Session) {start stop : Nat} (hle : start ≤ stop) :
    (s.rangeResponse start stop).headers.get? (text "Content-Length") =
      some (str ((stop + 1 - start : Nat) : Int)) := by
  rw [← length_natCast hle]
  exact playHeaders_length _ _ _ _

/-- An interval is answered only if it has an end that is not zero and lies in the file. -/
theorem PlaysInterval.end_lt {stop : Option Nat} {last : Nat} (hsize : s.file_size = file.length)
    (hrange : RangeText range start stop) (hstart : start < file.length)
    (hle : ∀ e, stop = some e → start ≤ e) (h : PlaysInterval s file range start last) :
    ∃ e, stop = some e ∧ e ≠ 0 ∧ e < file.length := by
  cases stop with
  | none =>
      -- nothing is sent
      have hok := h.returns
      rw [playSent_open hrange] at hok
      cases hok
  | some e =>
      have hse := hle e rfl
      obtain ⟨stop', hstop⟩ : ∃ stop', stop' = if e = 0 then s.file_size + 1 else e := ⟨_, rfl⟩
      have hle' : start ≤ stop' := by
        rw [hstop]
        split <;> omega
      obtain ⟨version, status_text, hunparse⟩ := unparse_rangeResponse s hle'
        ((file.drop start).take (stop' + 1 - start))
      obtain ⟨received, hreceived, -, hget⟩ := h.sends
      rw [playSent_closed hrange hstop] at hreceived
      obtain ⟨rfl, hbody⟩ := Outcome.ok.inj (hunparse.symm.trans hreceived)
      rw [← hbody] at hget
      -- the announced number is the number of bytes
      have hint := congrArg int (Option.some.inj ((rangeResponse_length s hle').symm.trans hget))
      rw [int_str, int_str] at hint
      have hcount := Int.ofNat.inj (Option.some.inj hint)
      rw [List.length_take, List.length_drop] at hcount
      refine ⟨e, rfl, ?_, ?_⟩
      · rintro rfl
        rw [if_pos rfl] at hstop
        omega
      · by_contra hlarge
        rw [if_neg (by omega)] at hstop
        omega

/-- **When partial content is right.** For a range that starts in the file, `play` sends exactly
one response with the bytes of the interval, and announces their number, if and only if the range
has an end that is not zero and lies in the file. -/
theorem play_interval_iff {stop : Option Nat} (hsize : s.file_size = file.length)
    (hrange : RangeText range start stop) (hstart : start < file.length)
    (hle : ∀ e, stop = some e → start ≤ e) :
    PlaysInterval s file range start (min (stop.getD (file.length - 1)) (file.length - 1)) ↔
      ∃ e, stop = some e ∧ e ≠ 0 ∧ e < file.length := by
  constructor
  · exact PlaysInterval.end_lt hsize hrange hstart hle
  · rintro ⟨e, rfl, hne, hlt⟩
    have hle' := hle e rfl
    have hsent := @playSent_closed s file range start e e hrange (if_neg hne).symm
    obtain ⟨version, status_text, hunparse⟩ := unparse_rangeResponse s hle'
      ((file.drop start).take (e + 1 - start))
    have hmin : min ((some e).getD (file.length - 1)) (file.length - 1) = e := by
      rw [Option.getD_some]
      omega
    have hcount : ((file.drop start).take (e + 1 - start)).length = e + 1 - start := by
      rw [List.length_take, List.length_drop]
      omega
    rw [hmin]
    refine ⟨by rw [hsent], _, by rw [hsent]; exact hunparse, rfl, ?_⟩
    rw [hcount]
    exact rangeResponse_length s hle'

end

/-! ### Ranges of a file of four bytes -/

/-- The session of a file of four bytes. -/
def fourByteSession : Session where
  socket := 0
  session_id := 0
  request := { url := text "diantp://a/b", sock := 0 }
  file_size := 4

theorem play_interval_middle :
    PlaysInterval fourByteSession [97, 98, 99, 100] (text "npt=1-3") 1 3 := by
  have hrange : RangeText (text "npt=1-3") 1 (some 3) :=
    ⟨_, _, rfl, rfl, by decide, _, rfl, by decide⟩
  exact (play_interval_iff rfl hrange (by decide) fun e he => by cases he; decide).mpr
    ⟨3, rfl, by decide, by decide⟩

/-- The ranges `npt=1-`, `npt=0-0` and `npt=1-4` of four bytes: the first one raises and is not
answered, the others are announced with more bytes than there are. -/
theorem play_interval_fails :
    (RangeText (text "npt=1-") 1 none ∧
      ¬ PlaysInterval fourByteSession [97, 98, 99, 100] (text "npt=1-") 1 3) ∧
    (RangeText (text "npt=0-0") 0 (some 0) ∧
      ¬ PlaysInterval fourByteSession [97, 98, 99, 100] (text "npt=0-0") 0 0) ∧
    (RangeText (text "npt=1-4") 1 (some 4) ∧
      ¬ PlaysInterval fourByteSession [97, 98, 99, 100] (text "npt=1-4") 1 3) := by
  have hopen : RangeText (text "npt=1-") 1 none := ⟨_, _, rfl, rfl, by decide, rfl⟩
  have hzero : RangeText (text "npt=0-0") 0 (some 0) :=
    ⟨_, _, rfl, rfl, by decide, _, rfl, by decide⟩
  have hfour : RangeText (text "npt=1-4") 1 (some 4) :=
    ⟨_, _, rfl, rfl, by decide, _, rfl, by decide⟩
  refine ⟨⟨hopen, fun h => ?_⟩, ⟨hzero, fun h => ?_⟩, ⟨hfour, fun h => ?_⟩⟩
  · obtain ⟨e, he, -⟩ := h.end_lt rfl hopen (by decide) fun e he => by cases he
    cases he
  · obtain ⟨e, he, hne, -⟩ := h.end_lt rfl hzero (by decide) fun e he => by cases he; decide
    cases he
    exact hne rfl
  · obtain ⟨e, he, -, hlt⟩ := h.end_lt rfl hfour (by decide) fun e he => by cases he; decide
    cases he
    exact absurd hlt (by decide)

end DianProtocol.Py
