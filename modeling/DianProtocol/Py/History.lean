import DianProtocol.Py.Session

set_option autoImplicit false

/-! # What `Session.play` leaves behind

A `Session` keeps its file open and the request of its SETUP. `play` moves the position in the
file, and `play` without a range replaces the body of that request and writes five entries into its
headers, which the next response is built from. The methods are modelled here with these parts of
the session as variables. `play_history_free`: what a call sends, and what it raises, does not
depend on the calls before it, and is what the methods over values of `Py/Session.lean` do.
-/

namespace DianProtocol.Py

open Concurrent

/-! ## The methods and the variables of the session -/

/-- `self.request.headers` and `self.request.body`: the limits of its `FileStreamReader`, `none` for
the body that the request has come with. That one has no limit, so nothing is read when it is
replaced and deleted. -/
structure Stored where
  headers : Dict
  body : Option (Int × Int) := none

/-- The code of a method of a session, with the variables that outlive the call. -/
abbrev Method := Exc Actions Stored PyExn

/-- Code that leaves the variables as they are. -/
def Method.lift {α : Type} (m : Worker α) : Method α :=
  fun x => (m.run ()).bind fun (r, _) => .ret (r, x)

/-- `Response.response` of a 206 response, whose body is a `FileStreamReader` with these limits. -/
def Session.respondFile (s : Session) (headers : Dict) (start stop : Int) : Worker Unit := do
  let r : Response :=
    { status := 206, status_text := text "Partial Content", headers := headers }
  send (.play s.session_id) s.request.sock (encode r.parsehead)
  let read ← perform (.read s.session_id (stop - start))
  let body ← attempt read
  send (.play s.session_id) s.request.sock body

/-- The entries that `play()` writes into the headers. -/
def Session.allHeaders (s : Session) (headers : Dict) : Dict :=
  let size : Int := s.file_size
  playHeaders headers (text "bytes=0-" ++ str size) (str size)
    (text "bytes 0-" ++ str (size - 1) ++ text "/" ++ str size)

/-- `play()` -/
def Session.playAllStored (s : Session) : Method Unit := do
  let size : Int := s.file_size
  -- `FileStreamReader(self.file, (0, self.file_size))`
  let raised ← Method.lift (perform (.seek s.session_id 0))
  match raised with
  | some e => Exc.throw e
  | none =>
      Exc.assign fun x => { x with body := some (0, size) }
      Exc.assign fun x => { x with headers := s.allHeaders x.headers }
      let x ← Exc.vars
      Method.lift (s.respondFile x.headers 0 size)

/-- `play(range)`. With a range the headers of the response are new ones. -/
def Session.playStored (s : Session) (range : Option Text) : Method Unit :=
  match range with
  | none => s.playAllStored
  | some range => if range = [] then s.playAllStored else Method.lift (s.playRange range)

/-! ## The file and the socket -/

/-- How the calls on the file and on the socket end, as long as the file is not changed: what `seek`
and `read` raise at a place, and what becomes of the `i`-th call of `send` in a call of `play`. -/
structure Outside where
  seek : Int → Option PyExn
  read : Nat → Int → Option PyExn
  send : Nat → Bytes → Except PyExn Nat

/-- The file, the position in it, and what has been sent. -/
structure FileSide where
  file : Bytes
  pos : Nat
  sends : Nat := 0
  sent : Bytes := []

/-- The actions of `play`; the others fail. -/
def fileHandler (out : Outside) : (e : Act) → FileSide → e.Ans × FileSide
  | .seek _ pos, x =>
      match out.seek pos with
      | some e => (some e, x)
      | none => (none, { x with pos := pos.toNat })
  | .read _ n, x =>
      match out.read x.pos n with
      | some e => (.error e, x)
      | none =>
          -- a negative number asks for all that is left
          let data := if n < 0 then x.file.drop x.pos else (x.file.drop x.pos).take n.toNat
          (.ok data, { x with pos := x.pos + data.length })
  | .send _ _ data, x =>
      match out.send x.sends data with
      | .error e => (.error e, { x with sends := x.sends + 1 })
      | .ok k => (.ok k, { x with sends := x.sends + 1, sent := x.sent ++ data.take k })
  | .accept, x => (.error .OSError, x)
  | .unparse _, x => (.error .OSError, x)
  | .uuid4, x => (0, x)
  | .auths, x => ([], x)
  | .contains _, x => (false, x)
  | .getitem _ _, x => (none, x)
  | .setitem _ _, x => ((), x)
  | .pop _, x => (none, x)
  | .exists_ _, x => (false, x)
  | .open_ _ _, x => (.error .OSError, x)
  | .closeFile _, x => ((), x)
  | .closeSocket _, x => ((), x)

/-! ## Calls -/

/-- What a `Session` consists of between two calls. -/
structure SessionState where
  stored : Stored
  pos : Nat

namespace Session

/-- A session that `__init__` has just made. -/
def fresh (s : Session) : SessionState := ⟨{ headers := s.request.headers }, 0⟩

/-- One call of `play`: how it ends and what it sends, and what it leaves behind. -/
def playCall (s : Session) (file : Bytes) (x : SessionState) (range : Option Text) (out : Outside) :
    (Except PyExn Unit × Bytes) × SessionState :=
  let ((result, stored), side) :=
    ((s.playStored range).run x.stored).interp (fileHandler out) { file := file, pos := x.pos }
  ((result, side.sent), ⟨stored, side.pos⟩)

/-- The session after a sequence of calls, each with what it met outside. -/
def after (s : Session) (file : Bytes) : SessionState → List (Option Text × Outside) → SessionState
  | x, [] => x
  | x, (range, out) :: calls => s.after file (s.playCall file x range out).2 calls

/-- The same call of the methods over values, on a file that stands at `pos`. -/
def playValue (s : Session) (file : Bytes) (pos : Nat) (range : Option Text) (out : Outside) :
    Except PyExn Unit × Bytes :=
  let ((result, _), side) :=
    ((s.play range).run ()).interp (fileHandler out) { file := file, pos := pos }
  (result, side.sent)

end Session

/-! ## The headers -/

namespace Dict

theorem setItems_self {key value : Text} {items : List (Text × Text)}
    (h : items.lookup key = some value) : setItems key value items = items := by
  induction items with
  | nil => cases h
  | cons kv items ih =>
      obtain ⟨k, v⟩ := kv
      rw [setItems]
      by_cases hk : k = key
      · subst hk
        have hv : v = value := by simpa [List.lookup] using h
        rw [if_pos rfl, hv]
      · have hne : (key == k) = false := by simp [Ne.symm hk]
        rw [List.lookup, hne] at h
        rw [if_neg hk, ih h]

/-- An entry that is there already changes nothing, not even the order. -/
theorem set_self {d : Dict} {key value : Text} (h : d.get? key = some value) :
    d.set key value = d := Dict.ext (setItems_self h)

end Dict

/-- To write the five entries of `play` once more changes nothing. -/
theorem playHeaders_again (headers : Dict) (range length content_range : Text) :
    playHeaders (playHeaders headers range length content_range) range length content_range =
      playHeaders headers range length content_range := by
  generalize hd : playHeaders headers range length content_range = d
  have hrange : d.get? (text "Range") = some range := by
    rw [← hd, playHeaders]
    simp only [Dict.get?_set]
    rfl
  have hlength : d.get? (text "Content-Length") = some length := by
    rw [← hd, playHeaders]
    simp only [Dict.get?_set]
    rfl
  have hcontent : d.get? (text "Content-Range") = some content_range := by
    rw [← hd, playHeaders]
    simp only [Dict.get?_set]
    rfl
  have haccept : d.get? (text "Accept-Ranges") = some (text "bytes") := by
    rw [← hd, playHeaders]
    simp only [Dict.get?_set]
    rfl
  have hconnection : d.get? (text "Connection") = some (text "keep-alive") := by
    rw [← hd, playHeaders]
    simp only [Dict.get?_set]
    rfl
  rw [playHeaders, Dict.set_self hrange, Dict.set_self hlength, Dict.set_self hcontent,
    Dict.set_self haccept, Dict.set_self hconnection]

namespace Session

variable {s : Session} {file : Bytes} {out : Outside}

/-- The headers of the request are those of the SETUP, or those with the five entries of `play`. -/
def Unspoilt (s : Session) (headers : Dict) : Prop :=
  headers = s.request.headers ∨ headers = s.allHeaders s.request.headers

theorem Unspoilt.allHeaders {headers : Dict} (h : s.Unspoilt headers) :
    s.allHeaders headers = s.allHeaders s.request.headers := by
  rcases h with rfl | rfl
  · rfl
  · exact playHeaders_again _ _ _ _

/-! ## One call -/

theorem interp_lift {α τ : Type} (handler : (e : Act) → τ → e.Ans × τ) (m : Worker α) (x : Stored)
    (t : τ) : ((Method.lift m).run x).interp handler t =
      ((((m.run ()).interp handler t).1.1, x), ((m.run ()).interp handler t).2) :=
  Prog.interp_bind handler (m.run ()) _ t

/-- `play` over values: it raises, or it is one response with the bytes of the file. -/
theorem play_cases (s : Session) (range : Option Text) :
    (∃ e, s.play range = Exc.throw e) ∨
      ∃ headers start stop, s.play range = s.sendFile headers start stop := by
  have hint : ∀ t, (∃ e, intOf t = Exc.throw e) ∨ ∃ n, intOf t = pure n := by
    intro t
    unfold intOf
    cases t with
    | none => exact Or.inl ⟨_, rfl⟩
    | some t =>
        dsimp only
        cases int t with
        | none => exact Or.inl ⟨_, rfl⟩
        | some n => exact Or.inr ⟨n, rfl⟩
  have hrange : ∀ range, (∃ e, s.playRange range = Exc.throw e) ∨
      ∃ headers start stop, s.playRange range = s.sendFile headers start stop := by
    intro range
    unfold playRange
    cases Range_re.match? range with
    | none => exact Or.inl ⟨_, rfl⟩
    | some m =>
        dsimp only
        rcases hint (m.group? "start") with ⟨e, hstart⟩ | ⟨start, hstart⟩
        · rw [hstart]
          exact Or.inl ⟨e, rfl⟩
        rw [hstart]
        rcases hint (m.group? "end") with ⟨e, hstop⟩ | ⟨stop, hstop⟩
        · rw [hstop]
          exact Or.inl ⟨e, rfl⟩
        rw [hstop]
        exact Or.inr ⟨_, _, _, rfl⟩
  unfold play
  cases range with
  | none => exact Or.inr ⟨_, _, _, rfl⟩
  | some range =>
      dsimp only
      split
      · exact Or.inr ⟨_, _, _, rfl⟩
      · exact hrange range

theorem sendFile_run (s : Session) (headers : Dict) (start stop : Int) :
    (s.sendFile headers start stop).run () =
      .act (S := Actions) (.seek s.session_id start) fun
        | some e => .ret (.error e, ())
        | none => (s.respondFile headers start stop).run () := by
  refine congrArg (Prog.act (S := Actions) (.seek s.session_id start)) (funext fun raised => ?_)
  cases raised with
  | some e => rfl
  | none => rfl

theorem playAllStored_run (s : Session) (x : Stored) :
    s.playAllStored.run x = .act (S := Actions) (.seek s.session_id 0) fun
        | some e => .ret (.error e, x)
        | none => ((s.respondFile (s.allHeaders x.headers) 0 s.file_size).run ()).bind fun (r, _) =>
            .ret (r, ⟨s.allHeaders x.headers, some (0, (s.file_size : Int))⟩) := by
  refine congrArg (Prog.act (S := Actions) (.seek s.session_id 0)) (funext fun raised => ?_)
  cases raised with
  | some e => rfl
  | none => rfl

/-- `play()` does what it does over values, and leaves the headers as `play()` makes them. -/
theorem interp_playAllStored (out : Outside) {x : Stored} (h : s.Unspoilt x.headers) (t : FileSide) :
    ∃ x', s.Unspoilt x'.headers ∧ (s.playAllStored.run x).interp (fileHandler out) t =
      ((((s.playAll.run ()).interp (fileHandler out) t).1.1, x'),
        ((s.playAll.run ()).interp (fileHandler out) t).2) := by
  have hvalue : s.playAll = s.sendFile (s.allHeaders s.request.headers) 0 s.file_size := rfl
  rw [playAllStored_run, hvalue, sendFile_run, Prog.interp, Prog.interp, h.allHeaders]
  rcases fileHandler out (.seek s.session_id 0) t with ⟨raised, t'⟩
  cases raised with
  | some e => exact ⟨x, h, rfl⟩
  | none => exact ⟨_, Or.inr rfl, Prog.interp_bind _ _ _ _⟩

/-- **A call does what it does over values**, and the headers stay what they may be. -/
theorem playCall_eq {x : SessionState} (h : s.Unspoilt x.stored.headers) (range : Option Text) :
    (s.playCall file x range out).1 = s.playValue file x.pos range out ∧
      s.Unspoilt (s.playCall file x range out).2.stored.headers := by
  have hall : ∀ range, s.playStored range = s.playAllStored → s.play range = s.playAll →
      (s.playCall file x range out).1 = s.playValue file x.pos range out ∧
        s.Unspoilt (s.playCall file x range out).2.stored.headers := by
    intro range hstored hplay
    obtain ⟨x', hx', hrun⟩ := interp_playAllStored out h { file := file, pos := x.pos }
    unfold playCall playValue
    rw [hstored, hplay, hrun]
    exact ⟨rfl, hx'⟩
  cases range with
  | none => exact hall none rfl rfl
  | some range =>
      by_cases hnil : range = []
      · exact hall (some range) (if_pos hnil) (if_pos hnil)
      · have hstored : s.playStored (some range) = Method.lift (s.playRange range) := if_neg hnil
        have hplay : s.play (some range) = s.playRange range := if_neg hnil
        unfold playCall playValue
        rw [hstored, hplay, interp_lift]
        exact ⟨rfl, h⟩

/-- Over values a call does not depend on the place at which it finds the file. -/
theorem playValue_pos (s : Session) (file : Bytes) (pos pos' : Nat) (range : Option Text)
    (out : Outside) : s.playValue file pos range out = s.playValue file pos' range out := by
  unfold playValue
  rcases s.play_cases range with ⟨e, hplay⟩ | ⟨headers, start, stop, hplay⟩
  · rw [hplay]
    rfl
  · rw [hplay, sendFile_run, Prog.interp, Prog.interp]
    cases hseek : out.seek start with
    | some e =>
        simp only [fileHandler, hseek]
        rfl
    | none => simp only [fileHandler, hseek]

/-! ## Sequences of calls -/

theorem unspoilt_after {x : SessionState} (h : s.Unspoilt x.stored.headers)
    (history : List (Option Text × Outside)) :
    s.Unspoilt (s.after file x history).stored.headers := by
  induction history generalizing x with
  | nil => exact h
  | cons call calls ih => exact ih (playCall_eq h call.1).2

/-- Every call after any others does what it does over values. -/
theorem playCall_after (s : Session) (file : Bytes) (history : List (Option Text × Outside))
    (range : Option Text) (out : Outside) :
    (s.playCall file (s.after file s.fresh history) range out).1 = s.playValue file 0 range out :=
  calc (s.playCall file (s.after file s.fresh history) range out).1
      = s.playValue file (s.after file s.fresh history).pos range out :=
        (playCall_eq (unspoilt_after (Or.inl rfl) history) range).1
    _ = s.playValue file 0 range out := playValue_pos s file _ _ range out

/-- **`play` is independent of history**: after any calls, whether they have returned or raised, a
call ends and sends as it does as the first call on a fresh session. -/
theorem play_history_free (s : Session) (file : Bytes) (history : List (Option Text × Outside))
    (range : Option Text) (out : Outside) :
    (s.playCall file (s.after file s.fresh history) range out).1 =
      (s.playCall file s.fresh range out).1 := by
  rw [playCall_after s file history]
  exact (playCall_after s file [] range out).symm

end Session

end DianProtocol.Py
