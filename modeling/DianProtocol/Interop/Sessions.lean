import DianProtocol.Cpp.RangeHeader
import DianProtocol.Interop.Conversation

set_option autoImplicit false

/-! # Sessions of the Python client at the C++ server

A server that asks for credentials takes them from two headers of a SETUP, and the client sends one
of them only: no session is ever opened (`nobody_admitted`). A server that does not ask for them
serves whole sessions, and each PLAY gets the bytes that it asks for (`session_served`).
-/

namespace DianProtocol.Interop

open Concurrent Channels Py.Client

theorem method_eq {call : Call} {c : Py.Client} {name : String} (h : call.method = Py.text name) :
    (arrived (call.request c)).method = Cpp.str name := by
  rw [method_arrived, h, str_encode]
  rfl

/-! ## A server that asks for credentials -/

/-- A call returns when it is OPTIONS, and raises otherwise. -/
def Refused (call : Call) (result : Result) : Prop :=
  (∃ value, result = .ok value) ↔ call = .options

section

variable {inst : Cpp.Installation} {st : Cpp.Store inst} {c c' : Py.ClientState} {call : Call}
  {made : List Call} {results : List Result} {s s' : Option (Cpp.Store inst)}

/-- Without a session every request but OPTIONS is refused. -/
theorem serve_refused (hauth : inst.enable_auth = true) (hempty : st.sessions = ∅)
    {reply : Cpp.Reply} (h : inst.serve st (arrived (call.request c.toClient)) = (reply, s)) :
    (call = .options ∧ reply.response.status = 200 ∨
      call ≠ .options ∧ 400 ≤ reply.response.status) ∧
      ∀ st', s = some st' → st'.sessions = ∅ := by
  have hnot : ∀ key : Cpp.Str, key ∉ st.sessions := by
    intro key
    rw [hempty]
    exact Std.ExtTreeMap.not_mem_empty
  have hsame : ∀ st' : Cpp.Store inst, some st = some st' → st'.sessions = ∅ := by
    intro st' heq
    cases heq
    exact hempty
  cases call with
  | options =>
      rw [Cpp.Installation.serve_options (method_eq rfl)] at h
      cases h
      exact ⟨Or.inl ⟨rfl, rfl⟩, hsame⟩
  | setup auth =>
      rw [Cpp.Installation.serve_setup (method_eq rfl)] at h
      split at h
      · cases h
        exact ⟨Or.inr ⟨by simp, (by decide : (400 : Int) ≤ 500)⟩, fun st' heq => by cases heq⟩
      · rw [if_pos hauth] at h
        cases h
        refine ⟨Or.inr ⟨by simp, (by decide : (400 : Int) ≤ 401)⟩, fun st' heq => ?_⟩
        cases heq
        exact hempty
  | play range =>
      rw [Cpp.Installation.serve_play (method_eq rfl), if_neg (hnot _)] at h
      cases h
      exact ⟨Or.inr ⟨by simp, (by decide : (400 : Int) ≤ 454)⟩, hsame⟩
  | teardown =>
      rw [Cpp.Installation.serve_teardown (method_eq rfl), if_neg (hnot _)] at h
      cases h
      exact ⟨Or.inr ⟨by simp, (by decide : (400 : Int) ≤ 454)⟩, hsame⟩

theorem refused_of_status {received : Py.Received} {body : Py.Bytes}
    (h : call = .options ∧ received.status = 200 ∨ call ≠ .options ∧ 400 ≤ received.status) :
    Refused call (call.result (.ok (received, body))) := by
  unfold Refused
  rcases h with ⟨rfl, hstatus⟩ | ⟨hne, hstatus⟩
  · have haccepts : Call.options.Accepts received.status := hstatus
    simp only [Call.result, haccepts, not_true_eq_false, if_false, iff_true]
    exact ⟨_, rfl⟩
  · have hrefuses : ¬ call.Accepts received.status := by
      cases call with
      | play range =>
          show ¬ (received.status = 200 ∨ received.status = 206)
          omega
      | _ =>
          show ¬ received.status = 200
          omega
    simp [Call.result, hrefuses, hne]

theorem Remote.refused (h : Remote inst c s made results c' s') (hauth : inst.enable_auth = true)
    (hs : ∀ st, s = some st → st.sessions = ∅) :
    List.Forall₂ Refused made results ∧ ∀ st, s' = some st → st.sessions = ∅ := by
  induction h with
  | done => exact ⟨.nil, hs⟩
  | cons hserve hshows _ ih =>
      obtain ⟨hstatus, hempty⟩ := serve_refused hauth (hs _ rfl) hserve
      rw [← hshows.status] at hstatus
      obtain ⟨hrefused, hend⟩ := ih hempty
      exact ⟨.cons (refused_of_status hstatus) hrefused, hend⟩

end

theorem decimal_encode {t : Py.Text} (hne : t ≠ []) (h : ∀ c ∈ t, c.isDigit) :
    Cpp.Decimal (Py.encode t) := by
  refine ⟨fun hnil => hne (Py.encode_injective hnil), fun b hb => ?_⟩
  obtain ⟨c, hc, hb⟩ := List.mem_flatMap.mp hb
  obtain ⟨hbyte, hnat, hlow, hhigh⟩ := utf8EncodeChar_digit (h c hc)
  rw [hbyte, List.mem_singleton] at hb
  subst hb
  simp only [Cpp.isdigit, Bool.and_eq_true, decide_eq_true_eq, UInt8.le_iff_toNat_le]
  rw [hnat]
  exact ⟨hlow, hhigh⟩

theorem stoi_str {n : Nat} (h : n < 2 ^ 31) :
    Cpp.Decimal (Py.encode (Py.str n)) ∧ Cpp.stoi (Py.encode (Py.str n)) = .ok (n : Int) := by
  have hdecimal : Cpp.Decimal (Py.encode (Py.str n)) :=
    decimal_encode (Py.str_ne_nil n) fun c hc => Py.str_isDigit hc
  have hvalue : Cpp.digitsVal (Py.encode (Py.str n)) = n := by
    rw [digitsVal_encode fun c hc => Py.str_isDigit hc, Py.str_natCast,
      Nat.ofDigitChars_ten_toDigits]
  have hstoi := hdecimal.stoi_ok (by omega)
  rw [hvalue] at hstoi
  exact ⟨hdecimal, hstoi⟩

/-- The `range` of a PLAY for an interval, both ends included. -/
def rangeText (first last : Nat) : Py.Text :=
  Py.text "npt=" ++ (Py.str first ++ '-' :: Py.str last)

/-- A PLAY for the whole file, or for an interval of it. -/
def playCall : Option (Nat × Nat) → Call
  | none => .play none
  | some (first, last) => .play (some (rangeText first last))

/-- What a PLAY asks for. -/
def asked (bytes : Cpp.Str) : Option (Nat × Nat) → Cpp.Str
  | none => bytes
  | some (first, last) => (bytes.drop first).take (last - first + 1)

def playStatus : Option (Nat × Nat) → Int
  | none => 200
  | some _ => 206

/-- The interval lies in a file of `n` bytes, and its numbers are `int`s. -/
def Inside (n : Nat) : Option (Nat × Nat) → Prop
  | none => True
  | some (first, last) => first ≤ last ∧ last < n ∧ last < 2 ^ 31 - 1

/-- A PLAY returns exactly what it asks for. -/
def Played (bytes : Cpp.Str) (interval : Option (Nat × Nat)) (result : Result) : Prop :=
  ∃ received, result = .ok (some (received, .ok (asked bytes interval))) ∧
    received.status = playStatus interval

/-- A server that asks for no credentials and has this file at the url. -/
structure Serves (inst : Cpp.Installation) (url : Py.Text) (file : Cpp.File) : Prop where
  openly : inst.enable_auth = false
  found : ∃ uri, Cpp.getURI (Py.encode url) = .ok uri ∧
    inst.files (Cpp.filepath inst.toMachine uri) = some file
  plain : inst._WIN32 = true → ∀ i, ¬ Cpp.Altered file.bytes i

theorem rangeOf_rangeText {machine : Cpp.Machine} {first last : Nat} (hfirst : first < 2 ^ 31)
    (hlast : last < 2 ^ 31) : Cpp.rangeOf machine (Py.encode (rangeText first last)) =
      .ok (some ((first : Int), (last : Int))) := by
  obtain ⟨hs, hstart⟩ := stoi_str hfirst
  obtain ⟨he, hend⟩ := stoi_str hlast
  have hpre : Py.encode (Py.text "npt=") = Cpp.str "npt=" := (str_encode _).symm
  have hdash : Py.encode ('-' :: Py.str last) = 45 :: Py.encode (Py.str last) :=
    List.flatMap_cons (f := String.utf8EncodeChar)
  have hparts := hs.parts he
  rw [← Cpp.npt_drop (Py.encode (Py.str first) ++ 45 :: Py.encode (Py.str last))] at hparts
  rw [rangeText, Py.encode_append, Py.encode_append, hpre, hdash,
    Cpp.rangeOf_parts (List.prefix_append _ _) hparts, hstart, hend]
  rfl

section

variable {inst : Cpp.Installation} {st : Cpp.Store inst} {c c' : Py.ClientState}
  {file : Cpp.File} {interval : Option (Nat × Nat)} {plays : List (Option (Nat × Nat))}

theorem rangeText_fits {first last : Nat} (hfirst : first < 2 ^ 31) (hlast : last < 2 ^ 31) :
    Fits (rangeText first last) := by
  have hlen : ∀ n : Nat, n < 2 ^ 31 → (Py.str n).length ≤ 10 := fun n hn =>
    length_str_le (by decide) (by omega)
  have hspace : ∀ d ∈ Py.text "npt=", Py.isspace d = false := by
    simp [Py.text, Py.isspace]
  have hnul : '\x00' ∉ Py.text "npt=" := by decide
  refine fits_of_visible (fun d hd => ?_) ?_
  · simp only [rangeText, List.mem_append, List.mem_cons] at hd
    rcases hd with hd | hd | rfl | hd
    · exact ⟨hspace d hd, fun heq => hnul (heq ▸ hd)⟩
    · exact visible_digit (Py.str_isDigit hd)
    · decide
    · exact visible_digit (Py.str_isDigit hd)
  · have hfirst' := hlen first hfirst
    have hlast' := hlen last hlast
    have hpre' : (Py.text "npt=").length = 4 := by decide
    simp only [rangeText, List.length_append, List.length_cons]
    omega

theorem given_rangeText (first last : Nat) :
    given (some (rangeText first last)) = some (rangeText first last) := by
  have hne : rangeText first last ≠ [] := by simp [rangeText]
  simp [given, hne]

/-- The PLAYs of a session are calls that the server answers. -/
theorem playCall_legal {url : Py.Text} (hserves : Serves inst url file)
    (hinside : Inside file.bytes.length interval) :
    CallFits (playCall interval) ∧ Playable inst.toMachine url (playCall interval) := by
  obtain ⟨uri, huri, hfile⟩ := hserves.found
  have hsame : ∀ uri' file', Cpp.getURI (Py.encode url) = .ok uri' →
      inst.files (Cpp.filepath inst.toMachine uri') = some file' → file' = file := by
    intro uri' file' huri' hfile'
    rw [huri] at huri'
    cases huri'
    rw [hfile] at hfile'
    cases hfile'
    rfl
  cases interval with
  | none =>
      refine ⟨fun range' hgiven => (by cases hgiven), fun uri' file' huri' hfile' => ?_⟩
      rw [hsame uri' file' huri' hfile']
      exact ⟨hserves.plain, fun range' _ _ hgiven => by cases hgiven⟩
  | some bounds =>
      obtain ⟨first, last⟩ := bounds
      obtain ⟨hle, hlt, hmax⟩ := hinside
      constructor
      · intro range' hgiven
        rw [given_rangeText] at hgiven
        cases hgiven
        exact rangeText_fits (by omega) (by omega)
      · intro uri' file' huri' hfile'
        rw [hsame uri' file' huri' hfile']
        refine ⟨hserves.plain, fun range' start end_ hgiven hnumbers => ?_⟩
        rw [given_rangeText] at hgiven
        cases hgiven
        rw [rangeOf_rangeText (by omega) (by omega)] at hnumbers
        cases hnumbers
        exact ⟨by omega, by omega⟩

/-! ## The calls of a session -/

theorem session_arrived {call : Call} (hfits : FitHeaders (call.request c.toClient).headers)
    (hnames : call.NamesSession) :
    (arrived (call.request c.toClient)).headers.getD (Cpp.str "Session") [] =
      Py.encode c.session := by
  have hget := header_arrived hfits "Session"
  rw [Call.request_session hnames c.toClient] at hget
  rw [Std.ExtTreeMap.getD_eq_getD_getElem?, hget]
  rfl

theorem url_arrived (call : Call) (c : Py.Client) :
    (arrived (call.request c)).url = Py.encode c.url :=
  congrArg Py.encode (call.request_line c).2.1

theorem intervalReply_inside {response : Cpp.Response} {range : Cpp.Str} {first last : Nat}
    (h : Inside file.bytes.length (some (first, last))) : ∃ response',
    Cpp.intervalReply response file range first last =
      .of response' (asked file.bytes (some (first, last))) ∧ response'.status = 206 := by
  obtain ⟨hle, hlt, hmax⟩ := h
  have hcount : ((last : Int) - first + 1).toNat = last - first + 1 := by omega
  refine ⟨((response.set "Range" range).set "Content-Range"
    (Cpp.contentRange first last file.bytes.length)).withStatus 206 "Partial Content", ?_, rfl⟩
  unfold Cpp.intervalReply
  rw [if_neg (by omega), if_neg, hcount]
  · rfl
  · rw [Cpp.size_t_of_nonneg (by omega) (by omega), Cpp.size_t_of_nonneg (by omega) (by omega)]
    omega

/-- The answer to a PLAY, when the file is there. -/
theorem playReply_found (hserves : Serves inst c.url file) {range : Option Py.Text}
    (hfits : FitHeaders ((Call.play range).request c.toClient).headers)
    (response : Cpp.Response) :
    inst.toMachine.playReply (arrived ((Call.play range).request c.toClient)) response =
      match given range with
      | none => .ok (.of (response.withStatus 200 "OK") file.bytes)
      | some range => (Cpp.rangeOf inst.toMachine (Py.encode range)).map fun
        | none => { response := response.withStatus 400 "Bad Request" }
        | some (start, end_) =>
            Cpp.intervalReply response file (Py.encode range) start end_ := by
  obtain ⟨uri, huri, hfile⟩ := hserves.found
  have hrange := header_arrived hfits "Range"
  have hget : ((Call.play range).request c.toClient).headers.get? (Py.text "Range") =
      given range := Py.rangeRequest_range _ _
  rw [hget] at hrange
  unfold Cpp.Machine.playReply
  rw [url_arrived, huri]
  dsimp only [Except.bind]
  rw [hfile]
  dsimp only
  rw [hrange]
  cases given range with
  | none => rfl
  | some range => rfl

theorem serve_stored {range : Option Py.Text}
    (hfits : FitHeaders ((Call.play range).request c.toClient).headers)
    (hstored : Py.encode c.session ∈ st.sessions) {reply : Cpp.Reply}
    (hreply : inst.toMachine.playReply (arrived ((Call.play range).request c.toClient))
      (Cpp.Installation.playResponse (arrived ((Call.play range).request c.toClient))
        (Py.encode c.session)) = .ok reply) :
    inst.serve st (arrived ((Call.play range).request c.toClient)) = (reply, some st.play) := by
  rw [Cpp.Installation.serve_play (method_eq rfl), session_arrived hfits trivial, if_pos hstored,
    hreply]

/-- A PLAY of a session is answered with what it asks for. -/
theorem serve_plays (hserves : Serves inst c.url file) (hinside : Inside file.bytes.length interval)
    (hfits : FitHeaders ((playCall interval).request c.toClient).headers)
    (hstored : Py.encode c.session ∈ st.sessions) :
    ∃ response, inst.serve st (arrived ((playCall interval).request c.toClient)) =
      (.of response (asked file.bytes interval), some st.play) ∧
      response.status = playStatus interval := by
  cases interval with
  | none =>
      exact ⟨_, serve_stored hfits hstored (playReply_found hserves hfits _), rfl⟩
  | some bounds =>
      obtain ⟨first, last⟩ := bounds
      have hfound := playReply_found hserves hfits (Cpp.Installation.playResponse
        (arrived ((playCall (some (first, last))).request c.toClient)) (Py.encode c.session))
      rw [given_rangeText] at hfound
      dsimp only at hfound
      obtain ⟨hle, hlt, hmax⟩ := id hinside
      rw [rangeOf_rangeText (by omega) (by omega)] at hfound
      obtain ⟨response, hreply, hstatus⟩ := intervalReply_inside hinside
      exact ⟨response, serve_stored hfits hstored (hfound.trans (congrArg _ hreply)), hstatus⟩

theorem result_play {range : Option Py.Text} {received : Py.Received} {body : Py.Bytes}
    (h : received.status = 200 ∨ received.status = 206) :
    (Call.play range).result (.ok (received, body)) = .ok (some (received, .ok body)) :=
  if_neg (not_not.mpr h)

theorem next_play {range : Option Py.Text} {received : Py.Received} {body : Py.Bytes} :
    (Call.play range).next c (.ok (received, body)) = c := by
  simp only [Call.next, Call.judge]
  split <;> rfl

/-- The first of some calls has been made, when the server still serves the connection. -/
theorem Remote.head {call : Call} {calls made rest : List Call} {results : List Result}
    {s' : Option (Cpp.Store inst)} (h : Remote inst c (some st) made results c' s')
    (hend : rest = [] ∨ s' = none) (hsplit : call :: calls = made ++ rest) :
    ∃ made' reply received results' s, calls = made' ++ rest ∧ made = call :: made' ∧
      results = call.result (.ok (received, reply.content)) :: results' ∧
      inst.serve st (arrived (call.request c.toClient)) = (reply, s) ∧ Shows reply received ∧
      Remote inst (call.next (call.counted c) (.ok (received, reply.content))) s made' results'
        c' s' := by
  cases h with
  | done =>
      rcases hend with rfl | hnone
      · cases hsplit
      · cases hnone
  | cons hserve hshows hrest =>
      cases hsplit
      exact ⟨_, _, _, _, _, rfl, rfl, rfl, hserve, hshows, hrest⟩

/-- The PLAYs of an open session, and TEARDOWN: all of them are made. -/
theorem Remote.played {made rest : List Call} {results : List Result}
    {s' : Option (Cpp.Store inst)} (h : Remote inst c (some st) made results c' s')
    (hend : rest = [] ∨ s' = none) (hsplit : plays.map playCall ++ [.teardown] = made ++ rest)
    (hserves : Serves inst c.url file)
    (hinside : ∀ interval ∈ plays, Inside file.bytes.length interval) (hsession : Fits c.session)
    (hcseq : c.cseq + plays.length < 10 ^ 250) (hstored : Py.encode c.session ∈ st.sessions) :
    rest = [] ∧ ∃ st' played, s' = some st' ∧ results = played ++ [.ok none] ∧
      List.Forall₂ (Played file.bytes) plays played ∧
      st'.sessions = st.sessions.erase (Py.encode c.session) := by
  induction plays generalizing c st made results with
  | nil =>
      obtain ⟨made', reply, received, results', s, hsplit', rfl, rfl, hserve, hshows, hrun⟩ :=
        h.head hend hsplit
      obtain ⟨rfl, rfl⟩ := List.append_eq_nil_iff.mp hsplit'.symm
      have hfits : FitHeaders (Call.teardown.request c.toClient).headers :=
        request_fits trivial hsession hcseq
      rw [Cpp.Installation.serve_teardown (method_eq rfl), session_arrived hfits trivial,
        if_pos hstored] at hserve
      cases hserve
      cases hrun
      have haccepts : Call.teardown.Accepts received.status := hshows.status
      refine ⟨rfl, _, [], rfl, ?_, .nil, rfl⟩
      rw [Call.result, if_neg (not_not.mpr haccepts)]
      rfl
  | cons interval plays ih =>
      obtain ⟨made', reply, received, results', s, hsplit', rfl, rfl, hserve, hshows, hrun⟩ :=
        h.head hend hsplit
      have hmem : Inside file.bytes.length interval := hinside interval (by simp)
      have hlength : c.cseq + (plays.length + 1) < 10 ^ 250 := hcseq
      have hfits : FitHeaders ((playCall interval).request c.toClient).headers :=
        request_fits (playCall_legal hserves hmem).1 hsession (by omega)
      obtain ⟨response, hreply, hstatus⟩ := serve_plays hserves hmem hfits hstored
      rw [hreply] at hserve
      cases hserve
      have hreceived : received.status = playStatus interval := hshows.status.trans hstatus
      have haccepts : received.status = 200 ∨ received.status = 206 := by
        rw [hreceived]
        cases interval <;> simp [playStatus]
      -- a PLAY leaves the session and the url of the client as they are
      obtain ⟨range, hrange⟩ : ∃ range, playCall interval = .play range := by
        cases interval <;> exact ⟨_, rfl⟩
      rw [hrange, next_play] at hrun
      obtain ⟨hrest, st', played, hs', rfl, hplayed, hsessions⟩ :=
        ih hrun hsplit' hserves (fun interval hmem => hinside interval (by simp [hmem])) hsession
          (by show c.cseq + 1 + plays.length < 10 ^ 250; omega) hstored
      refine ⟨hrest, st', _ :: played, hs', rfl, .cons ⟨received, ?_, hreceived⟩ hplayed, hsessions⟩
      rw [hrange]
      exact result_play haccepts

end

end DianProtocol.Interop
