import DianProtocol.Py.Unparse

set_option autoImplicit false

/-! # No head comes back as it was sent

The last group of the patterns for first lines is greedy. The `\r` in front of the newline is a
character like any other, so it goes to that group, and the `(\r)?` behind it is left with nothing.
Whatever `unparse` returns, the last word of its first line ends in `\r`; the words that `parse` and
`parsehead` write contain none.
-/

namespace DianProtocol.Py

open Regex Lines

/-! ## The last group of a first line -/

/-- What is left for the end of a pattern. -/
theorem lineEnd_rest {s : Text} {way : Way Char} (h : way ∈ results lineEnd s) :
    s = [] ∨ s = ['\n'] ∨ s = ['\r'] ∨ s = ['\r', '\n'] := by
  obtain ⟨x, hx, y, hy, -⟩ := mem_seq.mp h
  have hend : x.rest = [] ∨ x.rest = ['\n'] := by
    rw [results_eol] at hy
    split at hy
    · assumption
    · cases hy
  rcases List.mem_append.mp hx with hcr | hnone
  · obtain ⟨c, t, rfl, hc, rfl⟩ := mem_one.mp hcr
    obtain rfl : c = '\r' := by simpa using hc
    rcases hend with hend | hend
    · exact Or.inr (Or.inr (Or.inl (congrArg _ hend)))
    · exact Or.inr (Or.inr (Or.inr (congrArg _ hend)))
  · rw [List.mem_singleton.mp hnone] at hend
    exact hend.imp_right Or.inl

/-- Behind some part of a line there is a text in front of its CRLF. -/
theorem eq_append_crlf {line s : Text} (hline : text "\r\n" <:+ line) (hs : s <:+ line)
    (hnil : s ≠ []) (hnewline : s ≠ ['\n']) : ∃ t, s = t ++ ['\r', '\n'] := by
  rcases List.suffix_or_suffix_of_suffix hline hs with hlong | hshort
  · obtain ⟨t, rfl⟩ := hlong
    exact ⟨t, rfl⟩
  · -- what is shorter than the CRLF has been excluded
    have hmem : s ∈ (text "\r\n").tails := (List.mem_tails s _).mpr hshort
    have htails : (text "\r\n").tails = [['\r', '\n'], ['\n'], []] := by decide
    rw [htails] at hmem
    simp only [List.mem_cons, List.not_mem_nil, or_false] at hmem
    rcases hmem with rfl | rfl | rfl
    · exact ⟨[], rfl⟩
    · exact absurd rfl hnewline
    · exact absurd rfl hnil

/-- **The last group takes the `\r`**, wherever in a line it starts. -/
theorem last_group {name : String} {line s : Text} {way : Way Char}
    (hline : text "\r\n" <:+ line) (hs : s <:+ line)
    (h : (Pat.seq (.group name (.rep true 1 dot)) lineEnd).match? s = some way) :
    ∃ t, way.groups = [(name, t ++ ['\r'])] := by
  obtain ⟨x, hx, y, hy, -⟩ := mem_seq.mp (List.mem_of_head? h)
  obtain ⟨x', hx', rfl⟩ := mem_group.mp hx
  obtain ⟨u, v, rfl, hu, hmin, rfl⟩ := mem_rep.mp hx'
  have hfree : '\n' ∉ u := fun hmem => absurd (hu _ hmem) (by decide)
  have hune : u ≠ [] := List.ne_nil_of_length_pos hmin
  have hne : u ++ v ≠ ['\n'] := by
    intro heq
    obtain ⟨c, u', rfl⟩ := List.exists_cons_of_ne_nil hune
    have hc : c = '\n' := (List.cons.inj heq).1
    exact hfree (by simp [hc])
  obtain ⟨t, ht⟩ := eq_append_crlf hline hs (by simp [hune]) hne
  -- the group has come to the newline at the end, so there is none before it
  have ht' : u ++ v = t ++ ['\r'] ++ ['\n'] := by
    rw [ht]
    simp
  have hline' : '\n' ∉ t := by
    rcases lineEnd_rest hy with rfl | rfl | rfl | rfl
    · have hmem : '\n' ∈ u ++ [] := by
        rw [ht]
        simp
      exact absurd (by simpa using hmem) hfree
    · have hcut := (List.append_inj' ht' rfl).1
      exact fun hmem => hfree (hcut ▸ List.mem_append_left _ hmem)
    · have hlast := (List.append_inj' ht' rfl).2
      exact absurd hlast (by decide)
    · have hcut := (List.append_inj' ht rfl).1
      exact fun hmem => hfree (hcut ▸ hmem)
  rw [ht', Pat.match?, head_last name hline'] at h
  exact ⟨t, by rw [← Option.some.inj h]⟩

/-! ## First lines -/

/-- The first line that `readHead` has matched. -/
theorem readHead_ok {re : Pat Char} {s rest : Bytes} {way : Way Char}
    (h : readHead re s = .ok way rest) :
    ∃ data, text "\r\n" <:+ data ∧ re.match? data = some way := by
  obtain ⟨line, s', hline, h⟩ := Outcome.bind_eq_ok.mp h
  obtain ⟨-, hcut⟩ := read_until_ok hline
  split at h
  · cases h
  · rename_i data hdata
    refine ⟨data, ?_, (Outcome.ofOption_eq_ok.mp h).1⟩
    have hbytes : encode data = line := encode_of_decode hdata
    obtain ⟨b, hb⟩ := hcut.ends
    -- the two bytes at the end stand for two characters
    have hend : encode data = b ++ [13] ++ [lf] := by
      rw [hbytes, ← hb, List.append_assoc]
      rfl
    obtain ⟨t, rfl, ht⟩ := concat_of_encode (c := '\n') (by decide) (by decide) hend
    obtain ⟨u, rfl, -⟩ := concat_of_encode (c := '\r') (by decide) (by decide) ht
    exact ⟨u, by simp [text]⟩

/-- A pattern of three words: the last of them takes the `\r`. -/
theorem last_word {n₁ n₂ n₃ : String} {p₁ p₂ : Char → Bool} {data : Text} {way : Way Char}
    (h₁ : n₃ ≠ n₁) (h₂ : n₃ ≠ n₂) (hdata : text "\r\n" <:+ data)
    (h : (Pat.seq (.group n₁ (.rep true 1 p₁)) (.seq (.one (· = ' '))
      (.seq (.group n₂ (.rep true 1 p₂)) (.seq (.one (· = ' '))
        (.seq (.group n₃ (.rep true 1 dot)) lineEnd))))).match? data = some way) :
    ∃ t, (way.group? n₃).getD [] = t ++ ['\r'] := by
  obtain ⟨first, hfirst, way₁, hway₁, rfl⟩ := match_seq h
  obtain ⟨blank, hblank, way₂, hway₂, rfl⟩ := match_seq hway₁
  obtain ⟨second, hsecond, way₃, hway₃, rfl⟩ := match_seq hway₂
  obtain ⟨blank', hblank', last, hlast, rfl⟩ := match_seq hway₃
  have hs : blank'.rest <:+ data :=
    (rest_suffix hblank').trans ((rest_suffix hsecond).trans
      ((rest_suffix hblank).trans (rest_suffix hfirst)))
  obtain ⟨t, ht⟩ := last_group hdata hs hlast
  -- the groups in front of the last one have other names
  obtain ⟨x, hx, rfl⟩ := mem_group.mp hfirst
  obtain ⟨u, v, -, -, -, rfl⟩ := mem_rep.mp hx
  obtain ⟨c, v', -, -, rfl⟩ := mem_one.mp hblank
  obtain ⟨x', hx', rfl⟩ := mem_group.mp hsecond
  obtain ⟨u', w, -, -, -, rfl⟩ := mem_rep.mp hx'
  obtain ⟨c', w', -, -, rfl⟩ := mem_one.mp hblank'
  have hbeq₁ : (n₃ == n₁) = false := by simp [h₁]
  have hbeq₂ : (n₃ == n₂) = false := by simp [h₂]
  refine ⟨t, ?_⟩
  simp [Way.append, Way.group?, List.lookup, ht, hbeq₁, hbeq₂]

/-! ## Requests -/

/-- The version of a request that `unparse` returns ends in `\r`. -/
theorem unparse_version {s rest : Bytes} {r : Request} (h : Request.unparse s = .ok r rest) :
    ∃ t, r.version = t ++ ['\r'] := by
  obtain ⟨head, s', hhead, h⟩ := Outcome.bind_eq_ok.mp h
  obtain ⟨headers, s'', -, h⟩ := Outcome.bind_eq_ok.mp h
  cases h
  obtain ⟨data, hdata, hmatch⟩ := readHead_ok hhead
  exact last_word (by decide) (by decide) hdata hmatch

/-- `unparse` gives back the request that `parse` has written, and leaves what comes behind it. -/
def Request.RoundTrips (r : Request) (rest : Bytes) : Prop :=
  Request.unparse (encode r.parse ++ rest) = .ok r rest

/-- **No request comes back as it was sent**: the version of none of them ends in `\r`. -/
theorem request_not_roundTrips (r : Request) (hversion : '\r' ∉ r.version) (rest : Bytes) :
    ¬ r.RoundTrips rest := by
  intro h
  obtain ⟨t, ht⟩ := unparse_version h
  exact hversion (by simp [ht])

/-- The request that `Client.options` sends first. -/
def optionsRequest : Request where
  method := text "OPTIONS"
  url := text "diantp://localhost:664/testfile"
  version := VERSION
  headers := ({} : Dict).set (text "CSeq") (text "0")

theorem optionsRequest_legal : LegalRequest optionsRequest where
  method := List.all_eq_true.mp (by decide : (text "OPTIONS").all ascii_upper = true)
  method_ne_nil := by decide
  url_line := by decide
  url_ne_nil := by decide
  version_line := by decide
  version_word := by decide
  headers := fun item hitem => by
    have hitems : optionsRequest.headers.items = [(text "CSeq", text "0")] := by decide
    rw [hitems] at hitem
    rw [List.mem_singleton.mp hitem]
    exact ⟨⟨by decide, by decide, by decide, by decide⟩, ⟨by decide, by decide⟩⟩

theorem request_not_roundTrips_options : ¬ optionsRequest.RoundTrips (crlf ++ crlf) :=
  request_not_roundTrips optionsRequest (by decide) _

/-- What comes back has the version `"0.5\r"`. -/
theorem options_version : LegalRequest optionsRequest ∧ optionsRequest.headers.items ≠ [] ∧
    '\r' ∉ optionsRequest.url ∧ '\r' ∉ optionsRequest.version ∧
    Request.unparse (encode optionsRequest.parse ++ []) =
      .ok { optionsRequest with version := text "0.5\r" } [] ∧
    ¬ optionsRequest.RoundTrips [] := by
  have hread := unparse_parse optionsRequest_legal []
  have hleft : leftover optionsRequest.headers ++ [] = [] := by decide
  have hversion : optionsRequest.version ++ ['\r'] = text "0.5\r" := by decide
  rw [hleft, hversion] at hread
  refine ⟨optionsRequest_legal, by decide, by decide, by decide, hread, fun h => ?_⟩
  have heq := (Outcome.ok.inj (hread.symm.trans h)).1
  exact absurd (congrArg Request.version heq) (by decide)

/-! ## Responses -/

/-- The status text of a response that `unparse` returns ends in `\r`. -/
theorem unparse_status_text {s rest : Bytes} {received : Received}
    (h : Response.unparse s = .ok received rest) : ∃ t, received.status_text = t ++ ['\r'] := by
  obtain ⟨head, s₁, hhead, h⟩ := Outcome.bind_eq_ok.mp h
  obtain ⟨status, s₂, -, h⟩ := Outcome.bind_eq_ok.mp h
  obtain ⟨headers, s₃, -, h⟩ := Outcome.bind_eq_ok.mp h
  obtain ⟨max_read, s₄, -, h⟩ := Outcome.bind_eq_ok.mp h
  cases h
  obtain ⟨data, hdata, hmatch⟩ := readHead_ok hhead
  exact last_word (by decide) (by decide) hdata hmatch

/-- `unparse` gives back what `parsehead` has written. -/
def Response.RoundTrips (r : Response) (rest : Bytes) : Prop :=
  ∃ received rest', Response.unparse (encode r.parsehead ++ rest) = .ok received rest' ∧
    received.version = r.version ∧ received.status = r.status ∧
    received.status_text = r.status_text ∧ received.headers = r.headers

/-- **No response head comes back as it was sent**: the status text of none of them ends in `\r`.
-/
theorem response_not_roundTrips (r : Response) (htext : '\r' ∉ r.status_text) (rest : Bytes) :
    ¬ r.RoundTrips rest := by
  rintro ⟨received, rest', hread, -, -, heq, -⟩
  obtain ⟨t, ht⟩ := unparse_status_text hread
  rw [heq] at ht
  exact htext (by simp [ht])

/-- The answer to a SETUP. -/
def setupResponse : Response where
  status_text := text "OK"
  headers := ({} : Dict).set (text "Transport") (text "TCP")

theorem response_not_roundTrips_setup : ¬ setupResponse.RoundTrips [] :=
  response_not_roundTrips setupResponse (by decide) []

/-- What comes back has the status text `"OK\r"`. -/
theorem setup_status_text : LegalHead setupResponse ∧ setupResponse.headers.items ≠ [] ∧
    ' ' ∉ setupResponse.version ∧ '\r' ∉ setupResponse.version ∧
    '\r' ∉ setupResponse.status_text ∧
    (∃ received, Response.unparse (encode setupResponse.parsehead ++ []) = .ok received [] ∧
      received.status = 200 ∧ received.status_text ≠ text "OK") ∧
    ¬ setupResponse.RoundTrips [] := by
  have hitems : setupResponse.headers.items = [(text "Transport", text "TCP")] := by decide
  have hlegal : LegalHead setupResponse := {
    version_ne_nil := by decide
    version_line := by decide
    status_text_line := by decide
    headers := fun item hitem => by
      rw [hitems] at hitem
      rw [List.mem_singleton.mp hitem]
      exact ⟨⟨by decide, by decide, by decide, by decide⟩, ⟨by decide, by decide⟩⟩ }
  have hstatus : StatusRead setupResponse (str 200) :=
    Or.inr ⟨rfl, fun a d b => not_numberAt (by decide)⟩
  obtain ⟨version, status_text, hread⟩ :=
    unparse_parsehead hlegal (by decide) hstatus (int_str 200) []
  have hlength : contentLength setupResponse.headers = some (-1) := by decide
  have hleft : leftover setupResponse.headers ++ [] = [] := by decide
  rw [hlength, hleft] at hread
  obtain ⟨t, ht⟩ := unparse_status_text hread
  have hne : status_text ≠ text "OK" := by
    intro heq
    have hlast := congrArg List.getLast? (heq.symm.trans ht)
    rw [List.getLast?_concat] at hlast
    exact absurd hlast (by decide)
  refine ⟨hlegal, by decide, by decide, by decide, by decide, ⟨_, hread, rfl, hne⟩, ?_⟩
  rintro ⟨received, rest', hread', -, -, heq, -⟩
  have hsame := (Outcome.ok.inj (hread.symm.trans hread')).1
  exact hne ((congrArg Received.status_text hsame).trans heq)

end DianProtocol.Py
