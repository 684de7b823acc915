import DianProtocol.Py.Heads

set_option autoImplicit false

/-! # `unparse` after `parse`

`unparse` gives back the head of a message and stops where the head ends (`Reads` says that it looks
at nothing behind that place), but for one case: `parse` and `parsehead` put an empty line behind
the first line and another one behind the headers, and when there are no headers `unparse` takes the
first of the two for the end of the head. The second one is left over.
-/

namespace DianProtocol.Py

open Regex Lines

/-! ## Lines -/

/-- The first line of a message. -/
theorem readHead_line {re : Pat Char} {l : Text} {way : Way Char} (hl : '\n' ∉ l)
    (h : re.match? (l ++ ['\r'] ++ ['\n']) = some way) (rest : Bytes) :
    readHead re (encode (l ++ text "\r\n") ++ rest) = .ok way rest := by
  have hline : Line crlf (encode (l ++ text "\r\n")) := by
    rw [encode_append]
    exact line_encode hl
  have hdata : l ++ text "\r\n" = l ++ ['\r'] ++ ['\n'] := by simp [text]
  unfold readHead
  rw [read_until_line rest hline, Outcome.bind, decode_encode]
  dsimp only
  rw [hdata, h]
  rfl

/-- One round of the loop over the header lines. -/
theorem readHeaders_cut {line : Bytes} (hcut : Line crlf line) (fuel : Nat) (headers : Dict)
    (rest : Bytes) :
    readHeaders (fuel + 1) headers (line ++ rest) =
      match decode line with
      | none => .raised .UnicodeDecodeError
      | some data =>
          match BaseHeader_re.match? data with
          | none => .ok headers rest
          | some header =>
              let headers := headers.set (strip ((header.group? "key").getD []))
                (strip ((header.group? "value").getD []))
              if data = text "\r\n" then .ok headers rest else readHeaders fuel headers rest := by
  rw [readHeaders, read_until_line rest hcut]
  rfl

/-- The line of a header. -/
def headerLine (item : Text × Text) : Text := item.1 ++ text ":" ++ item.2 ++ text "\r\n"

/-- The line of a header with blanks behind its colon. -/
def paddedLine (blanks : Text) (item : Text × Text) : Text :=
  item.1 ++ text ":" ++ blanks ++ item.2 ++ text "\r\n"

theorem paddedLine_nil : paddedLine [] = headerLine := by
  funext item
  simp [paddedLine, headerLine]

theorem readHeaders_line {key value blanks : Text} (hk : LegalKey key) (hv : LegalValue value)
    (hblanks : ∀ c ∈ blanks, decide (c = ' ') = true) (fuel : Nat) (headers : Dict)
    (rest : Bytes) :
    readHeaders (fuel + 1) headers (encode (paddedLine blanks (key, value)) ++ rest) =
      readHeaders fuel (headers.set key value) rest := by
  have hfree : '\n' ∉ key ++ text ":" ++ blanks ++ value := by
    have hblank : '\n' ∉ blanks := fun hmem => absurd (hblanks _ hmem) (by decide)
    simp [hk.no_newline, hv.no_newline, hblank, text]
  have hline : Line crlf (encode (paddedLine blanks (key, value))) := by
    rw [paddedLine, encode_append]
    exact line_encode hfree
  have hdata : paddedLine blanks (key, value) =
      key ++ (':' :: (blanks ++ (value ++ ['\r'] ++ ['\n']))) := by
    simp [paddedLine, text]
  have hne : paddedLine blanks (key, value) ≠ text "\r\n" := by
    intro heq
    have hmem : ':' ∈ paddedLine blanks (key, value) := by simp [paddedLine, text]
    rw [heq] at hmem
    exact absurd hmem (by decide)
  have hvalue : strip (value ++ ['\r']) = value := by
    rw [strip_concat (by decide), hv.stripped]
  rw [readHeaders_cut hline, decode_encode]
  dsimp only
  rw [hdata] at hne ⊢
  rw [header_match hk hv hblanks]
  dsimp only
  rw [if_neg hne]
  simp [Way.group?, List.lookup, hk.stripped, hvalue]

/-- The empty line ends the headers. -/
theorem readHeaders_end (fuel : Nat) (headers : Dict) (rest : Bytes) :
    readHeaders (fuel + 1) headers (crlf ++ rest) = .ok headers rest := by
  have hmatch : BaseHeader_re.match? (text "\r\n") = none := by decide
  have hline : Line crlf crlf := ⟨List.suffix_rfl, by decide⟩
  have hdecode : decode crlf = some (text "\r\n") := decode_encode _
  rw [readHeaders_cut hline, hdecode]
  dsimp only
  rw [hmatch]

/-! ## Headers -/

/-- The lines that `"\r\n".join` makes, together with the empty line, if there is a header. -/
theorem joinHeaders_lines {headers : Dict} (h : headers.items ≠ []) :
    joinHeaders headers ++ text "\r\n\r\n" =
      headers.items.flatMap headerLine ++ text "\r\n" := by
  have hsplit : text "\r\n\r\n" = text "\r\n" ++ text "\r\n" := by decide
  have hjoin : ∀ items : List (Text × Text), items ≠ [] →
      (text "\r\n").intercalate (items.map fun item => item.1 ++ text ":" ++ item.2)
        ++ text "\r\n" = items.flatMap headerLine := by
    intro items hne
    induction items with
    | nil => exact absurd rfl hne
    | cons item items ih =>
        cases items with
        | nil => simp [headerLine]
        | cons next items =>
            have ih' := ih (by simp)
            simp only [List.map_cons, List.intercalate_cons_cons, List.append_assoc] at ih' ⊢
            rw [ih', List.flatMap_cons]
            simp [headerLine]
  rw [hsplit, ← List.append_assoc]
  exact congrArg (· ++ text "\r\n") (hjoin headers.items h)

theorem readHeaders_fuel {fuel fuel' : Nat} {s : Bytes} (headers : Dict) (h : s.length < fuel)
    (h' : s.length < fuel') : readHeaders fuel headers s = readHeaders fuel' headers s := by
  induction fuel generalizing fuel' headers s with
  | zero => omega
  | succ fuel ih =>
      obtain ⟨fuel', rfl⟩ : ∃ n, fuel' = n + 1 := ⟨fuel' - 1, by omega⟩
      rw [readHeaders, readHeaders]
      cases hread : read_until (text "\r\n") s with
      | raised e => rfl
      | blocked => rfl
      | ok line rest =>
          -- the line takes at least one byte
          obtain ⟨rfl, hline⟩ := read_until_ok hread
          have hpos := List.length_pos_of_ne_nil hline.ne_nil
          rw [List.length_append] at h h'
          have hih : ∀ headers, readHeaders fuel headers rest = readHeaders fuel' headers rest :=
            fun headers => ih headers (by omega) (by omega)
          simp only [Outcome.bind, hih]

/-- The loop over the header lines adds the headers in their order. -/
theorem readHeaders_items {items : List (Text × Text)} {blanks : Text}
    (hblanks : ∀ c ∈ blanks, decide (c = ' ') = true)
    (hlegal : ∀ item ∈ items, LegalKey item.1 ∧ LegalValue item.2) (headers : Dict)
    (hnodup : ((headers.items ++ items).map Prod.fst).Nodup) (fuel : Nat)
    (hfuel : items.length < fuel) (rest : Bytes) :
    ∃ headers' : Dict, headers'.items = headers.items ++ items ∧
      readHeaders fuel headers (encode (items.flatMap (paddedLine blanks)) ++ (crlf ++ rest)) =
        .ok headers' rest := by
  induction items generalizing headers fuel with
  | nil =>
      obtain ⟨fuel, rfl⟩ : ∃ n, fuel = n + 1 := ⟨fuel - 1, by simp at hfuel; omega⟩
      exact ⟨headers, by simp, readHeaders_end fuel headers rest⟩
  | cons item items ih =>
      obtain ⟨key, value⟩ := item
      rw [List.length_cons] at hfuel
      obtain ⟨fuel, rfl⟩ : ∃ n, fuel = n + 1 := ⟨fuel - 1, by omega⟩
      obtain ⟨hk, hv⟩ := hlegal (key, value) (by simp)
      have hnew : key ∉ headers.items.map Prod.fst := by
        rw [List.map_append, List.map_cons] at hnodup
        exact fun hmem => (List.nodup_append.mp hnodup).2.2 key hmem key (by simp) rfl
      have hset : (headers.set key value).items = headers.items ++ [(key, value)] :=
        Dict.setItems_of_not_mem hnew
      have hcons : headers.items ++ (key, value) :: items =
          (headers.set key value).items ++ items := by
        rw [hset]
        simp
      have hlen : items.length < fuel := by omega
      obtain ⟨headers', hitems, hread⟩ := ih (fun item hitem => hlegal item (by simp [hitem]))
        (headers.set key value) (hcons ▸ hnodup) fuel hlen
      refine ⟨headers', hitems.trans hcons.symm, ?_⟩
      rw [List.flatMap_cons, encode_append, List.append_assoc, readHeaders_line hk hv hblanks]
      exact hread

/-- The lines of all headers and the empty line behind them. -/
theorem readHeaders_lines {headers : Dict} {blanks : Text}
    (hblanks : ∀ c ∈ blanks, decide (c = ' ') = true) (h : LegalHeaders headers) (rest : Bytes) :
    readHeaders ((encode (headers.items.flatMap (paddedLine blanks)) ++ (crlf ++ rest)).length + 1)
        {} (encode (headers.items.flatMap (paddedLine blanks)) ++ (crlf ++ rest)) =
      .ok headers rest := by
  -- enough rounds for the lines and for the bytes
  let fuel := headers.items.length +
    (encode (headers.items.flatMap (paddedLine blanks)) ++ (crlf ++ rest)).length + 1
  obtain ⟨headers', hitems, hread⟩ :=
    readHeaders_items hblanks h {} headers.nodup fuel (by omega) rest
  have heq : headers' = headers := Dict.ext hitems
  rw [heq] at hread
  calc readHeaders _ {} (encode (headers.items.flatMap (paddedLine blanks)) ++ (crlf ++ rest))
      = readHeaders fuel {}
          (encode (headers.items.flatMap (paddedLine blanks)) ++ (crlf ++ rest)) :=
        readHeaders_fuel _ (by omega) (by omega)
    _ = .ok headers rest := hread

/-- What `unparse` leaves of a head: the second of two empty lines, when there are no headers. -/
def leftover (headers : Dict) : Bytes := if headers.items = [] then crlf else []

theorem leftover_of_get? {headers : Dict} {key value : Text} (h : headers.get? key = some value) :
    leftover headers = [] := by
  have hne : headers.items ≠ [] := by
    intro hnil
    rw [Dict.get?, hnil] at h
    cases h
  exact if_neg hne

/-- The bytes of the headers and of the empty lines around them. -/
def headerBytes (headers : Dict) : Bytes := encode (joinHeaders headers ++ text "\r\n\r\n")

theorem readHeaders_headerBytes {headers : Dict} (h : LegalHeaders headers) (rest : Bytes) :
    readHeaders ((headerBytes headers ++ rest).length + 1) {} (headerBytes headers ++ rest) =
      .ok headers (leftover headers ++ rest) := by
  unfold headerBytes leftover
  by_cases hne : headers.items = []
  · have hnil : joinHeaders headers ++ text "\r\n\r\n" = text "\r\n" ++ text "\r\n" := by
      rw [joinHeaders, hne]
      decide
    have hempty : ({} : Dict) = headers := Dict.ext hne.symm
    rw [if_pos hne, hnil, encode_append, List.append_assoc, ← hempty]
    exact readHeaders_end _ _ _
  · have hcrlf : encode (text "\r\n") = crlf := rfl
    rw [if_neg hne, joinHeaders_lines hne, encode_append, hcrlf, List.append_assoc]
    rw [← paddedLine_nil]
    exact readHeaders_lines (by simp) h rest

/-! ## Responses -/

/-- What a response must be like for its head to have the shape that it is read with. -/
structure LegalHead (r : Response) : Prop where
  version_ne_nil : r.version ≠ []
  version_line : '\n' ∉ r.version
  status_text_line : '\n' ∉ r.status_text
  headers : LegalHeaders r.headers

/-- The first line of a response, without its end. -/
def Response.statusLine (r : Response) : Text :=
  r.version ++ (' ' :: (str r.status ++ (' ' :: r.status_text)))

theorem encode_parsehead (r : Response) :
    encode r.parsehead = encode (r.statusLine ++ text "\r\n") ++ headerBytes r.headers := by
  rw [headerBytes, ← encode_append]
  congr 1
  simp [Response.parsehead, Response.statusLine, text]

/-- A status is read as a number without a sign. -/
theorem match_status {data : Text} {way : Way Char} (h : ResponseHead_re.match? data = some way) :
    ∃ n : Nat, int ((way.group? "status").getD []) = some (n : Int) := by
  obtain ⟨version, hversion, tail, htail, rfl⟩ := mem_seq.mp (List.mem_of_head? h)
  obtain ⟨version', hversion', rfl⟩ := mem_group.mp hversion
  obtain ⟨v, w, -, -, -, rfl⟩ := mem_rep.mp hversion'
  obtain ⟨blank, hblank, tail', htail', rfl⟩ := mem_seq.mp htail
  obtain ⟨c, t, -, -, rfl⟩ := mem_one.mp hblank
  obtain ⟨status, hstatus, rest, -, rfl⟩ := mem_seq.mp htail'
  obtain ⟨status', hstatus', rfl⟩ := mem_group.mp hstatus
  obtain ⟨d, w', -, hd, hmin, rfl⟩ := mem_rep.mp hstatus'
  refine ⟨Nat.ofDigitChars 10 d 0, ?_⟩
  show int (((("version", v) :: ("status", d) :: rest.groups).lookup "status").getD []) = _
  have hlookup : (("version", v) :: ("status", d) :: rest.groups).lookup "status" = some d := by
    simp [List.lookup]
  rw [hlookup]
  exact int_of_isDigit (List.ne_nil_of_length_pos hmin) hd

theorem unparse_status_nonneg {s rest : Bytes} {received : Received}
    (h : Response.unparse s = .ok received rest) : 0 ≤ received.status := by
  obtain ⟨head, s₁, hhead, h⟩ := Outcome.bind_eq_ok.mp h
  obtain ⟨line, s₀, -, hhead⟩ := Outcome.bind_eq_ok.mp hhead
  obtain ⟨status, s₂, hstatus, h⟩ := Outcome.bind_eq_ok.mp h
  obtain ⟨headers, s₃, -, h⟩ := Outcome.bind_eq_ok.mp h
  obtain ⟨max_read, s₄, -, h⟩ := Outcome.bind_eq_ok.mp h
  cases h
  split at hhead
  · cases hhead
  · obtain ⟨hmatch, -⟩ := Outcome.ofOption_eq_ok.mp hhead
    obtain ⟨n, hn⟩ := match_status hmatch
    obtain ⟨hint, -⟩ := Outcome.ofOption_eq_ok.mp hstatus
    rw [hn] at hint
    cases hint
    exact Int.natCast_nonneg n

/-- The number that is read as the status: the last one in the text behind the status, or the
status itself when there is none. -/
def StatusRead (r : Response) (d : Text) : Prop :=
  LastNumber r.status_text d ∨ d = str r.status ∧ ∀ a d b, ¬ NumberAt r.status_text a d b

theorem exists_statusRead (r : Response) : ∃ d, StatusRead r d := by
  by_cases hnumber : ∃ a d b, NumberAt r.status_text a d b
  · obtain ⟨a, d, b, hnum⟩ := hnumber
    obtain ⟨a, d, b, hnum, hlast⟩ := hnum.last
    exact ⟨d, Or.inl ⟨a, b, hnum, hlast⟩⟩
  · exact ⟨str r.status, Or.inr ⟨rfl, fun a d b hnum => hnumber ⟨a, d, b, hnum⟩⟩⟩

theorem str_digits {n : Int} (h : 0 ≤ n) : ∀ c ∈ str n, ascii_digit c = true := by
  obtain ⟨k, rfl⟩ := Int.eq_ofNat_of_zero_le h
  exact fun c hc => str_isDigit hc

theorem statusLine_line {r : Response} (h : LegalHead r) (hstatus : 0 ≤ r.status) :
    '\n' ∉ r.statusLine := by
  have hdigit : '\n' ∉ str r.status := fun hmem =>
    absurd (str_digits hstatus _ hmem) (by decide)
  simp [Response.statusLine, h.version_line, h.status_text_line, hdigit]

theorem statusLine_match {r : Response} {d : Text} (h : LegalHead r) (hstatus : 0 ≤ r.status)
    (hd : StatusRead r d) :
    ∃ way, ResponseHead_re.match? (r.statusLine ++ ['\r'] ++ ['\n']) = some way ∧
      way.group? "status" = some d := by
  rcases hd with ⟨a, b, ⟨hsplit, hdne, hd⟩, hlast⟩ | ⟨rfl, hlast⟩
  · -- the match takes what stands in front of the number for the version
    have hline : r.statusLine ++ ['\r'] ++ ['\n'] = (r.version ++ ' ' :: (str r.status ++ a)) ++
        (' ' :: (d ++ (' ' :: (b ++ ['\r'] ++ ['\n'])))) := by
      simp [Response.statusLine, hsplit]
    have hfree : '\n' ∉ r.version ++ ' ' :: (str r.status ++ a) ++ (' ' :: (d ++ (' ' :: b))) := by
      have heq : r.statusLine =
          r.version ++ ' ' :: (str r.status ++ a) ++ (' ' :: (d ++ (' ' :: b))) := by
        simp [Response.statusLine, hsplit]
      rw [← heq]
      exact statusLine_line h hstatus
    have hversion : '\n' ∉ r.version ++ ' ' :: (str r.status ++ a) := fun hmem =>
      hfree (List.mem_append_left _ hmem)
    have hb : '\n' ∉ b := fun hmem => hfree (by simp [hmem])
    have hmatch := responseHead_match hversion (by simp) hd hdne hb hlast
    rw [← hline] at hmatch
    exact ⟨_, hmatch, rfl⟩
  · -- no number behind the status: the match takes the status
    have hdne : str r.status ≠ [] := by
      obtain ⟨n, hn⟩ := Int.eq_ofNat_of_zero_le hstatus
      rw [hn]
      exact str_ne_nil n
    have hmatch := responseHead_match h.version_line h.version_ne_nil (str_digits hstatus) hdne
      h.status_text_line hlast
    have hline : r.statusLine ++ ['\r'] ++ ['\n'] = r.version ++
        (' ' :: (str r.status ++ (' ' :: (r.status_text ++ ['\r'] ++ ['\n'])))) := by
      simp [Response.statusLine]
    rw [← hline] at hmatch
    exact ⟨_, hmatch, rfl⟩

/-- A response head whose headers are read from `bytes`. -/
theorem unparse_head {r : Response} {d : Text} {n : Int} (h : LegalHead r) (hstatus : 0 ≤ r.status)
    (hd : StatusRead r d) (hn : int d = some n) {bytes rest : Bytes}
    (hheaders : readHeaders (bytes.length + 1) {} bytes = .ok r.headers rest) :
    ∃ version status_text, Response.unparse (encode (r.statusLine ++ text "\r\n") ++ bytes) =
      (Outcome.ofOption .ValueError rest (contentLength r.headers)).bind
        fun max_read s => .ok ⟨version, n, status_text, r.headers, { max_read := max_read }⟩ s := by
  obtain ⟨way, hmatch, hgroup⟩ := statusLine_match h hstatus hd
  refine ⟨(way.group? "version").getD [], (way.group? "status_text").getD [], ?_⟩
  have hhead := readHead_line (statusLine_line h hstatus) hmatch bytes
  rw [Response.unparse, hhead]
  simp only [Outcome.bind, hgroup, Option.getD_some, hn, Outcome.ofOption]
  rw [hheaders]

/-- **Reading a response head**: the headers come back, the status is the number that is read as
such, and an empty line is left over when there are no headers. -/
theorem unparse_parsehead {r : Response} {d : Text} {n : Int} (h : LegalHead r)
    (hstatus : 0 ≤ r.status) (hd : StatusRead r d) (hn : int d = some n) (rest : Bytes) :
    ∃ version status_text, Response.unparse (encode r.parsehead ++ rest) =
      (Outcome.ofOption .ValueError (leftover r.headers ++ rest) (contentLength r.headers)).bind
        fun max_read s => .ok ⟨version, n, status_text, r.headers, { max_read := max_read }⟩ s := by
  rw [encode_parsehead, List.append_assoc]
  exact unparse_head h hstatus hd hn (readHeaders_headerBytes h.headers rest)

/-! ## Requests -/

/-- A request that `parse` writes on one line. -/
structure LegalRequest (r : Request) : Prop where
  method : ∀ c ∈ r.method, ascii_upper c = true
  method_ne_nil : r.method ≠ []
  url_line : '\n' ∉ r.url
  url_ne_nil : r.url ≠ []
  version_line : '\n' ∉ r.version
  version_word : ' ' ∉ r.version
  headers : LegalHeaders r.headers

/-- **Reading a request**: it comes back, but for the end of the first line in its version. -/
theorem unparse_parse {r : Request} (h : LegalRequest r) (rest : Bytes) :
    Request.unparse (encode r.parse ++ rest) =
      .ok { r with version := r.version ++ ['\r'] } (leftover r.headers ++ rest) := by
  let requestLine := r.method ++ (' ' :: (r.url ++ (' ' :: r.version)))
  have hparse : encode r.parse = encode (requestLine ++ text "\r\n") ++ headerBytes r.headers := by
    rw [headerBytes, ← encode_append]
    congr 1
    simp [requestLine, Request.parse, text]
  have hupper : '\n' ∉ r.method := fun hmem => absurd (h.method _ hmem) (by decide)
  have hline : '\n' ∉ requestLine := by
    simp [requestLine, hupper, h.url_line, h.version_line]
  have hmatch := requestHead_match h.method h.method_ne_nil h.url_line h.url_ne_nil
    h.version_line h.version_word
  have hassoc : r.method ++ (' ' :: (r.url ++ (' ' :: (r.version ++ ['\r'] ++ ['\n'])))) =
      requestLine ++ ['\r'] ++ ['\n'] := by
    simp [requestLine]
  rw [hassoc] at hmatch
  have hhead := readHead_line hline hmatch (headerBytes r.headers ++ rest)
  rw [Request.unparse, hparse, List.append_assoc, hhead]
  dsimp only [Outcome.bind]
  rw [readHeaders_headerBytes h.headers]
  simp [Way.group?, List.lookup]

/-! ## What is looked at -/

/-- What a reader returns depends on the bytes that it takes, not on those behind them. -/
def Reads {α : Type} (read : Bytes → Outcome α) : Prop :=
  ∀ s a rest, read s = .ok a rest → ∃ used, s = used ++ rest ∧ ∀ t, read (used ++ t) = .ok a t

/-- A reader that takes a whole text does not return after a part of it. -/
theorem Reads.eq_of_prefix {α : Type} {read : Bytes → Outcome α} (h : Reads read) {x p rest : Bytes}
    {a b : α} (hx : read x = .ok a []) (hp : p <+: x) (hread : read p = .ok b rest) : p = x := by
  obtain ⟨used, rfl, hused⟩ := h p b rest hread
  obtain ⟨more, rfl⟩ := hp
  have hwhole := hused (rest ++ more)
  rw [← List.append_assoc, hx] at hwhole
  have hnil : rest ++ more = [] := (Outcome.ok.inj hwhole).2.symm
  rw [(List.append_eq_nil_iff.mp hnil).2, List.append_nil]

theorem reads_readHead (re : Pat Char) : Reads (readHead re) := by
  intro s a rest h
  obtain ⟨line, s', hline, hread⟩ := Outcome.bind_eq_ok.mp h
  obtain ⟨rfl, hcut⟩ := read_until_ok hline
  split at hread
  · cases hread
  · rename_i data hdata
    obtain ⟨hmatch, rfl⟩ := Outcome.ofOption_eq_ok.mp hread
    refine ⟨line, rfl, fun t => ?_⟩
    unfold readHead
    rw [read_until_line t hcut, Outcome.bind, hdata]
    dsimp only
    rw [hmatch]
    rfl

/-- What a line does to the loop over the header lines, whatever comes behind it: it makes it fail,
ends it, or lets it go on. -/
theorem readHeaders_round {line : Bytes} (hcut : Line crlf line) (headers : Dict) :
    (∀ fuel t, readHeaders (fuel + 1) headers (line ++ t) = .raised .UnicodeDecodeError) ∨
    (∃ headers', ∀ fuel t, readHeaders (fuel + 1) headers (line ++ t) = .ok headers' t) ∨
    ∃ headers', ∀ fuel t, readHeaders (fuel + 1) headers (line ++ t) =
      readHeaders fuel headers' t := by
  simp only [readHeaders_cut hcut]
  cases decode line with
  | none => exact Or.inl fun _ _ => rfl
  | some data =>
      dsimp only
      cases BaseHeader_re.match? data with
      | none => exact Or.inr (Or.inl ⟨headers, fun _ _ => rfl⟩)
      | some header =>
          dsimp only
          by_cases hempty : data = text "\r\n"
          · simp only [if_pos hempty]
            exact Or.inr (Or.inl ⟨_, fun _ _ => rfl⟩)
          · simp only [if_neg hempty]
            exact Or.inr (Or.inr ⟨_, fun _ _ => rfl⟩)

theorem readHeaders_reads {fuel : Nat} {headers headers' : Dict} {s rest : Bytes}
    (h : readHeaders fuel headers s = .ok headers' rest) :
    ∃ used, s = used ++ rest ∧ ∀ t fuel', used.length ≤ fuel' →
      readHeaders fuel' headers (used ++ t) = .ok headers' t := by
  induction fuel generalizing headers s with
  | zero => cases h
  | succ fuel ih =>
      obtain ⟨line, s', hline, -⟩ := Outcome.bind_eq_ok.mp h
      obtain ⟨rfl, hcut⟩ := read_until_ok hline
      have hpos := List.length_pos_of_ne_nil hcut.ne_nil
      rcases readHeaders_round hcut headers with hfail | ⟨headers₁, hstop⟩ | ⟨headers₁, hon⟩
      · rw [hfail] at h
        cases h
      · rw [hstop] at h
        cases h
        refine ⟨line, rfl, fun t fuel' hfuel => ?_⟩
        obtain ⟨n, rfl⟩ : ∃ n, fuel' = n + 1 := ⟨fuel' - 1, by omega⟩
        exact hstop n t
      · rw [hon] at h
        obtain ⟨used, rfl, hused⟩ := ih h
        refine ⟨line ++ used, by simp, fun t fuel' hfuel => ?_⟩
        rw [List.length_append] at hfuel
        obtain ⟨n, rfl⟩ : ∃ n, fuel' = n + 1 := ⟨fuel' - 1, by omega⟩
        rw [List.append_assoc, hon]
        exact hused t n (by omega)

theorem Reads.bind {α β : Type} {read : Bytes → Outcome α} {next : α → Bytes → Outcome β}
    (h : Reads read) (hnext : ∀ a, Reads (next a)) : Reads fun s => (read s).bind next := by
  intro s b rest hok
  obtain ⟨a, s₁, hread, hnextok⟩ := Outcome.bind_eq_ok.mp hok
  obtain ⟨used, rfl, hused⟩ := h s a s₁ hread
  obtain ⟨used', rfl, hused'⟩ := hnext a s₁ b rest hnextok
  refine ⟨used ++ used', by simp, fun t => ?_⟩
  rw [List.append_assoc]
  exact Outcome.bind_eq_ok.mpr ⟨a, used' ++ t, hused (used' ++ t), hused' t⟩

theorem reads_ofOption {α : Type} (e : PyExn) (o : Option α) :
    Reads fun s => Outcome.ofOption e s o := by
  intro s a rest h
  obtain ⟨rfl, rfl⟩ := Outcome.ofOption_eq_ok.mp h
  exact ⟨[], rfl, fun t => rfl⟩

theorem reads_readHeaders (headers : Dict) :
    Reads fun s => readHeaders (s.length + 1) headers s := by
  intro s headers' rest h
  obtain ⟨used, rfl, hused⟩ := readHeaders_reads h
  exact ⟨used, rfl, fun t => hused t _ (by simp only [List.length_append]; omega)⟩

theorem reads_ok {α : Type} (a : α) : Reads fun s => Outcome.ok a s := by
  intro s a' rest h
  cases h
  exact ⟨[], rfl, fun t => rfl⟩

theorem reads_request : Reads Request.unparse :=
  (reads_readHead _).bind fun _ => (reads_readHeaders _).bind fun _ => reads_ok _

theorem reads_response : Reads Response.unparse :=
  (reads_readHead _).bind fun _ => (reads_ofOption _ _).bind fun _ =>
    (reads_readHeaders _).bind fun _ => (reads_ofOption _ _).bind fun _ => reads_ok _

end DianProtocol.Py
