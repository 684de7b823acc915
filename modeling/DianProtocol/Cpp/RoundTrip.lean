import DianProtocol.Cpp.Heads

set_option autoImplicit false

/-! # Heads that are written are not read back

`unparseHead` and `parseThis` have different ideas of a first line. The parser wants two words and
then the number of the version. A request is written with the protocol's name in front of the
number, and a response with the version first, the status second and the reason where the parser
looks for the number.
-/

namespace DianProtocol.Cpp

open Lines

/-! ## What is written -/

/-- `Request::unparseHead`, the text that it puts into its buffer. The buffer is returned with its
whole capacity, so other bytes may come behind the text. -/
def Request.unparseHead (r : Request) : Str :=
  r.method ++ str " " ++ r.url ++ str " HTTP/" ++ to_string r.version.major.toNat ++ str "."
    ++ to_string r.version.minor.toNat ++ crlf ++ unparseHeaders r.headers

/-- The version as it is written into both kinds of heads. -/
def versionText (version : Version) : Str :=
  str "HTTP/" ++ to_string version.major.toNat ++ str "." ++ to_string version.minor.toNat

/-- Four bits are written with at most two digits. -/
theorem to_string_bits :
    ∀ n : BitVec 4, (to_string n.toNat).length ≤ 2 ∧ ∀ c ∈ to_string n.toNat, isdigit c := by
  decide +kernel

theorem not_mem_to_string {n : BitVec 4} {c : Byte} (hc : isdigit c = false) :
    c ∉ to_string n.toNat := by
  intro hmem
  have hdigit := (to_string_bits n).2 c hmem
  rw [hc] at hdigit
  cases hdigit

/-- A byte that occurs in the name of the protocol, in the dot or among the digits. -/
theorem not_mem_versionText {version : Version} {c : Byte} (hc : isdigit c = false)
    (hprotocol : c ∉ str "HTTP/") (hdot : c ∉ str ".") : c ∉ versionText version := by
  simp only [versionText, List.mem_append, not_or]
  exact ⟨⟨⟨hprotocol, not_mem_to_string hc⟩, hdot⟩, not_mem_to_string hc⟩

theorem versionText_length (version : Version) : (versionText version).length ≤ 10 := by
  have hprotocol : (str "HTTP/").length = 5 := by decide
  have hdot : (str ".").length = 1 := by decide
  have hmajor := (to_string_bits version.major).1
  have hminor := (to_string_bits version.minor).1
  simp only [versionText, List.length_append]
  omega

/-- It does not start with a number. -/
theorem sscanf_versionText (version : Version) :
    sscanf_d_d (cstr (versionText version)) = none := by
  have hstart : ∃ t, versionText version = 72 :: t := by
    have hprotocol : str "HTTP/" = 72 :: [84, 84, 80, 47] := by decide
    rw [versionText, hprotocol]
    exact ⟨_, rfl⟩
  obtain ⟨t, ht⟩ := hstart
  have hcstr : cstr (72 :: t) = 72 :: cstr t := by simp [cstr, nul]
  have hspace : isspace 72 = false := by decide
  have hdigit : isdigit 72 = false := by decide
  rw [ht, hcstr]
  simp [sscanf_d_d, strtol, hspace, hdigit]

/-! ## First lines without a version -/

/-- A first line of three words, the last of which is not a number. -/
def threeWords (a b c : Str) : Str := a ++ space :: (b ++ space :: (c ++ crlf))

theorem requestLine_no_version {a b c : Str} (ha : Word space a) (hb : Word space b)
    (hc : Word cr c) (hnone : sscanf_d_d (cstr c) = none) (base : Base) :
    ∃ base', requestLine base (threeWords a b c ++ [nul]) = (base', some parseError) := by
  have hend : threeWords a b c ++ [nul] = a ++ space :: (b ++ space :: (c ++ cr :: [lf, nul])) := by
    simp [threeWords, crlf]
  refine ⟨{ base with method := a, url := b }, ?_⟩
  rw [hend, requestLine, ha.token (by decide) (hb.headD_ne (by decide))]
  dsimp only
  rw [hb.token (by decide) (hc.headD_ne (by decide))]
  dsimp only
  rw [hc.token (by decide) (by decide)]
  dsimp only
  rw [hnone]

/-- **The parser refuses such a line**, whatever comes behind it. -/
theorem parseThis_no_version {a b c : Str} (ha : Word space a) (hb : Word space b) (hc : Word cr c)
    (hnone : sscanf_d_d (cstr c) = none) (hline : lf ∉ a ++ b ++ c)
    (hlen : (threeWords a b c).length ≤ 1024) (base : Base) (rest : Str) (heap : Nat → Str) :
    ∃ base' conn, parseThis base (wire (threeWords a b c ++ rest) heap) =
      .thrown parseError base' conn := by
  have hpiece : Piece (threeWords a b c) := Or.inl ⟨words_line hline, hlen⟩
  have hne : threeWords a b c ≠ crlf := words_ne a b c
  obtain ⟨base', hscan⟩ := requestLine_no_version ha hb hc hnone base
  refine ⟨base', wire rest fun n => heap (n + 1), ?_⟩
  rw [parseThis, readRequest, recvUntil_first hpiece (words_head hline)]
  dsimp only
  rw [if_neg fun h => hne ((strcmpEq_crlf hpiece).mp h), hscan]

/-! ## Requests -/

/-- `Request::parse` -/
def Request.parse (conn : Conn) : Parse := parseThis {} conn

/-- A request whose first line is one line of three words. -/
structure Request.Written (r : Request) : Prop where
  method : Word space r.method
  url : Word space r.url
  method_line : lf ∉ r.method
  url_line : lf ∉ r.url
  length : (threeWords r.method r.url (versionText r.version)).length ≤ 1024

theorem Request.unparseHead_eq (r : Request) :
    r.unparseHead =
      threeWords r.method r.url (versionText r.version) ++ unparseHeaders r.headers := by
  have hblank : str " " = [space] := by decide
  have hprotocol : str " HTTP/" = space :: str "HTTP/" := by decide
  simp only [Request.unparseHead, threeWords, versionText, hblank, hprotocol, List.append_assoc,
    List.cons_append, List.nil_append]

/-- `parse` gives back what `unparseHead` has written. -/
def Request.RoundTrips (r : Request) (behind : Str) (heap : Nat → Str) : Prop :=
  ∃ base conn, Request.parse (wire (r.unparseHead ++ behind) heap) = .done base conn ∧
    base.method = r.method ∧ base.url = r.url ∧ base.version = r.version ∧
      base.headers = r.headers

theorem parse_unparseHead {r : Request} (h : r.Written) (behind : Str) (heap : Nat → Str) :
    ∃ base conn, Request.parse (wire (r.unparseHead ++ behind) heap) =
      .thrown parseError base conn := by
  have hversion : Word cr (versionText r.version) :=
    ⟨not_mem_versionText (by decide) (by decide) (by decide),
      not_mem_versionText (by decide) (by decide) (by decide)⟩
  have hline : lf ∉ r.method ++ r.url ++ versionText r.version := by
    have hlf : lf ∉ versionText r.version :=
      not_mem_versionText (by decide) (by decide) (by decide)
    simp [h.method_line, h.url_line, hlf]
  rw [Request.parse, Request.unparseHead_eq, List.append_assoc]
  exact parseThis_no_version h.method h.url hversion (sscanf_versionText _) hline h.length {} _ heap

/-- **No request is read back**: the parser refuses its first line. -/
theorem request_not_readBack (r : Request) (h : r.Written) (behind : Str) (heap : Nat → Str) :
    ¬ r.RoundTrips behind heap := by
  rintro ⟨base, conn, hparse, -⟩
  obtain ⟨base', conn', hthrown⟩ := parse_unparseHead h behind heap
  rw [hparse] at hthrown
  cases hthrown

/-- An OPTIONS request without headers. -/
def optionsHead : Request where
  method := str "OPTIONS"
  url := str "diantp://localhost/a"

theorem optionsHead_written : optionsHead.Written where
  method := ⟨by decide, by decide⟩
  url := ⟨by decide, by decide⟩
  method_line := by decide
  url_line := by decide
  length := by decide

theorem request_not_readBack_options : ¬ optionsHead.RoundTrips [] fun _ => [] :=
  request_not_readBack optionsHead optionsHead_written [] fun _ => []

/-- The parser throws at `"OPTIONS diantp://localhost/a HTTP/0.5"`. -/
theorem optionsHead_refused : optionsHead.Written ∧ optionsHead.method ≠ [] ∧
    cr ∉ optionsHead.method ∧ optionsHead.url ≠ [] ∧ cr ∉ optionsHead.url ∧
    (∃ base conn, Request.parse (wire (optionsHead.unparseHead ++ []) fun _ => []) =
      .thrown parseError base conn) ∧
    ¬ optionsHead.RoundTrips [] fun _ => [] := by
  have hthrown := parse_unparseHead optionsHead_written [] fun _ => []
  refine ⟨optionsHead_written, by decide, by decide, by decide,
    by decide, hthrown, ?_⟩
  rintro ⟨base, conn, hparse, -⟩
  obtain ⟨base', conn', hthrown⟩ := hthrown
  rw [hparse] at hthrown
  cases hthrown

/-! ## Responses -/

/-- `Response::parse` -/
def Response.parse (source : Request) (conn : Conn) : Fetch Response :=
  let response := Response.ofRequest source
  match parseThis response.toBase conn with
  | .done base conn => .done { response with toBase := base } conn
  | .thrown e _ conn => .thrown e conn
  | .blocked => .blocked

/-- `parseThis` does not know about the status line. -/
theorem Response.parse_done {source : Request} {conn conn' : Conn} {r : Response}
    (h : Response.parse source conn = .done r conn') : r.status = 200 ∧ r.reason = str "OK" := by
  unfold Response.parse at h
  dsimp only at h
  split at h
  · cases h
    exact ⟨rfl, rfl⟩
  · cases h
  · cases h

/-- `parse` gives back what `unparseHead` has written. -/
def Response.RoundTrips (r : Response) (source : Request) (behind : Str) (heap : Nat → Str) :
    Prop :=
  ∃ r' conn, Response.parse source (wire (r.unparseHead ++ behind) heap) = .done r' conn ∧
    r'.version = r.version ∧ r'.status = r.status ∧ r'.reason = r.reason ∧ r'.headers = r.headers

/-- The first line of a response, as the parser takes it apart. -/
theorem Response.unparseHead_eq (r : Response) :
    r.unparseHead =
      threeWords (versionText r.version) (to_stringInt r.status) r.reason ++
        unparseHeaders r.headers := by
  have hblank : str " " = [space] := by decide
  simp only [Response.unparseHead, threeWords, versionText, hblank, List.append_assoc,
    List.cons_append, List.nil_append]

/-- The parser refuses `200 OK`: `OK` is not the number of a version. -/
theorem parse_ok_thrown {r : Response} (hstatus : r.status = 200) (hreason : r.reason = str "OK")
    (source : Request) (behind : Str) (heap : Nat → Str) :
    ∃ conn, Response.parse source (wire (r.unparseHead ++ behind) heap) =
      .thrown parseError conn := by
  have hversion : Word space (versionText r.version) :=
    ⟨not_mem_versionText (by decide) (by decide) (by decide),
      not_mem_versionText (by decide) (by decide) (by decide)⟩
  have hlf : lf ∉ versionText r.version :=
    not_mem_versionText (by decide) (by decide) (by decide)
  have hnumber : Word space (to_stringInt 200) := ⟨by decide, by decide⟩
  have hok : Word cr (str "OK") := ⟨by decide, by decide⟩
  have hnone : sscanf_d_d (cstr (str "OK")) = none := by decide
  have hrest : lf ∉ to_stringInt 200 ++ str "OK" := by decide
  have hline : lf ∉ versionText r.version ++ to_stringInt 200 ++ str "OK" := by
    rw [List.append_assoc, List.mem_append]
    exact not_or.mpr ⟨hlf, hrest⟩
  have hlen : (threeWords (versionText r.version) (to_stringInt 200) (str "OK")).length ≤ 1024 := by
    have hshort := versionText_length r.version
    have hwords : (space :: (to_stringInt 200 ++ space :: (str "OK" ++ crlf))).length = 9 := by
      decide
    rw [threeWords, List.length_append, hwords]
    omega
  rw [Response.unparseHead_eq, hstatus, hreason, List.append_assoc]
  obtain ⟨base, conn, hthrown⟩ := parseThis_no_version hversion hnumber hok hnone hline hlen
    (Response.ofRequest source).toBase (unparseHeaders r.headers ++ behind) heap
  refine ⟨conn, ?_⟩
  rw [Response.parse, hthrown]

/-- **No response is read back**: `parse` returns 200 and `"OK"` whatever was sent, and throws if
these were sent. -/
theorem response_not_readBack (r : Response) (source : Request) (behind : Str)
    (heap : Nat → Str) : ¬ r.RoundTrips source behind heap := by
  rintro ⟨r', conn, hparse, -, hstatus, hreason, -⟩
  obtain ⟨hstatus', hreason'⟩ := Response.parse_done hparse
  obtain ⟨conn', hthrown⟩ := parse_ok_thrown (hstatus.symm.trans hstatus')
    (hreason.symm.trans hreason') source behind heap
  rw [hparse] at hthrown
  cases hthrown

/-- The parser throws at the answer `"HTTP/0.5 200 OK"`. -/
theorem okResponse_refused :
    (∃ conn, Response.parse optionsHead
      (wire ((Response.ofRequest optionsHead).unparseHead ++ []) fun _ => []) =
        .thrown parseError conn) ∧
    ¬ (Response.ofRequest optionsHead).RoundTrips optionsHead [] fun _ => [] := by
  have hthrown := parse_ok_thrown (r := Response.ofRequest optionsHead) rfl rfl optionsHead []
    fun _ => []
  refine ⟨hthrown, ?_⟩
  rintro ⟨r', conn, hparse, -⟩
  obtain ⟨conn', hthrown⟩ := hthrown
  rw [hparse] at hthrown
  cases hthrown

end DianProtocol.Cpp
