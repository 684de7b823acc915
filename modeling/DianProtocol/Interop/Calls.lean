import DianProtocol.Cpp.Serve
import DianProtocol.Interop.Responses
import DianProtocol.Py.Conversation
import DianProtocol.Py.Talk

set_option autoImplicit false

/-! # Calls of the Python client at the C++ server

What the server reads of the request of a call (`arrived`), and what the client finds in the answer
to it (`Readable.incoming`).
-/

namespace DianProtocol.Interop

open Lines Py.Client

/-! ## The request that arrives -/

/-- The request that the server reads. -/
def arrived (r : Py.Request) : Cpp.Request where
  method := Py.encode r.method
  url := Py.encode r.url
  headers := Cpp.insertAll ∅
    (r.headers.items.map fun item => (Py.encode item.1, Py.encode item.2))

section

variable {r : Py.Request}

/-- The server takes exactly the bytes of a request, wherever its buffers lie. -/
theorem parseThis_arrived (h : Sendable r) (rest : Cpp.Str) (heap : Nat → Cpp.Str) :
    ∃ heap', Cpp.parseThis {} (Cpp.wire (Py.encode r.parse ++ rest) heap) =
      .done (arrived r) (Cpp.wire rest heap') := by
  obtain ⟨items, heq⟩ : ∃ items, (r.headers.items.map fun item =>
      (Py.encode item.1, Py.encode item.2)) = items := ⟨_, rfl⟩
  have hitems : ∀ item ∈ items, Cpp.HeaderItem item := by
    intro item hitem
    rw [← heq] at hitem
    obtain ⟨item', hitem', rfl⟩ := List.mem_map.mp hitem
    exact h.headerItem hitem'
  have hfree : '\n' ∉ requestText r := by
    have hmethod : '\n' ∉ r.method := h.not_mem_method (by decide)
    simp [requestText, Py.text, hmethod, h.url_line, h.version, Py.VERSION]
  have hline : Line Cpp.crlf (Py.encode (requestText r ++ Py.text "\r\n")) := by
    rw [Py.encode_append]
    exact Py.line_encode hfree
  have hne : Py.encode (requestText r ++ Py.text "\r\n") ≠ Cpp.crlf := by
    intro heq
    have hlen := congrArg List.length heq
    simp only [requestText, Py.encode_append, encode_blank, encode_crlf, Cpp.crlf,
      List.length_append, List.length_cons, List.length_nil] at hlen
    omega
  -- the line does not start with an LF, so that nothing in front of the buffer is compared
  have hfirst : (Py.encode (requestText r ++ Py.text "\r\n")).head? ≠ some Cpp.lf := by
    have hnil : Py.encode (requestText r) ≠ [] := by
      simp [requestText, Py.encode_append, encode_blank]
    rw [Py.encode_append, List.head?_append_of_ne_nil _ hnil]
    exact fun hhead => Py.lf_not_mem_encode hfree (List.mem_of_head? hhead)
  have hrecv := Cpp.recvUntil_first (Or.inl ⟨hline, h.first_line⟩) hfirst
    (items.flatMap Cpp.headerText ++ (Cpp.crlf ++ rest)) heap
  have hlen := Cpp.length_le_lines items
  have hpos := List.length_pos_of_ne_nil hline.ne_nil
  refine ⟨fun n => heap (n + (items.length + 1) + 1), ?_⟩
  rw [encode_parse h.headers_ne_nil, heq, List.append_assoc, List.append_assoc,
    Cpp.parseThis_line hline h.first_line hne (h.requestLine {}) hrecv,
    Cpp.readHeaders_items hitems _ _ (by simp only [List.length_append]; omega) rest _, arrived,
    heq]

/-- The items of a dictionary are what it maps its keys to. -/
theorem lookup_iff_mem {items : List (Py.Text × Py.Text)} (h : (items.map Prod.fst).Nodup)
    {key value : Py.Text} : items.lookup key = some value ↔ (key, value) ∈ items := by
  induction items with
  | nil => simp
  | cons item items ih =>
      obtain ⟨hnew, hnodup⟩ := List.nodup_cons.mp h
      by_cases hkey : key = item.1
      · subst hkey
        have habsent : (item.1, value) ∉ items := fun hmem =>
          hnew (List.mem_map.mpr ⟨_, hmem, rfl⟩)
        rw [List.lookup_cons_self, List.mem_cons]
        simp [habsent, Prod.ext_iff, eq_comm]
      · have hne : (key == item.1) = false := by simpa using hkey
        rw [List.lookup_cons, hne, List.mem_cons]
        simp [ih hnodup, Prod.ext_iff, hkey]

theorem getElem?_arrived (h : Py.LegalHeaders r.headers) (key : Py.Text) :
    (arrived r).headers[Py.encode key]? = (r.headers.get? key).map Py.encode := by
  obtain ⟨items, heq⟩ : ∃ items, (r.headers.items.map fun item =>
      (Py.encode item.1, Py.encode item.2)) = items := ⟨_, rfl⟩
  have htrim : ∀ item ∈ r.headers.items, Cpp.trim (Py.encode item.1) = Py.encode item.1 ∧
      Cpp.trim (Py.encode item.2) = Py.encode item.2 := fun item hitem =>
    ⟨trim_encode (h item hitem).1.stripped, trim_encode (h item hitem).2.stripped⟩
  have hkeys : items.map (fun item => Cpp.trim item.1) =
      (r.headers.items.map Prod.fst).map Py.encode := by
    rw [← heq, List.map_map, List.map_map]
    exact List.map_congr_left fun item hitem => (htrim item hitem).1
  have hnodup : (items.map fun item => Cpp.trim item.1).Nodup := by
    rw [hkeys]
    exact r.headers.nodup.map Py.encode_injective
  have hget : ∀ v, (arrived r).headers[Py.encode key]? = some v ↔
      ∃ value, (key, value) ∈ r.headers.items ∧ v = Py.encode value := by
    intro v
    rw [arrived, heq, Cpp.getElem?_insertAll ∅ hnodup, ← heq]
    constructor
    · rintro (⟨item, hitem, hk, hv⟩ | ⟨-, hv⟩)
      · obtain ⟨item', hitem', rfl⟩ := List.mem_map.mp hitem
        obtain ⟨hkey, hvalue⟩ := htrim item' hitem'
        obtain rfl : key = item'.1 := Py.encode_injective (hk.trans hkey)
        exact ⟨item'.2, hitem', hv.trans hvalue⟩
      · simp at hv
    · rintro ⟨value, hitem, rfl⟩
      obtain ⟨hkey, hvalue⟩ := htrim _ hitem
      exact Or.inl ⟨_, List.mem_map.mpr ⟨_, hitem, rfl⟩, hkey.symm, hvalue.symm⟩
  refine Option.ext fun v => ?_
  rw [hget v, Option.map_eq_some_iff]
  constructor
  · rintro ⟨value, hmem, rfl⟩
    exact ⟨value, (lookup_iff_mem r.headers.nodup).mpr hmem, rfl⟩
  · rintro ⟨value, hvalue, rfl⟩
    exact ⟨value, (lookup_iff_mem r.headers.nodup).mp hvalue, rfl⟩

end

/-! ## The reply that is found -/

/-- A reply that the client can read: it announces the length of its content, or has none. -/
structure Readable (reply : Cpp.Reply) : Prop where
  legible : Legible reply.response
  length : reply.response.headers[Cpp.str "Content-Length"]? =
      some (Cpp.to_string reply.content.length) ∨
    reply.response.headers[Cpp.str "Content-Length"]? = none ∧ reply.content = []

/-- A reply as the client has it. -/
structure Shows (reply : Cpp.Reply) (received : Py.Received) : Prop where
  status : received.status = reply.response.status
  headers : SameHeaders received.headers reply.response.headers

/-- The client finds the reply, and takes exactly its bytes. -/
theorem Readable.incoming {reply : Cpp.Reply} (h : Readable reply) :
    ∃ received, Py.Incoming.At (.ok (received, reply.content)) reply.bytes ∧
      Shows reply received := by
  obtain ⟨t, hreason, hline, hdigits⟩ := h.legible.reason
  obtain ⟨dict, hitems, hsame, hlegible⟩ := exists_dict h.legible.headers
  have hkey : Cpp.str "Content-Length" = Py.encode (Py.text "Content-Length") := str_encode _
  let r : Py.Response :=
    { version := versionText reply.response.version, status := reply.response.status
      status_text := t, headers := dict, body := .reader reply.content }
  have hclean : Py.Clean r :=
    { version_ne_nil := by simp [r, versionText, Py.text]
      version_line := versionText_line reply.response.version
      status_text_line := hline
      headers := fun item hitem =>
        ⟨(hlegible item hitem).legal_key, (hlegible item hitem).legal_value⟩
      status := h.legible.status
      no_number := hdigits
      length := by
        rcases h.length with hlength | ⟨hnone, hcontent⟩
        · refine Or.inl ?_
          obtain ⟨item, hitem, hk, hv⟩ := (hsame _ _).mp hlength
          rw [to_string_encode] at hv
          have hitem' : item = (Py.text "Content-Length", Py.str reply.content.length) :=
            Prod.ext (Py.encode_injective (hk.symm.trans hkey)) (Py.encode_injective hv.symm)
          exact (lookup_iff_mem dict.nodup).mpr (hitem' ▸ hitem)
        · refine Or.inr ⟨?_, hcontent⟩
          rw [Option.eq_none_iff_forall_ne_some]
          intro value hvalue
          have hsome := (hsame _ _).mpr ⟨_, (lookup_iff_mem dict.nodup).mp hvalue, hkey, rfl⟩
          rw [hnone] at hsome
          cases hsome }
  have hblank : ∀ c ∈ Py.text " ", decide (c = ' ') = true := by simp [Py.text]
  refine ⟨Py.received r, .response (fun rest => ?_) (Py.read_body hclean), rfl, hsame⟩
  have hheaders := Py.readHeaders_lines hblank hclean.headers (reply.content ++ rest)
  apply Py.Reader.response_of_unparse
  rw [Cpp.Reply.bytes, unparseHead_encode (r := r) rfl rfl hreason, unparseHeaders_encode hitems,
    List.append_assoc, List.append_assoc, List.append_assoc]
  exact hclean.unparse_head hheaders

/-! ## The answers of the server -/

/-- Headers that the client can read, and none of them is a content length. -/
structure Bare (headers : Cpp.Headers) : Prop where
  legible : ∀ item ∈ headers.toList, ∃ key value, LegibleItem item key value
  no_length : headers[Cpp.str "Content-Length"]? = none

/-- The headers of an answer, besides its content length. -/
def names : List String := ["Public", "Transport", "Session", "CSeq", "Range", "Content-Range"]

theorem names_legal {name : String} (h : name ∈ names) :
    Py.LegalKey (Py.text name) ∧ Py.text name ≠ Py.text "Content-Length" := by
  have hall : ∀ name ∈ names, Py.text name ≠ [] ∧ Py.strip (Py.text name) = Py.text name ∧
      ':' ∉ Py.text name ∧ '\n' ∉ Py.text name ∧ Py.text name ≠ Py.text "Content-Length" := by
    decide
  obtain ⟨hnil, hstrip, hcolon, hline, hlength⟩ := hall name h
  exact ⟨⟨hnil, hstrip, hcolon, hline⟩, hlength⟩

theorem legible_insert {headers : Cpp.Headers} {k v : Cpp.Str} {key value : Py.Text}
    (h : ∀ item ∈ headers.toList, ∃ key value, LegibleItem item key value)
    (hnew : LegibleItem (k, v) key value) :
    ∀ item ∈ (headers.insert k v).toList, ∃ key value, LegibleItem item key value := by
  intro item hitem
  have hget := Std.ExtTreeMap.mem_toList_iff_getElem?_eq_some.mp hitem
  rw [Cpp.Map.getElem?_insert] at hget
  by_cases hk : k = item.1
  · rw [if_pos hk] at hget
    have hsame : (k, v) = item := Prod.ext hk (Option.some.inj hget)
    exact ⟨key, value, hsame ▸ hnew⟩
  · rw [if_neg hk] at hget
    exact h item (Std.ExtTreeMap.mem_toList_iff_getElem?_eq_some.mpr hget)

section

variable {x : Cpp.Response}

theorem bare_ofRequest (request : Cpp.Request) : Bare (Cpp.Response.ofRequest request).headers where
  legible := by
    intro item hitem
    have hget := Std.ExtTreeMap.mem_toList_iff_getElem?_eq_some.mp hitem
    simp [Cpp.Response.ofRequest] at hget
  no_length := by simp [Cpp.Response.ofRequest]

theorem Bare.set (h : Bare x.headers) {n : String} (hname : n ∈ names) {v : Cpp.Str}
    {value : Py.Text} (hv : v = Py.encode value) (hvalue : Py.LegalValue value) :
    Bare (x.set n v).headers := by
  obtain ⟨hkey, hne⟩ := names_legal hname
  have hnew : LegibleItem (Cpp.str n, v) (Py.text n) value :=
    ⟨str_encode _, hv, hkey, hvalue, fun heq => absurd heq hne⟩
  refine ⟨legible_insert h.legible hnew, ?_⟩
  have hdiffer : Cpp.str n ≠ Cpp.str "Content-Length" := fun heq =>
    hne (Py.encode_injective ((str_encode _).symm.trans (heq.trans (str_encode _))))
  show (x.headers.insert _ _)[_]? = none
  rw [Cpp.Map.getElem?_insert, if_neg hdiffer]
  exact h.no_length

/-- A reason that the client does not take for a status. -/
structure Reason (reason : String) : Prop where
  line : '\n' ∉ Py.text reason
  digits : (Py.text reason).any Py.ascii_digit = false

theorem Bare.readable (h : Bare x.headers) (hstatus : 0 ≤ x.status) {reason : String}
    (hreason : Reason reason) (heq : x.reason = Cpp.str reason) :
    Readable { response := x } where
  legible := ⟨hstatus, ⟨_, heq.trans (str_encode _), hreason.line, hreason.digits⟩, h.legible⟩
  length := Or.inr ⟨h.no_length, rfl⟩

theorem Bare.withStatus (h : Bare x.headers) {status : Int} (hstatus : 0 ≤ status)
    {reason : String} (hreason : Reason reason) :
    Readable { response := x.withStatus status reason } :=
  Bare.readable (x := x.withStatus status reason) h hstatus hreason rfl

theorem Bare.readable_of (h : Bare x.headers) (hstatus : 0 ≤ x.status)
    {reason : String} (hreason : Reason reason) (heq : x.reason = Cpp.str reason)
    (content : Cpp.Str) : Readable (.of x content) := by
  have hnumber : Py.LegalValue ([] ++ Py.str (content.length : Int)) :=
    Py.legalValue_number _ (by simp) rfl
  have hnew : LegibleItem (Cpp.str "Content-Length", Cpp.to_string content.length)
      (Py.text "Content-Length") (Py.str content.length) :=
    { key_encode := str_encode _
      value_encode := to_string_encode _
      legal_key := ⟨by decide, by decide, by decide, by decide⟩
      legal_value := hnumber
      length := fun _ => ⟨Py.str_ne_nil _, fun c hc => Py.str_isDigit hc⟩ }
  constructor
  · exact ⟨hstatus, ⟨_, heq.trans (str_encode _), hreason.line, hreason.digits⟩,
      legible_insert h.legible hnew⟩
  · exact Or.inl (Cpp.Map.getElem?_insert.trans (if_pos rfl))

end

theorem legalValue_contentRange (start end_ : Int) (size : Nat) : ∃ value,
    Cpp.contentRange start end_ size = Py.encode value ∧ Py.LegalValue value := by
  let last : Int := (if end_ = -1 then size else Cpp.size_t end_ : Nat)
  have hliteral : ∀ s : String, Cpp.str s = Py.encode (Py.text s) := str_encode
  refine ⟨(Py.text "bytes " ++ Py.str start ++ Py.text "-" ++ Py.str last ++ Py.text "/") ++
    Py.str size, ?_, Py.legalValue_number _ ?_ ?_⟩
  · rw [Cpp.contentRange]
    simp only [hliteral, to_string_encode, to_stringInt_encode, Py.encode_append, last]
  · have hfixed : '\n' ∉ Py.text "bytes " ∧ '\n' ∉ Py.text "-" ∧ '\n' ∉ Py.text "/" := by decide
    simp [hfixed, Py.lf_not_mem_str]
  · rfl

/-- The id that is made of a draw, as the client has it. -/
def idText (inst : Cpp.Installation) (n : Nat) : Py.Text :=
  Py.str (inst.draws n).1 ++ Py.str (inst.draws n).2

theorem id_encode (inst : Cpp.Installation) (n : Nat) : inst.id n = Py.encode (idText inst n) := by
  rw [Cpp.Installation.id, idText, Py.encode_append, to_string_encode, to_string_encode]

theorem idText_legal (inst : Cpp.Installation) (n : Nat) : Py.LegalValue (idText inst n) := by
  refine Py.legalValue_number _ (Py.lf_not_mem_str _) ?_
  cases hhead : (Py.str ((inst.draws n).1 : Int)).head? with
  | none => rfl
  | some c => exact Py.isspace_of_isDigit (Py.str_isDigit (List.mem_of_head? hhead))

section

variable {r : Py.Request}

theorem getD_arrived (h : Py.LegalHeaders r.headers) (name : String) :
    ∃ value, (arrived r).headers.getD (Cpp.str name) [] = Py.encode value ∧
      Py.LegalValue value := by
  have hget := getElem?_arrived h (Py.text name)
  rw [Std.ExtTreeMap.getD_eq_getD_getElem?, str_encode]
  show ∃ value, (arrived r).headers[Py.encode (Py.text name)]?.getD [] = _ ∧ _
  rw [hget]
  cases hvalue : r.headers.get? (Py.text name) with
  | none => exact ⟨[], rfl, ⟨rfl, by simp⟩⟩
  | some value => exact ⟨value, rfl, (h _ ((lookup_iff_mem r.headers.nodup).mp hvalue)).2⟩

/-- An answer to a PLAY. -/
theorem playReply_readable {machine : Cpp.Machine} {response : Cpp.Response} {reply : Cpp.Reply}
    (hbare : Bare response.headers) (hlegal : Py.LegalHeaders r.headers)
    (h : machine.playReply (arrived r) response = .ok reply) : Readable reply := by
  unfold Cpp.Machine.playReply at h
  cases huri : Cpp.getURI (arrived r).url with
  | error e =>
      rw [huri] at h
      cases h
  | ok uri =>
      rw [huri] at h
      dsimp only [Except.bind] at h
      cases hfile : machine.files (Cpp.filepath machine uri) with
      | none =>
          rw [hfile] at h
          cases h
          exact hbare.withStatus (by decide) ⟨by decide, by decide⟩
      | some file =>
          rw [hfile] at h
          dsimp only at h
          cases hrange : (arrived r).headers[Cpp.str "Range"]? with
          | none =>
              rw [hrange] at h
              cases h
              have hpos : (0 : Int) ≤ 200 := by decide
              exact Bare.readable_of (x := response.withStatus 200 "OK") hbare hpos
                ⟨by decide, by decide⟩ rfl _
          | some range =>
              rw [hrange] at h
              dsimp only at h
              cases hnumbers : Cpp.rangeOf machine range with
              | error e =>
                  rw [hnumbers] at h
                  cases h
              | ok numbers =>
                  rw [hnumbers] at h
                  cases numbers with
                  | none =>
                      cases h
                      exact hbare.withStatus (by decide) ⟨by decide, by decide⟩
                  | some interval =>
                      obtain ⟨start, end_⟩ := interval
                      cases h
                      show Readable (Cpp.intervalReply response file range start end_)
                      unfold Cpp.intervalReply
                      split
                      · exact hbare.withStatus (by decide) ⟨by decide, by decide⟩
                      split
                      · exact hbare.withStatus (by decide) ⟨by decide, by decide⟩
                      · -- the range that was asked for is sent back
                        obtain ⟨value, hvalue, hrangeLegal⟩ := getD_arrived hlegal "Range"
                        rw [Std.ExtTreeMap.getD_eq_getD_getElem?, hrange] at hvalue
                        obtain ⟨content, hcontent, hcontentLegal⟩ :=
                          legalValue_contentRange start end_ file.bytes.length
                        have hboth := (hbare.set (n := "Range") (by decide) hvalue
                          hrangeLegal).set (n := "Content-Range") (by decide) hcontent
                            hcontentLegal
                        have hpos : (0 : Int) ≤ 206 := by decide
                        let answer := ((response.set "Range" range).set "Content-Range"
                          (Cpp.contentRange start end_ file.bytes.length)).withStatus 206
                            "Partial Content"
                        exact Bare.readable_of (x := answer) hboth hpos ⟨by decide, by decide⟩ rfl _

/-- What the answer of the server is like. -/
structure Answered {inst : Cpp.Installation} (st : Cpp.Store inst) (request : Cpp.Request)
    (reply : Cpp.Reply) (s : Option (Cpp.Store inst)) : Prop where
  readable : Readable reply
  session : request.method = Cpp.str "SETUP" → reply.response.status = 200 →
    reply.response.headers[Cpp.str "Session"]? = some (inst.id st.drawn)
  drawn : ∀ st', s = some st' → st'.drawn ≤ st.drawn + 1

/-- A session that is stored has an id. -/
theorem stored_legal {inst : Cpp.Installation} (st : Cpp.Store inst) {key : Cpp.Str}
    (hmem : key ∈ st.sessions) : ∃ value, key = Py.encode value ∧ Py.LegalValue value := by
  obtain ⟨n, -, rfl⟩ := st.drawn_of_mem key hmem
  exact ⟨_, id_encode inst n, idText_legal inst n⟩

theorem bare_playResponse (hlegal : Py.LegalHeaders r.headers) {key : Cpp.Str} {value : Py.Text}
    (hvalue : key = Py.encode value) (hvalueLegal : Py.LegalValue value) :
    Bare (Cpp.Installation.playResponse (arrived r) key).headers := by
  obtain ⟨cseq, hcseq, hcseqLegal⟩ := getD_arrived hlegal "CSeq"
  have hcounted := (bare_ofRequest (arrived r)).set (n := "CSeq") (by decide) hcseq hcseqLegal
  exact hcounted.set (n := "Session") (by decide) hvalue hvalueLegal

/-- An answer with the methods of the server. -/
theorem readable_public (request : Cpp.Request) {status : Int} (hstatus : 0 ≤ status)
    {reason : String} (hreason : Reason reason) :
    Readable
      { response := ((Cpp.Response.ofRequest request).withStatus status reason).set "Public"
          (Cpp.str "SETUP, TEARDOWN, PLAY, OPTIONS") } := by
  have hlist : Py.LegalValue (Py.text "SETUP, TEARDOWN, PLAY, OPTIONS") :=
    ⟨by decide, by decide⟩
  have hbare : Bare (((Cpp.Response.ofRequest request).withStatus status reason).set "Public"
      (Cpp.str "SETUP, TEARDOWN, PLAY, OPTIONS")).headers :=
    Bare.set (x := (Cpp.Response.ofRequest request).withStatus status reason)
      (bare_ofRequest request) (by decide) (str_encode _) hlist
  exact hbare.readable hstatus hreason rfl

theorem answered_of_outcome {inst : Cpp.Installation} {st : Cpp.Store inst} {reply : Cpp.Reply}
    {s : Option (Cpp.Store inst)} (hlegal : Py.LegalHeaders r.headers)
    (h : Cpp.Installation.Outcome st (arrived r) reply s) : Answered st (arrived r) reply s := by
  have hbare := bare_ofRequest (arrived r)
  have hsame : ∀ st' : Cpp.Store inst, some st = some st' → st'.drawn ≤ st.drawn + 1 := by
    intro st' heq
    cases heq
    omega
  have hOK : Reason "OK" := ⟨by decide, by decide⟩
  have hpos : (0 : Int) ≤ 200 := by decide
  have hdiffer : Cpp.str "OPTIONS" ≠ Cpp.str "SETUP" ∧ Cpp.str "TEARDOWN" ≠ Cpp.str "SETUP" ∧
      Cpp.str "PLAY" ≠ Cpp.str "SETUP" := by decide
  obtain ⟨hoptions, hteardown, hplay⟩ := hdiffer
  cases h with
  | options hmethod =>
      exact ⟨readable_public _ hpos hOK, fun h => absurd (hmethod.symm.trans h) hoptions, hsame⟩
  | badURI hmethod huri =>
      refine ⟨hbare.withStatus (by decide) ⟨by decide, by decide⟩, fun _ hstatus => ?_, ?_⟩
      · exact absurd hstatus (by show ¬ (500 : Int) = 200; decide)
      · intro st' heq
        cases heq
  | unauthorized hmethod huri henable =>
      refine ⟨hbare.withStatus (by decide) ⟨by decide, by decide⟩, fun _ hstatus => ?_, ?_⟩
      · exact absurd hstatus (by show ¬ (401 : Int) = 200; decide)
      · intro st' heq
        cases heq
        exact Nat.le_refl _
  | created hmethod huri henable =>
      have hTCP : Py.LegalValue (Py.text "TCP") := ⟨by decide, by decide⟩
      have hboth := (hbare.set (n := "Transport") (by decide) (str_encode _) hTCP).set
        (n := "Session") (by decide) (id_encode inst st.drawn) (idText_legal inst _)
      let answer := (((Cpp.Response.ofRequest (arrived r)).withStatus 200 "OK").set "Transport"
        (Cpp.str "TCP")).set "Session" (inst.id st.drawn)
      refine ⟨Bare.readable (x := answer) hboth hpos hOK rfl, fun _ _ => ?_, ?_⟩
      · exact Cpp.Map.getElem?_insert.trans (if_pos rfl)
      · intro st' heq
        cases heq
        exact Nat.le_refl _
  | tornDown hmethod hmem =>
      obtain ⟨value, hvalue, hvalueLegal⟩ := stored_legal st hmem
      have hnamed := hbare.set (n := "Session") (by decide) hvalue hvalueLegal
      let answer := ((Cpp.Response.ofRequest (arrived r)).withStatus 200 "OK").set "Session"
        ((arrived r).headers.getD (Cpp.str "Session") [])
      refine ⟨Bare.readable (x := answer) hnamed hpos hOK rfl,
        fun h => absurd (hmethod.symm.trans h) hteardown, ?_⟩
      intro st' heq
      cases heq
      exact Nat.le_succ _
  | notFound hmethod hmem =>
      refine ⟨hbare.withStatus (by decide) ⟨by decide, by decide⟩, fun h => ?_, hsame⟩
      rcases hmethod with hmethod | hmethod
      · exact absurd (hmethod.symm.trans h) hteardown
      · exact absurd (hmethod.symm.trans h) hplay
  | played hmethod hmem hreply =>
      obtain ⟨value, hvalue, hvalueLegal⟩ := stored_legal st hmem
      have hprepared := bare_playResponse hlegal hvalue hvalueLegal
      refine ⟨playReply_readable hprepared hlegal hreply,
        fun h => absurd (hmethod.symm.trans h) hplay, ?_⟩
      intro st' heq
      cases heq
      exact Nat.le_succ _
  | raised hmethod hmem hreply =>
      obtain ⟨value, hvalue, hvalueLegal⟩ := stored_legal st hmem
      have hprepared := bare_playResponse hlegal hvalue hvalueLegal
      refine ⟨hprepared.withStatus (by decide) ⟨by decide, by decide⟩,
        fun h => absurd (hmethod.symm.trans h) hplay, ?_⟩
      intro st' heq
      cases heq
  | notAllowed hmethod =>
      have hpos' : (0 : Int) ≤ 405 := by decide
      exact ⟨readable_public _ hpos' ⟨by decide, by decide⟩, fun h => absurd h hmethod.2.1, hsame⟩

theorem serve_answered {inst : Cpp.Installation} (st : Cpp.Store inst)
    (hlegal : Py.LegalHeaders r.headers) :
    Answered st (arrived r) (inst.serve st (arrived r)).1 (inst.serve st (arrived r)).2 :=
  answered_of_outcome hlegal (Cpp.Installation.serve_outcome rfl)

end

/-! ## The request of a call -/

/-- A header value that the server reads as the client has it. -/
structure Fits (value : Py.Text) : Prop where
  legal : Py.LegalValue value
  plain : Plain value
  length : (Py.encode value).length ≤ 1000

/-- A url that the server reads as the client has it. -/
structure FitUrl (url : Py.Text) : Prop where
  word : ' ' ∉ url
  line : '\n' ∉ url
  plain : Plain url
  length : (Py.encode url).length ≤ 1000

theorem length_encode_le (t : Py.Text) : (Py.encode t).length ≤ 4 * t.length := by
  induction t with
  | nil => simp [Py.encode]
  | cons c t ih =>
      have hc : (String.utf8EncodeChar c).length ≤ 4 := by
        rw [String.length_utf8EncodeChar]
        exact c.utf8Size_le_four
      have happ : Py.encode (c :: t) = String.utf8EncodeChar c ++ Py.encode t := List.flatMap_cons
      rw [happ, List.length_append, List.length_cons]
      omega

/-- A short value without blanks. -/
theorem fits_of_visible {t : Py.Text} (h : ∀ c ∈ t, Py.isspace c = false ∧ c ≠ '\x00')
    (hlen : t.length ≤ 250) : Fits t where
  legal :=
    { stripped := Py.strip_of_ends (fun c hc => (h c (List.mem_of_head? hc)).1)
        (fun c hc => (h c (List.mem_of_getLast? hc)).1)
      no_newline := fun hmem => absurd (h _ hmem).1 (by decide) }
  plain := ⟨fun hmem => (h _ hmem).2 rfl, fun hmem => absurd (h _ hmem).1 (by decide)⟩
  length := by
    have hle := length_encode_le t
    omega

theorem visible_digit {c : Char} (h : c.isDigit) : Py.isspace c = false ∧ c ≠ '\x00' := by
  refine ⟨Py.isspace_of_isDigit h, ?_⟩
  rintro rfl
  exact absurd h (by decide)

theorem fits_digits {t : Py.Text} (h : ∀ c ∈ t, c.isDigit) (hlen : t.length ≤ 250) : Fits t :=
  fits_of_visible (fun c hc => visible_digit (h c hc)) hlen

theorem length_str_le {n e : Nat} (he : 0 < e) (h : n < 10 ^ e) : (Py.str n).length ≤ e := by
  rw [Py.str_natCast]
  exact Nat.toDigits_length 10 n e he h

theorem idText_fits (inst : Cpp.Installation) (n : Nat) : Fits (idText inst n) := by
  obtain ⟨hfirst, hsecond⟩ := inst.draws_lt n
  have hfirst' := length_str_le (e := 10) (by decide) (by omega : (inst.draws n).1 < 10 ^ 10)
  have hsecond' := length_str_le (e := 10) (by decide) (by omega : (inst.draws n).2 < 10 ^ 10)
  refine fits_digits (fun c hc => ?_) ?_
  · rcases List.mem_append.mp hc with hc | hc
    · exact Py.str_isDigit hc
    · exact Py.str_isDigit hc
  · rw [idText, List.length_append]
    omega

/-- The arguments are values that the server reads. -/
def CallFits : Call → Prop
  | .setup auth => ∀ key, given auth = some key → Fits (Py.text "Bearer " ++ key)
  | .play range => ∀ range', given range = some range' → Fits range'
  | _ => True

/-- The headers of a request. -/
def keys : List Py.Text :=
  [Py.text "CSeq", Py.text "Transport", Py.text "Session", Py.text "Range",
    Py.text "Authorization"]

def FitHeaders (dict : Py.Dict) : Prop := ∀ item ∈ dict.items, item.1 ∈ keys ∧ Fits item.2

theorem FitHeaders.set {dict : Py.Dict} (h : FitHeaders dict) {key value : Py.Text}
    (hkey : key ∈ keys) (hvalue : Fits value) : FitHeaders (dict.set key value) := by
  intro item hitem
  rcases Py.Dict.mem_setItems hitem with rfl | hmem
  · exact ⟨hkey, hvalue⟩
  · exact h item hmem

section

variable {c : Py.Client} {call : Call}

theorem request_fits (hcall : CallFits call) (hsession : Fits c.session)
    (hcseq : c.cseq < 10 ^ 250) : FitHeaders (call.request c).headers := by
  have hempty : FitHeaders {} := fun item hitem => by cases hitem
  have hnumber : Fits (Py.str c.cseq) :=
    fits_digits (fun d hd => Py.str_isDigit hd) (length_str_le (by decide) hcseq)
  have hTCP : Fits (Py.text "TCP") :=
    ⟨⟨by decide, by decide⟩, ⟨by decide, by decide⟩, by decide⟩
  have hcounted : FitHeaders (Py.Dict.set {} (Py.text "CSeq") (Py.str c.cseq)) :=
    hempty.set (by decide) hnumber
  have hnamed := hcounted.set (by decide : Py.text "Session" ∈ keys) hsession
  cases call with
  | setup auth =>
      have hheaders := hcounted.set (by decide : Py.text "Transport" ∈ keys) hTCP
      simp only [Call.request, Py.Client.setupRequest]
      cases hgiven : given auth with
      | none => exact hheaders
      | some key => exact hheaders.set (by decide) (hcall key hgiven)
  | play range =>
      simp only [Call.request, rangeRequest]
      cases hgiven : given range with
      | none => exact hnamed
      | some range' => exact hnamed.set (by decide) (hcall range' hgiven)
  | teardown => exact hnamed
  | options => exact hcounted

theorem FitHeaders.legal {dict : Py.Dict} (h : FitHeaders dict) : Py.LegalHeaders dict := by
  have hkeys : ∀ key ∈ keys, key ≠ [] ∧ Py.strip key = key ∧ ':' ∉ key ∧ '\n' ∉ key := by decide
  intro item hitem
  obtain ⟨hkey, hvalue⟩ := h item hitem
  obtain ⟨hnil, hstrip, hcolon, hline⟩ := hkeys _ hkey
  exact ⟨⟨hnil, hstrip, hcolon, hline⟩, hvalue.legal⟩

/-- The interval that a PLAY asks for does not end right behind the file, and the file is sent as it
stands. -/
def Playable (machine : Cpp.Machine) (url : Py.Text) : Call → Prop
  | .play range => ∀ uri file, Cpp.getURI (Py.encode url) = .ok uri →
      machine.files (Cpp.filepath machine uri) = some file →
      (machine._WIN32 = true → ∀ i, ¬ Cpp.Altered file.bytes i) ∧
      ∀ range' start end_, given range = some range' →
        Cpp.rangeOf machine (Py.encode range') = .ok (some (start, end_)) →
        end_ ≠ file.bytes.length ∧ end_ ≠ 2 ^ 31 - 1
  | _ => True

theorem method_arrived (call : Call) (c : Py.Client) :
    (arrived (call.request c)).method = Py.encode call.method :=
  congrArg Py.encode (call.request_line c).1

theorem header_arrived (hfits : FitHeaders (call.request c).headers) (n : String) :
    (arrived (call.request c)).headers[Cpp.str n]? =
      ((call.request c).headers.get? (Py.text n)).map Py.encode := by
  rw [str_encode]
  exact getElem?_arrived hfits.legal (Py.text n)

end

end DianProtocol.Interop
