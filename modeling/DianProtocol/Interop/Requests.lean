import DianProtocol.Cpp.Heads
import DianProtocol.Py.Unparse

set_option autoImplicit false

/-! # Requests from Python to C++

The Python client writes a request with `Request.parse`, and the C++ server reads it with
`Base::parseThis`. The two were written on their own: the client puts a header's value right behind
the colon and counts in characters, the server scans bytes for separators and trims blanks.
`parseThis_parse` says that the server gets what the client wrote, and stops where it ends.
-/

namespace DianProtocol.Interop

open Lines

/-- The headers of a C++ message are those of a Python message, in UTF-8. -/
def SameHeaders (dict : Py.Dict) (headers : Cpp.Headers) : Prop :=
  ∀ k v : Cpp.Str, headers[k]? = some v ↔
    ∃ item ∈ dict.items, k = Py.encode item.1 ∧ v = Py.encode item.2

/-! ## Bytes of a text -/

/-- No NUL and no CR, besides what a legal key or value must not contain. -/
def Plain (t : Py.Text) : Prop := '\x00' ∉ t ∧ '\r' ∉ t

theorem word_encode {t : Py.Text} {c : Char} {stop : Cpp.Byte} (hascii : stop.toNat < 128)
    (hstop : c.toNat = stop.toNat) (hc : c ∉ t) (hnul : '\x00' ∉ t) :
    Cpp.Word stop (Py.encode t) where
  no_stop := Py.not_mem_encode hascii hstop hc
  no_nul := Py.not_mem_encode (by decide) (by decide) hnul

/-- A text without white space at its ends is not trimmed. -/
theorem trim_encode {t : Py.Text} (h : Py.strip t = t) : Cpp.trim (Py.encode t) = Py.encode t := by
  have hblank : ∀ c : Char, c.toNat = Cpp.space.toNat → Py.isspace c = true := by
    intro c hc
    have heq : c = ' ' := Char.ext (UInt32.toNat_inj.mp hc)
    rw [heq]
    decide
  refine Cpp.trim_of_ends (fun hfirst => ?_) (fun hlast => ?_)
  · obtain ⟨c, rest, rfl, hc⟩ := Py.head?_encode (by decide) hfirst
    have hspace := Py.not_isspace_first h
    rw [hblank c hc] at hspace
    cases hspace
  · obtain ⟨rest, c, rfl, hc⟩ := Py.getLast?_encode (by decide) hlast
    have hspace := Py.not_isspace_last h
    rw [hblank c hc] at hspace
    cases hspace

theorem encode_colon : Py.encode (Py.text ":") = [58] := by decide

theorem encode_blank : Py.encode (Py.text " ") = [Cpp.space] := by decide

theorem encode_crlf : Py.encode (Py.text "\r\n") = Cpp.crlf := by decide

/-- A header line of the client, as the server sees it. -/
theorem headerText_encode (item : Py.Text × Py.Text) :
    Py.encode (Py.headerLine item) = Cpp.headerText (Py.encode item.1, Py.encode item.2) := by
  simp [Py.headerLine, Cpp.headerText, Py.encode_append, encode_colon, encode_crlf]

/-! ## The lines of a request -/

/-- The first line of a request, without its end. -/
def requestText (r : Py.Request) : Py.Text :=
  r.method ++ Py.text " " ++ r.url ++ Py.text " " ++ r.version

/-- A request that the Python client can send. -/
structure Sendable (r : Py.Request) : Prop where
  method : ∀ c ∈ r.method, Py.ascii_upper c = true
  url_word : ' ' ∉ r.url
  url_line : '\n' ∉ r.url
  url_plain : Plain r.url
  version : r.version = Py.VERSION
  headers_ne_nil : r.headers.items ≠ []
  headers : ∀ item ∈ r.headers.items, Py.LegalKey item.1 ∧ Py.LegalValue item.2 ∧
    Plain item.1 ∧ Plain item.2
  first_line : (Py.encode (requestText r ++ Py.text "\r\n")).length ≤ 1024
  header_lines : ∀ item ∈ r.headers.items, (Py.encode (Py.headerLine item)).length ≤ 1024

section

variable {r : Py.Request}

theorem Sendable.not_mem_method (h : Sendable r) {c : Char} (hc : Py.ascii_upper c = false) :
    c ∉ r.method := by
  intro hmem
  rw [h.method c hmem] at hc
  cases hc

theorem Sendable.requestLine (h : Sendable r) (base : Cpp.Base) :
    Cpp.requestLine base (Py.encode (requestText r ++ Py.text "\r\n") ++ [Cpp.nul]) =
      ({ base with method := Py.encode r.method, url := Py.encode r.url, version := {} },
        none) := by
  have hmethod : Cpp.Word Cpp.space (Py.encode r.method) :=
    word_encode (c := ' ') (by decide) rfl (h.not_mem_method (by decide))
      (h.not_mem_method (by decide))
  have hurl : Cpp.Word Cpp.space (Py.encode r.url) :=
    word_encode (c := ' ') (by decide) rfl h.url_word h.url_plain.1
  have hversion : Cpp.Word Cpp.cr (Py.encode r.version) := by
    rw [h.version]
    exact ⟨by decide, by decide⟩
  have hnumbers : Cpp.sscanf_d_d (Cpp.cstr (Py.encode r.version)) = some (0, 5) := by
    rw [h.version]
    decide
  have hsplit : Py.encode (requestText r ++ Py.text "\r\n") ++ [Cpp.nul] =
      Py.encode r.method ++ Cpp.space :: (Py.encode r.url ++
        Cpp.space :: (Py.encode r.version ++ Cpp.crlf ++ [Cpp.nul])) := by
    simp [requestText, Py.encode_append, encode_blank, encode_crlf]
  rw [hsplit]
  exact Cpp.requestLine_words hmethod hurl hversion hnumbers base

/-- The header lines of the client are header lines for the server. -/
theorem Sendable.headerItem (h : Sendable r) {item : Py.Text × Py.Text}
    (hitem : item ∈ r.headers.items) : Cpp.HeaderItem (Py.encode item.1, Py.encode item.2) := by
  obtain ⟨hkey, hvalue, hkeyPlain, hvaluePlain⟩ := h.headers item hitem
  exact
    { key := word_encode (c := ':') (by decide) rfl hkey.no_colon hkeyPlain.1
      value := word_encode (c := '\r') (by decide) rfl hvaluePlain.2 hvaluePlain.1
      key_line := Py.lf_not_mem_encode hkey.no_newline
      value_line := Py.lf_not_mem_encode hvalue.no_newline
      length := by
        have hlen := h.header_lines item hitem
        rwa [headerText_encode] at hlen }

/-- The bytes of a request: its first line, the lines of its headers, and an empty line. -/
theorem encode_parse (h : r.headers.items ≠ []) :
    Py.encode r.parse = Py.encode (requestText r ++ Py.text "\r\n") ++
      ((r.headers.items.map fun item => (Py.encode item.1, Py.encode item.2)).flatMap Cpp.headerText
        ++ Cpp.crlf) := by
  have hlines : Py.encode (Py.joinHeaders r.headers ++ Py.text "\r\n\r\n") =
      (r.headers.items.map fun item => (Py.encode item.1, Py.encode item.2)).flatMap Cpp.headerText
        ++ Cpp.crlf := by
    rw [Py.joinHeaders_lines h, Py.encode_append, encode_crlf, Py.encode, List.flatMap_assoc,
      List.flatMap_map]
    congr 2
    exact funext headerText_encode
  rw [← hlines, ← Py.encode_append]
  congr 1
  simp [Py.Request.parse, requestText]

end

/-- **Requests from Python to C++**: the server reads the method, the url, the version and the
headers that the client wrote, and takes exactly the bytes of the request. -/
theorem parseThis_parse {r : Py.Request} (h : Sendable r) (rest : Cpp.Str) :
    ∃ base, Cpp.parseThis {} (Cpp.clear (Py.encode r.parse ++ rest)) = .done base (Cpp.clear rest) ∧
      base.method = Py.encode r.method ∧ base.url = Py.encode r.url ∧
        base.version = { major := 0, minor := 5 } ∧ SameHeaders r.headers base.headers := by
  obtain ⟨items, heq⟩ : ∃ items, (r.headers.items.map fun item =>
      (Py.encode item.1, Py.encode item.2)) = items := ⟨_, rfl⟩
  have hitems : ∀ item ∈ items, Cpp.HeaderItem item := by
    intro item hitem
    rw [← heq] at hitem
    obtain ⟨item', hitem', rfl⟩ := List.mem_map.mp hitem
    exact h.headerItem hitem'
  have htrim : ∀ item ∈ r.headers.items, Cpp.trim (Py.encode item.1) = Py.encode item.1 ∧
      Cpp.trim (Py.encode item.2) = Py.encode item.2 := by
    intro item hitem
    obtain ⟨hkey, hvalue, -⟩ := h.headers item hitem
    exact ⟨trim_encode hkey.stripped, trim_encode hvalue.stripped⟩
  -- the first line
  have hline : Line Cpp.crlf (Py.encode (requestText r ++ Py.text "\r\n")) := by
    have hfree : '\n' ∉ requestText r := by
      have hmethod : '\n' ∉ r.method := h.not_mem_method (by decide)
      simp [requestText, Py.text, hmethod, h.url_line, h.version, Py.VERSION]
    rw [Py.encode_append]
    exact Py.line_encode hfree
  have hne : Py.encode (requestText r ++ Py.text "\r\n") ≠ Cpp.crlf := by
    intro heq
    have hlen := congrArg List.length heq
    simp only [requestText, Py.encode_append, encode_blank, encode_crlf, Cpp.crlf,
      List.length_append, List.length_cons, List.length_nil] at hlen
    omega
  refine ⟨{ method := Py.encode r.method, url := Py.encode r.url,
            headers := Cpp.insertAll ∅ items }, ?_, rfl, rfl, rfl, fun k v => ?_⟩
  · have hrecv := Cpp.recvUntil_line hline h.first_line
      (items.flatMap Cpp.headerText ++ (Cpp.crlf ++ rest))
    rw [encode_parse h.headers_ne_nil, heq, List.append_assoc, List.append_assoc]
    refine (Cpp.parseThis_line hline h.first_line hne (h.requestLine {}) hrecv).trans ?_
    refine Cpp.readHeaders_items hitems _ _ ?_ rest _
    have hlen := Cpp.length_le_lines items
    have hpos := List.length_pos_of_ne_nil hline.ne_nil
    simp only [List.length_append]
    omega
  · have hkeys : items.map (fun item => Cpp.trim item.1) =
        (r.headers.items.map Prod.fst).map Py.encode := by
      rw [← heq, List.map_map, List.map_map]
      exact List.map_congr_left fun item hitem => (htrim item hitem).1
    have hnodup : (items.map fun item => Cpp.trim item.1).Nodup := by
      rw [hkeys]
      exact r.headers.nodup.map Py.encode_injective
    rw [Cpp.getElem?_insertAll ∅ hnodup]
    rw [← heq]
    constructor
    · rintro (⟨item, hitem, hk, hv⟩ | ⟨-, hv⟩)
      · obtain ⟨item', hitem', rfl⟩ := List.mem_map.mp hitem
        obtain ⟨hkey, hvalue⟩ := htrim item' hitem'
        exact ⟨item', hitem', hk.trans hkey, hv.trans hvalue⟩
      · simp at hv
    · rintro ⟨item, hitem, rfl, rfl⟩
      obtain ⟨hkey, hvalue⟩ := htrim item hitem
      exact Or.inl ⟨_, List.mem_map.mpr ⟨item, hitem, rfl⟩, hkey.symm, hvalue.symm⟩

/-- The request that `Client.setup` sends first. -/
def setupRequest : Py.Request where
  method := Py.text "SETUP"
  url := Py.text "diantp://localhost:664/testfile"
  version := Py.VERSION
  headers := (Py.Dict.set {} (Py.text "CSeq") (Py.text "0")).set (Py.text "Transport")
    (Py.text "TCP")

theorem setupRequest_sendable : Sendable setupRequest where
  method := List.all_eq_true.mp (by decide : (Py.text "SETUP").all Py.ascii_upper = true)
  url_word := by decide
  url_line := by decide
  url_plain := ⟨by decide, by decide⟩
  version := rfl
  headers_ne_nil := by decide
  headers := by
    intro item hitem
    have hitems : setupRequest.headers.items =
        [(Py.text "CSeq", Py.text "0"), (Py.text "Transport", Py.text "TCP")] := by decide
    rw [hitems] at hitem
    rcases List.mem_cons.mp hitem with rfl | hitem
    · exact ⟨⟨by decide, by decide, by decide, by decide⟩, ⟨by decide, by decide⟩,
        ⟨by decide, by decide⟩, ⟨by decide, by decide⟩⟩
    · rw [List.mem_singleton.mp hitem]
      exact ⟨⟨by decide, by decide, by decide, by decide⟩, ⟨by decide, by decide⟩,
        ⟨by decide, by decide⟩, ⟨by decide, by decide⟩⟩
  first_line := by decide
  header_lines := by
    have hall : (setupRequest.headers.items.all fun item =>
        decide ((Py.encode (Py.headerLine item)).length ≤ 1024)) = true := by decide
    exact fun item hitem => of_decide_eq_true (List.all_eq_true.mp hall item hitem)

theorem parseThis_parse_setup : ∃ base,
    Cpp.parseThis {} (Cpp.clear (Py.encode setupRequest.parse ++ [])) = .done base (Cpp.clear []) ∧
      base.method = Py.encode (Py.text "SETUP") ∧
        SameHeaders setupRequest.headers base.headers := by
  obtain ⟨base, hparse, hmethod, -, -, hheaders⟩ := parseThis_parse setupRequest_sendable []
  exact ⟨base, hparse, hmethod, hheaders⟩

end DianProtocol.Interop
