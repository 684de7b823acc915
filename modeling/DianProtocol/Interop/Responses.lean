import DianProtocol.Interop.Requests

set_option autoImplicit false

/-! # Responses from C++ to Python

The C++ server writes the head of a response with `Response::unparseHead`, and the Python client
reads it with `Response.unparse`, whose patterns split a line where the line as a whole allows it.
`unparse_unparseHead` says that the client gets the status and the headers that the server wrote,
and stops in front of the body.
-/

namespace DianProtocol.Interop

open Lines

/-! ## Bytes of a string -/

/-- A string of the server is a text of the client in UTF-8. -/
theorem str_encode (s : String) : Cpp.str s = Py.encode s.toList := by
  have hbytes : s.toByteArray = s.toList.utf8Encode := by
    rw [← String.toByteArray_ofList, String.ofList_toList]
  show s.toByteArray.data.toList = Py.encode s.toList
  rw [hbytes]
  show (List.toByteArray (s.toList.flatMap String.utf8EncodeChar)).data.toList = _
  rw [Py.encode]
  simp

theorem to_string_encode (n : Nat) : Cpp.to_string n = Py.encode (Py.str n) := str_encode _

theorem to_stringInt_encode (n : Int) : Cpp.to_stringInt n = Py.encode (Py.str n) := str_encode _

/-- A digit is an ASCII character. -/
theorem utf8EncodeChar_digit {c : Char} (h : c.isDigit) :
    String.utf8EncodeChar c = [c.val.toUInt8] ∧ c.val.toUInt8.toNat = c.toNat ∧
      48 ≤ c.toNat ∧ c.toNat ≤ 57 := by
  have hdigit : 48 ≤ c.toNat ∧ c.toNat ≤ 57 := by
    simpa [Char.isDigit, UInt32.le_iff_toNat_le] using h
  have hval : c.val.toNat = c.toNat := rfl
  have hbyte : String.utf8EncodeChar c = [c.val.toUInt8] := by
    unfold String.utf8EncodeChar
    dsimp only
    rw [if_pos (by omega)]
    rfl
  have hnat : c.val.toUInt8.toNat = c.toNat := by
    show c.val.toNat % 2 ^ 8 = c.val.toNat
    omega
  exact ⟨hbyte, hnat, hdigit⟩

/-- The digits of a number are a byte each. -/
theorem digitsVal_encode {t : Py.Text} (h : ∀ c ∈ t, c.isDigit) :
    Cpp.digitsVal (Py.encode t) = Nat.ofDigitChars 10 t 0 := by
  have hfold : ∀ n, (Py.encode t).foldl (fun n c => 10 * n + (c.toNat - 48)) n =
      Nat.ofDigitChars 10 t n := by
    induction t with
    | nil => exact fun n => rfl
    | cons c t ih =>
        intro n
        obtain ⟨hbyte, hnat, -⟩ := utf8EncodeChar_digit (h c (by simp))
        have happ : Py.encode (c :: t) = c.val.toUInt8 :: Py.encode t := by
          rw [Py.encode, List.flatMap_cons, hbyte]
          rfl
        rw [happ, List.foldl_cons, ih (fun c' hc' => h c' (by simp [hc'])), hnat,
          Nat.ofDigitChars_cons]
        rfl
  exact hfold 0

/-! ## Legible responses -/

/-- A header that both sides understand in the same way: key and value are texts that a header
line can hold, and a content length is a decimal number. -/
structure LegibleItem (item : Cpp.Str × Cpp.Str) (key value : Py.Text) : Prop where
  key_encode : item.1 = Py.encode key
  value_encode : item.2 = Py.encode value
  legal_key : Py.LegalKey key
  legal_value : Py.LegalValue value
  length : key = Py.text "Content-Length" → value ≠ [] ∧ ∀ c ∈ value, c.isDigit

/-- A response that the Python client can read. -/
structure Legible (res : Cpp.Response) : Prop where
  status : 0 ≤ res.status
  reason : ∃ t : Py.Text, res.reason = Py.encode t ∧ '\n' ∉ t ∧ t.any Py.ascii_digit = false
  headers : ∀ item ∈ res.headers.toList, ∃ key value, LegibleItem item key value

/-- The limit of the body: what the header `Content-Length` says, and `-1` without it. -/
def bodyLimit (headers : Cpp.Headers) : Int :=
  match headers[Cpp.str "Content-Length"]? with
  | none => -1
  | some length => Cpp.digitsVal length

/-- The texts that are written as the items of a map. -/
theorem exists_texts {items : List (Cpp.Str × Cpp.Str)}
    (h : ∀ item ∈ items, ∃ key value, LegibleItem item key value) :
    ∃ texts : List (Py.Text × Py.Text),
      items = texts.map (fun item => (Py.encode item.1, Py.encode item.2)) ∧
        ∀ item ∈ texts, LegibleItem (Py.encode item.1, Py.encode item.2) item.1 item.2 := by
  induction items with
  | nil => exact ⟨[], rfl, by simp⟩
  | cons item items ih =>
      obtain ⟨texts, htexts, hlegible⟩ := ih fun item hmem => h item (by simp [hmem])
      obtain ⟨key, value, hitem⟩ := h item (by simp)
      have heq : item = (Py.encode key, Py.encode value) :=
        Prod.ext hitem.key_encode hitem.value_encode
      refine ⟨(key, value) :: texts, by rw [heq, htexts, List.map_cons], fun item' hmem => ?_⟩
      rcases List.mem_cons.mp hmem with rfl | hmem
      · exact ⟨rfl, rfl, hitem.legal_key, hitem.legal_value, hitem.length⟩
      · exact hlegible item' hmem

/-- The client's dictionary with the headers of the server. -/
theorem exists_dict {headers : Cpp.Headers}
    (h : ∀ item ∈ headers.toList, ∃ key value, LegibleItem item key value) :
    ∃ dict : Py.Dict,
      headers.toList = dict.items.map (fun item => (Py.encode item.1, Py.encode item.2)) ∧
        SameHeaders dict headers ∧
        ∀ item ∈ dict.items, LegibleItem (Py.encode item.1, Py.encode item.2) item.1 item.2 := by
  obtain ⟨texts, htexts, hlegible⟩ := exists_texts h
  have hkeys : headers.toList.map Prod.fst = (texts.map Prod.fst).map Py.encode := by
    rw [htexts, List.map_map, List.map_map]
    rfl
  have hnodup : (texts.map Prod.fst).Nodup := by
    refine List.Nodup.of_map Py.encode ?_
    rw [← hkeys, Std.ExtTreeMap.map_fst_toList_eq_keys]
    exact Std.ExtTreeMap.nodup_keys
  refine ⟨⟨texts, hnodup⟩, htexts, fun k v => ?_, hlegible⟩
  rw [← Std.ExtTreeMap.mem_toList_iff_getElem?_eq_some, htexts, List.mem_map]
  constructor
  · rintro ⟨item, hitem, heq⟩
    exact ⟨item, hitem, (congrArg Prod.fst heq).symm, (congrArg Prod.snd heq).symm⟩
  · rintro ⟨item, hitem, rfl, rfl⟩
    exact ⟨item, hitem, rfl⟩

/-- The two sides find the same content length. -/
theorem contentLength_bodyLimit {dict : Py.Dict} {headers : Cpp.Headers}
    (hsame : SameHeaders dict headers)
    (hlegible : ∀ item ∈ dict.items,
      LegibleItem (Py.encode item.1, Py.encode item.2) item.1 item.2) :
    Py.contentLength dict = some (bodyLimit headers) := by
  have hkey : Cpp.str "Content-Length" = Py.encode (Py.text "Content-Length") := str_encode _
  unfold Py.contentLength bodyLimit
  cases hget : dict.get? (Py.text "Content-Length") with
  | none =>
      have habsent : headers[Cpp.str "Content-Length"]? = none := by
        rw [Option.eq_none_iff_forall_ne_some]
        intro v hv
        obtain ⟨item, hitem, hk, -⟩ := (hsame _ v).mp hv
        have hk' : item.1 = Py.text "Content-Length" :=
          Py.encode_injective (hk.symm.trans hkey)
        have hne := List.lookup_eq_none_iff.mp hget item hitem
        simp [hk'] at hne
      rw [habsent]
  | some value =>
      have hmem : (Py.text "Content-Length", value) ∈ dict.items := by
        obtain ⟨before, after, hsplit, -⟩ := List.lookup_eq_some_iff.mp hget
        simp [hsplit]
      obtain ⟨hne, hdigits⟩ := (hlegible _ hmem).length rfl
      have hpresent : headers[Cpp.str "Content-Length"]? = some (Py.encode value) :=
        (hsame _ _).mpr ⟨_, hmem, hkey, rfl⟩
      rw [hpresent]
      dsimp only
      rw [Py.int_of_isDigit hne hdigits, digitsVal_encode hdigits]

/-! ## The lines of a response -/

/-- What the server writes in front of the status. -/
def versionText (version : Cpp.Version) : Py.Text :=
  Py.text "HTTP/" ++ Py.str version.major.toNat ++ Py.text "." ++ Py.str version.minor.toNat

theorem versionText_line (version : Cpp.Version) : '\n' ∉ versionText version := by
  have hprotocol : '\n' ∉ Py.text "HTTP/" := by decide
  have hdot : '\n' ∉ Py.text "." := by decide
  simp only [versionText, List.mem_append, not_or]
  exact ⟨⟨⟨hprotocol, Py.lf_not_mem_str _⟩, hdot⟩, Py.lf_not_mem_str _⟩

/-- The headers and the empty line, as the client reads them. -/
theorem unparseHeaders_encode {dict : Py.Dict} {headers : Cpp.Headers}
    (h : headers.toList = dict.items.map (fun item => (Py.encode item.1, Py.encode item.2))) :
    Cpp.unparseHeaders headers =
      Py.encode (dict.items.flatMap (Py.paddedLine (Py.text " "))) ++ Py.crlf := by
  have hline : ∀ item : Py.Text × Py.Text,
      Py.encode item.1 ++ Cpp.str ": " ++ Py.encode item.2 ++ Cpp.crlf =
        Py.encode (Py.paddedLine (Py.text " ") item) := by
    intro item
    have hcolon : Cpp.str ": " = Py.encode (Py.text ":" ++ Py.text " ") := str_encode _
    rw [hcolon, ← encode_crlf]
    simp only [Py.paddedLine, Py.encode_append, List.append_assoc]
  rw [Cpp.unparseHeaders, h, List.flatMap_map, Py.encode, List.flatMap_assoc]
  congr 2
  exact funext hline

/-- The head of a response: its first line, and what follows. -/
theorem unparseHead_encode {res : Cpp.Response} {r : Py.Response}
    (hversion : r.version = versionText res.version) (hstatus : r.status = res.status)
    (hreason : res.reason = Py.encode r.status_text) :
    res.unparseHead =
      Py.encode (r.statusLine ++ Py.text "\r\n") ++ Cpp.unparseHeaders res.headers := by
  have hline : r.statusLine ++ Py.text "\r\n" =
      Py.text "HTTP/" ++ Py.str res.version.major.toNat ++ Py.text "." ++
        Py.str res.version.minor.toNat ++ Py.text " " ++ Py.str res.status ++ Py.text " " ++
          r.status_text ++ Py.text "\r\n" := by
    simp [Py.Response.statusLine, hversion, hstatus, versionText, Py.text]
  have hliteral : ∀ s : String, Cpp.str s = Py.encode (Py.text s) := str_encode
  rw [hline]
  simp only [Cpp.Response.unparseHead, hliteral, to_string_encode, to_stringInt_encode, hreason,
    ← encode_crlf, Py.encode_append]

/-- **Responses from C++ to Python**: the client reads the status and the headers that the server
wrote, takes exactly the bytes of the head, and limits the body to the content length. -/
theorem unparse_unparseHead {res : Cpp.Response} (h : Legible res) (rest : Cpp.Str) :
    ∃ received, Py.Response.unparse (res.unparseHead ++ rest) = .ok received rest ∧
      received.status = res.status ∧ SameHeaders received.headers res.headers ∧
        received.body = { max_read := bodyLimit res.headers } := by
  obtain ⟨t, hreason, hline, hdigits⟩ := h.reason
  obtain ⟨dict, hitems, hsame, hlegible⟩ := exists_dict h.headers
  let r : Py.Response :=
    { version := versionText res.version, status := res.status, status_text := t, headers := dict }
  have hhead : Py.LegalHead r :=
    { version_ne_nil := by simp [r, versionText, Py.text]
      version_line := versionText_line res.version
      status_text_line := hline
      headers := fun item hitem =>
        ⟨(hlegible item hitem).legal_key, (hlegible item hitem).legal_value⟩ }
  -- no number behind the status
  have hread : Py.StatusRead r (Py.str res.status) :=
    Or.inr ⟨rfl, fun a d b => Py.not_numberAt hdigits⟩
  have hint : Py.int (Py.str res.status) = some res.status := by
    obtain ⟨n, hn⟩ := Int.eq_ofNat_of_zero_le h.status
    rw [hn]
    exact Py.int_str n
  have hblank : ∀ c ∈ Py.text " ", decide (c = ' ') = true := by simp [Py.text]
  have hheaders := Py.readHeaders_lines hblank hhead.headers rest
  obtain ⟨version, status_text, hunparse⟩ := Py.unparse_head hhead h.status hread hint hheaders
  refine ⟨⟨version, res.status, status_text, dict, { max_read := bodyLimit res.headers }⟩,
    ?_, rfl, hsame, rfl⟩
  rw [unparseHead_encode (r := r) rfl rfl hreason, unparseHeaders_encode hitems, List.append_assoc,
    List.append_assoc, hunparse, contentLength_bodyLimit hsame hlegible]
  rfl

/-- Three bytes of a file, as the server announces them. -/
def partialResponse : Cpp.Response where
  status := 206
  reason := Cpp.str "Partial Content"
  headers := (∅ : Cpp.Headers).insert (Cpp.str "Content-Length") (Cpp.str "3")

theorem partialResponse_legible : Legible partialResponse where
  status := by decide
  reason := ⟨Py.text "Partial Content", str_encode _, by decide, by decide⟩
  headers := by
    intro item hitem
    have hget := Std.ExtTreeMap.mem_toList_iff_getElem?_eq_some.mp hitem
    have hinsert : partialResponse.headers[item.1]? =
        if Cpp.str "Content-Length" = item.1 then some (Cpp.str "3") else none :=
      Cpp.Map.getElem?_insert
    rw [hinsert] at hget
    by_cases hkey : Cpp.str "Content-Length" = item.1
    · rw [if_pos hkey] at hget
      have hvalue : Cpp.str "3" = item.2 := Option.some.inj hget
      exact ⟨Py.text "Content-Length", Py.text "3", hkey.symm.trans (str_encode _),
        hvalue.symm.trans (str_encode _), ⟨by decide, by decide, by decide, by decide⟩,
        ⟨by decide, by decide⟩, fun _ => ⟨by decide, by simp [Py.text]⟩⟩
    · rw [if_neg hkey] at hget
      cases hget

theorem unparse_unparseHead_partial : ∃ received,
    Py.Response.unparse (partialResponse.unparseHead ++ Cpp.str "abc") =
        .ok received (Cpp.str "abc") ∧
      received.status = 206 ∧ received.body = { max_read := 3 } := by
  obtain ⟨received, hunparse, hstatus, -, hbody⟩ :=
    unparse_unparseHead partialResponse_legible (Cpp.str "abc")
  have hlimit : bodyLimit partialResponse.headers = 3 := by
    have hget : partialResponse.headers[Cpp.str "Content-Length"]? = some (Cpp.str "3") :=
      Cpp.Map.getElem?_insert.trans (if_pos rfl)
    rw [bodyLimit, hget]
    decide
  exact ⟨received, hunparse, hstatus, hlimit ▸ hbody⟩

end DianProtocol.Interop
