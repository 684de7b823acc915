import DianProtocol.Py.Client
import DianProtocol.Py.Host

set_option autoImplicit false

/-! # What waits for a client

The bytes that a server has sent and its client has not read are a queue of items: responses, and
the empty lines that are left behind the heads without headers. `Response.unparse` takes one item:
it returns the response, or it raises `Invalid head` at an empty line and takes the line away.
-/

namespace DianProtocol.Py

open Lines

/-- A response that a client reads as it was sent. -/
structure Clean (r : Response) : Prop extends LegalHead r where
  status : 0 ≤ r.status
  no_number : r.status_text.any ascii_digit = false
  length : r.headers.get? (text "Content-Length") = some (str (r.body.encode.length : Int)) ∨
    r.headers.get? (text "Content-Length") = none ∧ r.body.encode = []

/-- What `unparse` makes of a response. -/
def received (r : Response) : Received where
  version := r.version
  status := r.status
  status_text := r.status_text ++ ['\r']
  headers := r.headers
  body := { max_read := (contentLength r.headers).getD (-1) }

/-! ## Items -/

/-- A response, or an empty line. -/
abbrev Item := Option Response

/-- The bytes of an item. An empty line behind a head is an item of its own. -/
def Item.bytes : Item → Bytes
  | none => crlf
  | some r =>
      if r.headers.items = [] then encode (r.statusLine ++ text "\r\n" ++ text "\r\n") else r.wire

/-- The items that a response makes. -/
def items (r : Response) : List Item := if r.headers.items = [] then [some r, none] else [some r]

/-- The bytes of a queue of items. -/
def queueBytes (q : List Item) : Bytes := q.flatMap Item.bytes

theorem queueBytes_append (q q' : List Item) :
    queueBytes (q ++ q') = queueBytes q ++ queueBytes q' := List.flatMap_append

section

variable {r : Response}

theorem Clean.body_eq_nil (h : Clean r) (hempty : r.headers.items = []) : r.body.encode = [] := by
  rcases h.length with hlength | ⟨-, hbody⟩
  · rw [Dict.get?, hempty] at hlength
    cases hlength
  · exact hbody

/-- A response without headers is written with one more empty line. -/
theorem Clean.wire_eq (h : Clean r) (hempty : r.headers.items = []) :
    r.wire = encode (r.statusLine ++ text "\r\n" ++ text "\r\n") ++ crlf := by
  have hheaders : joinHeaders r.headers ++ text "\r\n\r\n" = text "\r\n" ++ text "\r\n" := by
    rw [joinHeaders, hempty]
    decide
  have hhead : r.response.1 = encode r.parsehead := rfl
  have hbody : r.response.2 = [] := h.body_eq_nil hempty
  rw [Response.wire, hbody, List.append_nil, hhead, encode_parsehead, headerBytes, hheaders]
  simp only [encode_append, List.append_assoc]
  rfl

theorem queueBytes_items (h : Clean r) : queueBytes (items r) = r.wire := by
  unfold items
  by_cases hempty : r.headers.items = []
  · rw [if_pos hempty, h.wire_eq hempty]
    simp [queueBytes, Item.bytes, hempty]
  · rw [if_neg hempty]
    simp [queueBytes, Item.bytes, hempty]

/-! ## Reading an item -/

theorem Clean.contentLength_eq (h : Clean r) :
    contentLength r.headers = some (r.body.encode.length : Int) ∨
      contentLength r.headers = some (-1) ∧ r.body.encode = [] := by
  rcases h.length with hlength | ⟨hnone, hbody⟩
  · refine Or.inl ?_
    rw [contentLength, hlength]
    exact int_str _
  · refine Or.inr ⟨?_, hbody⟩
    rw [contentLength, hnone]

theorem Clean.head_match (h : Clean r) :
    ∃ way, ResponseHead_re.match? (r.statusLine ++ ['\r'] ++ ['\n']) = some way ∧
      way.group? "version" = some r.version ∧ way.group? "status" = some (str r.status) ∧
      way.group? "status_text" = some (r.status_text ++ ['\r']) := by
  have hdne : str r.status ≠ [] := by
    obtain ⟨n, hn⟩ := Int.eq_ofNat_of_zero_le h.status
    rw [hn]
    exact str_ne_nil n
  have hmatch := responseHead_match h.version_line h.version_ne_nil (str_digits h.status) hdne
    h.status_text_line fun a d b => not_numberAt h.no_number
  have hline : r.statusLine ++ ['\r'] ++ ['\n'] = r.version ++
      (' ' :: (str r.status ++ (' ' :: (r.status_text ++ ['\r'] ++ ['\n'])))) := by
    simp [Response.statusLine]
  rw [← hline] at hmatch
  exact ⟨_, hmatch, rfl, rfl, rfl⟩

/-- A first line and headers that are read. -/
theorem Clean.unparse_head (h : Clean r) {bytes rest : Bytes}
    (hheaders : readHeaders (bytes.length + 1) {} bytes = .ok r.headers rest) :
    Response.unparse (encode (r.statusLine ++ text "\r\n") ++ bytes) = .ok (received r) rest := by
  obtain ⟨way, hmatch, hversion, hstatus, htext⟩ := h.head_match
  have hint : int (str r.status) = some r.status := by
    obtain ⟨n, hn⟩ := Int.eq_ofNat_of_zero_le h.status
    rw [hn]
    exact int_str n
  have hlength : ∃ n, contentLength r.headers = some n := by
    rcases h.contentLength_eq with hn | ⟨hn, -⟩
    · exact ⟨_, hn⟩
    · exact ⟨_, hn⟩
  obtain ⟨n, hn⟩ := hlength
  have hhead := readHead_line (statusLine_line h.toLegalHead h.status) hmatch bytes
  rw [Response.unparse, hhead]
  simp only [Outcome.bind, hstatus, Option.getD_some, hint, Outcome.ofOption]
  rw [hheaders]
  simp only [hn, hversion, htext, Option.getD_some, received]

theorem read_response (h : Clean r) (rest : Bytes) :
    Reader.response (Item.bytes (some r) ++ rest) =
      some (.ok (received r), r.body.encode ++ rest) := by
  apply Reader.response_of_unparse
  by_cases hempty : r.headers.items = []
  · have hbytes : Item.bytes (some r) = encode (r.statusLine ++ text "\r\n") ++ crlf := by
      rw [Item.bytes, if_pos hempty, encode_append]
      rfl
    have hdict : ({} : Dict) = r.headers := Dict.ext hempty.symm
    rw [hbytes, List.append_assoc, h.body_eq_nil hempty, List.nil_append]
    apply h.unparse_head
    rw [← hdict]
    exact readHeaders_end _ _ _
  · have hbytes : Item.bytes (some r) ++ rest = encode (r.statusLine ++ text "\r\n") ++
        (headerBytes r.headers ++ (r.body.encode ++ rest)) := by
      rw [Item.bytes, if_neg hempty]
      show encode r.parsehead ++ r.body.encode ++ rest = _
      rw [encode_parsehead]
      simp only [List.append_assoc]
    have hheaders := readHeaders_headerBytes h.headers (r.body.encode ++ rest)
    rw [leftover, if_neg hempty, List.nil_append] at hheaders
    rw [hbytes]
    exact h.unparse_head hheaders

theorem read_body (h : Clean r) (rest : Bytes) :
    Reader.readall (received r).body (r.body.encode ++ rest) = some (.ok r.body.encode, rest) := by
  unfold Reader.readall SocketStreamReader.readall received
  rcases h.contentLength_eq with hlength | ⟨hlength, hbody⟩
  · rw [hlength]
    dsimp only [Option.getD_some]
    have hneg : ¬ (r.body.encode.length : Int) = -1 := by omega
    rw [if_neg hneg]
    by_cases hzero : (0 : Int) = r.body.encode.length
    · have hnil : r.body.encode = [] := List.length_eq_zero_iff.mp (by omega)
      rw [if_pos hzero, hnil]
      rfl
    · have hpos : ¬ (r.body.encode.length : Int) - 0 < 0 := by omega
      have hlong : ¬ (r.body.encode ++ rest).length < ((r.body.encode.length : Int) - 0).toNat := by
        rw [List.length_append]
        omega
      have hcount : ((r.body.encode.length : Int) - 0).toNat = r.body.encode.length := by omega
      rw [if_neg hzero, recvAll, if_neg hpos, if_neg hlong, hcount, List.take_left, List.drop_left]
  · rw [hlength, hbody]
    rfl

end

/-- An empty line is no head. -/
theorem read_emptyLine (rest : Bytes) :
    Reader.response (Item.bytes none ++ rest) =
      some (.error (.Exception "Invalid head"), rest) := by
  have hline : Reader.line (crlf ++ rest) = some (.ok (text "\r\n"), rest) := by
    have hcut : Line crlf crlf := ⟨List.suffix_rfl, by decide⟩
    have hdecode : decode crlf = some (text "\r\n") := decode_encode _
    unfold Reader.line
    rw [read_until_line rest hcut]
    dsimp only
    rw [hdecode]
    rfl
  have hmatch : ResponseHead_re.match? (text "\r\n") = none := by decide
  have hhead : Reader.head ResponseHead_re (crlf ++ rest) =
      some (.error (.Exception "Invalid head"), rest) := by
    rw [Reader.head, Reader.bind_ok _ hline, hmatch]
    rfl
  exact Reader.bind_error _ hhead

end DianProtocol.Py
