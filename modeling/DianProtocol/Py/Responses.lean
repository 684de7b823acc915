import DianProtocol.Py.Unparse

set_option autoImplicit false

/-! # The framing of responses

A client that reads one response after the other relies on every response ending where the next one
starts. `responses_framed` says when it does: a response without headers leaves its second empty
line behind, `readall` trusts a `Content-Length` even if the body is empty, and a number in the
status text is taken for the status.
-/

namespace DianProtocol.Py

open Lines

/-- The bytes of responses that are written one after the other. -/
def sendAll (rs : List Response) : Bytes := rs.flatMap fun r => r.response.1 ++ r.response.2

/-- `Response.unparse` and `body.readall()`. -/
def receive (s : Bytes) : Outcome (Int × Dict × Bytes) :=
  (Response.unparse s).bind fun received s =>
    (received.body.readall recvAll s).bind fun body s =>
      .ok (received.status, received.headers, body) s

/-- A client decodes the responses in their order, and nothing is left over between them. -/
def Decodes : List Response → Bytes → Prop
  | [], _ => True
  | r :: rs, s => ∃ rest, receive s = .ok (r.status, r.headers, r.body.encode) rest ∧
      (rs ≠ [] → rest = sendAll rs) ∧ Decodes rs rest

/-- A response as `response` may get it: the lines of its head are lines, and `Content-Length` is
the length of a body that is not empty. -/
structure Legal (r : Response) : Prop extends LegalHead r where
  length : r.body.encode ≠ [] → ∃ length, r.headers.get? (text "Content-Length") = some length ∧
    int length = some (r.body.encode.length : Int)

/-- A response that is read as it was written, up to the place where it ends. -/
structure Readable (r : Response) : Prop where
  status : 0 ≤ r.status
  status_text : ∀ d, LastNumber r.status_text d → int d = some r.status
  empty_body : r.body.encode = [] →
    contentLength r.headers = some 0 ∨ contentLength r.headers = some (-1)

/-- Every response is readable, and all but the last have headers. -/
def Framed (rs : List Response) : Prop :=
  (∀ r ∈ rs, Readable r) ∧ ∀ r ∈ rs.dropLast, r.headers.items ≠ []

theorem framed_cons {r : Response} {rs : List Response} :
    Framed (r :: rs) ↔ Readable r ∧ (rs ≠ [] → r.headers.items ≠ []) ∧ Framed rs := by
  cases rs with
  | nil => simp [Framed]
  | cons r' rs =>
      simp only [Framed, List.forall_mem_cons, List.dropLast_cons_cons, ne_eq, reduceCtorEq,
        not_false_eq_true, forall_true_left]
      tauto

/-! ## One response -/

/-- A body that is not empty comes with a header. -/
theorem Legal.leftover_eq_nil {r : Response} (h : Legal r) (hbody : r.body.encode ≠ []) :
    leftover r.headers = [] := by
  obtain ⟨length, hget, -⟩ := h.length hbody
  exact leftover_of_get? hget

theorem Legal.contentLength_eq {r : Response} (h : Legal r) (hbody : r.body.encode ≠ []) :
    contentLength r.headers = some (r.body.encode.length : Int) := by
  obtain ⟨length, hget, hint⟩ := h.length hbody
  rw [contentLength, hget]
  exact hint

/-- `readall` returns the body that was sent, unless the body is empty and a length announced. -/
theorem readall_body {r : Response} (h : Legal r) {m : Int} (hm : contentLength r.headers = some m)
    (rest s' : Bytes) :
    SocketStreamReader.readall { max_read := m } recvAll
        (leftover r.headers ++ (r.body.encode ++ rest)) = .ok r.body.encode s' ↔
      (r.body.encode = [] → m = 0 ∨ m = -1) ∧ s' = leftover r.headers ++ rest := by
  by_cases hbody : r.body.encode = []
  · simp only [hbody, List.nil_append, forall_true_left]
    unfold SocketStreamReader.readall
    dsimp only
    by_cases hneg : m = -1
    · simp [hneg, eq_comm]
    by_cases hzero : m = 0
    · simp [hzero, eq_comm]
    have hne : ¬ 0 = m := fun h => hzero h.symm
    rw [if_neg hneg, if_neg hne, Int.sub_zero]
    refine iff_of_false (fun hread => ?_) (by tauto)
    -- a length that is not zero asks for bytes
    unfold recvAll at hread
    split at hread
    · cases hread
    split at hread
    · cases hread
    · rename_i hpos hlen
      have htake := congrArg List.length (Outcome.ok.inj hread).1
      rw [List.length_take, List.length_nil] at htake
      omega
  · have hlength := h.contentLength_eq hbody
    rw [hm] at hlength
    obtain rfl := Option.some.inj hlength
    have hpos := List.length_pos_of_ne_nil hbody
    rw [h.leftover_eq_nil hbody]
    unfold SocketStreamReader.readall recvAll
    dsimp only
    rw [if_neg (by omega), if_neg (by omega), if_neg (by omega), if_neg (by simp)]
    simp [hbody, eq_comm]

theorem StatusRead.exists_int {r : Response} {d : Text} (h : StatusRead r d)
    (hnonneg : 0 ≤ r.status) : ∃ n : Int, int d = some n := by
  rcases h with ⟨a, b, ⟨-, hne, hd⟩, -⟩ | ⟨rfl, -⟩
  · exact ⟨_, int_of_isDigit hne hd⟩
  · obtain ⟨k, hk⟩ := Int.eq_ofNat_of_zero_le hnonneg
    rw [hk]
    exact ⟨k, int_str k⟩

/-- What a client gets, if `d` is read as the status. -/
theorem receive_of_statusRead {r : Response} {d : Text} {n : Int} (h : Legal r)
    (hnonneg : 0 ≤ r.status) (hd : StatusRead r d) (hn : int d = some n) (rest s' : Bytes) :
    receive (r.response.1 ++ r.response.2 ++ rest) = .ok (r.status, r.headers, r.body.encode) s' ↔
      n = r.status ∧ (∃ m, contentLength r.headers = some m ∧
        (r.body.encode = [] → m = 0 ∨ m = -1)) ∧ s' = leftover r.headers ++ rest := by
  obtain ⟨version, status_text, hunparse⟩ := unparse_parsehead h.toLegalHead hnonneg hd hn
    (r.body.encode ++ rest)
  have hassoc : r.response.1 ++ r.response.2 ++ rest =
      encode r.parsehead ++ (r.body.encode ++ rest) := List.append_assoc _ _ _
  rw [hassoc, receive, hunparse]
  cases hm : contentLength r.headers with
  | none => simp [Outcome.ofOption, Outcome.bind]
  | some m =>
      have hread := readall_body h hm rest s'
      simp only [Outcome.ofOption, Outcome.bind, Option.some.injEq, exists_eq_left']
      constructor
      · intro hreceive
        obtain ⟨body, s₁, hbody, hok⟩ := Outcome.bind_eq_ok.mp hreceive
        simp only [Outcome.ok.injEq, Prod.mk.injEq, true_and] at hok
        obtain ⟨⟨hstatus, rfl⟩, rfl⟩ := hok
        exact ⟨hstatus, hread.mp hbody⟩
      · rintro ⟨rfl, hrest⟩
        exact Outcome.bind_eq_ok.mpr ⟨_, _, hread.mpr hrest, rfl⟩

/-- A client that reads a response gets what was written if and only if the response is readable,
and what it leaves behind is an empty line or nothing. -/
theorem receive_response {r : Response} (h : Legal r) (rest s' : Bytes) :
    receive (r.response.1 ++ r.response.2 ++ rest) = .ok (r.status, r.headers, r.body.encode) s' ↔
      Readable r ∧ s' = leftover r.headers ++ rest := by
  obtain ⟨d, hd⟩ := exists_statusRead r
  constructor
  · intro hreceive
    have hnonneg : 0 ≤ r.status := by
      obtain ⟨received, s₁, hunparse, hrest⟩ := Outcome.bind_eq_ok.mp hreceive
      obtain ⟨body, s₂, -, hok⟩ := Outcome.bind_eq_ok.mp hrest
      simp only [Outcome.ok.injEq, Prod.mk.injEq] at hok
      rw [← hok.1.1]
      exact unparse_status_nonneg hunparse
    obtain ⟨n, hn⟩ := hd.exists_int hnonneg
    obtain ⟨-, ⟨m, hm, hempty⟩, hrest⟩ :=
      (receive_of_statusRead h hnonneg hd hn rest s').mp hreceive
    refine ⟨⟨hnonneg, fun d' hd' => ?_, fun hbody => ?_⟩, hrest⟩
    · -- the client would have read this number as the status
      obtain ⟨n', hn'⟩ := StatusRead.exists_int (Or.inl hd') hnonneg
      have heq := ((receive_of_statusRead h hnonneg (Or.inl hd') hn' rest s').mp hreceive).1
      rw [hn', heq]
    · rw [hm]
      rcases hempty hbody with rfl | rfl
      · exact Or.inl rfl
      · exact Or.inr rfl
  · rintro ⟨hr, hrest⟩
    have hn : int d = some r.status := by
      rcases hd with hnumber | ⟨rfl, -⟩
      · exact hr.status_text d hnumber
      · obtain ⟨k, hk⟩ := Int.eq_ofNat_of_zero_le hr.status
        rw [hk]
        exact int_str k
    refine (receive_of_statusRead h hr.status hd hn rest s').mpr ⟨rfl, ?_, hrest⟩
    by_cases hbody : r.body.encode = []
    · rcases hr.empty_body hbody with hm | hm
      · exact ⟨0, hm, fun _ => Or.inl rfl⟩
      · exact ⟨-1, hm, fun _ => Or.inr rfl⟩
    · exact ⟨_, h.contentLength_eq hbody, fun hnil => absurd hnil hbody⟩

/-! ## Sequences of responses -/

/-- **The framing of responses**: a client decodes responses that are written one after the other,
with nothing left over between them, if and only if they are framed. -/
theorem responses_framed (rs : List Response) (hlegal : ∀ r ∈ rs, Legal r) :
    Decodes rs (sendAll rs) ↔ Framed rs := by
  induction rs with
  | nil => simp [Decodes, Framed]
  | cons r rs ih =>
      have hr := hlegal r (by simp)
      have ih' := ih fun r' hr' => hlegal r' (by simp [hr'])
      have hsend : sendAll (r :: rs) = r.response.1 ++ r.response.2 ++ sendAll rs := rfl
      rw [framed_cons, hsend]
      constructor
      · rintro ⟨rest, hreceive, hrest, hdecodes⟩
        obtain ⟨hreadable, rfl⟩ := (receive_response hr _ _).mp hreceive
        by_cases hnil : rs = []
        · subst hnil
          exact ⟨hreadable, fun hne => absurd rfl hne, by simp [Framed]⟩
        · have hleft : leftover r.headers = [] := List.append_left_eq_self.mp (hrest hnil)
          have hitems : r.headers.items ≠ [] := by
            intro hitems
            rw [leftover, if_pos hitems] at hleft
            exact absurd hleft (by decide)
          rw [hleft] at hdecodes
          exact ⟨hreadable, fun _ => hitems, ih'.mp hdecodes⟩
      · rintro ⟨hreadable, hitems, hframed⟩
        refine ⟨leftover r.headers ++ sendAll rs, (receive_response hr _ _).mpr ⟨hreadable, rfl⟩,
          ?_, ?_⟩
        · intro hne
          rw [leftover, if_neg (hitems hne)]
          rfl
        · by_cases hnil : rs = []
          · subst hnil
            trivial
          · rw [leftover, if_neg (hitems hnil)]
            exact ih'.mpr hframed

/-- The answer to OPTIONS. -/
def optionsResponse : Response := { status_text := text "OK" }

/-- A response with a body of three bytes. -/
def shortResponse : Response where
  status := 206
  status_text := text "Partial Content"
  headers := { items := [(text "Content-Length", text "3")], nodup := by decide }
  body := .reader [1, 2, 3]

theorem optionsResponse_legal : Legal optionsResponse where
  version_ne_nil := by decide
  version_line := by decide
  status_text_line := by decide
  headers := fun item hitem => by cases hitem
  length := fun hbody => absurd rfl hbody

theorem shortResponse_legal : Legal shortResponse where
  version_ne_nil := by decide
  version_line := by decide
  status_text_line := by decide
  headers := fun item hitem => by
    rw [List.mem_singleton.mp hitem]
    exact ⟨⟨by decide, by decide, by decide, by decide⟩, ⟨by decide, by decide⟩⟩
  length := fun _ => ⟨text "3", by decide, by decide⟩

theorem responses_framed_short :
    Decodes [shortResponse, optionsResponse] (sendAll [shortResponse, optionsResponse]) := by
  have hlegal : ∀ r ∈ [shortResponse, optionsResponse], Legal r := by
    simp [shortResponse_legal, optionsResponse_legal]
  refine (responses_framed _ hlegal).mpr ⟨?_, by simp [shortResponse]⟩
  have hshort : Readable shortResponse := by
    constructor
    · decide
    · rintro d ⟨a, b, hnumber, -⟩
      exact absurd hnumber (not_numberAt (by decide))
    · intro hbody
      cases hbody
  have hoptions : Readable optionsResponse := by
    constructor
    · decide
    · rintro d ⟨a, b, hnumber, -⟩
      exact absurd hnumber (not_numberAt (by decide))
    · exact fun _ => Or.inr (by decide)
  simp [hshort, hoptions]

/-- Two answers to OPTIONS on one connection: the first leaves an empty line in front of the
second. -/
theorem options_twice : (∀ r ∈ [optionsResponse, optionsResponse], Legal r) ∧
    ¬ Decodes [optionsResponse, optionsResponse] (sendAll [optionsResponse, optionsResponse]) := by
  refine ⟨by simp [optionsResponse_legal], ?_⟩
  rintro ⟨rest, hreceive, hrest, -⟩
  obtain ⟨-, hleft⟩ := (receive_response optionsResponse_legal _ _).mp hreceive
  rw [hrest (by simp)] at hleft
  have hlen := congrArg List.length hleft
  exact absurd hlen (by decide)

end DianProtocol.Py
