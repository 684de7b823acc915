import DianProtocol.Cpp.Socket

set_option autoImplicit false

/-! # `Base::parseThis`

The head of a message is read line by line. The scanners move a pointer over the line, which
`recvUntil` has terminated by a NUL, and throw when they reach the terminator. The members of the
message are assigned one after the other, so an exception leaves it filled in part.
-/

namespace DianProtocol.Cpp

/-- `while (*tmp++ != stop && *tmp != '\0');` from `cur`: the characters passed and the text at
`tmp` afterwards. -/
def scanTo (stop : Byte) : Str → Str × Str
  | [] => ([], [])
  | c :: tmp =>
      if c ≠ stop ∧ tmp.headD nul ≠ nul then
        let (passed, tmp) := scanTo stop tmp
        (c :: passed, tmp)
      else ([c], tmp)

/-- One scan from `cur` and the test of `*tmp` after it: the token `string(cur, tmp - cur - 1)`
and the text at `tmp`, or `none` where the parser throws. -/
def token (stop : Byte) (cur : Str) : Option (Str × Str) :=
  let (passed, tmp) := scanTo stop cur
  if tmp.headD nul = nul then none else some (passed.dropLast, tmp)

/-- A token is what stands in front of the first separator. -/
theorem token_word {stop : Byte} {word rest : Str} (hstop : stop ≠ nul) (hword : stop ∉ word)
    (hnul : nul ∉ word) (hrest : rest.headD nul ≠ nul) :
    token stop (word ++ stop :: rest) = some (word, rest) := by
  have hscan : scanTo stop (word ++ stop :: rest) = (word ++ [stop], rest) := by
    induction word with
    | nil => simp [scanTo]
    | cons c word ih =>
        have hc : c ≠ stop := fun heq => hword (by simp [heq])
        -- the scan stops in front of a NUL, but none follows
        have hnext : (word ++ stop :: rest).headD nul ≠ nul := by
          cases word with
          | nil => exact hstop
          | cons d word => exact fun heq => hnul (by simp [show d = nul from heq])
        rw [List.cons_append, scanTo, if_pos ⟨hc, hnext⟩,
          ih (fun hmem => hword (by simp [hmem])) (fun hmem => hnul (by simp [hmem]))]
        rfl
  rw [token, hscan]
  dsimp only
  rw [if_neg hrest, List.dropLast_concat]

def parseError : Exn := .exception "parse error"

/-- The request line: the message with the members assigned so far, and what is thrown. -/
def requestLine (base : Base) (line : Str) : Base × Option Exn :=
  match token space line with
  | none => (base, some parseError)
  | some (method, tmp) =>
    let base := { base with method := method }
    match token space tmp with
    | none => (base, some parseError)
    | some (url, tmp) =>
      let base := { base with url := url }
      match token cr tmp with
      | none => (base, some parseError)
      | some (version, _) =>
        match sscanf_d_d (cstr version) with
        | none => (base, some parseError)
        | some (major, minor) =>
            -- bit fields of four bits
            ({ base with version := ⟨BitVec.ofInt 4 major, BitVec.ofInt 4 minor⟩ }, none)

/-- One header line. -/
def headerLine (base : Base) (line : Str) : Base × Option Exn :=
  match token 58 line with
  | none => (base, some parseError)
  | some (key, tmp) =>
    match token cr tmp with
    | none => (base, some parseError)
    | some (value, _) =>
        ({ base with headers := base.headers.insert (trim key) (trim value) }, none)

/-- What a call of `parseThis` does: it returns, it throws, or it is blocked in `recv`. -/
inductive Parse where
  | done (base : Base) (conn : Conn)
  | thrown (e : Exn) (base : Base) (conn : Conn)
  | blocked

/-- The loop over the header lines. The test `line.size() == 0` of the source is left out: the
size of the buffer is its capacity, at least 1024. `fuel` bounds the number of lines; every line
takes a `recv`, so the number of these is enough (`readHeaders_fuel`, `readRequest_fuel`). -/
def readHeaders : Nat → Base → Conn → Parse
  | 0, _, _ => .blocked
  | fuel + 1, base, conn =>
      match conn.recvUntil crlf with
      | .blocked => .blocked
      | .thrown e conn => .thrown e base conn
      | .done line conn =>
          if strcmpEq line crlf then .done base conn
          else match headerLine base line with
            | (base, some e) => .thrown e base conn
            | (base, none) => readHeaders fuel base conn

/-- The loop that skips empty lines, and the request line. -/
def readRequest : Nat → Base → Conn → Parse
  | 0, _, _ => .blocked
  | fuel + 1, base, conn =>
      match conn.recvUntil crlf with
      | .blocked => .blocked
      | .thrown e conn => .thrown e base conn
      | .done line conn =>
          if strcmpEq line crlf then readRequest fuel base conn
          else match requestLine base line with
            | (base, some e) => .thrown e base conn
            | (base, none) => readHeaders fuel base conn

/-- `Base::parseThis` -/
def parseThis (base : Base) (conn : Conn) : Parse :=
  readRequest (conn.recvs.length + 1) base conn

/-! ## The fuel is enough -/

theorem recvLoop_le {before delim data : Str} {left : Option Nat} {rs rs' : List Recv}
    {res : Except Int Str} (h : recvLoop before delim left data rs = some (res, rs')) :
    rs'.length ≤ rs.length ∧ (left ≠ some 0 → rs'.length < rs.length) := by
  fun_induction recvLoop before delim left data rs with
  | case1 =>
      cases h
      exact ⟨Nat.le_refl _, fun hne => absurd rfl hne⟩
  | case2 => cases h
  | case3 =>
      cases h
      simp
  | case4 =>
      cases h
      simp
  -- the delimiter has not been found: the loop goes on
  | case5 left data r rs _ _ data' _ ih =>
      have hle := (ih h).1
      rw [List.length_cons]
      exact ⟨by omega, fun _ => by omega⟩

/-- A line takes at least one `recv`. -/
theorem recvUntil_lt {conn conn' : Conn} {delim line : Str}
    (h : conn.recvUntil delim = .done line conn') : conn'.recvs.length < conn.recvs.length := by
  unfold Conn.recvUntil at h
  split at h
  · cases h
  · cases h
  · rename_i data rs hloop
    cases h
    exact (recvLoop_le hloop).2 (by decide)

theorem readHeaders_fuel {fuel fuel' : Nat} {base : Base} {conn : Conn}
    (h : conn.recvs.length < fuel) (h' : conn.recvs.length < fuel') :
    readHeaders fuel base conn = readHeaders fuel' base conn := by
  induction fuel generalizing fuel' base conn with
  | zero => omega
  | succ fuel ih =>
      obtain ⟨fuel', rfl⟩ : ∃ n, fuel' = n + 1 := ⟨fuel' - 1, by omega⟩
      rw [readHeaders, readHeaders]
      cases hrecv : conn.recvUntil crlf with
      | blocked => rfl
      | thrown e conn' => rfl
      | done line conn' =>
          have hlt := recvUntil_lt hrecv
          dsimp only
          split
          · rfl
          · split
            · rfl
            · exact ih (by omega) (by omega)

theorem readRequest_fuel {fuel fuel' : Nat} {base : Base} {conn : Conn}
    (h : conn.recvs.length < fuel) (h' : conn.recvs.length < fuel') :
    readRequest fuel base conn = readRequest fuel' base conn := by
  induction fuel generalizing fuel' base conn with
  | zero => omega
  | succ fuel ih =>
      obtain ⟨fuel', rfl⟩ : ∃ n, fuel' = n + 1 := ⟨fuel' - 1, by omega⟩
      rw [readRequest, readRequest]
      cases hrecv : conn.recvUntil crlf with
      | blocked => rfl
      | thrown e conn' => rfl
      | done line conn' =>
          have hlt := recvUntil_lt hrecv
          dsimp only
          split
          · exact ih (by omega) (by omega)
          · split
            · rfl
            · exact readHeaders_fuel (by omega) (by omega)

end DianProtocol.Cpp
