import DianProtocol.Py.Unparse

set_option autoImplicit false

/-! # What an exception leaves in a stream

`Outcome` says nothing about the bytes behind a reader that has raised, which is enough as long as
nobody reads on. The client does: an exception of one call leaves the connection as it is, and the
next call goes on reading where that one has stopped. Here the readers of messages are given once
more, with the bytes they have not taken whatever they do (`outcome_request` and `outcome_response`
say that they are the same readers).
-/

namespace DianProtocol.Py

open Lines Regex

/-- What a reader does with the bytes that have arrived: it waits for more (`none`), or it returns
or raises and leaves some of them. -/
abbrev Reader (α : Type) := Bytes → Option (Except PyExn α × Bytes)

namespace Reader

variable {α β : Type}

def pure (a : α) : Reader α := fun s => some (.ok a, s)

def bind (m : Reader α) (f : α → Reader β) : Reader β := fun s =>
  (m s).bind fun
    | (.ok a, s) => f a s
    | (.error e, s) => some (.error e, s)

theorem bind_ok {m : Reader α} {s rest : Bytes} {a : α} (f : α → Reader β)
    (h : m s = some (.ok a, rest)) : m.bind f s = f a rest := by
  rw [bind, h]
  rfl

theorem bind_error {m : Reader α} {s rest : Bytes} {e : PyExn} (f : α → Reader β)
    (h : m s = some (.error e, rest)) : m.bind f s = some (.error e, rest) := by
  rw [bind, h]
  rfl

/-- The result of an operation that does not read. -/
def ofOption (e : PyExn) (o : Option α) : Reader α := fun s => some (o.elim (.error e) .ok, s)

/-- `SocketStreamReader(socket, max_read).read_until("\r\n").decode()` with `max_read == -1`; the
first call does not raise. -/
def line : Reader Text := fun s =>
  match read_until (text "\r\n") s with
  | .ok line rest => ofOption .UnicodeDecodeError (decode line) rest
  | _ => none

/-- The first line of a message, matched with `re`. -/
def head (re : Pat Char) : Reader (Way Char) :=
  line.bind fun data => ofOption (.Exception "Invalid head") (re.match? data)

/-- The loop over the header lines, as in `readHeaders`. -/
def headers : Nat → Dict → Reader Dict
  | 0, _ => fun _ => none
  | fuel + 1, headers =>
      line.bind fun data =>
        match BaseHeader_re.match? data with
        | none => pure headers
        | some header =>
            let headers := headers.set (strip ((header.group? "key").getD []))
              (strip ((header.group? "value").getD []))
            if data = text "\r\n" then pure headers else Reader.headers fuel headers

/-- The loop over the header lines, with enough fuel for the bytes that have arrived. -/
def allHeaders : Reader Dict := fun s => headers (s.length + 1) {} s

/-- `Request.unparse` -/
def request : Reader Request :=
  (head RequestHead_re).bind fun head => allHeaders.bind fun headers =>
    pure { method := (head.group? "method").getD [], url := (head.group? "url").getD [],
           version := (head.group? "version").getD [], headers := headers }

/-- `Response.unparse` -/
def response : Reader Received :=
  (head ResponseHead_re).bind fun head =>
    (ofOption .ValueError (int ((head.group? "status").getD []))).bind fun status =>
      allHeaders.bind fun headers =>
        (ofOption .ValueError (contentLength headers)).bind fun max_read =>
          pure { version := (head.group? "version").getD [], status := status,
                 status_text := (head.group? "status_text").getD [], headers := headers,
                 body := { max_read := max_read } }

/-! ## The same readers -/

/-- Forget the bytes behind an exception. -/
def outcome : Option (Except PyExn α × Bytes) → Outcome α
  | none => .blocked
  | some (.ok a, rest) => .ok a rest
  | some (.error e, _) => .raised e

theorem outcome_eq_ok {x : Option (Except PyExn α × Bytes)} {a : α} {rest : Bytes} :
    outcome x = .ok a rest ↔ x = some (.ok a, rest) := by
  rcases x with _ | ⟨e | a', s⟩
  · simp [outcome]
  · simp [outcome]
  · simp [outcome]

theorem outcome_bind (m : Reader α) (f : α → Reader β) (s : Bytes) :
    outcome (m.bind f s) = (outcome (m s)).bind fun a s => outcome (f a s) := by
  unfold bind
  rcases m s with _ | ⟨e | a, rest⟩
  · rfl
  · rfl
  · rfl

theorem outcome_ofOption (e : PyExn) (o : Option α) (s : Bytes) :
    outcome (ofOption e o s) = Outcome.ofOption e s o := by
  cases o with
  | none => rfl
  | some a => rfl

theorem readUntilLoop_not_raised (d ret s : Bytes) (e : PyExn) :
    readUntilLoop d ret s ≠ .raised e := by
  induction s generalizing ret with
  | nil => simp [readUntilLoop]
  | cons c s ih =>
      rw [readUntilLoop]
      split
      · simp
      · exact ih _

/-- A line, as the readers of `Message` take it. -/
theorem outcome_line_bind (f : Text → Reader α) (s : Bytes) :
    outcome (line.bind f s) = (read_until (text "\r\n") s).bind fun line s =>
      match decode line with
      | none => .raised .UnicodeDecodeError
      | some data => outcome (f data s) := by
  rw [outcome_bind]
  unfold line
  cases hline : read_until (text "\r\n") s with
  | blocked => rfl
  | raised e => exact absurd hline (readUntilLoop_not_raised _ _ _ e)
  | ok l rest =>
      show (outcome (ofOption .UnicodeDecodeError (decode l) rest)).bind _ =
        match decode l with
        | none => .raised .UnicodeDecodeError
        | some data => outcome (f data rest)
      rw [outcome_ofOption]
      cases decode l with
      | none => rfl
      | some data => rfl

theorem outcome_head (re : Pat Char) (s : Bytes) : outcome (head re s) = readHead re s := by
  unfold head readHead
  rw [outcome_line_bind]
  congr 1
  funext l s
  cases decode l with
  | none => rfl
  | some data => exact outcome_ofOption _ _ _

theorem outcome_headers (fuel : Nat) (dict : Dict) (s : Bytes) :
    outcome (headers fuel dict s) = readHeaders fuel dict s := by
  induction fuel generalizing dict s with
  | zero => rfl
  | succ fuel ih =>
      rw [headers, readHeaders, outcome_line_bind]
      congr 1
      funext l s
      cases decode l with
      | none => rfl
      | some data =>
          dsimp only
          cases BaseHeader_re.match? data with
          | none => rfl
          | some header =>
              dsimp only
              split
              · rfl
              · exact ih _ _

theorem outcome_request (s : Bytes) : outcome (request s) = Request.unparse s := by
  unfold request Request.unparse
  rw [outcome_bind, outcome_head]
  congr 1
  funext way s
  rw [outcome_bind]
  exact congrArg (Outcome.bind · _) (outcome_headers _ _ _)

theorem outcome_response (s : Bytes) : outcome (response s) = Response.unparse s := by
  unfold response Response.unparse
  rw [outcome_bind, outcome_head]
  congr 1
  funext way s
  rw [outcome_bind, outcome_ofOption]
  congr 1
  funext status s
  rw [outcome_bind]
  have hheaders : outcome (allHeaders s) = readHeaders (s.length + 1) {} s := outcome_headers _ _ _
  rw [hheaders]
  congr 1
  funext dict s
  rw [outcome_bind, outcome_ofOption]
  rfl

/-- A request that is read is read here too. -/
theorem request_of_unparse {s rest : Bytes} {r : Request} (h : Request.unparse s = .ok r rest) :
    request s = some (.ok r, rest) := by
  rw [← outcome_request] at h
  exact outcome_eq_ok.mp h

/-- A response that is read is read here too. -/
theorem response_of_unparse {s rest : Bytes} {r : Received} (h : Response.unparse s = .ok r rest) :
    response s = some (.ok r, rest) := by
  rw [← outcome_response] at h
  exact outcome_eq_ok.mp h

/-! ## What arrives later -/

/-- What a reader does once does not depend on what arrives behind the bytes that are there. -/
def Mono (m : Reader α) : Prop :=
  ∀ s a rest, m s = some (a, rest) → ∀ t, m (s ++ t) = some (a, rest ++ t)

theorem mono_pure (a : α) : Mono (pure a) := by
  intro s b rest h t
  cases h
  rfl

theorem mono_ofOption (e : PyExn) (o : Option α) : Mono (ofOption e o) := by
  intro s b rest h t
  cases h
  rfl

theorem Mono.bind {m : Reader α} {f : α → Reader β} (hm : Mono m) (hf : ∀ a, Mono (f a)) :
    Mono (m.bind f) := by
  intro s b rest h t
  obtain ⟨⟨a | a, s'⟩, hs, hrest⟩ := Option.bind_eq_some_iff.mp h
  · cases hrest
    exact Option.bind_eq_some_iff.mpr ⟨_, hm s _ _ hs t, rfl⟩
  · exact Option.bind_eq_some_iff.mpr ⟨_, hm s _ _ hs t, hf a _ _ _ hrest t⟩

theorem mono_line : Mono line := by
  intro s a rest h t
  unfold line at h ⊢
  cases hline : read_until (text "\r\n") s with
  | blocked =>
      rw [hline] at h
      cases h
  | raised e => exact absurd hline (readUntilLoop_not_raised _ _ _ e)
  | ok l rest' =>
      rw [hline] at h
      cases h
      obtain ⟨rfl, hcut⟩ := read_until_ok hline
      rw [List.append_assoc, read_until_line (rest ++ t) hcut]
      rfl

theorem mono_head (re : Pat Char) : Mono (head re) :=
  mono_line.bind fun _ => mono_ofOption _ _

theorem mono_headers (fuel : Nat) (dict : Dict) : Mono (headers fuel dict) := by
  induction fuel generalizing dict with
  | zero =>
      intro s a rest h
      cases h
  | succ fuel ih =>
      refine mono_line.bind fun data => ?_
      split
      · exact mono_pure _
      · dsimp only
        split
        · exact mono_pure _
        · exact ih _

/-- More fuel changes nothing. -/
theorem headers_fuel {fuel fuel' : Nat} {dict : Dict} {s : Bytes} {x : Except PyExn Dict × Bytes}
    (h : headers fuel dict s = some x) (hle : fuel ≤ fuel') : headers fuel' dict s = some x := by
  induction fuel generalizing fuel' dict s with
  | zero => cases h
  | succ fuel ih =>
      obtain ⟨fuel', rfl⟩ := Nat.exists_eq_succ_of_ne_zero (by omega : fuel' ≠ 0)
      obtain ⟨⟨e | data, s'⟩, hline, hrest⟩ := Option.bind_eq_some_iff.mp h
      · exact Option.bind_eq_some_iff.mpr ⟨_, hline, hrest⟩
      · refine Option.bind_eq_some_iff.mpr ⟨_, hline, ?_⟩
        dsimp only at hrest ⊢
        cases hmatch : BaseHeader_re.match? data with
        | none =>
            rw [hmatch] at hrest
            exact hrest
        | some header =>
            rw [hmatch] at hrest
            dsimp only at hrest ⊢
            by_cases hempty : data = text "\r\n"
            · rw [if_pos hempty] at hrest ⊢
              exact hrest
            · rw [if_neg hempty] at hrest ⊢
              exact ih hrest (by omega)

theorem mono_allHeaders : Mono allHeaders := by
  intro s a rest h t
  have hlen : s.length + 1 ≤ (s ++ t).length + 1 := by
    rw [List.length_append]
    omega
  exact headers_fuel (mono_headers _ _ s a rest h t) hlen

theorem mono_request : Mono request :=
  (mono_head _).bind fun _ => mono_allHeaders.bind fun _ => mono_pure _

theorem mono_response : Mono response :=
  (mono_head _).bind fun _ => (mono_ofOption _ _).bind fun _ =>
    mono_allHeaders.bind fun _ => (mono_ofOption _ _).bind fun _ => mono_pure _

/-- A call of `readall` with a `recv` that transfers everything asked for. It takes nothing when it
raises. -/
def readall (r : SocketStreamReader) : Reader Bytes := fun s =>
  match r.readall recvAll s with
  | .ok body rest => some (.ok body, rest)
  | .raised e => some (.error e, s)
  | .blocked => none

theorem mono_readall (r : SocketStreamReader) : Mono (readall r) := by
  intro s a rest h t
  unfold readall SocketStreamReader.readall at h ⊢
  by_cases hunlimited : r.max_read = -1
  · rw [if_pos hunlimited] at h ⊢
    cases h
    rfl
  by_cases hread : r.have_read = r.max_read
  · rw [if_neg hunlimited, if_pos hread] at h ⊢
    cases h
    rfl
  rw [if_neg hunlimited, if_neg hread] at h ⊢
  unfold recvAll at h ⊢
  by_cases hneg : r.max_read - r.have_read < 0
  · rw [if_pos hneg] at h ⊢
    cases h
    rfl
  rw [if_neg hneg] at h ⊢
  by_cases hshort : s.length < (r.max_read - r.have_read).toNat
  · rw [if_pos hshort] at h
    cases h
  · rw [if_neg hshort] at h
    cases h
    have hlong : ¬ (s ++ t).length < (r.max_read - r.have_read).toNat := by
      rw [List.length_append]
      omega
    have hle : (r.max_read - r.have_read).toNat ≤ s.length := by omega
    rw [if_neg hlong]
    dsimp only
    rw [List.take_append_of_le_length hle, List.drop_append_of_le_length hle]

end Reader

end DianProtocol.Py
