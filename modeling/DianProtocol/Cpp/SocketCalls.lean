import DianProtocol.Cpp.Calls

set_option autoImplicit false

/-! # Calls of the reader of a socket

`SocketStreamReader::read` allocates a buffer, receives into another one, drops that, and returns the
first: what is taken from the socket is lost, and what is returned is whatever the memory held.
`readUntil` takes single bytes, and returns them through the constructor that copies as many of them
as its unset member says. `socketReader_delivers_iff` says which calls return what they take.
-/

namespace DianProtocol.Cpp

open Cursor

/-! ## Calls -/

namespace Incoming

/-- `SocketStreamReader::read(size)` -/
def read (s : Incoming) (size : Nat) (m : Memory) : Reading Incoming Str :=
  (s.recv size).map fun _ => newArray size [] m.junk

def call (fuel : Nat) (s : Incoming) (c : Call Byte) (m : Memory) : Option (Reading Incoming Str) :=
  match c with
  | .read n => some (s.read n m)
  | .readUntil d => s.readUntil fuel d m

/-! ## Calls that return what they take -/

/-- How many bytes `recv(n)` gives. -/
def given (s : Incoming) (n : Nat) : Nat := min (min (max 1 (s.gives 0)) n) s.left.length

/-- A `read` that gets all its bytes at once, and whose buffer held them before; a `readUntil` whose
delimiter comes, and whose buffer keeps what has been taken. -/
def Intact (m : Memory) (s : Incoming) : Call Byte → Prop
  | .read n => s.given n = n ∧ newArray n [] m.junk = s.left.take n
  | .readUntil d => d <:+: s.left ∧ m.Keeps (cut d s.left)

/-- The socket after such a call. -/
def moved (s : Incoming) : Call Byte → Incoming
  | .read n => s.next n
  | .readUntil d => s.after (cut d s.left).length

/-- All the calls return what they take. -/
def AllIntact : (Nat → Memory) → Incoming → List (Call Byte) → Prop
  | _, _, [] => True
  | memory, s, c :: cs =>
      Intact (memory 0) s c ∧ AllIntact (fun i => memory (i + 1)) (s.moved c) cs

/-- What a call that returns does: it takes bytes from the front, returns at least as many, and the
same ones exactly when the call is intact. -/
structure Takes (m : Memory) (s : Incoming) (c : Call Byte) (data : Str) (s' : Incoming) : Prop where
  taken : ∃ taken, s.left = taken ++ s'.left ∧ taken.length ≤ data.length ∧
    (data = taken ↔ Intact m s c)
  moved : Intact m s c → s' = s.moved c

/-- `recv` takes what it gives. -/
theorem recv_done {s s' : Incoming} {n : Nat} {data : Str} (h : s.recv n = .done data s') :
    ∃ k, min k s.left.length = s.given n ∧ s' = s.next k := by
  cases hleft : s.left with
  | nil =>
      cases hending : s.ending with
      | closed =>
          rw [recv, hleft, hending] at h
          cases h
          refine ⟨0, ?_, rfl⟩
          rw [given, hleft, List.length_nil, Nat.min_zero, Nat.min_zero]
      | failed =>
          rw [recv, hleft, hending] at h
          cases h
      | open_ =>
          rw [recv, hleft, hending] at h
          cases h
  | cons x l =>
      rw [recv, hleft] at h
      cases h
      exact ⟨min (max 1 (s.gives 0)) n, by rw [given, hleft], rfl⟩

theorem takes_read {s s' : Incoming} {n : Nat} {m : Memory} {data : Str}
    (h : s.read n m = .done data s') : Takes m s (.read n) data s' := by
  have hlen : (newArray n [] m.junk).length = n := length_newArray _ _ _
  obtain ⟨k, hk, rfl, rfl⟩ : ∃ k, min k s.left.length = s.given n ∧ s' = s.next k ∧
      data = newArray n [] m.junk := by
    unfold read at h
    cases hrecv : s.recv n with
    | thrown e =>
        rw [hrecv] at h
        cases h
    | blocked =>
        rw [hrecv] at h
        cases h
    | done data' s₁ =>
        rw [hrecv] at h
        cases h
        obtain ⟨k, hk, hnext⟩ := recv_done hrecv
        exact ⟨k, hk, hnext, rfl⟩
  have hgiven : s.given n ≤ n := by
    rw [given]
    omega
  have htaken : (s.left.take k).length = s.given n := by rw [List.length_take, hk]
  refine ⟨⟨s.left.take k, (List.take_append_drop _ _).symm, by omega, ?_⟩, ?_⟩
  · constructor
    · intro heq
      have hall : s.given n = n := by rw [← htaken, ← heq, hlen]
      refine ⟨hall, heq.trans ?_⟩
      rw [List.take_eq_take_iff]
      omega
    · rintro ⟨hall, heq⟩
      rw [heq, List.take_eq_take_iff]
      omega
  · rintro ⟨hall, -⟩
    have hdrop : s.left.drop k = s.left.drop n := by
      rw [List.drop_eq_drop_iff]
      omega
    rw [moved, next, next, hdrop]

/-! ### `readUntil` -/

/-- An empty delimiter is never found. -/
theorem readUntilLoop_nil {fuel : Nat} {c : Byte} {ss data : Str} {s s' : Incoming} :
    readUntilLoop get (fun _ => false) [] fuel c ss s ≠ some (.done data s') := by
  induction fuel generalizing c ss s with
  | zero =>
      intro h
      cases h
  | succ fuel ih =>
      intro h
      rw [readUntilLoop] at h
      cases hget : s.get c with
      | thrown e =>
          rw [hget] at h
          cases h
      | blocked =>
          rw [hget] at h
          cases h
      | done c' s₁ =>
          rw [hget] at h
          dsimp only at h
          rw [if_neg (by simp), if_neg (by simp)] at h
          exact ih h

/-- Behind the last byte nothing is taken, and every round writes a character. -/
theorem readUntilLoop_dry {d : Str} {fuel : Nat} {c : Byte} {ss data : Str} {s s' : Incoming}
    (hleft : s.left = [])
    (h : readUntilLoop get (fun _ => false) d fuel c ss s = some (.done data s')) :
    s'.left = [] ∧ ss.length < data.length := by
  induction fuel generalizing c ss s with
  | zero => cases h
  | succ fuel ih =>
      rw [readUntilLoop] at h
      cases hending : s.ending with
      | failed =>
          have hget : s.get c = .thrown (.RecvError (-1)) := by
            rw [get, recv, hleft, hending]
            rfl
          rw [hget] at h
          cases h
      | open_ =>
          have hget : s.get c = .blocked := by
            rw [get, recv, hleft, hending]
            rfl
          rw [hget] at h
          cases h
      | closed =>
          have hnext : (s.after 1).left = [] := by
            rw [after, hleft]
            rfl
          rw [get_closed c hleft hending] at h
          dsimp only at h
          split at h
          · cases h
            exact ⟨hnext, by simp⟩
          · rw [if_neg (by simp)] at h
            obtain ⟨hleft', hlt⟩ := ih hnext h
            rw [List.length_append, List.length_singleton] at hlt
            exact ⟨hleft', by omega⟩

theorem takes_readUntil {s s' : Incoming} {fuel : Nat} {d : Str} {m : Memory} {data : Str}
    (h : s.readUntil fuel d m = some (.done data s')) : Takes m s (.readUntil d) data s' := by
  obtain ⟨reading, hloop, hreading⟩ := Option.map_eq_some_iff.mp h
  obtain ⟨ss, rfl, rfl⟩ : ∃ ss, reading = .done ss s' ∧ data = m.buffer ss := by
    cases reading with
    | thrown e => cases hreading
    | blocked => cases hreading
    | done ss s₁ =>
        cases hreading
        exact ⟨ss, rfl, rfl⟩
  have hd : d ≠ [] := by
    rintro rfl
    exact readUntilLoop_nil hloop
  have hfeeds := s.feeds m.c (n := s.left.length) (Or.inr (Nat.le_refl _))
  have hmore := readUntilLoop_mono hloop
  by_cases hin : d <:+: s.left
  · have hfound := readUntilLoop_found (fun _ => false) hd hfeeds (fun _ _ => rfl) hin fuel
    rw [show s.after 0 = s from rfl, hmore] at hfound
    cases hfound
    refine ⟨⟨cut d s.left, (cut_append_drop d s.left).symm, ?_, ?_⟩, fun _ => rfl⟩
    · rw [m.length_buffer]
    · rw [m.buffer_eq_iff]
      exact ⟨fun hkeeps => ⟨hin, hkeeps⟩, fun hintact => hintact.2⟩
  · -- more is returned than there was
    have hmissing := readUntilLoop_missing (fun _ => false) hd hfeeds (fun _ _ => rfl) hin fuel
    rw [show s.after 0 = s from rfl, hmore] at hmissing
    have hnone : (s.after s.left.length).left = [] := List.drop_length
    obtain ⟨hleft, hlt⟩ := readUntilLoop_dry hnone hmissing.symm
    have hnot : ¬ Intact m s (.readUntil d) := fun hintact => hin hintact.1
    refine ⟨⟨s.left, by rw [hleft, List.append_nil], ?_, ?_⟩, fun hintact => absurd hintact hnot⟩
    · rw [m.length_buffer]
      omega
    · refine iff_of_false (fun heq => ?_) hnot
      have hlen := m.length_buffer ss
      rw [heq] at hlen
      omega

theorem takes_call {s s' : Incoming} {fuel : Nat} {c : Call Byte} {m : Memory} {data : Str}
    (h : s.call fuel c m = some (.done data s')) : Takes m s c data s' := by
  cases c with
  | read n => exact takes_read (Option.some.inj h)
  | readUntil d => exact takes_readUntil h

/-! ## Runs -/

/-- A run takes bytes from the front, and returns at least as many. -/
theorem run_takes {fuel : Nat} {memory : Nat → Memory} {s s' : Incoming}
    {calls : List (Call Byte)} {results : List Str}
    (hrun : runCalls (call fuel) memory s calls = some (.done results s')) :
    ∃ taken, s.left = taken ++ s'.left ∧ taken.length ≤ results.flatten.length := by
  induction calls generalizing memory s results with
  | nil =>
      cases hrun
      exact ⟨[], rfl, Nat.zero_le _⟩
  | cons c cs ih =>
      obtain ⟨data, s₁, rest, hcall, hrest, rfl⟩ := runCalls_cons.mp hrun
      obtain ⟨taken, htaken, hle, -⟩ := (takes_call hcall).taken
      obtain ⟨more, hmore, hle'⟩ := ih hrest
      refine ⟨taken ++ more, ?_, ?_⟩
      · rw [htaken, hmore, List.append_assoc]
      · rw [List.flatten_cons, List.length_append, List.length_append]
        omega

/-- **What a reader of a socket delivers**: the calls of a run that returns give back exactly the
bytes that they take from the socket if and only if all of them are intact. -/
theorem socketReader_delivers_iff {fuel : Nat} {memory : Nat → Memory} {s s' : Incoming}
    {calls : List (Call Byte)} {results : List Str}
    (hrun : runCalls (call fuel) memory s calls = some (.done results s')) :
    results.flatten ++ s'.left = s.left ↔ AllIntact memory s calls := by
  induction calls generalizing memory s results with
  | nil =>
      cases hrun
      exact iff_of_true rfl trivial
  | cons c cs ih =>
      obtain ⟨data, s₁, rest, hcall, hrest, rfl⟩ := runCalls_cons.mp hrun
      obtain ⟨⟨taken, htaken, hle, hiff⟩, hmoved⟩ := takes_call hcall
      obtain ⟨more, hmore, hle'⟩ := run_takes hrest
      rw [AllIntact, List.flatten_cons, List.append_assoc]
      constructor
      · intro hall
        -- the calls return as many bytes as they take, so each of them does
        have hsplit : data ++ rest.flatten = taken ++ more := by
          rw [htaken, hmore, ← List.append_assoc, ← List.append_assoc] at hall
          exact List.append_cancel_right hall
        have hlen := congrArg List.length hsplit
        rw [List.length_append, List.length_append] at hlen
        obtain ⟨heq, hrest'⟩ := List.append_inj hsplit (by omega)
        have hintact := hiff.mp heq
        rw [← hmoved hintact]
        refine ⟨hintact, (ih hrest).mp ?_⟩
        rw [hrest', hmore]
      · rintro ⟨hintact, hrest'⟩
        rw [← hmoved hintact] at hrest'
        rw [(ih hrest).mpr hrest', htaken, hiff.mpr hintact]

end Incoming

/-- The bytes `ab`, LF and `c`, on a connection that stays open. -/
def twoLines : Incoming where
  left := [97, 98, 10, 99]
  ending := .open_
  gives := fun _ => 1
  memory := fun _ _ => 0

/-- A `readUntil` in a memory where the constructor copies everything. -/
theorem socketReader_delivers_line :
    runCalls (Incoming.call 3) (fun _ => ⟨fun _ => 0, 1024, 0⟩) twoLines [.readUntil [10]] =
        some (.done [[97, 98, 10]] { twoLines with left := [99] }) ∧
      [[97, 98, 10]].flatten ++ [99] = twoLines.left := by
  have hrun : runCalls (Incoming.call 3) (fun _ => ⟨fun _ => 0, 1024, 0⟩) twoLines
      [.readUntil [10]] = some (.done [[97, 98, 10]] { twoLines with left := [99] }) := rfl
  have hintact : Incoming.AllIntact (fun _ => ⟨fun _ => 0, 1024, 0⟩) twoLines
      [.readUntil [10]] := ⟨⟨by decide, by decide⟩, trivial⟩
  exact ⟨hrun, (Incoming.socketReader_delivers_iff hrun).mpr hintact⟩

/-- A `read` of two bytes takes them from the socket, and returns two others. -/
theorem socketReader_loses :
    ∃ s', runCalls (Incoming.call 0) (fun _ => ⟨fun _ => 0, 1024, 0⟩)
        { twoLines with gives := fun _ => 2 } [.read 2] = some (.done [[0, 0]] s') ∧
      s'.left = [10, 99] ∧ [[0, 0]].flatten ++ s'.left ≠ twoLines.left :=
  ⟨_, rfl, rfl, by decide⟩

end DianProtocol.Cpp
