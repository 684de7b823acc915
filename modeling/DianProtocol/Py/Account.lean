import DianProtocol.Lib.Cursor
import DianProtocol.Py.Reader

set_option autoImplicit false

/-! # The account of a body reader

A `SocketStreamReader` with a limit counts in `_have_read` what it takes from its socket, so that it
does not take the first bytes of the next message. `read` adds what it asks for before it asks;
`read_until` adds one for each byte, but behind the test of its own limit `max`, and it takes its
first byte without a test. `account_kept_iff` says which calls keep the account.
-/

namespace DianProtocol.Py

open Cursor

/-! ## The methods -/

/-- A socket: the bytes that are still to be received, and whether the connection ends behind
them. -/
structure Stream where
  left : Bytes
  closed : Bool

/-- `socket.recv(k)`, which returns exactly `k` bytes as long as there are as many; `none` if it
waits for more. -/
def Stream.recv (s : Stream) (k : Int) : Option (Except PyExn Bytes × Stream) :=
  if k < 0 then some (.error .ValueError, s)
  else if k.toNat ≤ s.left.length then
    some (.ok (s.left.take k.toNat), { s with left := s.left.drop k.toNat })
  else if s.closed then some (.ok s.left, { s with left := [] })
  else none

/-- A `SocketStreamReader` and its `_socket`. -/
structure BodyReader where
  reader : SocketStreamReader
  socket : Stream

/-- The loop of `read_until`, whose calls of `recv(1)` take the bytes of `left`. -/
def untilLoop (until_ : Bytes) (max : Int) (closed : Bool) :
    SocketStreamReader → Bytes → Bytes → Option (Bytes × SocketStreamReader × Bytes)
  | r, ret, [] => if closed then some (ret, r, []) else none
  | r, ret, c :: left =>
      let ret := ret ++ [c]
      if max ≠ -1 ∧ ret.length ≥ max then some (ret, r, left)
      else
        let r := if r.max_read ≠ -1 then { r with have_read := r.have_read + 1 } else r
        if r.max_read ≠ -1 ∧ r.have_read ≥ r.max_read then some (ret, r, left)
        else if until_ <:+ ret then some (ret, r, left)
        else untilLoop until_ max closed r ret left

namespace BodyReader

def read_until (b : BodyReader) (until_ : Text) (max : Int) :
    Option (Except PyExn Bytes × BodyReader) :=
  (untilLoop (encode until_) max b.socket.closed b.reader [] b.socket.left).map
    fun (ret, r, left) => (.ok ret, ⟨r, { b.socket with left := left }⟩)

def at_eof (b : BodyReader) : Bool :=
  b.reader.max_read ≠ -1 ∧ b.reader.have_read ≥ b.reader.max_read

def read (b : BodyReader) (max : Int) : Option (Except PyExn Bytes × BodyReader) :=
  let r := b.reader
  if r.max_read = -1 then
    (b.socket.recv max).map fun (res, socket) =>
      (res, ⟨{ r with have_read := r.have_read + max }, socket⟩)
  else
    let to_read := if max = -1 then r.max_read - r.have_read else min (r.max_read - r.have_read) max
    (b.socket.recv to_read).map fun (res, socket) =>
      (res, ⟨{ r with have_read := r.have_read + to_read }, socket⟩)

def readall (b : BodyReader) : Option (Except PyExn Bytes × BodyReader) :=
  if b.reader.max_read = -1 then some (.ok [], b)
  else if b.reader.have_read = b.reader.max_read then some (.ok [], b)
  else b.read (-1)

end BodyReader

inductive ReaderCall where
  | read (max : Int)
  | read_until (until_ : Text) (max : Int)
  | readall

/-- A limit is positive, or `-1` for none. -/
def ReaderCall.Proper : ReaderCall → Prop
  | .read max => max = -1 ∨ 0 < max
  | .read_until _ max => max = -1 ∨ 0 < max
  | .readall => True

namespace BodyReader

def call (b : BodyReader) : ReaderCall → Option (Except PyExn Bytes × BodyReader)
  | .read max => b.read max
  | .read_until until_ max => b.read_until until_ max
  | .readall => b.readall

/-- The reader after calls that return or raise; `none` if one of them waits. -/
def run (b : BodyReader) : List ReaderCall → Option BodyReader
  | [] => some b
  | c :: cs => (b.call c).bind fun (_, b) => b.run cs

/-- The account of a reader with the limit `n` on a stream of `total` bytes. -/
structure Account (n total : Nat) (b : BodyReader) : Prop where
  have_read : b.reader.have_read = ((total - b.socket.left.length : Nat) : Int)
  le : total - b.socket.left.length ≤ n
  at_eof : b.at_eof = true ↔ total - b.socket.left.length = n

end BodyReader

/-! ## The calls that keep the account -/

/-- What is taken when `taken` bytes have been taken and `left` is left. -/
def ReaderCall.takes (n taken : Nat) (left : Bytes) : ReaderCall → Nat
  | .read max => if max = -1 then n - taken else min (n - taken) max.toNat
  | .read_until until_ _ => (cut (encode until_) (left.take (n - taken))).length
  | .readall => n - taken

/-- A `read_until` is not called at the limit while there is something to take, and its own limit
lies behind the delimiter and the limit of the reader. -/
def ReaderCall.Counted (n taken : Nat) (left : Bytes) : ReaderCall → Prop
  | .read_until until_ max =>
      if taken = n then left = []
      else max = -1 ∨ ((cut (encode until_) (left.take (n - taken))).length : Int) < max
  | _ => True

/-- All calls are so, each at the place that those before it have reached. -/
def AllCounted (n : Nat) : Nat → Bytes → List ReaderCall → Prop
  | _, _, [] => True
  | taken, left, c :: cs =>
      c.Counted n taken left ∧
        AllCounted n (taken + c.takes n taken left) (left.drop (c.takes n taken left)) cs

/-! ## `read_until` -/

section

variable {d seen left : Bytes} {max : Int} (closed : Bool) {n have_read : Nat}

theorem length_scan_cons (d seen : Bytes) (c : UInt8) (left : Bytes) :
    seen.length < (scan d seen (c :: left)).length := by
  have hgrow : ∀ (left seen : Bytes), seen.length ≤ (scan d seen left).length := by
    intro left
    induction left with
    | nil => exact fun _ => Nat.le_refl _
    | cons c left ih =>
        intro seen
        have hle := ih (seen ++ [c])
        rw [List.length_append, List.length_singleton] at hle
        rw [scan]
        split
        · rw [List.length_append]
          omega
        · omega
  rw [scan]
  split
  · rw [List.length_append, List.length_singleton]
    omega
  · have hle := hgrow left (seen ++ [c])
    rw [List.length_append, List.length_singleton] at hle
    omega

/-- One byte that the test of `max` lets pass. -/
theorem untilLoop_counts (c : UInt8) (hmax : ¬ (max ≠ -1 ∧ ((seen ++ [c]).length : Int) ≥ max)) :
    untilLoop d max closed ⟨(n : Nat), (have_read : Nat)⟩ seen (c :: left) =
      if n ≤ have_read + 1 ∨ d <:+ seen ++ [c] then
        some (seen ++ [c], ⟨(n : Nat), (have_read + 1 : Nat)⟩, left)
      else untilLoop d max closed ⟨(n : Nat), (have_read + 1 : Nat)⟩ (seen ++ [c]) left := by
  have hn : (n : Int) ≠ -1 := by omega
  rw [untilLoop]
  dsimp only
  rw [if_neg hmax, if_pos hn, Nat.cast_add, Nat.cast_one]
  by_cases hlimit : n ≤ have_read + 1
  · have hreached : (n : Int) ≠ -1 ∧ (have_read : Int) + 1 ≥ n := ⟨hn, by omega⟩
    rw [if_pos hreached, if_pos (Or.inl hlimit)]
  · have hbelow : ¬ ((n : Int) ≠ -1 ∧ (have_read : Int) + 1 ≥ n) := by omega
    rw [if_neg hbelow]
    by_cases hend : d <:+ seen ++ [c]
    · rw [if_pos hend, if_pos (Or.inr hend)]
    · rw [if_neg hend, if_neg (not_or.mpr ⟨hlimit, hend⟩)]

/-- Below its own limit the loop stops behind the delimiter or at the limit of the reader, and has
counted every byte. -/
theorem untilLoop_counted {q : Nat} (hq : 0 < q) (hn : n = have_read + q) (hleft : q ≤ left.length)
    (hmax : max = -1 ∨ ((scan d seen (left.take q)).length : Int) < max) :
    ∃ k, (scan d seen (left.take q)).length = seen.length + k ∧
      untilLoop d max closed ⟨(n : Nat), (have_read : Nat)⟩ seen left =
        some (scan d seen (left.take q), ⟨(n : Nat), (have_read + k : Nat)⟩, left.drop k) := by
  induction left generalizing seen have_read q with
  | nil =>
      rw [List.length_nil] at hleft
      omega
  | cons c left ih =>
      obtain ⟨q, rfl⟩ : ∃ p, q = p + 1 := ⟨q - 1, by omega⟩
      rw [List.length_cons] at hleft
      rw [List.take_succ_cons] at hmax ⊢
      have hlong := length_scan_cons d seen c (left.take q)
      have hpass : ¬ (max ≠ -1 ∧ ((seen ++ [c]).length : Int) ≥ max) := by
        rw [List.length_append, List.length_singleton]
        omega
      rw [untilLoop_counts closed c hpass]
      rw [scan] at hmax ⊢
      by_cases hend : d <:+ seen ++ [c]
      · refine ⟨1, ?_, ?_⟩
        · rw [if_pos hend, List.length_append, List.length_singleton]
        · rw [if_pos (Or.inr hend), if_pos hend]
          rfl
      · rw [if_neg hend] at hmax ⊢
        by_cases hzero : q = 0
        · subst hzero
          refine ⟨1, ?_, ?_⟩
          · rw [List.take_zero, scan, List.length_append, List.length_singleton]
          · rw [if_pos (Or.inl (by omega))]
            rfl
        · obtain ⟨k, hk, hrun⟩ :=
            @ih (seen ++ [c]) (have_read + 1) q (by omega) (by omega) (by omega) hmax
          refine ⟨k + 1, ?_, ?_⟩
          · rw [hk, List.length_append, List.length_singleton]
            omega
          · have hgo : ¬ (n ≤ have_read + 1 ∨ d <:+ seen ++ [c]) := not_or.mpr ⟨by omega, hend⟩
            rw [if_neg hgo, hrun, List.drop_succ_cons, Nat.add_right_comm have_read 1 k,
              Nat.add_assoc]

/-- At its own limit the loop stops with a byte that it has not counted. -/
theorem untilLoop_uncounted {q m : Nat} (hn : n = have_read + q)
    (hseen : seen.length < m) (hmax : max = m)
    (hlong : m ≤ (scan d seen (left.take q)).length) :
    ∃ k ret, 0 < k ∧ k ≤ left.length ∧
      untilLoop d max closed ⟨(n : Nat), (have_read : Nat)⟩ seen left =
        some (ret, ⟨(n : Nat), (have_read + k - 1 : Nat)⟩, left.drop k) := by
  induction left generalizing seen have_read q with
  | nil =>
      rw [List.take_nil, scan] at hlong
      omega
  | cons c left ih =>
      have hpos : q ≠ 0 := by
        rintro rfl
        rw [List.take_zero, scan] at hlong
        omega
      obtain ⟨q, rfl⟩ : ∃ p, q = p + 1 := ⟨q - 1, by omega⟩
      have hlen : (seen ++ [c]).length = seen.length + 1 := by
        rw [List.length_append, List.length_singleton]
      by_cases hstop : m = seen.length + 1
      · refine ⟨1, seen ++ [c], by omega, by simp, ?_⟩
        have hreached : max ≠ -1 ∧ ((seen ++ [c]).length : Int) ≥ max := by omega
        rw [untilLoop, if_pos hreached]
        rfl
      · have hpass : ¬ (max ≠ -1 ∧ ((seen ++ [c]).length : Int) ≥ max) := by omega
        rw [List.take_succ_cons, scan] at hlong
        by_cases hend : d <:+ seen ++ [c]
        · rw [if_pos hend] at hlong
          omega
        · rw [if_neg hend] at hlong
          have hq : q ≠ 0 := by
            rintro rfl
            rw [List.take_zero, scan] at hlong
            omega
          obtain ⟨k, ret, hk, hle, hrun⟩ :=
            @ih (seen ++ [c]) (have_read + 1) q (by omega) (by omega) hlong
          refine ⟨k + 1, ret, by omega, by simpa using hle, ?_⟩
          have hgo : ¬ (n ≤ have_read + 1 ∨ d <:+ seen ++ [c]) := not_or.mpr ⟨by omega, hend⟩
          have hcount : have_read + 1 + k - 1 = have_read + (k + 1) - 1 := by omega
          rw [untilLoop_counts closed c hpass, if_neg hgo, hrun, List.drop_succ_cons, hcount]

/-- At the limit of the reader the loop takes a byte. -/
theorem untilLoop_past (d : Bytes) (max : Int) (n : Nat) (c : UInt8) (rest : Bytes) :
    ∃ ret r, untilLoop d max closed ⟨(n : Nat), (n : Nat)⟩ [] (c :: rest) =
      some (ret, r, rest) := by
  by_cases hpass : max ≠ -1 ∧ (([] ++ [c]).length : Int) ≥ max
  · rw [untilLoop, if_pos hpass]
    exact ⟨_, _, rfl⟩
  · rw [untilLoop_counts closed c hpass, if_pos (Or.inl (Nat.le_succ _))]
    exact ⟨_, _, rfl⟩

end

/-! ## One call -/

namespace BodyReader

/-- A reader that has taken and counted `taken` bytes. -/
def counting (n taken : Nat) (left : Bytes) (closed : Bool) : BodyReader :=
  ⟨{ max_read := n, have_read := taken }, ⟨left, closed⟩⟩

section

variable {n taken : Nat} {left : Bytes} {closed : Bool}

theorem account_counting (hle : taken ≤ n) :
    Account n (taken + left.length) (counting n taken left closed) := by
  have htaken : taken + left.length - left.length = taken := Nat.add_sub_cancel _ _
  refine ⟨?_, ?_, ?_⟩
  · show (taken : Int) = ((taken + left.length - left.length : Nat) : Int)
    rw [htaken]
  · show taken + left.length - left.length ≤ n
    rw [htaken]
    exact hle
  · show decide ((n : Int) ≠ -1 ∧ (taken : Int) ≥ n) = true ↔ taken + left.length - left.length = n
    rw [htaken, decide_eq_true_iff]
    omega

theorem recv_all (hholds : n - taken ≤ left.length) {k : Nat} (hk : k ≤ n - taken) :
    (⟨left, closed⟩ : Stream).recv (k : Int) = some (.ok (left.take k), ⟨left.drop k, closed⟩) := by
  have hnonneg : ¬ (k : Int) < 0 := by omega
  rw [Stream.recv, if_neg hnonneg, Int.toNat_natCast, if_pos (show k ≤ left.length by omega)]

theorem read_counted (hle : taken ≤ n) (hholds : n - taken ≤ left.length) {max : Int}
    (hmax : max = -1 ∨ 0 < max) {k : Nat} (hk : k = (ReaderCall.read max).takes n taken left) :
    (counting n taken left closed).read max =
      some (.ok (left.take k), counting n (taken + k) (left.drop k) closed) := by
  have hn : ¬ (n : Int) = -1 := by omega
  have hto : (if max = -1 then (n : Int) - taken else min ((n : Int) - taken) max) = k := by
    rw [hk, ReaderCall.takes]
    split
    · omega
    · omega
  have hlimit : k ≤ n - taken := by
    rw [hk, ReaderCall.takes]
    split
    · exact Nat.le_refl _
    · exact Nat.min_le_left _ _
  rw [read, counting]
  dsimp only
  rw [if_neg hn, hto, recv_all hholds hlimit]
  rfl

theorem readall_counted (hle : taken ≤ n) (hholds : n - taken ≤ left.length) :
    ∃ res, (counting n taken left closed).readall =
      some (res, counting n (taken + (n - taken)) (left.drop (n - taken)) closed) := by
  have hn : ¬ (counting n taken left closed).reader.max_read = -1 := by
    show ¬ (n : Int) = -1
    omega
  rw [readall, if_neg hn]
  by_cases hlimit : taken = n
  · subst hlimit
    rw [Nat.sub_self, Nat.add_zero, List.drop_zero]
    exact ⟨.ok [], if_pos rfl⟩
  · have hne : ¬ (counting n taken left closed).reader.have_read =
        (counting n taken left closed).reader.max_read := by
      show ¬ (taken : Int) = n
      omega
    rw [if_neg hne]
    exact ⟨_, read_counted hle hholds (Or.inl rfl) rfl⟩

variable (closed)

/-- A counted call leaves a reader that has counted what it has taken, or waits for a byte behind
the end of the stream. -/
theorem call_counted (hle : taken ≤ n) (hholds : n - taken ≤ left.length) {c : ReaderCall}
    (hc : c.Proper) (h : c.Counted n taken left) :
    (∃ res, (counting n taken left closed).call c =
        some (res, counting n (taken + c.takes n taken left) (left.drop (c.takes n taken left))
          closed)) ∨
      ((counting n taken left closed).call c = none ∧ taken = n ∧ left = []) := by
  cases c with
  | read max => exact Or.inl ⟨_, read_counted hle hholds hc rfl⟩
  | readall => exact Or.inl (readall_counted hle hholds)
  | read_until until_ max =>
      rw [ReaderCall.Counted] at h
      unfold ReaderCall.takes call read_until counting
      dsimp only
      by_cases hlimit : taken = n
      · rw [if_pos hlimit] at h
        subst h hlimit
        rw [untilLoop]
        cases closed with
        | false => exact Or.inr ⟨rfl, rfl, rfl⟩
        | true =>
            refine Or.inl ⟨.ok [], ?_⟩
            rw [List.take_nil]
            rfl
      · rw [if_neg hlimit] at h
        have hcut : cut (encode until_) (left.take (n - taken)) =
            scan (encode until_) [] (left.take (n - taken)) := rfl
        rw [hcut] at h ⊢
        obtain ⟨k, hk, hrun⟩ := untilLoop_counted closed
          (show 0 < n - taken by omega) (show n = taken + (n - taken) by omega) hholds h
        rw [List.length_nil, Nat.zero_add] at hk
        rw [hrun, hk]
        exact Or.inl ⟨_, rfl⟩

/-- Another one spoils the account. -/
theorem call_uncounted (hle : taken ≤ n) {c : ReaderCall} (hc : c.Proper)
    (h : ¬ c.Counted n taken left) :
    ∃ res b, (counting n taken left closed).call c = some (res, b) ∧
      ¬ Account n (taken + left.length) b := by
  cases c with
  | read max => exact absurd trivial h
  | readall => exact absurd trivial h
  | read_until until_ max =>
      rw [ReaderCall.Counted] at h
      unfold call read_until counting
      dsimp only
      by_cases hlimit : taken = n
      · -- the first byte behind the limit is taken
        rw [if_pos hlimit] at h
        subst hlimit
        obtain ⟨c, rest, rfl⟩ := List.exists_cons_of_ne_nil h
        have hover : ∀ r, ¬ Account taken (taken + (c :: rest).length) ⟨r, ⟨rest, closed⟩⟩ := by
          intro r haccount
          have htoo : taken + (c :: rest).length - rest.length ≤ taken := haccount.le
          rw [List.length_cons] at htoo
          omega
        obtain ⟨ret, r, hrun⟩ := untilLoop_past closed (encode until_) max taken c rest
        exact ⟨_, _, by rw [hrun]; rfl, hover r⟩
      · rw [if_neg hlimit, not_or, not_lt] at h
        obtain ⟨hne, hlong⟩ := h
        have hpos : 0 < max := hc.resolve_left hne
        obtain ⟨k, ret, hk, hkle, hrun⟩ := @untilLoop_uncounted (encode until_) [] left max closed n
          taken (n - taken) max.toNat (show n = taken + (n - taken) by omega)
          (show 0 < max.toNat by omega) (show max = max.toNat by omega)
          (show max.toNat ≤ (cut (encode until_) (left.take (n - taken))).length by omega)
        refine ⟨_, _, by rw [hrun]; rfl, fun haccount => ?_⟩
        have hcount : ((taken + k - 1 : Nat) : Int) =
            ((taken + left.length - (left.drop k).length : Nat) : Int) := haccount.have_read
        rw [List.length_drop] at hcount
        omega

end

/-- At the limit, with nothing to take, every call is counted. -/
theorem allCounted_nil (n : Nat) (calls : List ReaderCall) : AllCounted n n [] calls := by
  induction calls with
  | nil => trivial
  | cons c cs ih =>
      have htakes : c.takes n n [] = 0 := by
        cases c with
        | read max => simp [ReaderCall.takes]
        | read_until until_ max => simp [ReaderCall.takes, cut, scan]
        | readall => simp [ReaderCall.takes]
      refine ⟨?_, ?_⟩
      · cases c with
        | read max => trivial
        | read_until until_ max =>
            rw [ReaderCall.Counted, if_pos rfl]
        | readall => trivial
      · rw [htakes, List.drop_nil]
        exact ih

theorem takes_le (n taken : Nat) (left : Bytes) (c : ReaderCall) :
    c.takes n taken left ≤ n - taken := by
  cases c with
  | read max =>
      rw [ReaderCall.takes]
      split
      · exact Nat.le_refl _
      · exact Nat.min_le_left _ _
  | read_until until_ max =>
      have hcut := (prefix_cut (encode until_) (left.take (n - taken))).length_le
      rw [List.length_take] at hcut
      show (cut (encode until_) (left.take (n - taken))).length ≤ n - taken
      omega
  | readall => exact Nat.le_refl _

theorem account_run_iff {n taken : Nat} {left : Bytes} (closed : Bool) (hle : taken ≤ n)
    (hholds : n - taken ≤ left.length) {calls : List ReaderCall} (hcalls : ∀ c ∈ calls, c.Proper) :
    (∀ i b, (counting n taken left closed).run (calls.take i) = some b →
      Account n (taken + left.length) b) ↔ AllCounted n taken left calls := by
  induction calls generalizing taken left with
  | nil =>
      refine iff_of_true (fun i b hrun => ?_) trivial
      rw [List.take_nil] at hrun
      cases hrun
      exact account_counting hle
  | cons c cs ih =>
      have hc : c.Proper := hcalls c List.mem_cons_self
      have hcs : ∀ c' ∈ cs, c'.Proper := fun c' hc' => hcalls c' (List.mem_cons_of_mem _ hc')
      by_cases hcounted : c.Counted n taken left
      · have hstart : Account n (taken + left.length) (counting n taken left closed) :=
          account_counting hle
        rcases call_counted closed hle hholds hc hcounted with
          ⟨res, hcall⟩ | ⟨hcall, rfl, rfl⟩
        · have htakes := takes_le n taken left c
          have hdrop : (left.drop (c.takes n taken left)).length =
              left.length - c.takes n taken left := List.length_drop
          have htotal : taken + c.takes n taken left + (left.drop (c.takes n taken left)).length =
              taken + left.length := by omega
          have hrest := @ih (taken + c.takes n taken left) (left.drop (c.takes n taken left))
            (by omega) (by omega) hcs
          rw [htotal] at hrest
          rw [AllCounted, ← hrest]
          constructor
          · intro h
            refine ⟨hcounted, fun i b hrun => h (i + 1) b ?_⟩
            rw [List.take_succ_cons, run, hcall]
            exact hrun
          · rintro ⟨-, h⟩ i b hrun
            cases i with
            | zero =>
                cases hrun
                exact hstart
            | succ i =>
                rw [List.take_succ_cons, run, hcall] at hrun
                exact h i b hrun
        · -- the call waits, and no call comes after it
          refine iff_of_true (fun i b hrun => ?_) (allCounted_nil taken (c :: cs))
          cases i with
          | zero =>
              cases hrun
              exact hstart
          | succ i =>
              rw [List.take_succ_cons, run, hcall] at hrun
              cases hrun
      · refine iff_of_false (fun h => ?_) fun h => hcounted h.1
        obtain ⟨res, b, hcall, hspoiled⟩ := call_uncounted closed hle hc hcounted
        refine hspoiled (h 1 b ?_)
        rw [List.take_succ_cons, run, hcall]
        rfl

end BodyReader

open BodyReader

/-- **When the account is kept**: along any calls on a stream with at least `n` bytes exactly when
each `read_until` stops below its own limit, and is not called at the limit of the reader. -/
theorem account_kept_iff {n : Nat} {text : Bytes} (hn : n ≤ text.length) (closed : Bool)
    {calls : List ReaderCall} (hcalls : ∀ c ∈ calls, c.Proper) :
    (∀ i b, BodyReader.run ⟨{ max_read := n }, ⟨text, closed⟩⟩ (calls.take i) = some b →
      Account n text.length b) ↔ AllCounted n 0 text calls := by
  have hrun := account_run_iff closed (Nat.zero_le n)
    (show n - 0 ≤ text.length by omega) hcalls
  rw [Nat.zero_add] at hrun
  exact hrun

/-- A line and the rest of a body of five bytes. -/
theorem account_kept_line :
    AllCounted 5 0 (encode (text "a\nbcdNEXT"))
        [.read_until (text "\n") (-1), .read 2, .readall] ∧
      ∀ i b, BodyReader.run ⟨{ max_read := (5 : Nat) }, ⟨encode (text "a\nbcdNEXT"), false⟩⟩
          ([.read_until (text "\n") (-1), .read 2, .readall].take i) = some b →
        Account 5 (encode (text "a\nbcdNEXT")).length b := by
  have hcounted : AllCounted 5 0 (encode (text "a\nbcdNEXT"))
      [.read_until (text "\n") (-1), .read 2, .readall] :=
    ⟨Or.inl rfl, trivial, trivial, trivial⟩
  have hproper : ∀ c ∈ ([.read_until (text "\n") (-1), .read 2, .readall] : List ReaderCall),
      c.Proper := by
    simp [ReaderCall.Proper]
  exact ⟨hcounted, (account_kept_iff (by decide) false hproper).mpr hcounted⟩

/-- The body `ab`, with the next message behind it: `read_until` with the limit 1 takes a byte that
is not counted, and `read_until` behind the end of the body takes the first byte of the message. -/
theorem account_spoiled :
    (∃ b, BodyReader.run ⟨{ max_read := (2 : Nat) }, ⟨encode (text "abN"), false⟩⟩
        [.read_until (text "\n") 1] = some b ∧ b.reader.have_read = 0 ∧
        b.socket.left = encode (text "bN") ∧ ¬ Account 2 3 b) ∧
      ∃ b, BodyReader.run ⟨{ max_read := (2 : Nat) }, ⟨encode (text "abN"), false⟩⟩
        [.readall, .read_until (text "\n") (-1)] = some b ∧ b.reader.have_read = 3 ∧
        b.socket.left = [] ∧ ¬ Account 2 3 b := by
  refine ⟨⟨_, rfl, rfl, rfl, fun h => ?_⟩, ⟨_, rfl, rfl, rfl, fun h => ?_⟩⟩
  · exact absurd h.have_read (by decide)
  · exact absurd h.le (by decide)

end DianProtocol.Py
