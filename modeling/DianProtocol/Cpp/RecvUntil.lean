import DianProtocol.Lib.Cursor
import DianProtocol.Cpp.Buffer

set_option autoImplicit false

/-! # `recvUntil` and its buffer

`Conn.recvUntil` is the text that `socket::recvUntil` has received. The function itself receives
into a `bufferStream` of `max` bytes, compares the end of the part that it has written, and returns
the whole array. `recvUntilBuffer_begins` says that the text stands at the front of this array;
`recvUntil_shortest` says for every delimiter and every limit which text it is.
-/

namespace DianProtocol.Cpp

open Lines Cursor

/-! ## The function and its buffer -/

/-- The error code of a `recv` that returns `SOCKET_ERROR`. -/
def Recv.errcode : Recv → Option Int
  | .byte _ => none
  | .closed => none
  | .error errcode => some errcode

/-- The loop of `socket::recvUntil`: `data` holds the `recved` bytes that have been received. The
array that a write may allocate is counted by these bytes. -/
def recvInto (before delim : Str) (max : Int) (memory : Nat → Junk) :
    Nat → BufferStream → List Recv → Option (Except Int BufferStream × List Recv)
  | recved, data, [] => if recved < max ∨ max = -1 then none else some (.ok data, [])
  | recved, data, r :: rs =>
      if recved < max ∨ max = -1 then
        match r.errcode with
        | some errcode => some (.error errcode, rs)
        | none =>
            let data := data.write [r.value] (memory (recved + 1))
            let recved := recved + 1
            -- `memcmp` over the `strlen` bytes in front of `recved`
            if delim <:+ before ++ data.bytes.take recved then some (.ok data, rs)
            else recvInto before delim max memory recved data rs
      else some (.ok data, r :: rs)

/-- `socket::recvUntil(str, max, set_text)`, with a `max` that is positive or `-1`. -/
def Conn.recvUntilBuffer (conn : Conn) (delim : Str) (max : Int) (set_text : Bool)
    (memory : Nat → Junk) : Fetch Str :=
  let data := BufferStream.new (if max = -1 then 1024 else max.toNat) (memory 0)
  match recvInto (conn.heap 0) delim max memory 0 data conn.recvs with
  | none => .blocked
  | some (.error errcode, rs) => .thrown (.RecvError errcode) ⟨rs, fun n => conn.heap (n + 1)⟩
  | some (.ok data, rs) =>
      let data := if set_text then data.write [nul] (memory (data.pos + 1)) else data
      .done data.bytes ⟨rs, fun n => conn.heap (n + 1)⟩

/-- The same is done, and the first text stands at the front of the second. -/
def Fetch.Begins : Fetch Str → Fetch Str → Prop
  | .done text conn, .done buf conn' => text <+: buf ∧ conn = conn'
  | .thrown e conn, .thrown e' conn' => e = e' ∧ conn = conn'
  | .blocked, .blocked => True
  | _, _ => False

theorem BufferStream.take_pos (s : BufferStream) {recved : Nat} (h : s.pos = recved) :
    s.bytes.take recved = s.to_buffer := by
  rw [← h]
  rfl

/-- What is left of the limit after `recved` bytes. -/
def leftOf (max : Int) (recved : Nat) : Option Nat :=
  if max = -1 then none else some (max - recved).toNat

theorem leftOf_zero {max : Int} {recved : Nat} (h : ¬ (recved < max ∨ max = -1)) :
    leftOf max recved = some 0 := by
  obtain ⟨hle, hne⟩ := not_or.mp h
  rw [leftOf, if_neg hne]
  congr 1
  omega

theorem leftOf_ne_zero {max : Int} {recved : Nat} (h : recved < max ∨ max = -1) :
    leftOf max recved ≠ some 0 := by
  unfold leftOf
  split
  · simp
  · rw [ne_eq, Option.some.injEq]
    omega

theorem leftOf_succ (max : Int) (recved : Nat) :
    (leftOf max recved).map (· - 1) = leftOf max (recved + 1) := by
  unfold leftOf
  split
  · rfl
  · rw [Option.map_some]
    congr 1
    omega

theorem recvLoop_byte {before delim data : Str} {left : Option Nat} {r : Recv} {rs : List Recv}
    (hleft : left ≠ some 0) (hr : ∀ errcode, r ≠ .error errcode) :
    recvLoop before delim left data (r :: rs) =
      if delim <:+ before ++ (data ++ [r.value]) then some (.ok (data ++ [r.value]), rs)
      else recvLoop before delim (left.map (· - 1)) (data ++ [r.value]) rs := by
  rw [recvLoop]
  · exact hr
  · exact hleft

/-- The loop over the buffer is the loop over its text. -/
theorem recvInto_text (before delim : Str) (max : Int) (memory : Nat → Junk) {recved : Nat}
    {data : BufferStream} (hpos : data.pos = recved) (rs : List Recv) :
    (recvInto before delim max memory recved data rs).map
        (fun (res, rs) => (res.map BufferStream.to_buffer, rs)) =
      recvLoop before delim (leftOf max recved) data.to_buffer rs := by
  induction rs generalizing recved data with
  | nil =>
      rw [recvInto]
      by_cases hgo : recved < max ∨ max = -1
      · rw [if_pos hgo, recvLoop]
        · rfl
        · exact leftOf_ne_zero hgo
      · rw [if_neg hgo, leftOf_zero hgo]
        rfl
  | cons r rs ih =>
      rw [recvInto]
      by_cases hgo : recved < max ∨ max = -1
      · rw [if_pos hgo]
        cases herror : r.errcode with
        | some errcode =>
            cases r with
            | byte c => cases herror
            | closed => cases herror
            | error errcode' =>
                cases herror
                rw [recvLoop]
                · rfl
                · exact leftOf_ne_zero hgo
        | none =>
            have hr : ∀ errcode, r ≠ .error errcode := by
              rintro errcode rfl
              cases herror
            have hpos' : (data.write [r.value] (memory (recved + 1))).pos = recved + 1 := by
              rw [← hpos]
              rfl
            rw [recvLoop_byte (leftOf_ne_zero hgo) hr, leftOf_succ,
              ← BufferStream.to_buffer_write data [r.value] (memory (recved + 1)), ← ih hpos']
            dsimp only
            rw [BufferStream.take_pos _ hpos']
            split
            · rfl
            · rfl
      · rw [if_neg hgo, leftOf_zero hgo]
        rfl

/-- **The text stands at the front of the buffer.** -/
theorem recvUntilBuffer_begins (conn : Conn) (delim : Str) (max : Int) (set_text : Bool)
    (memory : Nat → Junk) :
    (conn.recvUntil delim max set_text).Begins
      (conn.recvUntilBuffer delim max set_text memory) := by
  have htext := recvInto_text (conn.heap 0) delim max memory
    (show (BufferStream.new (if max = -1 then 1024 else max.toNat) (memory 0)).pos = 0 from rfl)
    conn.recvs
  have hleft : leftOf max 0 = if max = -1 then none else some max.toNat := by
    unfold leftOf
    simp
  rw [BufferStream.to_buffer_new, hleft] at htext
  unfold Conn.recvUntil Conn.recvUntilBuffer
  dsimp only
  rw [← htext]
  rcases recvInto (conn.heap 0) delim max memory 0 _ conn.recvs with
    - | ⟨errcode | data, rs⟩
  · trivial
  · exact ⟨rfl, rfl⟩
  · refine ⟨?_, rfl⟩
    cases set_text with
    | false =>
        show data.to_buffer ++ [] <+: data.bytes
        rw [List.append_nil]
        exact List.take_prefix _ _
    | true =>
        show data.to_buffer ++ [nul] <+: (data.write [nul] (memory (data.pos + 1))).bytes
        rw [← BufferStream.to_buffer_write data [nul] (memory (data.pos + 1))]
        exact List.take_prefix _ _

/-! ## The shortest match -/

/-- What is taken from the stream: the shortest prefix that ends in the delimiter, or as many bytes
as the limit allows when that prefix is longer or there is none. -/
def Taken (delim : Str) (max : Int) (data : Str) : Prop :=
  (Line delim data ∧ data.length ≤ max) ∨ (data.length = max ∧ ¬ delim <:+: data)

/-- A comparison that starts in front of the buffer is a mismatch. -/
def NoMatchBefore (before delim : Str) : Prop :=
  ∀ data : Str, data.length < delim.length → ¬ delim <:+ before ++ data

variable {before delim : Str}

theorem noMatchBefore_nil (delim : Str) : NoMatchBefore [] delim := by
  intro data hlt hsuffix
  have hle := hsuffix.length_le
  rw [List.nil_append] at hle
  omega

/-- A comparison looks at the data alone. -/
theorem NoMatchBefore.suffix_iff (h : NoMatchBefore before delim) (data : Str) :
    delim <:+ before ++ data ↔ delim <:+ data := by
  constructor
  · intro hsuffix
    by_cases hlt : data.length < delim.length
    · exact absurd hsuffix (h data hlt)
    · exact List.suffix_of_suffix_length_le hsuffix (List.suffix_append _ _) (by omega)
  · intro hsuffix
    exact hsuffix.trans (List.suffix_append _ _)

/-- One byte. -/
theorem recvLoop_step (hbefore : NoMatchBefore before delim) (left : Nat) (data : Str) (c : Byte)
    (rs : List Recv) :
    recvLoop before delim (some (left + 1)) data (.byte c :: rs) =
      if delim <:+ data ++ [c] then some (.ok (data ++ [c]), rs)
      else recvLoop before delim (some left) (data ++ [c]) rs := by
  rw [recvLoop_byte (by simp) (by simp)]
  by_cases hend : delim <:+ data ++ [c]
  · rw [if_pos hend]
    exact if_pos ((hbefore.suffix_iff _).mpr hend)
  · rw [if_neg hend]
    exact if_neg fun h => hend ((hbefore.suffix_iff _).mp h)

/-- The loop goes on to the first delimiter or to the limit. -/
theorem recvLoop_taken (hbefore : NoMatchBefore before delim) {left : Nat} {data taken : Str}
    (hfree : ¬ delim <:+: data)
    (h : Taken delim ((data.length + left : Nat) : Int) (data ++ taken)) (rs : List Recv) :
    recvLoop before delim (some left) data (taken.map .byte ++ rs) =
      some (.ok (data ++ taken), rs) := by
  induction taken generalizing left data with
  | nil =>
      rw [List.append_nil] at h ⊢
      rcases h with ⟨hline, -⟩ | ⟨hlen, -⟩
      · exact absurd hline.ends.isInfix hfree
      · have hzero : left = 0 := by omega
        subst hzero
        rw [recvLoop]
        rfl
  | cons c taken ih =>
      have happ : data ++ c :: taken = data ++ [c] ++ taken := by simp
      have hlen : (data ++ c :: taken).length ≤ data.length + left := by
        rcases h with ⟨-, hle⟩ | ⟨heq, -⟩
        · omega
        · omega
      rw [List.length_append, List.length_cons] at hlen
      obtain ⟨left, rfl⟩ : ∃ n, left = n + 1 := ⟨left - 1, by omega⟩
      rw [happ] at h
      rw [List.map_cons, List.cons_append, recvLoop_step hbefore, happ]
      by_cases hend : delim <:+ data ++ [c]
      · rw [if_pos hend]
        have hnil : taken = [] := by
          rcases h with ⟨hline, -⟩ | ⟨-, hnone⟩
          · -- a line has no delimiter in front of its end
            by_contra hne
            refine hline.first (hend.isInfix.trans ?_)
            rw [List.dropLast_append_of_ne_nil hne]
            exact (List.prefix_append _ _).isInfix
          · exact absurd (hend.isInfix.trans (List.prefix_append _ _).isInfix) hnone
        subst hnil
        simp
      · rw [if_neg hend]
        have hsum : data.length + (left + 1) = (data ++ [c]).length + left := by
          rw [List.length_append, List.length_singleton]
          omega
        rw [hsum] at h
        exact ih (not_infix_snoc hfree hend) h

/-- Without a delimiter and below the limit the loop waits for more. -/
theorem recvLoop_waits (hbefore : NoMatchBefore before delim) {left : Nat} {data text : Str}
    (hfree : ¬ delim <:+: data ++ text) (hlt : text.length < left) :
    recvLoop before delim (some left) data (text.map .byte) = none := by
  induction text generalizing left data with
  | nil =>
      rw [List.length_nil] at hlt
      obtain ⟨left, rfl⟩ : ∃ n, left = n + 1 := ⟨left - 1, by omega⟩
      rw [List.map_nil, recvLoop]
      simp
  | cons c text ih =>
      have happ : data ++ c :: text = data ++ [c] ++ text := by simp
      rw [List.length_cons] at hlt
      obtain ⟨left, rfl⟩ : ∃ n, left = n + 1 := ⟨left - 1, by omega⟩
      rw [happ] at hfree
      have hend : ¬ delim <:+ data ++ [c] := fun h =>
        hfree (h.isInfix.trans (List.prefix_append _ _).isInfix)
      rw [List.map_cons, recvLoop_step hbefore, if_neg hend]
      exact ih hfree (by omega)

/-- A stream has a part that is taken from it, or is too short for one. -/
theorem exists_taken (hdelim : delim ≠ []) {max : Int} (hmax : 0 < max) (text : Str) :
    (∃ data rest, text = data ++ rest ∧ Taken delim max data) ∨
      (text.length < max ∧ ¬ delim <:+: text) := by
  obtain ⟨⟨rest, hrest⟩, hcut⟩ := cut_until hdelim text
  by_cases hlong : text.length < max
  · rcases hcut with hline | ⟨-, hfree⟩
    · refine Or.inl ⟨cut delim text, rest, hrest.symm, Or.inl ⟨hline, ?_⟩⟩
      have hle := (prefix_cut delim text).length_le
      omega
    · exact Or.inr ⟨hlong, hfree⟩
  · by_cases hline : Line delim (cut delim text) ∧ (cut delim text).length ≤ max
    · exact Or.inl ⟨cut delim text, rest, hrest.symm, Or.inl hline⟩
    · -- there is no delimiter in the first `max` bytes
      refine Or.inl ⟨text.take max.toNat, text.drop max.toNat,
        (List.take_append_drop _ _).symm, Or.inr ⟨?_, fun hin => hline ?_⟩⟩
      · rw [List.length_take]
        omega
      · have hfirst := line_cut hdelim hin
        have hpre : cut delim (text.take max.toNat) <+: text :=
          (prefix_cut delim _).trans (List.take_prefix _ _)
        have heq := Until.eq_cut ⟨hpre, Or.inl hfirst⟩ hdelim
        have hle := (prefix_cut delim (text.take max.toNat)).length_le
        rw [List.length_take] at hle
        rw [heq] at hfirst hle
        exact ⟨hfirst, by omega⟩

/-- **`recvUntil` reads the shortest match**: it takes the stream up to the first delimiter, or as
many bytes as the limit allows, leaves the rest, and returns what it has taken at the front of its
buffer, with a NUL behind it if the buffer is to be text. It waits while there are fewer bytes. -/
theorem recvUntil_shortest (hdelim : delim ≠ []) {max : Int} (hmax : 0 < max) {heap : Nat → Str}
    (hbefore : NoMatchBefore (heap 0) delim) (set_text : Bool) (memory : Nat → Junk)
    (text : Str) :
    (∃ data rest, text = data ++ rest ∧ Taken delim max data ∧ ∀ rs, ∃ buf,
      Conn.recvUntilBuffer ⟨text.map .byte ++ rs, heap⟩ delim max set_text memory =
        .done buf ⟨rest.map .byte ++ rs, fun n => heap (n + 1)⟩ ∧
      data ++ (if set_text then [nul] else []) <+: buf) ∨
    (text.length < max ∧ ¬ delim <:+: text ∧
      (wire text heap).recvUntilBuffer delim max set_text memory = .blocked) := by
  have hleft : (if max = -1 then none else some max.toNat) = some max.toNat :=
    if_neg (by omega)
  have hcast : ((([] : Str).length + max.toNat : Nat) : Int) = max := by
    rw [List.length_nil]
    omega
  rcases exists_taken hdelim hmax text with ⟨data, rest, rfl, htaken⟩ | ⟨hlt, hfree⟩
  · refine Or.inl ⟨data, rest, rfl, htaken, fun rs => ?_⟩
    have hcounted : Taken delim ((([] : Str).length + max.toNat : Nat) : Int) ([] ++ data) := by
      rwa [hcast]
    have hloop := recvLoop_taken hbefore (not_infix_nil hdelim) hcounted (rest.map .byte ++ rs)
    have hbegins := recvUntilBuffer_begins ⟨(data ++ rest).map .byte ++ rs, heap⟩ delim max
      set_text memory
    rw [Conn.recvUntil, hleft, List.map_append, List.append_assoc, hloop] at hbegins
    rw [List.map_append, List.append_assoc]
    generalize Conn.recvUntilBuffer ⟨data.map .byte ++ (rest.map .byte ++ rs), heap⟩ delim max
      set_text memory = fetch at hbegins ⊢
    cases fetch with
    | done buf conn =>
        obtain ⟨hpre, rfl⟩ := hbegins
        exact ⟨buf, rfl, hpre⟩
    | thrown e conn => exact hbegins.elim
    | blocked => exact hbegins.elim
  · refine Or.inr ⟨hlt, hfree, ?_⟩
    have hshort : text.length < max.toNat := by omega
    have hloop : recvLoop (heap 0) delim (some max.toNat) [] (text.map .byte) = none :=
      recvLoop_waits hbefore hfree hshort
    have hbegins := recvUntilBuffer_begins (wire text heap) delim max set_text memory
    rw [Conn.recvUntil, hleft] at hbegins
    rw [show (wire text heap).recvs = text.map .byte from rfl,
      show (wire text heap).heap = heap from rfl, hloop] at hbegins
    generalize (wire text heap).recvUntilBuffer delim max set_text memory = fetch at hbegins ⊢
    cases fetch with
    | done buf conn => exact hbegins.elim
    | thrown e conn => exact hbegins.elim
    | blocked => rfl

/-- The first `"aab"` of `"aaabc"`, where an attempt to match it fails. -/
theorem recvUntil_shortest_aab :
    ∃ buf, (wire [97, 97, 97, 98, 99] fun _ => []).recvUntilBuffer [97, 97, 98] 10 true
        (fun _ _ => 0) = .done buf (wire [99] fun _ => []) ∧ [97, 97, 97, 98, nul] <+: buf := by
  have haab : Line ([97, 97, 98] : Str) [97, 97, 97, 98] := ⟨by decide, by decide⟩
  have hdelim : ([97, 97, 98] : Str) ≠ [] := by decide
  have hmax : (0 : Int) < 10 := by decide
  have hrun := @recvUntil_shortest _ hdelim _ hmax (fun _ => []) (noMatchBefore_nil _) true
    (fun _ _ => 0) [97, 97, 97, 98, 99]
  rcases hrun with ⟨data, rest, htext, htaken, hrun⟩ | ⟨-, hfree, -⟩
  · have hline : Line [97, 97, 98] data := by
      rcases htaken with ⟨hline, -⟩ | ⟨hlen, -⟩
      · exact hline
      · -- the stream is shorter than the limit
        have hle := congrArg List.length htext
        simp only [List.length_cons, List.length_nil, List.length_append] at hle
        omega
    have hsplit : ([97, 97, 97, 98] : Str) ++ [99] = data ++ rest := htext
    obtain ⟨rfl, rfl⟩ := haab.append_inj hline hsplit
    obtain ⟨buf, hdone, hpre⟩ := hrun []
    exact ⟨buf, hdone, hpre⟩
  · exact absurd (by decide) hfree

end DianProtocol.Cpp
