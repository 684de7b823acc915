import DianProtocol.Cpp.PlayCallback
import DianProtocol.Cpp.RecvUntil

set_option autoImplicit false

/-! # The match window of `recvUntil`

After every byte `recvUntil` compares the last `strlen_` bytes of its buffer with the delimiter,
also when fewer have been received. The loop is modelled here with the windows that it gives to
`memcmp` and with the arithmetic of `int`. `windows_inside_iff` says when all of them lie in what
has been received; `recvWindows_eq_recvLoop`, that the results are those of `recvLoop`.
-/

namespace DianProtocol.Cpp

/-- The part of the buffer that is compared, when `received` bytes have been received. -/
structure Window where
  start : Int
  length : Nat
  received : Nat
  deriving DecidableEq

/-- Only bytes that have been received are compared. -/
def Window.Inside (w : Window) : Prop :=
  ∀ p, w.start ≤ p → p < w.start + w.length → 0 ≤ p ∧ p < w.received

/-- The memory around the array of the buffer, after each number of bytes, as the array may be a new
one, and behind the characters of the delimiter. -/
structure Outer where
  buffer : Nat → Int → Byte
  delimiter : Nat → Byte

/-- The memory at the array that holds `data`. -/
def around (outside : Int → Byte) (data : Str) (p : Int) : Byte :=
  if 0 ≤ p ∧ p < data.length then data.getD p.toNat nul else outside p

/-- The memory at `str.c_str()`. -/
def Outer.c_str (outer : Outer) (delim : Str) (i : Nat) : Byte :=
  if i < delim.length then delim.getD i nul else outer.delimiter i

/-- `memcmp(a + start, b, n) == 0` -/
def memcmpEq (a : Int → Byte) (start : Int) (b : Nat → Byte) (n : Nat) : Bool :=
  (List.range n).all fun i => a (start + i) = b i

/-- The loop of `socket::recvUntil`: the windows, and the result. -/
def recvWindows (outer : Outer) (delim : Str) (max : Int) :
    Int → Str → List Recv → List Window × Option (Except Int Str × List Recv)
  | recved, data, [] => ([], if recved < max ∨ max = -1 then none else some (.ok data, []))
  | recved, data, r :: rs =>
      if recved < max ∨ max = -1 then
        match r.errcode with
        | some errcode => ([], some (.error errcode, rs))
        | none =>
            let data := data ++ [r.value]
            let recved := int32 (recved + 1)
            let strlen_ := int32 delim.length
            let w : Window := ⟨recved - strlen_, size_t strlen_, data.length⟩
            if memcmpEq (around (outer.buffer data.length) data) w.start (outer.c_str delim)
                w.length then
              ([w], some (.ok data, rs))
            else
              let (ws, res) := recvWindows outer delim max recved data rs
              (w :: ws, res)
      else ([], some (.ok data, r :: rs))

/-- The number of bytes up to the first `d`, the first error or the end. -/
def bytesUpTo (d : Byte) : List Recv → Nat
  | [] => 0
  | r :: rs =>
      match r.errcode with
      | some _ => 0
      | none => if r.value = d then 1 else bytesUpTo d rs + 1

/-- A byte is received. -/
def Receives (max : Int) (rs : List Recv) : Prop :=
  (0 < max ∨ max = -1) ∧ ∃ r rs', rs = r :: rs' ∧ r.errcode = none

/-- Nothing is received, or nothing is compared, or single bytes are, and their number is an `int`.
-/
def WindowFits (delim : Str) (max : Int) (rs : List Recv) : Prop :=
  ¬ Receives max rs ∨ int32 delim.length = 0 ∨
    (int32 delim.length = 1 ∧ (max = -1 → bytesUpTo (delim.headD nul) rs < 2 ^ 31))

/-! ## The windows -/

section

variable {outer : Outer} {delim data : Str} {max recved : Int} {r : Recv} {rs : List Recv}

/-- The window behind the next byte. -/
def nextWindow (delim data : Str) (recved : Int) : Window :=
  ⟨int32 (recved + 1) - int32 delim.length, size_t (int32 delim.length), data.length + 1⟩

theorem recvWindows_byte (hgo : recved < max ∨ max = -1) (hr : r.errcode = none) :
    recvWindows outer delim max recved data (r :: rs) =
      if memcmpEq (around (outer.buffer (data.length + 1)) (data ++ [r.value]))
          (nextWindow delim data recved).start (outer.c_str delim)
          (nextWindow delim data recved).length then
        ([nextWindow delim data recved], some (.ok (data ++ [r.value]), rs))
      else
        (nextWindow delim data recved ::
            (recvWindows outer delim max (int32 (recved + 1)) (data ++ [r.value]) rs).1,
          (recvWindows outer delim max (int32 (recved + 1)) (data ++ [r.value]) rs).2) := by
  have hlen : (data ++ [r.value]).length = data.length + 1 := by simp
  rw [recvWindows, if_pos hgo, hr]
  simp only [hlen]
  rfl

theorem recvWindows_none (h : ¬ ((recved < max ∨ max = -1) ∧ ∃ r rs', rs = r :: rs' ∧
    r.errcode = none)) : (recvWindows outer delim max recved data rs).1 = [] := by
  cases rs with
  | nil => rfl
  | cons r rs =>
      rw [recvWindows]
      split
      · rename_i hgo
        cases hr : r.errcode with
        | some errcode => rfl
        | none => exact absurd ⟨hgo, r, rs, rfl, hr⟩ h
      · rfl

theorem int32_range (n : Int) : -2 ^ 31 ≤ int32 n ∧ int32 n < 2 ^ 31 := by
  have hlow := BitVec.le_toInt (BitVec.ofInt 32 n)
  have hhigh := BitVec.toInt_lt (x := BitVec.ofInt 32 n)
  simp only [int32]
  omega

theorem size_t_eq {n : Int} (hlow : -2 ^ 63 ≤ n) (hhigh : n < 2 ^ 63) :
    (size_t n : Int) = if 0 ≤ n then n else n + 2 ^ 64 := by
  unfold size_t
  split
  · omega
  · omega

/-- Windows of a length other than 0 and 1 do not fit behind the first byte. -/
theorem first_window_outside (h0 : int32 delim.length ≠ 0) (h1 : int32 delim.length ≠ 1) :
    ¬ (nextWindow delim [] 0).Inside := by
  intro hinside
  have hrange := int32_range delim.length
  have hsize := size_t_eq (n := int32 delim.length) (by omega) (by omega)
  have hone : int32 (0 + 1) = 1 := by decide
  have hstart := hinside (nextWindow delim [] 0).start (le_refl _)
  simp only [nextWindow, hone, List.length_nil] at hstart
  split at hsize
  · have hbad := hstart (by omega)
    omega
  · have hbad := hstart (by omega)
    omega

/-- A window of one byte lies on the byte that has been received last. -/
theorem single_window (h1 : int32 delim.length = 1) (hrecved : recved = data.length)
    (hlt : recved + 1 < 2 ^ 31) : (nextWindow delim data recved).Inside := by
  have hsize : size_t 1 = 1 := by decide
  have hnext : int32 (recved + 1) = recved + 1 := int32_of_bounds (by omega) hlt
  intro p hlow hhigh
  simp only [nextWindow, h1, hsize, hnext] at hlow hhigh
  refine ⟨by omega, ?_⟩
  show p < ((data.length + 1 : Nat) : Int)
  omega

/-- The byte that makes the counter overflow is compared in front of the buffer. -/
theorem overflow_window (h1 : int32 delim.length = 1) (hover : recved + 1 = 2 ^ 31) :
    ¬ (nextWindow delim data recved).Inside := by
  intro hinside
  have hsize : size_t 1 = 1 := by decide
  have hnext : int32 (2 ^ 31) = -2 ^ 31 := by decide
  have hbad := hinside (nextWindow delim data recved).start (le_refl _)
    (by simp only [nextWindow, h1, hsize]; omega)
  simp only [nextWindow, h1, hover, hnext] at hbad
  omega

/-- A window of one byte compares it with the first byte of the delimiter. -/
theorem matches_single (h1 : int32 delim.length = 1) (hrecved : recved = data.length)
    (hlt : recved + 1 < 2 ^ 31) (r : Recv) :
    memcmpEq (around (outer.buffer (data.length + 1)) (data ++ [r.value]))
        (nextWindow delim data recved).start (outer.c_str delim)
        (nextWindow delim data recved).length = true ↔ r.value = delim.headD nul := by
  have hsize : size_t 1 = 1 := by decide
  have hnext : int32 (recved + 1) = recved + 1 := int32_of_bounds (by omega) hlt
  have hstart : (nextWindow delim data recved).start = data.length := by
    simp only [nextWindow, h1, hnext]
    omega
  have hlength : (nextWindow delim data recved).length = 1 := by
    simp only [nextWindow, h1, hsize]
  have hlast : around (outer.buffer (data.length + 1)) (data ++ [r.value]) data.length =
      r.value := by
    rw [around, if_pos ⟨by omega, by simp⟩]
    simp
  have hfirst : outer.c_str delim 0 = delim.headD nul := by
    cases delim with
    | nil =>
        rw [List.length_nil] at h1
        exact absurd h1 (by decide)
    | cons c delim => rfl
  rw [hstart, hlength, memcmpEq]
  simp [hlast, hfirst]

/-- The windows of a run that compares single bytes, from `recved` bytes on. -/
theorem single_windows_iff (h1 : int32 delim.length = 1) (hmax : max < 2 ^ 31)
    (hrecved : recved = data.length) (hlt : recved < 2 ^ 31) :
    (∀ w ∈ (recvWindows outer delim max recved data rs).1, w.Inside) ↔
      (max = -1 → recved + bytesUpTo (delim.headD nul) rs < 2 ^ 31) := by
  induction rs generalizing recved data with
  | nil =>
      rw [recvWindows_none (by simp)]
      simp [bytesUpTo]
      omega
  | cons r rs ih =>
      by_cases hgo : recved < max ∨ max = -1
      · cases hr : r.errcode with
        | some errcode =>
            -- an error ends the run without a window
            rw [recvWindows_none (by simp [hr])]
            simp [bytesUpTo, hr]
            omega
        | none =>
            by_cases hover : recved + 1 = 2 ^ 31
            · -- only without a limit does the counter get so far
              have hmax1 : max = -1 := by omega
              refine iff_of_false (fun h => ?_) (fun h => ?_)
              · apply overflow_window h1 hover
                apply h
                rw [recvWindows_byte hgo hr]
                split
                · exact List.mem_singleton_self _
                · exact List.mem_cons_self
              · have hsmall := h hmax1
                rw [bytesUpTo, hr] at hsmall
                dsimp only at hsmall
                split at hsmall
                · omega
                · omega
            · have hnext : int32 (recved + 1) = recved + 1 := int32_of_bounds (by omega) (by omega)
              have hinside := single_window h1 hrecved (show recved + 1 < 2 ^ 31 by omega)
              have hlen : recved + 1 = (data ++ [r.value]).length := by
                rw [hrecved]
                simp
              rw [recvWindows_byte hgo hr, bytesUpTo, hr]
              dsimp only
              by_cases hmatch : r.value = delim.headD nul
              · rw [if_pos ((matches_single h1 hrecved (by omega) r).mpr hmatch), if_pos hmatch]
                simp [hinside]
                omega
              · rw [if_neg (fun h => hmatch ((matches_single h1 hrecved (by omega) r).mp h)),
                  if_neg hmatch, List.forall_mem_cons, and_iff_right hinside, hnext,
                  ih hlen (by omega)]
                apply imp_congr_right
                intro _
                push_cast
                omega
      · rw [recvWindows_none (fun h => hgo h.1)]
        simp
        omega

end

/-- **When the match window stays inside**: exactly when nothing is received, or the length of the
delimiter is 0 as an `int`, or it is 1 and the counter does not overflow. -/
theorem windows_inside_iff (outer : Outer) (delim : Str) {max : Int} (hmax : max < 2 ^ 31)
    (rs : List Recv) :
    (∀ w ∈ (recvWindows outer delim max 0 [] rs).1, w.Inside) ↔ WindowFits delim max rs := by
  by_cases hreceives : Receives max rs
  · obtain ⟨hgo, r, rs, rfl, hr⟩ := hreceives
    have hreceives : Receives max (r :: rs) := ⟨hgo, r, rs, rfl, hr⟩
    by_cases h0 : int32 delim.length = 0
    · have hwindow : (nextWindow delim [] 0).length = 0 := by
        simp only [nextWindow, h0]
        decide
      refine iff_of_true ?_ (Or.inr (Or.inl h0))
      rw [recvWindows_byte hgo hr, hwindow, if_pos (by simp [memcmpEq])]
      intro w hw
      rw [List.mem_singleton.mp hw]
      intro p hlow hhigh
      rw [hwindow] at hhigh
      omega
    · by_cases h1 : int32 delim.length = 1
      · rw [single_windows_iff h1 hmax (by simp) (by omega)]
        simp [WindowFits, hreceives, h1]
      · refine iff_of_false (fun h => ?_) (by simp [WindowFits, hreceives, h0, h1])
        apply first_window_outside h0 h1
        apply h
        rw [recvWindows_byte hgo hr]
        split
        · exact List.mem_singleton_self _
        · exact List.mem_cons_self
  · refine iff_of_true ?_ (Or.inl hreceives)
    rw [recvWindows_none hreceives]
    simp

/-- A NUL everywhere around the buffer. -/
def zeros : Outer := ⟨fun _ _ => nul, fun _ => nul⟩

/-- With the delimiter `\n` all windows lie in what has been received. -/
theorem windows_inside_lf :
    WindowFits [lf] (-1) [.byte 97, .byte lf] ∧
      ∀ w ∈ (recvWindows zeros [lf] (-1) 0 [] [.byte 97, .byte lf]).1, w.Inside := by
  have hfits : WindowFits [lf] (-1) [.byte 97, .byte lf] :=
    Or.inr (Or.inr ⟨by decide, fun _ => by decide⟩)
  exact ⟨hfits, (windows_inside_iff zeros [lf] (by decide) [.byte 97, .byte lf]).mpr hfits⟩

/-- With the delimiter `\r\n` the first window starts in front of the buffer, and a CR that lies
there ends the line. -/
theorem windows_outside_crlf :
    (∃ w ∈ (recvWindows zeros crlf 1024 0 [] [.byte lf]).1, w.start = -1 ∧ ¬ w.Inside) ∧
      (recvWindows zeros crlf 1024 0 [] [.byte lf]).2 ≠
        (recvWindows ⟨fun _ _ => cr, fun _ => nul⟩ crlf 1024 0 [] [.byte lf]).2 := by
  refine ⟨⟨⟨-1, 2, 1⟩, by decide, rfl, fun h => ?_⟩, by decide⟩
  have hbad := (h (-1) (le_refl _) (by decide)).1
  exact absurd hbad (by decide)

/-! ## The results -/

section

variable {outer : Outer} {before delim data : Str} {max : Int} {rs : List Recv}

/-- `before` lies in front of the buffer, whatever has been received. -/
def Outer.Front (outer : Outer) (before : Str) : Prop :=
  ∀ n i, i < before.length → before[i]? = some (outer.buffer n ((i : Int) - before.length))

/-- The comparison of the last bytes is the test for a suffix. -/
theorem memcmpEq_suffix (hfront : outer.Front before) {n : Nat}
    (hle : delim.length ≤ before.length + data.length) :
    memcmpEq (around (outer.buffer n) data) ((data.length : Int) - delim.length)
      (outer.c_str delim) delim.length = true ↔ delim <:+ before ++ data := by
  have hbyte : ∀ i < delim.length,
      (before ++ data)[before.length + data.length - delim.length + i]? =
        some (around (outer.buffer n) data ((data.length : Int) - delim.length + i)) := by
    intro i hi
    by_cases hin : before.length + data.length - delim.length + i < before.length
    · have hpos : ¬ (0 ≤ (data.length : Int) - delim.length + i ∧
          (data.length : Int) - delim.length + i < data.length) := by omega
      rw [List.getElem?_append_left hin, hfront n _ hin, around, if_neg hpos]
      congr 2
      omega
    · have hpos : 0 ≤ (data.length : Int) - delim.length + i ∧
          (data.length : Int) - delim.length + i < data.length := by omega
      have hindex : ((data.length : Int) - delim.length + i).toNat =
          before.length + data.length - delim.length + i - before.length := by omega
      have hlt : before.length + data.length - delim.length + i - before.length < data.length := by
        omega
      rw [List.getElem?_append_right (by omega), around, if_pos hpos, hindex,
        List.getD_eq_getElem?_getD, List.getElem?_eq_getElem hlt, Option.getD_some]
  have hc_str : ∀ i < delim.length, delim[i]? = some (outer.c_str delim i) := by
    intro i hi
    rw [Outer.c_str, if_pos hi, List.getD_eq_getElem?_getD, List.getElem?_eq_getElem hi,
      Option.getD_some]
  rw [List.suffix_iff_eq_drop, memcmpEq, List.all_eq_true]
  simp only [List.mem_range, decide_eq_true_eq]
  constructor
  · intro h
    apply List.ext_getElem?
    intro i
    rw [List.getElem?_drop, List.length_append]
    by_cases hi : i < delim.length
    · rw [hbyte i hi, hc_str i hi, h i hi]
    · rw [List.getElem?_eq_none (by omega), List.getElem?_eq_none (by simp; omega)]
  · intro h i hi
    have hget := congrArg (fun l => l[i]?) h
    simp only [List.getElem?_drop, List.length_append] at hget
    rw [hc_str i hi, hbyte i hi] at hget
    exact (Option.some.inj hget).symm

/-- With a front that is long enough, and numbers that fit, the results are those of `recvLoop`. -/
theorem recvWindows_eq_recvLoop (hfront : outer.Front before)
    (hlong : delim.length ≤ before.length + 1) (hdelim : delim.length < 2 ^ 31)
    (hfits : data.length + rs.length < 2 ^ 31) :
    (recvWindows outer delim max data.length data rs).2 =
      recvLoop before delim (leftOf max data.length) data rs := by
  induction rs generalizing data with
  | nil =>
      rw [recvWindows]
      by_cases hgo : (data.length : Int) < max ∨ max = -1
      · rw [if_pos hgo, recvLoop]
        exact leftOf_ne_zero hgo
      · rw [if_neg hgo, leftOf_zero hgo]
        rfl
  | cons r rs ih =>
      rw [List.length_cons] at hfits
      by_cases hgo : (data.length : Int) < max ∨ max = -1
      · have hleft := leftOf_ne_zero hgo
        cases hr : r.errcode with
        | some errcode =>
            obtain rfl : r = .error errcode := by
              cases r with
              | byte c => cases hr
              | closed => cases hr
              | error e =>
                  cases hr
                  rfl
            rw [recvWindows, if_pos hgo, recvLoop]
            · rfl
            · exact hleft
        | none =>
            have hbyte : ∀ errcode, r ≠ .error errcode := by
              rintro errcode rfl
              cases hr
            have hnext : int32 ((data.length : Int) + 1) = ((data ++ [r.value]).length : Nat) := by
              rw [int32_of_bounds (by omega) (by omega)]
              simp
            have hlen : int32 delim.length = delim.length := int32_of_bounds (by omega) (by omega)
            have hsize : size_t delim.length = delim.length :=
              size_t_of_nonneg (by omega) (by omega)
            have hcount : (data ++ [r.value]).length = data.length + 1 := by simp
            have hmatch := @memcmpEq_suffix outer before delim (data ++ [r.value]) hfront
              (data ++ [r.value]).length (by omega)
            rw [recvWindows_byte hgo hr, recvLoop_byte hleft hbyte, leftOf_succ, ← hcount,
              ← ih (by omega)]
            simp only [nextWindow, hnext, hlen, hsize, ← hcount]
            by_cases hsuffix : delim <:+ before ++ (data ++ [r.value])
            · rw [if_pos (hmatch.mpr hsuffix), if_pos hsuffix]
            · rw [if_neg (fun h => hsuffix (hmatch.mp h)), if_neg hsuffix]
      · rw [recvWindows, if_neg hgo, leftOf_zero hgo]
        rfl

end

end DianProtocol.Cpp
