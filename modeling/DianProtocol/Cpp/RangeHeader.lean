import DianProtocol.Cpp.Numbers
import DianProtocol.Cpp.PlayCallback

set_option autoImplicit false

/-! # The values of the header `Range`

What the play callback should answer is read off the value: it is malformed, or it names an interval
that reaches beyond the file, or one that can be served. The callback scans for the `-` with a
pointer that is increased before it is tested, takes an end that is missing for a malformed value,
and leaves both numbers to `std::stoi`. `range_classified_iff` says for which values its answer is
the right one.
-/

namespace DianProtocol.Cpp

open Concurrent
open Exc (vars assign throw)

/-! ## The right answer -/

/-- The intervals that a value can name: their start, and their end if there is one. -/
inductive Interval : Str → Nat → Option Nat → Prop where
  | closed {s e : Str} : Decimal s → Decimal e → digitsVal s ≤ digitsVal e →
      Interval (str "npt=" ++ (s ++ 45 :: e)) (digitsVal s) (some (digitsVal e))
  | toEnd {s : Str} : Decimal s → Interval (str "npt=" ++ (s ++ [45])) (digitsVal s) none

/-- The status of the answer, for a file of `n` bytes. -/
inductive StatusOf (n : Nat) (range : Str) : Int → Prop where
  | malformed : (∀ s e, ¬ Interval range s e) → StatusOf n range 400
  | beyond {s : Nat} {e : Option Nat} : Interval range s e →
      (n ≤ s ∨ ∃ last, e = some last ∧ n ≤ last) → StatusOf n range 416
  | inside {s : Nat} {e : Option Nat} : Interval range s e → s < n →
      (∀ last, e = some last → last < n) → StatusOf n range 206

/-- The place of the last character that the scan for the `-` looks at. -/
def scanReads (machine : Machine) (range : Str) : Nat :=
  (scanTo 45 (range.drop 4 ++ nul :: machine.beyond)).1.length

/-- The callback is asked for a range of `file`. -/
structure AsksRange (machine : Machine) (x : Locals) (file : File) (range : Str) : Prop where
  file : ∃ uri, getURI x.request.url = .ok uri ∧ machine.files (filepath machine uri) = some file
  range : x.request.headers[str "Range"]? = some range
  sended : x.response.sended = false
  body : x.response.body = none

/-- The callback reads no character behind the NUL that ends the value, throws nothing, answers with
the right status, and serves an interval without an end up to the end of the file. -/
structure Classified (machine : Machine) (memory : Nat → Junk) (x : Locals) (file : File)
    (range : Str) : Prop where
  reads : str "npt=" <+: range → scanReads machine range ≤ (range.drop 4).length
  answers : ∃ res, answered ((pcallback machine memory).run x) = some res ∧
    StatusOf file.bytes.length range res.status
  returns : ∀ bytes result, Sends ((pcallback machine memory).run x) bytes result →
    result.1 = .ok ()
  served : ∀ s, Interval range s none → s < file.bytes.length → ∃ x',
    Sends ((pcallback machine memory).run x)
      (x'.response.unparseHead ++ file.bytes.drop s) (.ok (), x')

/-! ## The scan -/

/-- The parts of a value in front of its first `-` and behind it, where the scan finds them. -/
structure Parts (rest s e : Str) : Prop where
  text : rest = s ++ 45 :: e
  no_dash : 45 ∉ s
  no_nul : nul ∉ s.tail
  next : e.headD nul ≠ nul

theorem scanTo_dash {s : Str} (hdash : 45 ∉ s) (hnul : nul ∉ s.tail) (tmp : Str) :
    scanTo 45 (s ++ 45 :: tmp) = (s ++ [45], tmp) := by
  induction s with
  | nil => simp [scanTo]
  | cons c s ih =>
      have hc : c ≠ 45 := fun heq => hdash (by simp [heq])
      have hnext : (s ++ 45 :: tmp).headD nul ≠ nul := by
        cases s with
        | nil => exact (by decide : (45 : Byte) ≠ nul)
        | cons d s => exact fun heq => hnul (by simp [show d = nul from heq])
      rw [List.cons_append, scanTo, if_pos ⟨hc, hnext⟩,
        ih (fun hmem => hdash (by simp [hmem])) fun hmem => hnul (List.mem_of_mem_tail hmem)]
      rfl

/-- Without a `-` in front of a NUL the scan stops at the NUL, and does not pass it. -/
theorem scanTo_no_dash {rest : Str} (hne : rest ≠ [])
    (hno : ∀ s e, rest = s ++ 45 :: e → 45 ∉ s → nul ∈ s.tail) (tmp : Str) :
    (scanTo 45 (rest ++ nul :: tmp)).1.length ≤ rest.length ∧
      (scanTo 45 (rest ++ nul :: tmp)).2.headD nul = nul := by
  induction rest with
  | nil => exact absurd rfl hne
  | cons c rest ih =>
      have hc : c ≠ 45 := by
        rintro rfl
        exact absurd (hno [] rest rfl (by simp)) (by simp)
      rw [List.cons_append, scanTo]
      by_cases hnext : (rest ++ nul :: tmp).headD nul = nul
      · rw [if_neg fun h => h.2 hnext]
        exact ⟨by simp, hnext⟩
      · rw [if_pos ⟨hc, hnext⟩]
        have hrest : rest ≠ [] := by
          rintro rfl
          exact hnext rfl
        obtain ⟨hlen, hhead⟩ := ih hrest fun s e heq hdash => by
          have hmem := hno (c :: s) e (by rw [heq]; rfl) (by simp [hdash, hc.symm])
          cases s with
          | nil => exact absurd hmem (by simp)
          | cons d s =>
              rcases List.mem_cons.mp hmem with hd | hs
              · rw [heq, ← hd] at hnext
                exact absurd rfl hnext
              · exact hs
        dsimp only
        exact ⟨by simpa using hlen, hhead⟩

theorem token_parts {rest s e : Str} (h : Parts rest s e) (tmp : Str) :
    token 45 (rest ++ nul :: tmp) = some (s, e ++ nul :: tmp) := by
  have hhead : (e ++ nul :: tmp).headD nul ≠ nul := by
    have hnext := h.next
    cases e with
    | nil => exact absurd rfl hnext
    | cons d e => exact hnext
  have hsplit : rest ++ nul :: tmp = s ++ 45 :: (e ++ nul :: tmp) := by
    rw [h.text]
    simp
  rw [hsplit, token, scanTo_dash h.no_dash h.no_nul]
  dsimp only
  rw [if_neg hhead, List.dropLast_concat]

theorem token_no_parts {rest : Str} (hne : rest ≠ []) (h : ∀ s e, ¬ Parts rest s e) (tmp : Str) :
    token 45 (rest ++ nul :: tmp) = none := by
  by_cases hdash : ∃ s e, rest = s ++ 45 :: e ∧ 45 ∉ s ∧ nul ∉ s.tail
  · -- nothing stands behind the `-`
    obtain ⟨s, e, heq, hs, hnul⟩ := hdash
    have hhead : (e ++ nul :: tmp).headD nul = nul := by
      by_contra hnext
      cases e with
      | nil => exact hnext rfl
      | cons d e => exact h s (d :: e) ⟨heq, hs, hnul, hnext⟩
    have hsplit : rest ++ nul :: tmp = s ++ 45 :: (e ++ nul :: tmp) := by
      rw [heq]
      simp
    rw [hsplit, token, scanTo_dash hs hnul]
    dsimp only
    rw [if_pos hhead]
  · have hno : ∀ s e, rest = s ++ 45 :: e → 45 ∉ s → nul ∈ s.tail := by
      intro s e heq hs
      by_contra hnul
      exact hdash ⟨s, e, heq, hs, hnul⟩
    rw [token]
    dsimp only
    rw [if_pos (scanTo_no_dash hne hno tmp).2]

/-- The scan stays in the value if and only if something stands behind `npt=`. -/
theorem scanReads_le_iff (machine : Machine) (range : Str) :
    scanReads machine range ≤ (range.drop 4).length ↔ range.drop 4 ≠ [] := by
  unfold scanReads
  generalize range.drop 4 = rest
  constructor
  · rintro hle rfl
    have hpos : 0 < (scanTo 45 (nul :: machine.beyond)).1.length := by
      rw [scanTo]
      split
      · simp
      · simp
    rw [List.length_nil, List.nil_append] at hle
    omega
  · intro hne
    by_cases hdash : ∃ s e, rest = s ++ 45 :: e ∧ 45 ∉ s ∧ nul ∉ s.tail
    · obtain ⟨s, e, heq, hs, hnul⟩ := hdash
      have hsplit : rest ++ nul :: machine.beyond = s ++ 45 :: (e ++ nul :: machine.beyond) := by
        rw [heq]
        simp
      rw [hsplit, scanTo_dash hs hnul, heq]
      simp
    · refine (scanTo_no_dash hne (fun s e heq hs => ?_) machine.beyond).1
      by_contra hnul
      exact hdash ⟨s, e, heq, hs, hnul⟩

/-! ## The numbers -/

theorem stoi_cstr_append (e tmp : Str) : stoi (cstr (e ++ nul :: tmp)) = stoi e := by
  have hfirst : cstr (e ++ nul :: tmp) = cstr e := by
    induction e with
    | nil => rfl
    | cons c e ih =>
        by_cases hc : c = nul
        · simp [cstr, hc]
        · have hstep : ∀ t, cstr (c :: t) = c :: cstr t := fun t =>
            List.takeWhile_cons_of_pos (decide_eq_true hc)
          rw [List.cons_append, hstep, hstep, ih]
  have hagain : cstr (cstr e) = cstr e := List.takeWhile_idem
  rw [hfirst, stoi, hagain]
  rfl

theorem rangeOf_parts {machine : Machine} {range s e : Str} (hpre : str "npt=" <+: range)
    (h : Parts (range.drop 4) s e) :
    rangeOf machine range =
      (stoi s).bind fun start => (stoi e).bind fun end_ => .ok (some (start, end_)) := by
  have hhead : (e ++ nul :: machine.beyond).headD nul ≠ nul := by
    have hnext := h.next
    cases e with
    | nil => exact absurd rfl hnext
    | cons d e => exact hnext
  rw [rangeOf, if_neg (not_not.mpr hpre), token_parts h]
  dsimp only
  rw [if_neg hhead, stoi_cstr_append]

theorem rangeOf_no_parts {machine : Machine} {range : Str} (hne : range.drop 4 ≠ [])
    (h : ∀ s e, ¬ Parts (range.drop 4) s e) : rangeOf machine range = .ok none := by
  rw [rangeOf]
  split
  · rfl
  · rw [token_no_parts hne h]

/-! ## The intervals of a value -/

theorem npt_drop (rest : Str) : (str "npt=" ++ rest).drop 4 = rest := by
  have hlen : (str "npt=").length = 4 := by decide
  rw [← hlen, List.drop_left]

theorem Interval.npt {range : Str} {a : Nat} {b : Option Nat} (h : Interval range a b) :
    str "npt=" <+: range := by
  cases h with
  | closed => exact List.prefix_append _ _
  | toEnd => exact List.prefix_append _ _

theorem Decimal.parts {s e : Str} (hs : Decimal s) (he : Decimal e) : Parts (s ++ 45 :: e) s e where
  text := rfl
  no_dash := hs.not_mem (by decide)
  no_nul := fun hmem => hs.not_mem (by decide) (List.mem_of_mem_tail hmem)
  next := by
    obtain ⟨c, e, rfl⟩ := List.exists_cons_of_ne_nil he.1
    have hc := he.2 c List.mem_cons_self
    rintro rfl
    exact absurd hc (by decide)

theorem dash_unique {s s' e e' : Str} (hs : 45 ∉ s) (hs' : 45 ∉ s')
    (h : s ++ 45 :: e = s' ++ 45 :: e') : s = s' ∧ e = e' := by
  have hfree : ∀ {u : Str}, 45 ∉ u → ∀ c ∈ u, decide (c ≠ 45) = true := by
    intro u hu c hc
    exact decide_eq_true fun heq => hu (heq ▸ hc)
  have hstop : ∀ {u : Str} (c : Byte), (45 :: u).head? = some c → decide (c ≠ 45) = false := by
    intro u c hc
    cases hc
    rfl
  obtain ⟨heq, he⟩ := front_unique (hfree hs) (hfree hs') hstop hstop h
  exact ⟨heq, (List.cons.inj he).2⟩

theorem Parts.unique {rest s s' e e' : Str} (h : Parts rest s e) (h' : Parts rest s' e') :
    s = s' ∧ e = e' := dash_unique h.no_dash h'.no_dash (h.text.symm.trans h'.text)

/-- The interval of a value with a start and something behind the `-`. -/
theorem interval_parts {range s e : Str} (hpre : str "npt=" <+: range)
    (h : Parts (range.drop 4) s e) {a : Nat} {b : Option Nat} :
    Interval range a b ↔ Decimal s ∧ Decimal e ∧ digitsVal s ≤ digitsVal e ∧
      a = digitsVal s ∧ b = some (digitsVal e) := by
  obtain ⟨rest, rfl⟩ := hpre
  rw [npt_drop] at h
  constructor
  · intro hint
    generalize hrange : str "npt=" ++ rest = range at hint
    cases hint with
    | closed hs he hle =>
        obtain rfl := List.append_cancel_left hrange
        obtain ⟨rfl, rfl⟩ := h.unique (hs.parts he)
        exact ⟨hs, he, hle, rfl, rfl⟩
    | @toEnd s' hs =>
        obtain rfl := List.append_cancel_left hrange
        obtain ⟨-, rfl⟩ := dash_unique h.no_dash (hs.not_mem (by decide)) h.text.symm
        exact absurd rfl h.next
  · rintro ⟨hs, he, hle, rfl, rfl⟩
    rw [h.text]
    exact .closed hs he hle

/-- Without an end the interval reaches to the end of the file. -/
theorem interval_no_parts {range : Str} (hpre : str "npt=" <+: range)
    (h : ∀ s e, ¬ Parts (range.drop 4) s e) {a : Nat} {b : Option Nat} :
    Interval range a b ↔ ∃ s, range.drop 4 = s ++ [45] ∧ Decimal s ∧ a = digitsVal s ∧
      b = none := by
  obtain ⟨rest, rfl⟩ := hpre
  rw [npt_drop] at h ⊢
  constructor
  · intro hint
    generalize hrange : str "npt=" ++ rest = range at hint
    cases hint with
    | closed hs he hle =>
        obtain rfl := List.append_cancel_left hrange
        exact absurd (hs.parts he) (h _ _)
    | @toEnd s hs =>
        obtain rfl := List.append_cancel_left hrange
        exact ⟨s, rfl, hs, rfl, rfl⟩
  · rintro ⟨s, rfl, hs, rfl, rfl⟩
    exact .toEnd hs

/-! ## What the callback answers -/

/-- The status of the callback's answer for two numbers. -/
def intervalStatus (n : Nat) (start end_ : Int) : Int :=
  if end_ < start ∧ end_ ≠ -1 then 400
  else if size_t start > n ∨ size_t end_ > n then 416 else 206

/-- The program sends one response, with this status, and throws nothing. -/
def AnswersWith (p : Prog Actions (Except Exn Unit × Locals)) (status : Int) : Prop :=
  (∃ res, answered p = some res ∧ res.status = status) ∧
    ∀ bytes result, Sends p bytes result → result.1 = .ok ()

theorem answersWith_status {x : Locals} (hsended : x.response.sended = false)
    (hbody : x.response.body = none) (status : Int) (reason : String) :
    AnswersWith ((do
      setStatus status reason
      send .handle).run x) status := by
  rw [setStatus_bind, send_run, if_neg (by simp [hsended])]
  dsimp only
  rw [hbody]
  refine ⟨⟨_, rfl, rfl⟩, fun bytes result h => ?_⟩
  cases h with
  | send h =>
      cases h
      rfl

theorem AsksRange.run {machine : Machine} {x : Locals} {file : File} {range : Str}
    (h : AsksRange machine x file range) (memory : Nat → Junk) :
    (pcallback machine memory).run x =
      match rangeOf machine range with
      | .error e => (throw e : Handler Unit).run x
      | .ok none => (do
          setStatus 400 "Bad Request"
          send .handle).run x
      | .ok (some (start, end_)) =>
          (sendInterval memory (rangeStream machine file) range start end_).run x := by
  obtain ⟨uri, huri, hfile⟩ := h.file
  unfold pcallback
  rw [Exc.run_vars_bind]
  simp only [huri, hfile, h.range, rangeStream]
  rcases rangeOf machine range with e | - | ⟨start, end_⟩
  · rfl
  · rfl
  · rfl

/-- A body of known length is sent behind its head. -/
theorem answersWith_body {x : Locals} {body : StreamReader} {n : Nat}
    (hsended : x.response.sended = false) (hbody : x.response.body = some body)
    (hlen : body.maxlen = some n) : AnswersWith ((send .handle).run x) x.response.status := by
  constructor
  · rw [send_run, if_neg (by simp [hsended]), hbody]
    dsimp only
    rw [hlen]
    exact ⟨_, rfl, rfl⟩
  · intro bytes result h
    obtain ⟨content, -, -, hresult⟩ := (sends_iff .handle hsended hbody hlen).mp h
    rw [hresult]

/-- The callback answers two numbers with the status that its tests give. -/
theorem AsksRange.interval {machine : Machine} {x : Locals} {file : File} {range : Str}
    (h : AsksRange machine x file range) {start end_ : Int}
    (hnumbers : rangeOf machine range = .ok (some (start, end_))) (memory : Nat → Junk) :
    AnswersWith ((pcallback machine memory).run x)
      (intervalStatus file.bytes.length start end_) := by
  obtain ⟨hstart, -, hend, hend'⟩ := rangeOf_bounds hnumbers
  have hlt := file.size_lt
  have hrun := h.run memory
  rw [hnumbers] at hrun
  dsimp only at hrun
  unfold intervalStatus
  by_cases horder : end_ < start ∧ end_ ≠ -1
  · rw [hrun, sendInterval, if_pos horder, if_pos horder]
    exact answersWith_status h.sended h.body 400 _
  rw [if_neg horder]
  by_cases hsize : size_t start > file.bytes.length ∨ size_t end_ > file.bytes.length
  · rw [hrun, sendInterval, if_neg horder]
    dsimp only
    rw [filesize_rangeStream, if_pos hsize, if_pos hsize]
    exact answersWith_status h.sended h.body 416 _
  · -- partial content, with a body of known length
    have hasked : Asked machine x file start end_ := ⟨h.file, range, h.range, hnumbers⟩
    have htested := tested_of_passed hlt h.sended ⟨hstart, hend, hend'⟩ horder hsize
    obtain ⟨range', htestedrun⟩ := hasked.run_tested htested
    have hlen : ∃ n, ((rangeReader machine file start end_).body memory).maxlen = some n := by
      by_cases hmax : end_ = 2 ^ 31 - 1
      · subst hmax
        exact ⟨_, rangeReader_maxlen_overflow machine file hstart htested.start_le memory⟩
      · exact ⟨_, rangeReader_maxlen machine file hstart htested.start_le (by omega) memory⟩
    obtain ⟨n, hlen⟩ := hlen
    rw [if_neg hsize, htestedrun memory]
    exact answersWith_body (x := partialVars x (rangeReader machine file start end_) memory range'
      start end_) h.sended rfl hlen

/-- What `rangeOf` throws, the callback throws. -/
theorem AsksRange.thrown {machine : Machine} {x : Locals} {file : File} {range : Str}
    (h : AsksRange machine x file range) {e : Exn} (herror : rangeOf machine range = .error e)
    (memory : Nat → Junk) : answered ((pcallback machine memory).run x) = none := by
  have hrun := h.run memory
  rw [herror] at hrun
  rw [hrun]
  rfl

theorem AsksRange.malformed {machine : Machine} {x : Locals} {file : File} {range : Str}
    (h : AsksRange machine x file range) (hnone : rangeOf machine range = .ok none)
    (memory : Nat → Junk) : AnswersWith ((pcallback machine memory).run x) 400 := by
  have hrun := h.run memory
  rw [hnone] at hrun
  rw [hrun]
  exact answersWith_status h.sended h.body 400 _

/-! ## Which values are answered rightly -/

/-- The value does not start with `npt=`, or something stands behind that, and either no character
follows a `-`, and the value is not a start without an end, or `stoi` takes numbers from both sides
of the first `-`: two decimal numbers the second of which is smaller or is not the size of the file,
or two texts the second of which gives a smaller number other than `-1`. -/
def RangeHandled (range : Str) (n : Nat) : Prop :=
  ¬ str "npt=" <+: range ∨ range.drop 4 ≠ [] ∧
    (((∀ s e, ¬ Parts (range.drop 4) s e) ∧ ∀ s, range.drop 4 = s ++ [45] → ¬ Decimal s) ∨
      ∃ s e start last, Parts (range.drop 4) s e ∧ Numeral s start ∧ start < 2 ^ 31 ∧
        Numeral e last ∧ -2 ^ 31 ≤ last ∧ last < 2 ^ 31 ∧
        if Decimal s ∧ Decimal e then last < start ∨ last ≠ n else last < start ∧ last ≠ -1)

/-- A right answer to a value without an interval up to the end of the file. -/
theorem AnswersWith.classified {machine : Machine} {memory : Nat → Junk} {x : Locals}
    {file : File} {range : Str} {status : Int}
    (h : AnswersWith ((pcallback machine memory).run x) status)
    (hreads : str "npt=" <+: range → range.drop 4 ≠ [])
    (hstatus : StatusOf file.bytes.length range status)
    (hend : ∀ s, ¬ Interval range s none) : Classified machine memory x file range := by
  obtain ⟨⟨res, hres, rfl⟩, hreturns⟩ := h
  exact ⟨fun hpre => (scanReads_le_iff machine range).mpr (hreads hpre), ⟨res, hres, hstatus⟩,
    hreturns, fun s hs => absurd hs (hend s)⟩

/-- The status of a right answer is the one that the program answers with. -/
theorem Classified.statusOf {machine : Machine} {memory : Nat → Junk} {x : Locals}
    {file : File} {range : Str} {status : Int} (h : Classified machine memory x file range)
    (hanswers : AnswersWith ((pcallback machine memory).run x) status) :
    StatusOf file.bytes.length range status := by
  obtain ⟨res, hres, hstatus⟩ := h.answers
  obtain ⟨⟨res', hres', rfl⟩, -⟩ := hanswers
  rw [hres] at hres'
  cases hres'
  exact hstatus

theorem intervalStatus_natCast {n start last : Nat} (hstart : start < 2 ^ 64)
    (hlast : last < 2 ^ 64) :
    intervalStatus n start last =
      if last < start then 400 else if start > n ∨ last > n then 416 else 206 := by
  have hsize : ∀ k : Nat, k < 2 ^ 64 → size_t k = k := by
    intro k hk
    rw [size_t_of_nonneg (by omega) (by omega), Int.toNat_natCast]
  rw [intervalStatus, hsize start hstart, hsize last hlast]
  by_cases horder : last < start
  · rw [if_pos horder, if_pos (by omega)]
  · rw [if_neg horder, if_neg (by omega)]

theorem StatusOf.eq_206 {n : Nat} {range : Str} (h : StatusOf n range 206) :
    ∃ s e, Interval range s e ∧ s < n ∧ ∀ last, e = some last → last < n := by
  generalize hstatus : (206 : Int) = status at h
  cases h with
  | malformed => cases hstatus
  | beyond => cases hstatus
  | inside hint hstart hend => exact ⟨_, _, hint, hstart, hend⟩

theorem StatusOf.ne_400 {n : Nat} {range : Str} (h : StatusOf n range 400) {s : Nat}
    {e : Option Nat} : ¬ Interval range s e := by
  generalize hstatus : (400 : Int) = status at h
  cases h with
  | malformed hnone => exact hnone s e
  | beyond => cases hstatus
  | inside => cases hstatus

/-- The status for two decimal numbers is right but for an end at the size of the file. -/
theorem statusOf_decimal {range s e : Str} {n : Nat} (hpre : str "npt=" <+: range)
    (h : Parts (range.drop 4) s e) (hs : Decimal s) (he : Decimal e)
    (hstart : digitsVal s < 2 ^ 31) (hlast : digitsVal e < 2 ^ 31) :
    StatusOf n range (intervalStatus n (digitsVal s) (digitsVal e)) ↔
      digitsVal e < digitsVal s ∨ digitsVal e ≠ n := by
  rw [intervalStatus_natCast (by omega) (by omega)]
  by_cases horder : digitsVal e < digitsVal s
  · rw [if_pos horder]
    refine iff_of_true (.malformed fun a b hint => ?_) (Or.inl horder)
    obtain ⟨-, -, hle, -⟩ := (interval_parts hpre h).mp hint
    omega
  have hint : Interval range (digitsVal s) (some (digitsVal e)) :=
    (interval_parts hpre h).mpr ⟨hs, he, by omega, rfl, rfl⟩
  rw [if_neg horder]
  by_cases hbeyond : digitsVal s > n ∨ digitsVal e > n
  · rw [if_pos hbeyond]
    exact iff_of_true (.beyond hint (Or.inr ⟨_, rfl, by omega⟩)) (Or.inr (by omega))
  · rw [if_neg hbeyond]
    constructor
    · intro hstatus
      obtain ⟨a, b, hint', -, hend⟩ := hstatus.eq_206
      obtain ⟨-, -, -, -, rfl⟩ := (interval_parts hpre h).mp hint'
      have hlt := hend _ rfl
      omega
    · intro hright
      refine .inside hint (by omega) fun last hlast' => ?_
      cases hlast'
      omega

/-- Two numbers one of which is not decimal are to be refused. -/
theorem statusOf_lenient {range s e : Str} {n : Nat} (hpre : str "npt=" <+: range)
    (h : Parts (range.drop 4) s e) (hnot : ¬ (Decimal s ∧ Decimal e)) (start last : Int) :
    StatusOf n range (intervalStatus n start last) ↔ last < start ∧ last ≠ -1 := by
  have hnone : ∀ a b, ¬ Interval range a b := by
    intro a b hint
    obtain ⟨hs, he, -⟩ := (interval_parts hpre h).mp hint
    exact hnot ⟨hs, he⟩
  rw [intervalStatus]
  by_cases horder : last < start ∧ last ≠ -1
  · rw [if_pos horder]
    exact iff_of_true (.malformed hnone) horder
  · rw [if_neg horder]
    refine iff_of_false (fun hstatus => ?_) horder
    generalize hvalue : (if size_t start > n ∨ size_t last > n then 416 else 206 : Int) = status
      at hstatus
    cases hstatus with
    | malformed => split at hvalue <;> cases hvalue
    | beyond hint => exact hnone _ _ hint
    | inside hint => exact hnone _ _ hint

theorem Numeral.nonneg {s : Str} {n : Int} (h : Numeral s n) (hminus : 45 ∉ s) : 0 ≤ n := by
  obtain ⟨blanks, sign, digits, rest, rfl, -, -, -, -, rfl⟩ := h
  have hsign : sign ≠ [45] := by
    rintro rfl
    exact hminus (by simp)
  rw [if_neg hsign]
  omega

/-- The numbers of a value with a start and something behind the `-`. -/
theorem rangeOf_numbers {machine : Machine} {range s e : Str} (hpre : str "npt=" <+: range)
    (h : Parts (range.drop 4) s e) {start last : Int} :
    rangeOf machine range = .ok (some (start, last)) ↔
      Numeral s start ∧ start < 2 ^ 31 ∧ Numeral e last ∧ -2 ^ 31 ≤ last ∧ last < 2 ^ 31 := by
  rw [rangeOf_parts hpre h]
  constructor
  · intro hnumbers
    cases hs : stoi s with
    | error exn =>
        rw [hs] at hnumbers
        cases hnumbers
    | ok start' =>
        cases he : stoi e with
        | error exn =>
            rw [hs, he] at hnumbers
            cases hnumbers
        | ok last' =>
            rw [hs, he] at hnumbers
            cases hnumbers
            obtain ⟨hnumeral, -, hlt⟩ := stoi_ok_iff.mp hs
            exact ⟨hnumeral, hlt, stoi_ok_iff.mp he⟩
  · rintro ⟨hs, hlt, he⟩
    have hnonneg := hs.nonneg h.no_dash
    rw [stoi_ok_iff.mpr ⟨hs, by omega, hlt⟩, stoi_ok_iff.mpr he]
    rfl

theorem rangeOf_ne_none {machine : Machine} {range s e : Str} (hpre : str "npt=" <+: range)
    (h : Parts (range.drop 4) s e) : rangeOf machine range ≠ .ok none := by
  intro hnone
  rw [rangeOf_parts hpre h] at hnone
  cases hs : stoi s with
  | error exn =>
      rw [hs] at hnone
      cases hnone
  | ok start =>
      cases he : stoi e with
      | error exn =>
          rw [hs, he] at hnone
          cases hnone
      | ok last =>
          rw [hs, he] at hnone
          cases hnone

/-- The status for the numbers of a value with a start and something behind the `-`. -/
theorem statusOf_numbers {range s e : Str} {n : Nat} (hpre : str "npt=" <+: range)
    (h : Parts (range.drop 4) s e) {start last : Int} (hs : Numeral s start)
    (hstart : start < 2 ^ 31) (he : Numeral e last) (hlast : last < 2 ^ 31) :
    StatusOf n range (intervalStatus n start last) ↔
      if Decimal s ∧ Decimal e then last < start ∨ last ≠ n else last < start ∧ last ≠ -1 := by
  by_cases hboth : Decimal s ∧ Decimal e
  · rw [if_pos hboth]
    obtain rfl := hs.unique hboth.1.numeral
    obtain rfl := he.unique hboth.2.numeral
    rw [statusOf_decimal hpre h hboth.1 hboth.2 (by omega) (by omega)]
    omega
  · rw [if_neg hboth]
    exact statusOf_lenient hpre h hboth start last

/-- A value with a start and something behind the `-` is classified if both are numbers and the
status for them is right. -/
theorem AsksRange.classified_parts {machine : Machine} {x : Locals} {file : File} {range : Str}
    (h : AsksRange machine x file range) (memory : Nat → Junk) (hpre : str "npt=" <+: range)
    {s e : Str} (hparts : Parts (range.drop 4) s e) :
    Classified machine memory x file range ↔ ∃ start last, Numeral s start ∧ start < 2 ^ 31 ∧
      Numeral e last ∧ -2 ^ 31 ≤ last ∧ last < 2 ^ 31 ∧
        if Decimal s ∧ Decimal e then last < start ∨ last ≠ file.bytes.length
        else last < start ∧ last ≠ -1 := by
  constructor
  · intro hclass
    obtain ⟨res, hres, -⟩ := hclass.answers
    cases hnumbers : rangeOf machine range with
    | error exn =>
        rw [h.thrown hnumbers memory] at hres
        cases hres
    | ok numbers =>
        obtain - | ⟨start, last⟩ := numbers
        · exact absurd hnumbers (rangeOf_ne_none hpre hparts)
        · have hstatus := hclass.statusOf (h.interval hnumbers memory)
          obtain ⟨hs, hstart, he, hmin, hlast⟩ := (rangeOf_numbers hpre hparts).mp hnumbers
          exact ⟨start, last, hs, hstart, he, hmin, hlast,
            (statusOf_numbers hpre hparts hs hstart he hlast).mp hstatus⟩
  · rintro ⟨start, last, hs, hstart, he, hmin, hlast, hright⟩
    have hnumbers : rangeOf machine range = .ok (some (start, last)) :=
      (rangeOf_numbers hpre hparts).mpr ⟨hs, hstart, he, hmin, hlast⟩
    have hrest : range.drop 4 ≠ [] := by
      rw [hparts.text]
      simp
    refine (h.interval hnumbers memory).classified (fun _ => hrest)
      ((statusOf_numbers hpre hparts hs hstart he hlast).mpr hright) fun a hint => ?_
    obtain ⟨-, -, -, -, hend⟩ := (interval_parts hpre hparts).mp hint
    cases hend

/-- A value without anything behind its `-` is classified if it does not ask for the rest of the
file. -/
theorem AsksRange.classified_no_parts {machine : Machine} {x : Locals} {file : File} {range : Str}
    (h : AsksRange machine x file range) (memory : Nat → Junk) (hpre : str "npt=" <+: range)
    (hrest : range.drop 4 ≠ []) (hnone : ∀ s e, ¬ Parts (range.drop 4) s e) :
    Classified machine memory x file range ↔ ∀ s, range.drop 4 = s ++ [45] → ¬ Decimal s := by
  have hanswers := h.malformed (rangeOf_no_parts hrest hnone) memory
  constructor
  · intro hclass s hs hdecimal
    exact (hclass.statusOf hanswers).ne_400
      ((interval_no_parts hpre hnone).mpr ⟨s, hs, hdecimal, rfl, rfl⟩)
  · intro hnot
    have hno : ∀ a b, ¬ Interval range a b := by
      intro a b hint
      obtain ⟨s, hs, hdecimal, -, -⟩ := (interval_no_parts hpre hnone).mp hint
      exact hnot s hs hdecimal
    exact hanswers.classified (fun _ => hrest) (.malformed hno) fun s => hno s none

/-- **Which values of the header `Range` are classified**: those without `npt=` in front, those
without anything behind their `-` that do not ask for the rest of the file either, and those with
two numbers that are both decimal, unless the end is the size of the file, or in the wrong order. -/
theorem range_classified_iff {machine : Machine} {x : Locals} {file : File} {range : Str}
    (h : AsksRange machine x file range) (memory : Nat → Junk) :
    Classified machine memory x file range ↔ RangeHandled range file.bytes.length := by
  by_cases hpre : str "npt=" <+: range
  swap
  · -- no interval
    have hnone : rangeOf machine range = .ok none := by rw [rangeOf, if_pos hpre]
    have hmalformed := StatusOf.malformed (n := file.bytes.length) fun a b hint =>
      hpre (Interval.npt hint)
    refine iff_of_true ?_ (Or.inl hpre)
    exact (h.malformed hnone memory).classified (fun hpre' => absurd hpre' hpre) hmalformed
      fun s hint => hpre hint.npt
  unfold RangeHandled
  rw [or_iff_right (not_not.mpr hpre)]
  by_cases hrest : range.drop 4 = []
  · -- the scan passes the NUL
    refine iff_of_false (fun hclass => ?_) fun hhandled => hhandled.1 hrest
    exact (scanReads_le_iff machine range).mp (hclass.reads hpre) hrest
  rw [and_iff_right hrest]
  by_cases hparts : ∃ s e, Parts (range.drop 4) s e
  · obtain ⟨s, e, hparts⟩ := hparts
    rw [or_iff_right fun hnone => hnone.1 s e hparts, h.classified_parts memory hpre hparts]
    constructor
    · rintro ⟨start, last, hnumbers⟩
      exact ⟨s, e, start, last, hparts, hnumbers⟩
    · rintro ⟨s', e', start, last, hparts', hnumbers⟩
      obtain ⟨rfl, rfl⟩ := hparts.unique hparts'
      exact ⟨start, last, hnumbers⟩
  · have hnone : ∀ s e, ¬ Parts (range.drop 4) s e := fun s e hparts' => hparts ⟨s, e, hparts'⟩
    rw [and_iff_right hnone, h.classified_no_parts memory hpre hrest hnone]
    exact (or_iff_left fun ⟨s, e, _, _, hparts', _⟩ => hnone s e hparts').symm

theorem playVars_asksRange (range : Str) :
    AsksRange testMachine (playVars range) fourBytes range where
  file := by
    have huri : getURI (str "diantp://localhost:664/testfile") =
        .ok ⟨str "localhost", 664, str "/testfile"⟩ := by decide
    exact ⟨_, huri, by decide⟩
  range := Map.getElem?_insert.trans (if_pos rfl)
  sended := rfl
  body := rfl

/-- An interval inside the file. -/
theorem range_classified_inside :
    Classified testMachine (fun _ _ => 0) (playVars (str "npt=1-2")) fourBytes (str "npt=1-2") := by
  have hparts : Parts ((str "npt=1-2").drop 4) [49] [50] :=
    ⟨by decide, by decide, by decide, by decide⟩
  have hone : Decimal [49] := decimal_digit rfl
  have htwo : Decimal [50] := decimal_digit rfl
  refine (range_classified_iff (playVars_asksRange _) _).mpr
    (Or.inr ⟨by decide, Or.inr ⟨_, _, _, _, hparts, hone.numeral, by decide, htwo.numeral,
      by decide, by decide, ?_⟩⟩)
  rw [if_pos ⟨hone, htwo⟩]
  exact Or.inr (by decide)

/-- The rest of the file from its second byte on is refused as malformed. -/
theorem openEnd_refused :
    AsksRange testMachine (playVars (str "npt=1-")) fourBytes (str "npt=1-") ∧
      Interval (str "npt=1-") 1 none ∧
      (∃ res, answered ((pcallback testMachine fun _ _ => 0).run (playVars (str "npt=1-"))) =
        some res ∧ res.status = 400) ∧
      ¬ Classified testMachine (fun _ _ => 0) (playVars (str "npt=1-")) fourBytes
        (str "npt=1-") := by
  have hasked := playVars_asksRange (str "npt=1-")
  have hint : Interval (str "npt=1-") 1 none := Interval.toEnd (s := [49]) (decimal_digit rfl)
  have hnone : rangeOf testMachine (str "npt=1-") = .ok none := by decide
  have hanswers := hasked.malformed hnone fun _ _ => 0
  exact ⟨hasked, hint, hanswers.1, fun hclass => (hclass.statusOf hanswers).ne_400 hint⟩

end DianProtocol.Cpp
