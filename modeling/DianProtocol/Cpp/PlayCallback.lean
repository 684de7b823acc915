import DianProtocol.Cpp.Transmit

set_option autoImplicit false

/-! # The play callback of `server-main`

The callback answers a PLAY with a file, or with the interval of it that the header `Range` asks
for. Both ends of the interval in the header are inclusive; the range reader excludes its end, so
the callback adds one. `partial_sound_iff` says for which files and intervals an answer 206 is
right: an interval that ends at the size of the file passes the callback's test and is announced
with a byte that the file does not have.
-/

namespace DianProtocol.Cpp

open Concurrent
open Exc (vars assign throw)

/-- What the callback depends on besides its arguments: the platform, the files that can be opened,
and the memory behind the characters of the header `Range`. -/
structure Machine where
  _WIN32 : Bool
  files : Str → Option File
  beyond : Str := []

/-- The path of the file for a url. -/
def filepath (machine : Machine) (uri : RtspURI) : Str :=
  let path := str "D:\\Studio\\Dian-Protocol\\src\\cpp\\testfile\\" ++ cstr (uri.path.drop 1)
  if machine._WIN32 then path.map fun c => if c = 47 then 92 else c else path

/-- The numbers of `npt=start-end`; `none` where the callback answers 400. -/
def rangeOf (machine : Machine) (range : Str) : Except Exn (Option (Int × Int)) :=
  if ¬ str "npt=" <+: range then .ok none
  else match token 45 (range.drop 4 ++ nul :: machine.beyond) with
    | none => .ok none
    | some (first, tmp) =>
        (stoi first).bind fun start =>
          (if tmp.headD nul = nul then .ok (-1) else stoi (cstr tmp)).bind fun end_ =>
            .ok (some (start, end_))

/-- The value of an `int` after an addition. -/
def int32 (n : Int) : Int := (BitVec.ofInt 32 n).toInt

/-- `response.body = fsr` -/
def setBody (body : StreamReader) : Handler Unit :=
  assign fun x => { x with response := { x.response with body := some body } }

/-- The value of `Content-Range`. -/
def contentRange (start end_ : Int) (size : Nat) : Str :=
  str "bytes " ++ to_stringInt start ++ str "-"
    ++ to_string (if end_ = -1 then size else size_t end_) ++ str "/" ++ to_string size

/-- The callback from the numbers of the range on. -/
def sendInterval (memory : Nat → Junk) (stream : IFStream) (range : Str) (start end_ : Int) :
    Handler Unit := do
  if end_ < start ∧ end_ ≠ -1 then
    setStatus 400 "Bad Request"
    send .handle
  else
    let fsr := RangeFileStreamReader.of stream (size_t start) (size_t (int32 (end_ + 1)))
    -- `int` against `size_t`
    if size_t start > fsr.filesize ∨ size_t end_ > fsr.filesize then
      setStatus 416 "Requested Range Not Satisfiable"
      send .handle
    else
      setBody (fsr.body memory)
      setHeader (str "Range") range
      setHeader (str "Content-Range") (contentRange start end_ fsr.filesize)
      setStatus 206 "Partial Content"
      send .handle

/-- `pcallback` -/
def pcallback (machine : Machine) (memory : Nat → Junk) : Handler Unit := do
  let x ← vars
  match getURI x.request.url with
  | .error e => throw e
  | .ok uri =>
    match machine.files (filepath machine uri) with
    | none =>
        setStatus 404 "Not Found"
        send .handle
    | some file =>
      -- opened without `ios::binary`
      let stream : IFStream := { file := file, text := machine._WIN32 }
      match x.request.headers[str "Range"]? with
      | some range =>
        match rangeOf machine range with
        | .error e => throw e
        | .ok none =>
            setStatus 400 "Bad Request"
            send .handle
        | .ok (some (start, end_)) => sendInterval memory stream range start end_
      | none =>
          setBody ((FileStreamReader.of stream).body memory)
          setStatus 200 "OK"
          send .handle

/-! ## The numbers of the range -/

theorem stoi_bounds {s : Str} {n : Int} (h : stoi s = .ok n) : -2 ^ 31 ≤ n ∧ n < 2 ^ 31 := by
  unfold stoi at h
  split at h
  · cases h
  · split at h
    · rename_i hbounds
      cases h
      exact hbounds
    · cases h

/-- Without a minus sign a number is not negative. -/
theorem stoi_nonneg {s : Str} {n : Int} (h : stoi s = .ok n) (hminus : 45 ∉ s) : 0 ≤ n := by
  have hfirst : ∀ t : Str, (cstr s).dropWhile isspace ≠ 45 :: t := by
    intro t heq
    have hmem : 45 ∈ (cstr s).dropWhile isspace := by
      rw [heq]
      exact List.mem_cons_self
    exact hminus ((List.takeWhile_sublist _).subset ((List.dropWhile_sublist _).subset hmem))
  have hstrtol : ∀ m rest, strtol (cstr s) = some (m, rest) → 0 ≤ m := by
    intro m rest hm
    unfold strtol at hm
    dsimp only at hm
    generalize (cstr s).dropWhile isspace = digits at hfirst hm
    split at hm
    · rename_i t
      exact absurd rfl (hfirst t)
    · split at hm
      · cases hm
      · cases hm
        simp
    · split at hm
      · cases hm
      · cases hm
        simp
  unfold stoi at h
  split at h
  · cases h
  · rename_i hm
    split at h
    · cases h
      exact hstrtol _ _ hm
    · cases h

/-- What is passed in front of the separator does not contain it. -/
theorem token_no_stop {stop : Byte} {cur first tmp : Str} (h : token stop cur = some (first, tmp)) :
    stop ∉ first := by
  have hscan : ∀ cur : Str, stop ∉ (scanTo stop cur).1.dropLast := by
    intro cur
    induction cur with
    | nil => simp [scanTo]
    | cons c cur ih =>
        rw [scanTo]
        split
        · rename_i hon
          dsimp only
          cases hpassed : (scanTo stop cur).1 with
          | nil => simp
          | cons d passed =>
              rw [hpassed] at ih
              rw [List.dropLast_cons_cons, List.mem_cons, not_or]
              exact ⟨fun heq => hon.1 heq.symm, ih⟩
        · simp
  unfold token at h
  dsimp only at h
  split at h
  · cases h
  · cases h
    exact hscan cur

/-- The start is not negative, and the end is an `int`. -/
theorem rangeOf_bounds {machine : Machine} {range : Str} {start end_ : Int}
    (h : rangeOf machine range = .ok (some (start, end_))) :
    0 ≤ start ∧ start < 2 ^ 31 ∧ -2 ^ 31 ≤ end_ ∧ end_ < 2 ^ 31 := by
  unfold rangeOf at h
  split at h
  · cases h
  · split at h
    · cases h
    · rename_i first tmp htoken
      cases hstart : stoi first with
      | error e =>
          rw [hstart] at h
          cases h
      | ok start' =>
          rw [hstart] at h
          cases hend : (if tmp.headD nul = nul then .ok (-1) else stoi (cstr tmp)) with
          | error e =>
              simp only [Except.bind, hend] at h
              cases h
          | ok end' =>
              simp only [Except.bind, hend] at h
              cases h
              refine ⟨stoi_nonneg hstart (token_no_stop htoken), (stoi_bounds hstart).2, ?_⟩
              split at hend
              · cases hend
                decide
              · exact stoi_bounds hend

/-! ## Answers with partial content -/

/-- The request asks for the interval from `start` to `end_` of `file`, as the callback reads it. -/
structure Asked (machine : Machine) (x : Locals) (file : File) (start end_ : Int) : Prop where
  file : ∃ uri, getURI x.request.url = .ok uri ∧ machine.files (filepath machine uri) = some file
  range : ∃ range, x.request.headers[str "Range"]? = some range ∧
    rangeOf machine range = .ok (some (start, end_))

/-- The response whose head a program sends first. -/
def answered {α : Type} : Prog Actions α → Option Response
  | .ret _ => none
  | .act e _ => match e with
    | .send _ x => some x.response
    | _ => none

/-- The answer is right: the interval lies in the file, its length is announced, its bytes are sent
behind the head, and `Content-Range` names it. -/
structure ServesInterval (machine : Machine) (memory : Nat → Junk) (x : Locals) (file : File)
    (start end_ : Int) : Prop where
  start_nonneg : 0 ≤ start
  start_le : start ≤ end_
  end_lt : end_ < file.bytes.length
  sends : ∃ x', Sends ((pcallback machine memory).run x)
      (x'.response.unparseHead ++ (file.bytes.drop start.toNat).take (end_ - start + 1).toNat)
      (.ok (), x') ∧
    x'.response.headers[str "Content-Length"]? = some (to_stringInt (end_ - start + 1)) ∧
    x'.response.headers[str "Content-Range"]? = some (str "bytes " ++ to_stringInt start ++ str "-"
      ++ to_stringInt end_ ++ str "/" ++ to_string file.bytes.length)

/-- The stream and the reader of an interval. -/
def rangeStream (machine : Machine) (file : File) : IFStream :=
  { file := file, text := machine._WIN32 }

def rangeReader (machine : Machine) (file : File) (start end_ : Int) : RangeFileStreamReader where
  file := { rangeStream machine file with pos := start.toNat }
  filesize := file.bytes.length
  start := start.toNat
  end_ := size_t (int32 (end_ + 1))

/-- The variables of the callback when it sends partial content. -/
def partialVars (x : Locals) (fsr : RangeFileStreamReader) (memory : Nat → Junk) (range : Str)
    (start end_ : Int) : Locals :=
  { x with response := { x.response with
      body := some (fsr.body memory)
      headers := (x.response.headers.insert (str "Range") range).insert (str "Content-Range")
        (contentRange start end_ fsr.filesize)
      status := 206
      reason := str "Partial Content" } }

theorem answered_send {site : Site} {x : Locals} {res : Response}
    (h : answered ((send site).run x) = some res) :
    x.response.sended = false ∧ res.status = x.response.status := by
  rw [send_run] at h
  cases hsended : x.response.sended with
  | true =>
      rw [hsended, if_pos rfl] at h
      cases h
  | false =>
      rw [hsended, if_neg (by simp)] at h
      split at h
      · cases h
        exact ⟨rfl, rfl⟩
      · split at h
        · cases h
        · cases h
          exact ⟨rfl, rfl⟩

theorem Asked.run {machine : Machine} {x : Locals} {file : File} {start end_ : Int}
    (h : Asked machine x file start end_) :
    ∃ range, rangeOf machine range = .ok (some (start, end_)) ∧
      ∀ memory, (pcallback machine memory).run x =
        (sendInterval memory (rangeStream machine file) range start end_).run x := by
  obtain ⟨uri, huri, hfile⟩ := h.file
  obtain ⟨range, hrange, hnumbers⟩ := h.range
  refine ⟨range, hnumbers, fun memory => ?_⟩
  unfold pcallback
  rw [Exc.run_vars_bind]
  simp only [huri, hfile, hrange, hnumbers, rangeStream]

theorem filesize_rangeStream (machine : Machine) (file : File) (start end_ : Nat) :
    (RangeFileStreamReader.of (rangeStream machine file) start end_).filesize =
      file.bytes.length := by
  show (FileStreamReader.of (rangeStream machine file)).filesize = _
  rw [FileStreamReader.of_at rfl]
  rfl

/-- What the tests of the callback let through. -/
structure Tested (x : Locals) (file : File) (start end_ : Int) : Prop where
  fresh : x.response.sended = false
  start_nonneg : 0 ≤ start
  start_le : start ≤ end_
  end_int : end_ < 2 ^ 31
  end_le : end_ ≤ file.bytes.length

/-- A negative end does not pass: as a `size_t` it is larger than the size. -/
theorem tested_of_passed {x : Locals} {file : File} {start end_ : Int}
    (hlt : file.bytes.length < 2 ^ 63) (hfresh : x.response.sended = false)
    (hbounds : 0 ≤ start ∧ -2 ^ 31 ≤ end_ ∧ end_ < 2 ^ 31) (horder : ¬ (end_ < start ∧ end_ ≠ -1))
    (hsize : ¬ (size_t start > file.bytes.length ∨ size_t end_ > file.bytes.length)) :
    Tested x file start end_ := by
  obtain ⟨hstart, hlow, hhigh⟩ := hbounds
  have hend : 0 ≤ end_ := by
    by_contra hneg
    have hwrap : size_t end_ = (end_ + 2 ^ 64).toNat := by
      unfold size_t
      omega
    omega
  have hsizet : size_t end_ = end_.toNat := size_t_of_nonneg hend (by omega)
  exact ⟨hfresh, hstart, by omega, hhigh, by omega⟩

/-- An answer 206 has passed the tests of the callback. -/
theorem Asked.tests {machine : Machine} {memory : Nat → Junk} {x : Locals} {file : File}
    {start end_ : Int} {res : Response} (h : Asked machine x file start end_)
    (hres : answered ((pcallback machine memory).run x) = some res) (hstatus : res.status = 206) :
    Tested x file start end_ := by
  obtain ⟨range, hnumbers, hrun⟩ := h.run
  obtain ⟨hstart, -, hend, hend'⟩ := rangeOf_bounds hnumbers
  rw [hrun, sendInterval] at hres
  split at hres
  · -- 400
    obtain ⟨-, heq⟩ := answered_send (x := { x with response :=
      { x.response with status := 400, reason := str "Bad Request" } }) hres
    rw [heq] at hstatus
    cases hstatus
  · rename_i horder
    dsimp only at hres
    split at hres
    · -- 416
      obtain ⟨-, heq⟩ := answered_send (x := { x with response :=
        { x.response with status := 416, reason := str "Requested Range Not Satisfiable" } }) hres
      rw [heq] at hstatus
      cases hstatus
    · rename_i hsize
      rw [filesize_rangeStream] at hsize
      obtain ⟨hfresh, -⟩ := answered_send (x := partialVars x (.of (rangeStream machine file)
        (size_t start) (size_t (int32 (end_ + 1)))) memory range start end_) hres
      exact tested_of_passed file.size_lt hfresh ⟨hstart, hend, hend'⟩ horder hsize

theorem Asked.run_tested {machine : Machine} {x : Locals} {file : File} {start end_ : Int}
    (h : Asked machine x file start end_) (ht : Tested x file start end_) :
    ∃ range, ∀ memory, (pcallback machine memory).run x = (send .handle).run
      (partialVars x (rangeReader machine file start end_) memory range start end_) := by
  obtain ⟨range, -, hrun⟩ := h.run
  obtain ⟨-, hstart, hle, hint, hend⟩ := ht
  have hlt := file.size_lt
  have hstart' : size_t start = start.toNat := size_t_of_nonneg hstart (by omega)
  have hend' : size_t end_ = end_.toNat := size_t_of_nonneg (by omega) (by omega)
  have hreader : RangeFileStreamReader.of (rangeStream machine file) (size_t start)
      (size_t (int32 (end_ + 1))) = rangeReader machine file start end_ := by
    rw [hstart', RangeFileStreamReader.of_at rfl (by show start.toNat ≤ file.bytes.length; omega)]
    rfl
  refine ⟨range, fun memory => ?_⟩
  rw [hrun memory, sendInterval, if_neg (by omega), hreader]
  dsimp only
  have hinside : ¬ (size_t start > (rangeReader machine file start end_).filesize ∨
      size_t end_ > (rangeReader machine file start end_).filesize) := by
    show ¬ (size_t start > file.bytes.length ∨ size_t end_ > file.bytes.length)
    omega
  rw [if_neg hinside]
  rfl

theorem int32_of_bounds {n : Int} (hlow : -2 ^ 31 ≤ n) (hhigh : n < 2 ^ 31) : int32 n = n := by
  rw [int32, BitVec.toInt_ofInt]
  exact Int.bmod_eq_of_le (by omega) (by omega)

theorem to_stringInt_natCast (n : Nat) : to_stringInt n = to_string n := rfl

theorem rangeReader_at (machine : Machine) {file : File} {start : Int} (end_ : Int)
    (h : start ≤ file.bytes.length) :
    (rangeReader machine file start end_).toFileStreamReader.At start.toNat :=
  ⟨rfl, rfl, by show start.toNat ≤ file.bytes.length; omega, rfl⟩

/-- The end of the reader is behind the interval, if the addition does not overflow. -/
theorem rangeReader_end (machine : Machine) (file : File) (start : Int) {end_ : Int}
    (hlow : 0 ≤ end_) (hhigh : end_ < 2 ^ 31 - 1) :
    (rangeReader machine file start end_).end_ = end_.toNat + 1 := by
  show size_t (int32 (end_ + 1)) = _
  rw [int32_of_bounds (by omega) (by omega), size_t_of_nonneg (by omega) (by omega)]
  omega

/-- The length that is announced for an interval. -/
theorem rangeReader_maxlen (machine : Machine) (file : File) {start end_ : Int}
    (hstart : 0 ≤ start) (hle : start ≤ end_) (hhigh : end_ < 2 ^ 31 - 1) (memory : Nat → Junk) :
    ((rangeReader machine file start end_).body memory).maxlen = some (end_ - start + 1).toNat := by
  show knownLength (size_t ((rangeReader machine file start end_).end_ - start.toNat)) = _
  rw [rangeReader_end machine file start (by omega) hhigh, size_t_sub (by omega) (by omega),
    knownLength_of_lt (by omega)]
  congr 1
  omega

/-- Where the addition overflows, the announced length is not that of the interval. -/
theorem rangeReader_maxlen_overflow (machine : Machine) (file : File) {start : Int}
    (hstart : 0 ≤ start) (hle : start ≤ 2 ^ 31 - 1) (memory : Nat → Junk) :
    ((rangeReader machine file start (2 ^ 31 - 1)).body memory).maxlen =
      some (2 ^ 64 - 2 ^ 31 - start.toNat) := by
  have hend : (rangeReader machine file start (2 ^ 31 - 1)).end_ = 2 ^ 64 - 2 ^ 31 := by
    show size_t (int32 (2 ^ 31 - 1 + 1)) = _
    decide
  show knownLength (size_t ((rangeReader machine file start (2 ^ 31 - 1)).end_ - start.toNat)) = _
  rw [hend, size_t_sub (by omega) (by omega), knownLength_of_lt (by omega)]

/-- A sound answer announces the interval's length, and sends the interval from whatever memory. -/
theorem ServesInterval.content {machine : Machine} {memory : Nat → Junk} {x : Locals} {file : File}
    {start end_ : Int} {n : Nat} (hasked : Asked machine x file start end_)
    (htested : Tested x file start end_)
    (hlen : ((rangeReader machine file start end_).body memory).maxlen = some n)
    (h : ServesInterval machine memory x file start end_) :
    (n : Int) = end_ - start + 1 ∧
      Transfers ((rangeReader machine file start end_).body memory).reads
        ((file.bytes.drop start.toNat).take (end_ - start + 1).toNat) := by
  obtain ⟨range, hrun⟩ := hasked.run_tested htested
  obtain ⟨x', hsends, hlength, -⟩ := h.sends
  rw [hrun memory] at hsends
  obtain ⟨content, hcontent, hbytes, hresult⟩ := (sends_iff .handle
    (x := partialVars x (rangeReader machine file start end_) memory range start end_)
    htested.fresh rfl hlen).mp hsends
  cases hresult
  have hnat : end_ - start + 1 = ((end_ - start + 1).toNat : Int) := by
    have hle := htested.start_le
    omega
  have hget : some (to_string n) = some (to_stringInt (end_ - start + 1)) := by
    rw [← hlength]
    exact (Map.getElem?_insert.trans (if_pos rfl)).symm
  rw [hnat, to_stringInt_natCast] at hget
  have heq := to_string_injective (Option.some.inj hget)
  have hslice := List.append_cancel_left hbytes
  rw [hslice]
  exact ⟨by omega, hcontent⟩

/-- If the answer is sound, the end can be increased, and no byte of the interval is altered. -/
theorem Asked.unaltered {machine : Machine} {x : Locals} {file : File} {start end_ : Int}
    (hasked : Asked machine x file start end_) (htested : Tested x file start end_)
    (h : ServesInterval machine (fun _ _ => 0) x file start end_) :
    end_ ≠ 2 ^ 31 - 1 ∧
      (machine._WIN32 = true → ∀ i : Nat, start ≤ i → i ≤ end_ → ¬ Altered file.bytes i) := by
  have hstart := htested.start_nonneg
  have hle := htested.start_le
  have hint := htested.end_int
  have hend := htested.end_le
  have hlt := file.size_lt
  have hmax : end_ ≠ 2 ^ 31 - 1 := by
    rintro rfl
    have hlen := rangeReader_maxlen_overflow machine file hstart hle fun _ _ => 0
    have heq := (ServesInterval.content hasked htested hlen h).1
    omega
  refine ⟨hmax, fun hwin i hi hi' halt => ?_⟩
  -- the first byte that is altered
  have hfirst : ∃ i : Nat, start ≤ i ∧ i ≤ end_ ∧ Altered file.bytes i := ⟨i, hi, hi', halt⟩
  obtain ⟨hlow, hhigh, halt⟩ := Nat.find_spec hfirst
  have hmin := fun j hj => Nat.find_min hfirst (m := j) hj
  generalize Nat.find hfirst = i at hlow hhigh halt hmin
  have hlen := rangeReader_maxlen machine file hstart hle (by omega) fun _ _ => 0
  have hcontent := (ServesInterval.content hasked htested hlen h).2
  have hplain : (rangeReader machine file start end_).file.Plain i := by
    intro _ j hj hj' halt'
    have hj : start.toNat ≤ j := hj
    exact hmin j hj' ⟨by omega, by omega, halt'⟩
  have hend_ := @rangeReader_end machine file start end_ (by omega) (by omega)
  have hend_lt : (rangeReader machine file start end_).end_ < 2 ^ 64 - 1 := by omega
  have hat := @rangeReader_at machine file start end_ (by omega)
  have hdiff := RangeFileStreamReader.not_transfers hat hend_lt hwin (i := i) (by omega)
    (by omega) hplain halt hcontent
  refine hdiff ?_
  rw [List.getElem?_take_of_lt (by omega), List.getElem?_drop]
  congr 1
  omega

/-- The body is the interval when no byte of it is altered. -/
theorem rangeReader_transfers {machine : Machine} {file : File} {start end_ : Int}
    (hstart : 0 ≤ start) (hle : start ≤ end_) (hin : end_ < file.bytes.length)
    (hmax : end_ < 2 ^ 31 - 1)
    (hplain : machine._WIN32 = true → ∀ i : Nat, start ≤ i → i ≤ end_ → ¬ Altered file.bytes i)
    (memory : Nat → Junk) :
    Transfers ((rangeReader machine file start end_).body memory).reads
      ((file.bytes.drop start.toNat).take (end_ - start + 1).toNat) := by
  have hat := @rangeReader_at machine file start end_ (by omega)
  have hend_ := @rangeReader_end machine file start end_ (by omega) (by omega)
  have hclean : (rangeReader machine file start end_).file.Plain
      (rangeReader machine file start end_).end_ := by
    intro hwin j hj hj'
    have hj : start.toNat ≤ j := hj
    rw [hend_] at hj'
    exact hplain hwin j (by omega) (by omega)
  have hcontent := RangeFileStreamReader.transfers hat
    (by rw [hend_]; show _ < 2 ^ 64 - 1; omega) (by rw [hend_]; omega) hclean memory
  have htake : (rangeReader machine file start end_).end_ - start.toNat =
      (end_ - start + 1).toNat := by
    rw [hend_]
    omega
  rwa [htake] at hcontent

/-- The answer to a tested request is sound when no byte of the interval is altered. -/
theorem Asked.serves {machine : Machine} {x : Locals} {file : File} {start end_ : Int}
    (hasked : Asked machine x file start end_) (htested : Tested x file start end_)
    (hin : end_ < file.bytes.length) (hmax : end_ ≠ 2 ^ 31 - 1)
    (hplain : machine._WIN32 = true → ∀ i : Nat, start ≤ i → i ≤ end_ → ¬ Altered file.bytes i)
    (memory : Nat → Junk) : ServesInterval machine memory x file start end_ := by
  have hstart := htested.start_nonneg
  have hle := htested.start_le
  have hint := htested.end_int
  obtain ⟨range, hrun⟩ := hasked.run_tested htested
  have hlen := rangeReader_maxlen machine file hstart hle (by omega) memory
  have hcontent := rangeReader_transfers hstart hle hin (by omega) hplain memory
  let y := partialVars x (rangeReader machine file start end_) memory range start end_
  let y' := { y with response :=
    { announced y.response (end_ - start + 1).toNat with sended := true } }
  refine ⟨hstart, hle, hin, y', ?_, ?_, ?_⟩
  · rw [hrun memory]
    exact (sends_iff .handle (x := y) htested.fresh rfl hlen).mpr ⟨_, hcontent, rfl, rfl⟩
  · have hnat : end_ - start + 1 = ((end_ - start + 1).toNat : Int) := by omega
    rw [hnat, to_stringInt_natCast]
    exact Map.getElem?_insert.trans (if_pos rfl)
  · have hother : ¬ str "Content-Length" = str "Content-Range" := by decide
    have hget : y'.response.headers[str "Content-Range"]? =
        some (contentRange start end_ file.bytes.length) := by
      show ((y.response.headers.insert _ _)[str "Content-Range"]?) = _
      rw [Map.getElem?_insert, if_neg hother]
      exact Map.getElem?_insert.trans (if_pos rfl)
    have hnat : end_ = (end_.toNat : Int) := by omega
    have hsize : to_string (size_t end_) = to_stringInt end_ := by
      rw [size_t_of_nonneg (by omega) (by omega), ← to_stringInt_natCast, ← hnat]
    rw [hget, contentRange, if_neg (by omega), hsize]

/-- **When partial content is right.** An answer 206 is sound, whatever the memory holds, exactly
when the interval ends in the file, its end can be increased, and text mode does not alter it. -/
theorem partial_sound_iff {machine : Machine} {x : Locals} {file : File} {start end_ : Int}
    (hasked : Asked machine x file start end_)
    (h206 : ∃ memory res, answered ((pcallback machine memory).run x) = some res ∧
      res.status = 206) :
    (∀ memory, ServesInterval machine memory x file start end_) ↔
      end_ < file.bytes.length ∧ end_ ≠ 2 ^ 31 - 1 ∧
        (machine._WIN32 = true → ∀ i : Nat, start ≤ i → i ≤ end_ → ¬ Altered file.bytes i) := by
  obtain ⟨memory, res, hres, hstatus⟩ := h206
  have htested := hasked.tests hres hstatus
  constructor
  · intro hsound
    exact ⟨(hsound fun _ _ => 0).end_lt, hasked.unaltered htested (hsound fun _ _ => 0)⟩
  · rintro ⟨hin, hmax, hplain⟩ memory
    exact hasked.serves htested hin hmax hplain memory

/-! ## The last byte of a file -/

/-- A file of four bytes, in the place where the callback looks for it. -/
def fourBytes : File := ⟨[97, 98, 99, 100], by decide⟩

def testMachine : Machine where
  _WIN32 := true
  files := fun path =>
    if path = str "D:\\Studio\\Dian-Protocol\\src\\cpp\\testfile\\testfile" then some fourBytes
    else none

/-- The variables of the callback for a PLAY with a range. -/
def playVars (range : Str) : Locals where
  request :=
    { method := str "PLAY", url := str "diantp://localhost:664/testfile",
      headers := (∅ : Headers).insert (str "Range") range }
  response := {}
  conn := ⟨[], fun _ => []⟩

theorem playVars_asked {range : Str} {start end_ : Int}
    (h : rangeOf testMachine range = .ok (some (start, end_))) :
    Asked testMachine (playVars range) fourBytes start end_ where
  file := by
    have huri : getURI (str "diantp://localhost:664/testfile") =
        .ok ⟨str "localhost", 664, str "/testfile"⟩ := by decide
    exact ⟨_, huri, by decide⟩
  range := ⟨range, Map.getElem?_insert.trans (if_pos rfl), h⟩

theorem playVars_answered {range : Str} {start end_ : Int}
    (h : rangeOf testMachine range = .ok (some (start, end_)))
    (ht : Tested (playVars range) fourBytes start end_) :
    ∃ memory res, answered ((pcallback testMachine memory).run (playVars range)) = some res ∧
      res.status = 206 := by
  obtain ⟨range', hrun⟩ := (playVars_asked h).run_tested ht
  have hlen := rangeReader_maxlen testMachine fourBytes ht.start_nonneg ht.start_le
    (by have hle := ht.end_le; show _ < _; simp [fourBytes] at hle; omega) fun _ _ => 0
  refine ⟨fun _ _ => 0, ?_⟩
  rw [hrun, send_run, if_neg (by simp [partialVars, playVars])]
  have hbody : (partialVars (playVars range) (rangeReader testMachine fourBytes start end_)
      (fun _ _ => 0) range' start end_).response.body =
        some ((rangeReader testMachine fourBytes start end_).body fun _ _ => 0) := rfl
  rw [hbody]
  dsimp only
  rw [hlen]
  exact ⟨_, rfl, rfl⟩

/-- The bytes 1 and 2 of the file. -/
theorem partial_sound_middle :
    ServesInterval testMachine (fun _ _ => 0) (playVars (str "npt=1-2")) fourBytes 1 2 := by
  have hnumbers : rangeOf testMachine (str "npt=1-2") = .ok (some (1, 2)) := by decide
  have htested : Tested (playVars (str "npt=1-2")) fourBytes 1 2 :=
    ⟨rfl, by decide, by decide, by decide, by decide⟩
  have hplain : ∀ i : Nat, (1 : Int) ≤ i → (i : Int) ≤ 2 → ¬ Altered fourBytes.bytes i := by
    intro i hlow hhigh
    have hi : i = 1 ∨ i = 2 := by omega
    rcases hi with rfl | rfl
    · decide
    · decide
  exact (partial_sound_iff (playVars_asked hnumbers) (playVars_answered hnumbers htested)).mpr
    ⟨by decide, by decide, fun _ => hplain⟩ _

/-- An interval that ends behind the last byte passes the tests: four bytes are announced, and
three are sent. -/
theorem partial_past_end :
    Asked testMachine (playVars (str "npt=1-4")) fourBytes 1 4 ∧
      (∃ memory res, answered ((pcallback testMachine memory).run (playVars (str "npt=1-4"))) =
        some res ∧ res.status = 206) ∧
      ¬ ServesInterval testMachine (fun _ _ => 0) (playVars (str "npt=1-4")) fourBytes 1 4 ∧
      ∃ x', Sends ((pcallback testMachine fun _ _ => 0).run (playVars (str "npt=1-4")))
          (x'.response.unparseHead ++ [98, 99, 100]) (.ok (), x') ∧
        x'.response.headers[str "Content-Length"]? = some (to_string 4) := by
  have hnumbers : rangeOf testMachine (str "npt=1-4") = .ok (some (1, 4)) := by decide
  have htested : Tested (playVars (str "npt=1-4")) fourBytes 1 4 :=
    ⟨rfl, by decide, by decide, by decide, by decide⟩
  have hasked := playVars_asked hnumbers
  obtain ⟨range, hrun⟩ := hasked.run_tested htested
  have hlen := rangeReader_maxlen testMachine fourBytes htested.start_nonneg htested.start_le
    (by decide) fun _ _ => 0
  have hplain : (rangeReader testMachine fourBytes 1 4).file.Plain
      (rangeReader testMachine fourBytes 1 4).end_ := by
    intro _ i hlow hhigh halt
    have hall : ∀ i, i < 5 → ¬ Altered fourBytes.bytes i := by decide
    rw [rangeReader_end testMachine fourBytes 1 (by decide) (by decide)] at hhigh
    exact hall i hhigh halt
  have hcontent := RangeFileStreamReader.transfers
    (@rangeReader_at testMachine fourBytes 1 4 (by decide)) (by decide) (by decide) hplain
    fun _ _ => 0
  refine ⟨hasked, playVars_answered hnumbers htested, fun hsound => ?_, ?_⟩
  · exact absurd hsound.end_lt (by decide)
  · let y := partialVars (playVars (str "npt=1-4")) (rangeReader testMachine fourBytes 1 4)
      (fun _ _ => 0) range 1 4
    refine ⟨{ y with response := { announced y.response 4 with sended := true } }, ?_,
      Map.getElem?_insert.trans (if_pos rfl)⟩
    rw [hrun]
    exact (sends_iff .handle (x := y) rfl rfl hlen).mpr ⟨_, hcontent, rfl, rfl⟩

end DianProtocol.Cpp
