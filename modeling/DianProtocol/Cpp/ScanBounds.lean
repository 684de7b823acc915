import DianProtocol.Cpp.Parse

set_option autoImplicit false

/-! # The scanning loops of `parseThis` in memory

`token` scans a text that ends. The loops of the source move a pointer over the receive buffer, in
which anything may lie behind the terminator, and test one character in front of the increment and
one behind it. They are modelled here with the positions that they touch. `scanners_stay_inside`:
no loop starts at the terminator, so none of them passes it; `requestLineAt_eq` and
`headerLineAt_eq`: what they find are the words of `requestLine` and `headerLine`.
-/

namespace DianProtocol.Cpp

/-! ## The loops -/

/-- What a loop does with a position: it reads the character, or moves the pointer there. -/
inductive Touch where
  | read (p : Nat)
  | point (p : Nat)
  deriving DecidableEq

def Touch.pos : Touch → Nat
  | .read p => p
  | .point p => p

/-- `while (*tmp++ != stop && *tmp != '\0');` with the pointer at `tmp`: what it touches, and the
pointer behind it. `fuel` bounds the evaluations of the condition. -/
def scanLoop (memory : Nat → Byte) (stop : Byte) : Nat → Nat → Option (List Touch × Nat)
  | 0, _ => none
  | fuel + 1, tmp =>
      if memory tmp = stop then some ([.read tmp, .point (tmp + 1)], tmp + 1)
      else if memory (tmp + 1) = nul then
        some ([.read tmp, .point (tmp + 1), .read (tmp + 1)], tmp + 1)
      else
        (scanLoop memory stop fuel (tmp + 1)).map fun (touches, tmp') =>
          (.read tmp :: .point (tmp + 1) :: .read (tmp + 1) :: touches, tmp')

/-- A scan from `cur` up to `tmp`; the parser throws when it is refused. -/
structure Scan where
  cur : Nat
  tmp : Nat
  refused : Bool
  deriving DecidableEq

/-- The length of the token, `tmp - cur - 1`. -/
def Scan.length (s : Scan) : Int := (s.tmp : Int) - s.cur - 1

/-- The scans of a line, one for each separator, up to the first one that is refused. -/
def scanLine (memory : Nat → Byte) (fuel : Nat) :
    List Byte → Nat → Option (List Touch × List Scan)
  | [], _ => some ([], [])
  | stop :: stops, cur =>
      match scanLoop memory stop fuel cur with
      | none => none
      | some (touches, tmp) =>
          -- `if (*tmp == '\0')`
          if memory tmp = nul then some (touches ++ [.read tmp], [⟨cur, tmp, true⟩])
          else
            (scanLine memory fuel stops tmp).map fun (touches', scans) =>
              (touches ++ .read tmp :: touches', ⟨cur, tmp, false⟩ :: scans)

/-- The separators of a request line. -/
def requestStops : List Byte := [space, space, cr]

/-- The separators of a header line. -/
def headerStops : List Byte := [58, cr]

/-- `string(cur, tmp - cur - 1)` -/
def Scan.text (memory : Nat → Byte) (s : Scan) : Str :=
  (List.range s.length.toNat).map fun i => memory (s.cur + i)

/-- The tokens of the scans that have not been refused. -/
def words (memory : Nat → Byte) (scans : List Scan) : List Str :=
  (scans.filter fun s => !s.refused).map (Scan.text memory)

/-- The assignments behind the scans of a request line. -/
def assignRequest (base : Base) : List Str → Base × Option Exn
  | [] => (base, some parseError)
  | [method] => ({ base with method := method }, some parseError)
  | [method, url] => ({ base with method := method, url := url }, some parseError)
  | method :: url :: version :: _ =>
      match sscanf_d_d (cstr version) with
      | none => ({ base with method := method, url := url }, some parseError)
      | some (major, minor) =>
          ({ base with method := method, url := url,
                       version := ⟨BitVec.ofInt 4 major, BitVec.ofInt 4 minor⟩ }, none)

/-- The assignment behind the scans of a header line. -/
def assignHeader (base : Base) : List Str → Base × Option Exn
  | key :: value :: _ =>
      ({ base with headers := base.headers.insert (trim key) (trim value) }, none)
  | _ => (base, some parseError)

/-- The request line, in memory. -/
def requestLineAt (memory : Nat → Byte) (fuel : Nat) (base : Base) : Option (Base × Option Exn) :=
  (scanLine memory fuel requestStops 0).map fun (_, scans) =>
    assignRequest base (words memory scans)

/-- A header line, in memory. -/
def headerLineAt (memory : Nat → Byte) (fuel : Nat) (base : Base) : Option (Base × Option Exn) :=
  (scanLine memory fuel headerStops 0).map fun (_, scans) =>
    assignHeader base (words memory scans)

/-! ## One loop -/

/-- The bytes of a line lie at the front of the buffer, with the terminator behind them. -/
def Holds (memory : Nat → Byte) (data : Str) : Prop :=
  ∀ i ≤ data.length, (data ++ [nul])[i]? = some (memory i)

section

variable {memory : Nat → Byte} {data : Str}

theorem Holds.terminator (h : Holds memory data) : memory data.length = nul := by
  have hlast := h data.length (Nat.le_refl _)
  rw [List.getElem?_concat_length] at hlast
  exact (Option.some.inj hlast).symm

theorem Holds.drop (h : Holds memory data) {i : Nat} (hi : i ≤ data.length) :
    (data ++ [nul]).drop i = memory i :: (data ++ [nul]).drop (i + 1) := by
  obtain ⟨hlt, hget⟩ := List.getElem?_eq_some_iff.mp (h i hi)
  rw [List.drop_eq_getElem_cons hlt, hget]

/-- The text that a loop passes. -/
theorem Holds.take (h : Holds memory data) {i n : Nat} (hn : i + n ≤ data.length + 1) :
    ((data ++ [nul]).drop i).take n = (List.range n).map fun j => memory (i + j) := by
  apply List.ext_getElem?
  intro j
  by_cases hj : j < n
  · rw [List.getElem?_take_of_lt hj, List.getElem?_drop, h (i + j) (by omega),
      List.getElem?_map, List.getElem?_range hj]
    rfl
  · rw [List.getElem?_eq_none (by simp; omega), List.getElem?_eq_none (by simp; omega)]

/-- A loop has gone from `tmp` to `tmp'`, and stayed inside the line. -/
structure Passed (memory : Nat → Byte) (data : Str) (stop : Byte) (tmp tmp' : Nat)
    (touches : List Touch) : Prop where
  lt : tmp < tmp'
  le : tmp' ≤ data.length
  inside : ∀ t ∈ touches, t.pos ≤ data.length
  stopped : memory tmp' ≠ nul → memory (tmp' - 1) = stop
  scanTo : scanTo stop ((data ++ [nul]).drop tmp) =
    (((data ++ [nul]).drop tmp).take (tmp' - tmp), (data ++ [nul]).drop tmp')

/-- A loop that starts in front of the terminator ends there at the latest. -/
theorem scanLoop_passed (h : Holds memory data) (stop : Byte) {fuel tmp : Nat}
    (hlt : tmp < data.length) (hfuel : data.length ≤ fuel + tmp) :
    ∃ touches tmp', scanLoop memory stop fuel tmp = some (touches, tmp') ∧
      Passed memory data stop tmp tmp' touches := by
  induction fuel generalizing tmp with
  | zero => omega
  | succ fuel ih =>
      have hdrop := h.drop (show tmp ≤ data.length by omega)
      have hnext := h.drop (show tmp + 1 ≤ data.length by omega)
      have hhead : ((data ++ [nul]).drop (tmp + 1)).headD nul = memory (tmp + 1) := by
        rw [hnext]
        rfl
      have hone : ((data ++ [nul]).drop tmp).take (tmp + 1 - tmp) = [memory tmp] := by
        rw [hdrop]
        simp
      by_cases hstop : memory tmp = stop
      -- the separator: the pointer ends behind it
      · refine ⟨[.read tmp, .point (tmp + 1)], tmp + 1, ?_, by omega, by omega, ?_, ?_, ?_⟩
        · rw [scanLoop, if_pos hstop]
        · simp [Touch.pos]
          omega
        · intro _
          exact hstop
        · rw [hone, hdrop, Cpp.scanTo, if_neg (fun hc => hc.1 hstop)]
      · by_cases hnul : memory (tmp + 1) = nul
        · refine ⟨[.read tmp, .point (tmp + 1), .read (tmp + 1)], tmp + 1, ?_, by omega, by omega,
            ?_, ?_, ?_⟩
          · rw [scanLoop, if_neg hstop, if_pos hnul]
          · simp [Touch.pos]
            omega
          · intro hne
            exact absurd hnul hne
          · rw [hone, hdrop, Cpp.scanTo, if_neg (fun hc => hc.2 (hhead.trans hnul))]
        · -- the next character is not the terminator, so the loop goes on in front of it
          have hlt' : tmp + 1 < data.length := by
            have hne : tmp + 1 ≠ data.length := by
              intro heq
              apply hnul
              rw [heq]
              exact h.terminator
            omega
          obtain ⟨touches, tmp', hrun, hpassed⟩ := ih hlt' (by omega)
          refine ⟨.read tmp :: .point (tmp + 1) :: .read (tmp + 1) :: touches, tmp', ?_,
            by have := hpassed.lt; omega, hpassed.le, ?_, hpassed.stopped, ?_⟩
          · rw [scanLoop, if_neg hstop, if_neg hnul, hrun]
            rfl
          · have hinside := hpassed.inside
            simp only [List.forall_mem_cons, Touch.pos]
            exact ⟨by omega, by omega, by omega, hinside⟩
          · have hpos : tmp' - tmp = (tmp' - (tmp + 1)) + 1 := by
              have := hpassed.lt
              omega
            have hgo : memory tmp ≠ stop ∧ ((data ++ [nul]).drop (tmp + 1)).headD nul ≠ nul :=
              ⟨hstop, by rwa [hhead]⟩
            rw [hdrop, Cpp.scanTo, if_pos hgo, hpassed.scanTo, hpos, List.take_succ_cons]

/-! ## The scans of a line -/

/-- Every scan starts behind the separator that ends the token of the scan before it, and finds a
token of no negative length. -/
def Chained (memory : Nat → Byte) : List Byte → Nat → List Scan → Prop
  | _, _, [] => True
  | [], _, _ :: _ => False
  | stop :: stops, start, s :: scans =>
      s.cur = start ∧ 0 ≤ s.length ∧ (s.refused = true → scans = []) ∧
        (s.refused = false → memory (s.tmp - 1) = stop) ∧ Chained memory stops s.tmp scans

/-- The scans of a line end, touch nothing behind its terminator, and follow each other. -/
def StaysInside (memory : Nat → Byte) (data : Str) (stops : List Byte) : Prop :=
  ∃ touches scans, scanLine memory data.length stops 0 = some (touches, scans) ∧
    (∀ t ∈ touches, t.pos ≤ data.length) ∧ Chained memory stops 0 scans

/-- The tokens of a text. -/
def tokens : List Byte → Str → List Str
  | [], _ => []
  | stop :: stops, cur =>
      match token stop cur with
      | none => []
      | some (word, tmp) => word :: tokens stops tmp

theorem tokens_nil {cur : Str} : tokens [] cur = [] := rfl

theorem tokens_cons {stop : Byte} {stops : List Byte} {cur : Str} :
    tokens (stop :: stops) cur = match token stop cur with
      | none => []
      | some (word, tmp) => word :: tokens stops tmp := rfl

theorem scanLine_inside (h : Holds memory data) (stops : List Byte) {cur : Nat}
    (hcur : cur < data.length) :
    ∃ touches scans, scanLine memory data.length stops cur = some (touches, scans) ∧
      (∀ t ∈ touches, t.pos ≤ data.length) ∧ Chained memory stops cur scans ∧
      words memory scans = tokens stops ((data ++ [nul]).drop cur) := by
  induction stops generalizing cur with
  | nil => exact ⟨[], [], rfl, by simp, trivial, rfl⟩
  | cons stop stops ih =>
      obtain ⟨touches, tmp, hrun, hpassed⟩ :=
        scanLoop_passed h stop hcur (show data.length ≤ data.length + cur by omega)
      have hlt := hpassed.lt
      have hle := hpassed.le
      have hhead : ((data ++ [nul]).drop tmp).headD nul = memory tmp := by
        rw [h.drop hle]
        rfl
      have htoken : token stop ((data ++ [nul]).drop cur) = if memory tmp = nul then none else
          some ((((data ++ [nul]).drop cur).take (tmp - cur)).dropLast,
            (data ++ [nul]).drop tmp) := by
        rw [token, hpassed.scanTo, ← hhead]
      by_cases hnul : memory tmp = nul
      -- the parser throws, and there is no other scan
      · refine ⟨touches ++ [.read tmp], [⟨cur, tmp, true⟩], ?_, ?_, ?_, ?_⟩
        · rw [scanLine, hrun]
          dsimp only
          rw [if_pos hnul]
        · intro t ht
          rcases List.mem_append.mp ht with ht | ht
          · exact hpassed.inside t ht
          · rw [List.mem_singleton.mp ht]
            exact hle
        · refine ⟨rfl, ?_, by simp, by simp, by cases stops <;> trivial⟩
          simp only [Scan.length]
          omega
        · rw [tokens_cons, htoken, if_pos hnul]
          rfl
      · have hlt' : tmp < data.length := by
          have hne : tmp ≠ data.length := by
            intro heq
            apply hnul
            rw [heq]
            exact h.terminator
          omega
        obtain ⟨touches', scans, hrest, hinside, hchained, hwords⟩ := ih hlt'
        refine ⟨touches ++ .read tmp :: touches', ⟨cur, tmp, false⟩ :: scans, ?_, ?_, ?_, ?_⟩
        · rw [scanLine, hrun]
          dsimp only
          rw [if_neg hnul, hrest]
          rfl
        · intro t ht
          simp only [List.mem_append, List.mem_cons] at ht
          rcases ht with ht | rfl | ht
          · exact hpassed.inside t ht
          · exact hle
          · exact hinside t ht
        · refine ⟨rfl, ?_, by simp, fun _ => hpassed.stopped hnul, hchained⟩
          simp only [Scan.length]
          omega
        · have hlength : (Scan.length ⟨cur, tmp, false⟩).toNat = tmp - cur - 1 := by
            simp only [Scan.length]
            omega
          have htext : (((data ++ [nul]).drop cur).take (tmp - cur)).dropLast =
              Scan.text memory ⟨cur, tmp, false⟩ := by
            have htake := h.take (show cur + (tmp - cur - 1) ≤ data.length + 1 by omega)
            rw [List.dropLast_eq_take, List.take_take, Scan.text, hlength, ← htake]
            congr 1
            simp
            omega
          rw [tokens_cons, htoken, if_neg hnul, htext]
          dsimp only
          rw [← hwords]
          rfl

end

/-- **The scanners stay inside the line**: for every line of one byte or more, with its terminator
behind it and anything behind that. -/
theorem scanners_stay_inside {memory : Nat → Byte} {data : Str} (hne : data ≠ [])
    (h : Holds memory data) :
    StaysInside memory data requestStops ∧ StaysInside memory data headerStops := by
  have hstays : ∀ stops, StaysInside memory data stops := by
    intro stops
    obtain ⟨touches, scans, hrun, hinside, hchained, -⟩ :=
      scanLine_inside h stops (List.length_pos_of_ne_nil hne)
    exact ⟨touches, scans, hrun, hinside, hchained⟩
  exact ⟨hstays requestStops, hstays headerStops⟩

/-- The line `:` and a NUL: a bare separator, with a NUL in front of the terminator. -/
theorem scanners_stay_inside_nul :
    StaysInside (fun i => [58, nul, nul, 65].getD i 66) [58, nul] requestStops ∧
      StaysInside (fun i => [58, nul, nul, 65].getD i 66) [58, nul] headerStops :=
  scanners_stay_inside (by decide) (by unfold Holds; decide)

/-! ## The words of a line -/

theorem requestLine_eq_assign (base : Base) (line : Str) :
    requestLine base line = assignRequest base (tokens requestStops line) := by
  simp only [requestLine, requestStops, tokens_cons, tokens_nil]
  cases hmethod : token space line with
  | none => rfl
  | some word =>
      obtain ⟨method, tmp⟩ := word
      dsimp only
      cases hurl : token space tmp with
      | none => rfl
      | some word =>
          obtain ⟨url, tmp'⟩ := word
          dsimp only
          cases hversion : token cr tmp' with
          | none => rfl
          | some word => rfl

theorem headerLine_eq_assign (base : Base) (line : Str) :
    headerLine base line = assignHeader base (tokens headerStops line) := by
  simp only [headerLine, headerStops, tokens_cons, tokens_nil]
  cases hkey : token 58 line with
  | none => rfl
  | some word =>
      obtain ⟨key, tmp⟩ := word
      dsimp only
      cases hvalue : token cr tmp with
      | none => rfl
      | some word => rfl

section

variable {memory : Nat → Byte} {data : Str}

/-- The request line in memory is the request line of the model. -/
theorem requestLineAt_eq (hne : data ≠ []) (h : Holds memory data) (base : Base) :
    requestLineAt memory data.length base = some (requestLine base (data ++ [nul])) := by
  obtain ⟨touches, scans, hrun, -, -, hwords⟩ :=
    scanLine_inside h requestStops (List.length_pos_of_ne_nil hne)
  rw [requestLineAt, hrun, requestLine_eq_assign]
  exact congrArg (fun ws => some (assignRequest base ws)) hwords

theorem headerLineAt_eq (hne : data ≠ []) (h : Holds memory data) (base : Base) :
    headerLineAt memory data.length base = some (headerLine base (data ++ [nul])) := by
  obtain ⟨touches, scans, hrun, -, -, hwords⟩ :=
    scanLine_inside h headerStops (List.length_pos_of_ne_nil hne)
  rw [headerLineAt, hrun, headerLine_eq_assign]
  exact congrArg (fun ws => some (assignHeader base ws)) hwords

end

theorem recvLoop_grows {before delim data data' : Str} {left : Option Nat} {rs rs' : List Recv}
    (h : recvLoop before delim left data rs = some (.ok data', rs')) :
    data.length ≤ data'.length ∧ (left ≠ some 0 → data.length < data'.length) := by
  fun_induction recvLoop before delim left data rs with
  | case1 =>
      cases h
      simp
  | case2 => cases h
  | case3 => cases h
  | case4 left data r rs _ _ grown _ =>
      have hdata : grown = data' := by
        have hpair := Option.some.inj h
        injection hpair with hok
        injection hok
      have hlen : grown.length = data.length + 1 := by simp [grown]
      rw [← hdata]
      omega
  -- the delimiter has not been found: the loop goes on
  | case5 left data r rs _ _ grown _ ih =>
      have hle := (ih h).1
      have hlen : grown.length = data.length + 1 := by simp [grown]
      exact ⟨by omega, fun _ => by omega⟩

/-- The lines that `parseThis` scans have one byte or more, and a terminator. -/
theorem recvUntil_terminated {conn conn' : Conn} {line : Str}
    (h : conn.recvUntil crlf = .done line conn') : ∃ data, data ≠ [] ∧ line = data ++ [nul] := by
  unfold Conn.recvUntil at h
  split at h
  · cases h
  · cases h
  · rename_i data rs hloop
    cases h
    refine ⟨data, ?_, by simp⟩
    have hlong := (recvLoop_grows hloop).2 (by decide)
    intro hnil
    rw [hnil] at hlong
    exact absurd hlong (by simp)

end DianProtocol.Cpp
