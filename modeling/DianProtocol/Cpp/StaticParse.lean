import DianProtocol.Cpp.Heads

set_option autoImplicit false

/-! # The two parsers of heads

`Base::parse` is a copy of `Base::parseThis` that makes a new object. It differs in two places: the
arguments of `sscanf` are exchanged, so that the version from the stream is taken for the format and
`"%d.%d"` for the text that is scanned, and the values of the headers are not kept. No version
is accepted by both (`not_format_of_number`), so the parsers agree only where both of them throw or
wait: `parsers_agree_iff`.
-/

namespace DianProtocol.Cpp

/-! ## `sscanf` with its arguments exchanged -/

/-- The text `"%d.%d"`. It has no blanks, signs and decimal digits, so that the only numbers a
conversion finds in it are hexadecimal. -/
def exchangedText : Str := [37, 100, 46, 37, 100]

def isxdigit (c : Byte) : Bool := isdigit c || (65 ≤ c && c ≤ 70) || (97 ≤ c && c ≤ 102)

/-- The value of a hexadecimal digit. -/
def xdigitVal (c : Byte) : Nat :=
  if isdigit c then c.toNat - 48 else if c ≤ 70 then c.toNat - 55 else c.toNat - 87

/-- The members of a set `[...]`, with ranges such as `a-z`. -/
def inSet : Str → Byte → Bool
  | a :: 45 :: b :: set, c => (a ≤ c && c ≤ b) || inSet set c
  | a :: set, c => a = c || inSet set c
  | [], _ => false

/-- A conversion specification, behind its `%`. -/
structure ConversionSpec where
  suppress : Bool
  width : Option Nat
  conv : Byte
  set : Str := []
  negated : Bool := false
  rest : Str

/-- The set of a conversion `[`: a `]` in front is a member of it. -/
def scanset (format : Str) : Str × Bool × Str :=
  let (negated, format) := match format with
    | 94 :: format => (true, format)
    | _ => (false, format)
  let (first, format) : Str × Str := match format with
    | 93 :: format => ([93], format)
    | _ => ([], format)
  (first ++ format.takeWhile (· ≠ 93), negated, (format.dropWhile (· ≠ 93)).tail)

/-- `*`, a width, the length modifiers and the conversion; `none` at the end of the format. -/
def conversionSpec (format : Str) : Option ConversionSpec :=
  let (suppress, format) := match format with
    | 42 :: format => (true, format)
    | _ => (false, format)
  let digits := format.takeWhile isdigit
  let width := if digits = [] then none else some (digitsVal digits)
  match (format.dropWhile isdigit).dropWhile (· ∈ str "hljztL") with
  | [] => none
  | 91 :: format =>
      let (set, negated, rest) := scanset format
      some { suppress := suppress, width := width, conv := 91, set := set, negated := negated,
             rest := rest }
  | conv :: format => some { suppress := suppress, width := width, conv := conv, rest := format }

/-- The item that a conversion finds at the front of the text, and the value that it stores: the
number, or the first character. -/
def scanItem (spec : ConversionSpec) (text : Str) : Option (Str × Nat) :=
  let most := spec.width.getD text.length
  let item :=
    -- `%c`
    if spec.conv = 99 then
      if spec.width.getD 1 ≤ text.length then text.take (spec.width.getD 1) else []
    -- `%s`
    else if spec.conv = 115 then (text.takeWhile fun c => ¬ isspace c).take most
    -- `%[`
    else if spec.conv = 91 then
      (text.takeWhile fun c => inSet spec.set c != spec.negated).take most
    -- `%x`, `%X` and `%p`
    else if spec.conv ∈ str "xXp" then (text.takeWhile isxdigit).take most
    else []
  let number := item.foldl (fun n c => 16 * n + xdigitVal c) 0
  if item = [] then none
  else some (item, if spec.conv ∈ str "xXp" then number else (item.headD nul).toNat)

/-- `sscanf(text, format, ...)`: the values that are stored through the pointers, and how many of
them are counted. `fuel` bounds the directives, `read` counts the characters that have been read. -/
def sscanf : Nat → Str → Str → Nat → List Nat × Nat
  | 0, _, _, _ => ([], 0)
  | _ + 1, [], _, _ => ([], 0)
  | fuel + 1, c :: format, text, read =>
      if isspace c then sscanf fuel format (text.dropWhile isspace) read
      else if c ≠ 37 then
        if text.head? = some c then sscanf fuel format text.tail (read + 1) else ([], 0)
      else match conversionSpec format with
        | none => ([], 0)
        | some spec =>
            if spec.conv = 37 then
              if text.head? = some 37 then sscanf fuel spec.rest text.tail (read + 1) else ([], 0)
            else if spec.conv = 110 then
              -- `%n` stores, but is not counted
              let (stores, count) := sscanf fuel spec.rest text read
              (read :: stores, count)
            else match scanItem spec text with
              | none => ([], 0)
              | some (item, value) =>
                  let (stores, count) :=
                    sscanf fuel spec.rest (text.drop item.length) (read + item.length)
                  if spec.suppress then (stores, count) else (value :: stores, count + 1)

/-- `sscanf("%d.%d", version, &major, &minor)` when it returns 2. -/
def sscanfExchanged (version : Str) : Option (Nat × Nat) :=
  match sscanf (version.length + 1) version exchangedText 0 with
  | (major :: minor :: _, 2) => some (major, minor)
  | _ => none

example : sscanfExchanged (str "%c%c") = some (37, 100) := by decide

example : sscanfExchanged (str "%%%x.%%%x") = some (13, 13) := by decide

example : sscanfExchanged (str "0.5") = none := by decide

/-- A version that the members of the message are made of. -/
def Number (version : Str) : Prop := ∃ numbers, sscanf_d_d version = some numbers

/-- A version that, as a format, stores two values. -/
def Format (version : Str) : Prop := ∃ values, sscanfExchanged version = some values

theorem sscanf_ordinary {fuel read : Nat} {format text : Str}
    (h : ∀ c, (format.dropWhile isspace).head? = some c → c ≠ 37 ∧ text.head? ≠ some c)
    (htext : ∀ c ∈ text, isspace c = false) : (sscanf fuel format text read).2 = 0 := by
  induction format generalizing fuel read with
  | nil =>
      cases fuel with
      | zero => rfl
      | succ fuel => rfl
  | cons c format ih =>
      cases fuel with
      | zero => rfl
      | succ fuel =>
          have hdrop : text.dropWhile isspace = text := by
            rw [List.dropWhile_eq_self_iff]
            intro hlen hspace
            rw [htext _ (List.getElem_mem hlen)] at hspace
            cases hspace
          rw [sscanf]
          cases hspace : isspace c with
          | true =>
              rw [if_pos rfl, hdrop]
              refine ih fun d hd => h d ?_
              rw [List.dropWhile_cons_of_pos hspace]
              exact hd
          | false =>
              have hc := h c (by rw [List.dropWhile_cons_of_neg (by simp [hspace])]; rfl)
              rw [if_neg (by simp), if_pos hc.1, if_neg hc.2]

/-- A number starts with blanks and then with a sign or a digit. -/
theorem strtol_first {s rest : Str} {n : Int} (h : strtol s = some (n, rest)) :
    ∃ c, (s.dropWhile isspace).head? = some c ∧ (c = 45 ∨ c = 43 ∨ isdigit c = true) := by
  unfold strtol at h
  dsimp only at h
  generalize s.dropWhile isspace = t at h
  split at h
  · exact ⟨45, rfl, Or.inl rfl⟩
  · exact ⟨43, rfl, Or.inr (Or.inl rfl)⟩
  · cases t with
    | nil => cases h
    | cons c t =>
        refine ⟨c, rfl, Or.inr (Or.inr ?_)⟩
        by_contra hdigit
        dsimp only at h
        rw [List.takeWhile_cons_of_neg hdigit, if_pos rfl] at h
        cases h

/-- No version is accepted by both parsers: a number does not start like the text. -/
theorem not_format_of_number {version : Str} (h : Number version) : ¬ Format version := by
  obtain ⟨numbers, hnumbers⟩ := h
  rintro ⟨values, hvalues⟩
  have hfirst : ∃ c, (version.dropWhile isspace).head? = some c ∧
      (c = 45 ∨ c = 43 ∨ isdigit c = true) := by
    unfold sscanf_d_d at hnumbers
    split at hnumbers
    · rename_i hmajor
      exact strtol_first hmajor
    · cases hnumbers
  obtain ⟨c, hc, hkind⟩ := hfirst
  have hpercent : c ≠ 37 := by
    rintro rfl
    exact absurd hkind (by decide)
  have hcount : (sscanf (version.length + 1) version exchangedText 0).2 = 0 := by
    refine sscanf_ordinary (fun d hd => ?_) (by decide +kernel)
    obtain rfl : d = c := Option.some.inj (hd.symm.trans hc)
    exact ⟨hpercent, fun heq => hpercent (Option.some.inj heq).symm⟩
  unfold sscanfExchanged at hvalues
  split at hvalues
  · rename_i hresult
    rw [hresult] at hcount
    cases hcount
  · cases hvalues

/-! ## `Base::parse` -/

namespace Static

/-- The request line, as `Base::parse` reads it. -/
def requestLine (base : Base) (line : Str) : Base × Option Exn :=
  match token space line with
  | none => (base, some parseError)
  | some (method, tmp) =>
    let base := { base with method := method }
    match token space tmp with
    | none => (base, some parseError)
    | some (url, tmp) =>
      let base := { base with url := url }
      match token cr tmp with
      | none => (base, some parseError)
      | some (version, _) =>
        -- `sscanf("%d.%d", version.c_str(), &major, &minor)`
        match sscanfExchanged (cstr version) with
        | none => (base, some parseError)
        | some (major, minor) =>
            ({ base with version := ⟨BitVec.ofNat 4 major, BitVec.ofNat 4 minor⟩ }, none)

/-- One header line. -/
def headerLine (base : Base) (line : Str) : Base × Option Exn :=
  match token 58 line with
  | none => (base, some parseError)
  | some (key, tmp) =>
    match token cr tmp with
    | none => (base, some parseError)
    | some _ =>
        -- `value` is not assigned
        ({ base with headers := base.headers.insert (trim key) (trim []) }, none)

end Static

/-- What the two parsers differ in: how they scan the first line and a header line. -/
structure Scanners where
  first : Base → Str → Base × Option Exn
  header : Base → Str → Base × Option Exn

namespace Scanners

variable (p : Scanners)

/-- The loop over the header lines. -/
def readHeaders : Nat → Base → Conn → Parse
  | 0, _, _ => .blocked
  | fuel + 1, base, conn =>
      match conn.recvUntil crlf with
      | .blocked => .blocked
      | .thrown e conn => .thrown e base conn
      | .done line conn =>
          if strcmpEq line crlf then .done base conn
          else match p.header base line with
            | (base, some e) => .thrown e base conn
            | (base, none) => readHeaders fuel base conn

/-- The loop that skips empty lines, and the first line. -/
def readRequest : Nat → Base → Conn → Parse
  | 0, _, _ => .blocked
  | fuel + 1, base, conn =>
      match conn.recvUntil crlf with
      | .blocked => .blocked
      | .thrown e conn => .thrown e base conn
      | .done line conn =>
          if strcmpEq line crlf then readRequest fuel base conn
          else match p.first base line with
            | (base, some e) => .thrown e base conn
            | (base, none) => p.readHeaders fuel base conn

def parse (base : Base) (conn : Conn) : Parse := p.readRequest (conn.recvs.length + 1) base conn

end Scanners

/-- Those of `Base::parseThis`. -/
def thisScanners : Scanners := ⟨requestLine, headerLine⟩

/-- Those of `Base::parse`. -/
def staticScanners : Scanners := ⟨Static.requestLine, Static.headerLine⟩

theorem thisScanners_parse (base : Base) (conn : Conn) :
    thisScanners.parse base conn = parseThis base conn := by
  have hheaders : ∀ fuel base conn,
      thisScanners.readHeaders fuel base conn = readHeaders fuel base conn := by
    intro fuel
    induction fuel with
    | zero => exact fun _ _ => rfl
    | succ fuel ih =>
        intro base conn
        rw [Scanners.readHeaders, readHeaders]
        simp only [ih]
        rfl
  have hrequest : ∀ fuel base conn,
      thisScanners.readRequest fuel base conn = readRequest fuel base conn := by
    intro fuel
    induction fuel with
    | zero => exact fun _ _ => rfl
    | succ fuel ih =>
        intro base conn
        rw [Scanners.readRequest, readRequest]
        simp only [ih, hheaders]
        rfl
  exact hrequest _ base conn

/-- `Base::parse`: the message is a new one, and it is lost when the parser throws. -/
def Base.parse (conn : Conn) : Parse := staticScanners.parse {} conn

/-! ## What the parsers have in common -/

/-- The first line that is not empty, and the connection behind it. -/
inductive FirstLine : Conn → Str → Conn → Prop where
  | empty {conn conn' conn'' : Conn} {l line : Str} : conn.recvUntil crlf = .done l conn' →
      strcmpEq l crlf = true → FirstLine conn' line conn'' → FirstLine conn line conn''
  | line {conn conn' : Conn} {line : Str} : conn.recvUntil crlf = .done line conn' →
      strcmpEq line crlf = false → FirstLine conn line conn'

/-- The text in the place of the version, if there are a method and a url in front of it. -/
def versionOf (line : Str) : Option Str :=
  match token space line with
  | none => none
  | some (_, tmp) =>
    match token space tmp with
    | none => none
    | some (_, tmp) => (token cr tmp).map fun (version, _) => cstr version

theorem FirstLine.unique {conn conn₁ conn₂ : Conn} {line₁ line₂ : Str}
    (h₁ : FirstLine conn line₁ conn₁) (h₂ : FirstLine conn line₂ conn₂) :
    line₁ = line₂ ∧ conn₁ = conn₂ := by
  induction h₁ with
  | empty hrecv hempty _ ih =>
      cases h₂ with
      | empty hrecv' _ hrest =>
          rw [hrecv] at hrecv'
          cases hrecv'
          exact ih hrest
      | line hrecv' hne =>
          rw [hrecv] at hrecv'
          cases hrecv'
          rw [hempty] at hne
          cases hne
  | line hrecv hne =>
      cases h₂ with
      | empty hrecv' hempty _ =>
          rw [hrecv] at hrecv'
          cases hrecv'
          rw [hempty] at hne
          cases hne
      | line hrecv' _ =>
          rw [hrecv] at hrecv'
          cases hrecv'
          exact ⟨rfl, rfl⟩

/-- A header line with a colon and a CR. -/
def HeaderLine (line : Str) : Prop :=
  ∃ key tmp value, token 58 line = some (key, tmp) ∧ token cr tmp = some value

/-- In front of the end of the head stands a line that is not a header, or a `recv` fails. -/
inductive HeadersRefused : Conn → Prop where
  | failed {conn conn' : Conn} {e : Exn} : conn.recvUntil crlf = .thrown e conn' →
      HeadersRefused conn
  | line {conn conn' : Conn} {line : Str} : conn.recvUntil crlf = .done line conn' →
      strcmpEq line crlf = false → ¬ HeaderLine line → HeadersRefused conn
  | next {conn conn' : Conn} {line : Str} : conn.recvUntil crlf = .done line conn' →
      strcmpEq line crlf = false → HeaderLine line → HeadersRefused conn' → HeadersRefused conn

/-- Both succeed with the same message, having read the same bytes, or both throw, or both wait. -/
def Parse.Agree : Parse → Parse → Prop
  | .done base conn, .done base' conn' => base = base' ∧ conn.recvs = conn'.recvs
  | .thrown _ _ _, .thrown _ _ _ => True
  | .blocked, .blocked => True
  | _, _ => False

def Parse.Throws : Parse → Prop
  | .thrown _ _ _ => True
  | _ => False

/-- The scanners accept the versions in `ok`, and every header line. -/
structure Scanners.Accept (p : Scanners) (ok : Str → Prop) : Prop where
  first : ∀ base line, (p.first base line).2 = none ↔ ∃ v, versionOf line = some v ∧ ok v
  header : ∀ base line, (p.header base line).2 = none ↔ HeaderLine line

theorem thisScanners_accept : thisScanners.Accept Number where
  first := fun base line => by
    simp only [thisScanners, requestLine, versionOf, Number]
    rcases token space line with - | ⟨method, tmp⟩
    · simp
    dsimp only
    rcases token space tmp with - | ⟨url, tmp⟩
    · simp
    dsimp only
    rcases token cr tmp with - | ⟨version, tmp⟩
    · simp
    dsimp only
    rcases hnumbers : sscanf_d_d (cstr version) with - | ⟨major, minor⟩
    · simp [hnumbers]
    · simp [hnumbers]
  header := fun base line => by
    simp only [thisScanners, headerLine, HeaderLine]
    rcases token 58 line with - | ⟨key, tmp⟩
    · simp
    dsimp only
    rcases htoken : token cr tmp with - | ⟨value, tmp⟩
    · simp [htoken]
    · simp [htoken]

theorem staticScanners_accept : staticScanners.Accept Format where
  first := fun base line => by
    simp only [staticScanners, Static.requestLine, versionOf, Format]
    rcases token space line with - | ⟨method, tmp⟩
    · simp
    dsimp only
    rcases token space tmp with - | ⟨url, tmp⟩
    · simp
    dsimp only
    rcases token cr tmp with - | ⟨version, tmp⟩
    · simp
    dsimp only
    rcases hvalues : sscanfExchanged (cstr version) with - | ⟨major, minor⟩
    · simp [hvalues]
    · simp [hvalues]
  header := fun base line => by
    simp only [staticScanners, Static.headerLine, HeaderLine]
    rcases token 58 line with - | ⟨key, tmp⟩
    · simp
    dsimp only
    rcases htoken : token cr tmp with - | ⟨value, tmp⟩
    · simp [htoken]
    · simp [htoken]

/-! ## The runs of the two parsers -/

theorem HeadersRefused.next_iff {conn conn' : Conn} {line : Str}
    (hrecv : conn.recvUntil crlf = .done line conn') (hne : strcmpEq line crlf = false)
    (hheader : HeaderLine line) : HeadersRefused conn ↔ HeadersRefused conn' := by
  constructor
  · intro h
    cases h with
    | failed hfailed =>
        rw [hrecv] at hfailed
        cases hfailed
    | line hrecv' _ hrefused =>
        rw [hrecv] at hrecv'
        cases hrecv'
        exact absurd hheader hrefused
    | next hrecv' _ _ hrest =>
        rw [hrecv] at hrecv'
        cases hrecv'
        exact hrest
  · exact .next hrecv hne hheader

variable {p : Scanners} {ok : Str → Prop}

/-- The loop over the header lines throws exactly when one of them is refused. -/
theorem Scanners.Accept.readHeaders_throws (hp : p.Accept ok) {fuel : Nat} (base : Base)
    {conn : Conn} (hfuel : conn.recvs.length < fuel) :
    (p.readHeaders fuel base conn).Throws ↔ HeadersRefused conn := by
  induction fuel generalizing base conn with
  | zero => omega
  | succ fuel ih =>
      rw [Scanners.readHeaders]
      cases hrecv : conn.recvUntil crlf with
      | blocked =>
          refine iff_of_false (fun h => h) fun h => ?_
          cases h with
          | failed h => simp [hrecv] at h
          | line h => simp [hrecv] at h
          | next h => simp [hrecv] at h
      | thrown e conn' => exact iff_of_true trivial (.failed hrecv)
      | done line conn' =>
          have hlt := recvUntil_lt hrecv
          dsimp only
          cases hne : strcmpEq line crlf with
          | true =>
              rw [if_pos rfl]
              refine iff_of_false (fun h => h) fun h => ?_
              cases h with
              | failed h => simp [hrecv] at h
              | line h hne' =>
                  rw [hrecv] at h
                  cases h
                  rw [hne] at hne'
                  cases hne'
              | next h hne' =>
                  rw [hrecv] at h
                  cases h
                  rw [hne] at hne'
                  cases hne'
          | false =>
              rw [if_neg (by simp)]
              by_cases hheader : HeaderLine line
              · have hnone := (hp.header base line).mpr hheader
                rw [HeadersRefused.next_iff hrecv hne hheader]
                generalize p.header base line = scanned at hnone ⊢
                obtain ⟨base', thrown⟩ := scanned
                subst hnone
                exact ih base' (by omega)
              · have hsome := fun h => hheader ((hp.header base line).mp h)
                generalize p.header base line = scanned at hsome ⊢
                obtain ⟨base', - | e⟩ := scanned
                · exact absurd rfl hsome
                · exact iff_of_true trivial (.line hrecv hne hheader)

/-- Both parsers come to the first line that is not empty. -/
theorem Scanners.readRequest_first (p : Scanners) {conn conn' : Conn} {line : Str}
    (h : FirstLine conn line conn') {fuel : Nat} (base : Base)
    (hfuel : conn.recvs.length < fuel) :
    ∃ fuel', conn'.recvs.length < fuel' ∧ p.readRequest fuel base conn =
      match p.first base line with
      | (base, some e) => .thrown e base conn'
      | (base, none) => p.readHeaders fuel' base conn' := by
  induction h generalizing fuel with
  | empty hrecv hempty _ ih =>
      obtain ⟨fuel, rfl⟩ : ∃ n, fuel = n + 1 := ⟨fuel - 1, by omega⟩
      have hlt := recvUntil_lt hrecv
      obtain ⟨fuel', hfuel', hrun⟩ := @ih fuel (by omega)
      refine ⟨fuel', hfuel', ?_⟩
      rw [Scanners.readRequest, hrecv, ← hrun]
      dsimp only
      rw [if_pos hempty]
  | line hrecv hne =>
      obtain ⟨fuel, rfl⟩ : ∃ n, fuel = n + 1 := ⟨fuel - 1, by omega⟩
      have hlt := recvUntil_lt hrecv
      refine ⟨fuel, by omega, ?_⟩
      rw [Scanners.readRequest, hrecv]
      dsimp only
      rw [if_neg (by simp [hne])]

/-- Without such a line both throw or both wait. -/
theorem readRequest_no_first {conn : Conn} (h : ∀ line conn', ¬ FirstLine conn line conn')
    (fuel : Nat) :
    (∀ (p : Scanners) base, p.readRequest fuel base conn = .blocked) ∨
      ∃ e conn', ∀ (p : Scanners) base, p.readRequest fuel base conn = .thrown e base conn' := by
  induction fuel generalizing conn with
  | zero => exact Or.inl fun _ _ => rfl
  | succ fuel ih =>
      cases hrecv : conn.recvUntil crlf with
      | blocked =>
          refine Or.inl fun p base => ?_
          rw [Scanners.readRequest, hrecv]
      | thrown e conn' =>
          refine Or.inr ⟨e, conn', fun p base => ?_⟩
          rw [Scanners.readRequest, hrecv]
      | done line conn' =>
          cases hempty : strcmpEq line crlf with
          | false => exact absurd (.line hrecv hempty) (h line conn')
          | true =>
              have hrest := ih fun line' conn'' hfirst => h _ _ (.empty hrecv hempty hfirst)
              have hstep : ∀ (p : Scanners) base,
                  p.readRequest (fuel + 1) base conn = p.readRequest fuel base conn' := by
                intro p base
                rw [Scanners.readRequest, hrecv]
                dsimp only
                rw [if_pos hempty]
              simp only [hstep]
              exact hrest

/-- A parser refuses the first line, or goes on with the header lines. -/
theorem Scanners.Accept.parse_first (hp : p.Accept ok) {conn conn' : Conn} {line : Str}
    (h : FirstLine conn line conn') :
    ((¬ ∃ v, versionOf line = some v ∧ ok v) → (p.parse {} conn).Throws) ∧
      ((∃ v, versionOf line = some v ∧ ok v) →
        ((p.parse {} conn).Throws ↔ HeadersRefused conn')) := by
  obtain ⟨fuel', hfuel', hrun⟩ := p.readRequest_first h {} (Nat.lt_succ_self _)
  have hfirst := hp.first {} line
  rw [Scanners.parse, hrun]
  generalize p.first {} line = scanned at hfirst ⊢
  obtain ⟨base', - | e⟩ := scanned
  · exact ⟨fun hno => absurd (hfirst.mp rfl) hno, fun _ => hp.readHeaders_throws base' hfuel'⟩
  · exact ⟨fun _ => trivial, fun hv => by cases hfirst.mpr hv⟩

theorem Parse.Throws.agree_iff {q r : Parse} (hq : q.Throws) : q.Agree r ↔ r.Throws := by
  cases q with
  | done base conn => exact hq.elim
  | blocked => exact hq.elim
  | thrown e base conn =>
      cases r with
      | done base conn => exact Iff.rfl
      | thrown e' base' conn' => exact Iff.rfl
      | blocked => exact Iff.rfl

theorem Parse.Agree.symm {q r : Parse} (h : q.Agree r) : r.Agree q := by
  cases q with
  | done base conn =>
      cases r with
      | done base' conn' => exact ⟨h.1.symm, h.2.symm⟩
      | thrown e' base' conn' => exact h
      | blocked => exact h
  | thrown e base conn =>
      cases r with
      | done base' conn' => exact h
      | thrown e' base' conn' => exact h
      | blocked => exact h
  | blocked =>
      cases r with
      | done base' conn' => exact h
      | thrown e' base' conn' => exact h
      | blocked => exact h

/-- **When the two parsers agree**: exactly when the version of the first line is refused by both,
or a later line or `recv` makes both of them throw. -/
theorem parsers_agree_iff (conn : Conn) :
    (Base.parse conn).Agree (parseThis {} conn) ↔
      ∀ line conn' version, FirstLine conn line conn' → versionOf line = some version →
        Number version ∨ Format version → HeadersRefused conn' := by
  rw [← thisScanners_parse, Base.parse]
  by_cases hexists : ∃ line conn', FirstLine conn line conn'
  · obtain ⟨line, conn', hfirst⟩ := hexists
    obtain ⟨hthis, hthis'⟩ := thisScanners_accept.parse_first hfirst
    obtain ⟨hstatic, hstatic'⟩ := staticScanners_accept.parse_first hfirst
    have hright : ∀ v, versionOf line = some v → Number v ∨ Format v →
        ((∀ line₁ conn₁ version, FirstLine conn line₁ conn₁ → versionOf line₁ = some version →
          Number version ∨ Format version → HeadersRefused conn₁) ↔ HeadersRefused conn') := by
      intro v hv hok
      constructor
      · exact fun h => h line conn' v hfirst hv hok
      · intro hrefused line₁ conn₁ version hfirst₁ _ _
        rwa [(hfirst₁.unique hfirst).2]
    by_cases hnumber : ∃ v, versionOf line = some v ∧ Number v
    · obtain ⟨v, hv, hok⟩ := hnumber
      have hno : ¬ ∃ v, versionOf line = some v ∧ Format v := by
        rintro ⟨v', hv', hformat⟩
        rw [hv] at hv'
        cases hv'
        exact not_format_of_number hok hformat
      rw [(hstatic hno).agree_iff, hthis' ⟨v, hv, hok⟩, hright v hv (Or.inl hok)]
    · by_cases hformat : ∃ v, versionOf line = some v ∧ Format v
      · obtain ⟨v, hv, hok⟩ := hformat
        have hswap : (staticScanners.parse {} conn).Agree (thisScanners.parse {} conn) ↔
            (thisScanners.parse {} conn).Agree (staticScanners.parse {} conn) :=
          ⟨Parse.Agree.symm, Parse.Agree.symm⟩
        rw [hswap, (hthis hnumber).agree_iff, hstatic' ⟨v, hv, hok⟩, hright v hv (Or.inr hok)]
      · -- both refuse the version
        refine iff_of_true ((hstatic hformat).agree_iff.mpr (hthis hnumber)) ?_
        intro line₁ conn₁ version hfirst₁ hv hok
        obtain ⟨rfl, -⟩ := hfirst₁.unique hfirst
        rcases hok with hok | hok
        · exact absurd ⟨version, hv, hok⟩ hnumber
        · exact absurd ⟨version, hv, hok⟩ hformat
  · push Not at hexists
    refine iff_of_true ?_ fun line conn' _ hfirst => absurd hfirst (hexists line conn')
    rcases readRequest_no_first hexists (conn.recvs.length + 1) with hblocked | ⟨e, conn', hthrown⟩
    · rw [Scanners.parse, Scanners.parse, hblocked, hblocked]
      trivial
    · rw [Scanners.parse, Scanners.parse, hthrown, hthrown]
      trivial

/-- At a request with the version 0.5 `Base::parse` throws, and `Base::parseThis` does not. -/
theorem playLine_disagree :
    (Base.parse (clear (playLine ++ crlf))).Throws ∧
      (∃ base conn, parseThis {} (clear (playLine ++ crlf)) = .done base conn ∧
        base.method = str "PLAY" ∧ conn.recvs = []) ∧
      ¬ (Base.parse (clear (playLine ++ crlf))).Agree (parseThis {} (clear (playLine ++ crlf))) := by
  have hrecv := recvUntil_line playLine_line (by decide) crlf
  have hne : strcmpEq (playLine ++ [nul]) crlf = false := by decide
  have hversion : versionOf (playLine ++ [nul]) = some (str "0.5") := by decide
  have hthrows : (Base.parse (clear (playLine ++ crlf))).Throws := by
    refine (staticScanners_accept.parse_first (.line hrecv hne)).1 ?_
    rintro ⟨v, hv, values, hvalues⟩
    have hnone : sscanfExchanged (str "0.5") = none := by decide
    rw [hversion] at hv
    cases hv
    rw [hnone] at hvalues
    cases hvalues
  have hdone : ∃ base conn, parseThis {} (clear (playLine ++ crlf)) = .done base conn ∧
      base.method = str "PLAY" ∧ conn.recvs = [] := by
    have hscan : requestLine {} (playLine ++ [nul]) =
        ({ method := str "PLAY", url := str "u", version := ⟨0, 5⟩ }, none) := by
      have hwords := @requestLine_words (str "PLAY") (str "u") (str "0.5") 0 5
        ⟨by decide, by decide⟩ ⟨by decide, by decide⟩
        ⟨by decide, by decide⟩ (by decide) {}
      have hsplit : playLine ++ [nul] =
          str "PLAY" ++ space :: (str "u" ++ space :: (str "0.5" ++ crlf ++ [nul])) := by
        decide
      rw [hsplit, hwords]
      rfl
    have hline := parseThis_line playLine_line (by decide) (by decide) hscan hrecv
    refine ⟨{ method := str "PLAY", url := str "u", version := ⟨0, 5⟩ }, clear [],
      hline.trans ?_, rfl, rfl⟩
    exact readHeaders_end _ _ [] fun _ => []
  refine ⟨hthrows, hdone, ?_⟩
  obtain ⟨base, conn, hrun, -⟩ := hdone
  rw [hthrows.agree_iff, hrun]
  exact fun h => h

end DianProtocol.Cpp
