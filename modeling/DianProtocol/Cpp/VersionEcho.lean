import DianProtocol.Cpp.Numbers
import DianProtocol.Cpp.StaticParse

set_option autoImplicit false

/-! # The version of a request in its response

`parseThis` takes the two numbers of a version with `sscanf` and stores them in two bit fields of
four bits, which `_apply_res` copies into the response and `unparseHead` writes into its head.
`version_survives_iff` says for which versions the response has the numbers of the request: both
must be written with digits alone, and fit into the fields.
-/

namespace DianProtocol.Cpp

open Lines

/-- The third word of a request line. -/
def VersionToken (line version : Str) : Prop :=
  ∃ method url tmp tmp' rest, token space line = some (method, tmp) ∧
    token space tmp = some (url, tmp') ∧ token cr tmp' = some (version, rest)

/-- The version in the request line that arrives on a connection. -/
def RequestVersion (conn : Conn) (version : Str) : Prop :=
  ∃ line conn', FirstLine conn line conn' ∧ VersionToken line version

/-- A version is digits, a dot and digits. -/
structure Dotted (version major minor : Str) : Prop where
  eq : version = major ++ 46 :: minor
  major : Decimal major
  minor : Decimal minor

/-- The numbers of the version are those in the message, and every response to it writes them. -/
structure Echoed (major minor : Str) (base : Base) : Prop where
  stored_major : base.version.major.toNat = digitsVal major
  stored_minor : base.version.minor.toNat = digitsVal minor
  written : ∀ r : Response, r.version = (Response.ofRequest base).version →
    ∃ rest, r.unparseHead = str "HTTP/" ++ to_string (digitsVal major) ++ str "." ++
      to_string (digitsVal minor) ++ str " " ++ rest

/-- The version is two numbers, and they survive. -/
def Survives (version : Str) (base : Base) : Prop :=
  ∃ major minor, Dotted version major minor ∧ Echoed major minor base

/-- The version is two numbers of four bits. -/
def SmallVersion (version : Str) : Prop :=
  ∃ major minor, Dotted version major minor ∧ digitsVal major < 16 ∧ digitsVal minor < 16

/-! ## The numbers of a version -/

variable {base base' : Base} {line version major minor : Str}

theorem Decimal.strtol_eq {s rest : Str} (h : Decimal s)
    (hrest : ∀ c, rest.head? = some c → isdigit c = false) :
    strtol (s ++ rest) = some ((digitsVal s : Int), rest) := by
  have hstrtol := @strtol_numeral [] [] s rest (by simp) (Or.inl rfl) h hrest
  rwa [if_neg (by simp)] at hstrtol

theorem Decimal.cstr_append {s : Str} (h : Decimal s) (t : Str) : cstr (s ++ t) = s ++ cstr t := by
  apply List.takeWhile_append_of_pos
  intro c hc
  have hnul : c ≠ nul := fun heq => h.not_mem (by decide) (heq ▸ hc)
  exact decide_eq_true hnul

theorem Dotted.cstr_eq (h : Dotted version major minor) : cstr version = version := by
  have hminor : cstr minor = minor := by
    have happend := h.minor.cstr_append []
    simpa [cstr] using happend
  have hdot : cstr (46 :: minor) = 46 :: cstr minor := List.takeWhile_cons_of_pos (by decide)
  rw [h.eq, h.major.cstr_append, hdot, hminor]

/-- `sscanf` takes the two numbers. -/
theorem Dotted.sscanf_eq (h : Dotted version major minor) :
    sscanf_d_d (cstr version) = some ((digitsVal major : Int), (digitsVal minor : Int)) := by
  have hmajor : strtol (major ++ 46 :: minor) = some ((digitsVal major : Int), 46 :: minor) := by
    apply h.major.strtol_eq
    intro c hc
    obtain rfl : 46 = c := Option.some.inj hc
    decide
  have hminor : strtol (minor ++ []) = some ((digitsVal minor : Int), []) := by
    apply h.minor.strtol_eq
    simp
  rw [List.append_nil] at hminor
  rw [h.cstr_eq, h.eq, sscanf_d_d, hmajor]
  show (strtol minor).map (fun number => ((digitsVal major : Int), number.1)) = _
  rw [hminor]
  rfl

/-- There is one way to read a version as two numbers. -/
theorem Dotted.unique {major' minor' : Str} (h : Dotted version major minor)
    (h' : Dotted version major' minor') : major = major' ∧ minor = minor' := by
  have hdot : ∀ (t : Str) c, (46 :: t).head? = some c → isdigit c = false := by
    intro t c hc
    obtain rfl : 46 = c := Option.some.inj hc
    decide
  obtain ⟨hmajor, htail⟩ := front_unique h.major.2 h'.major.2 (hdot minor) (hdot minor')
    (h.eq.symm.trans h'.eq)
  exact ⟨hmajor, (List.cons.inj htail).2⟩

/-! ## The numbers of a message -/

/-- The first line that is accepted decides the version of the message. -/
theorem requestLine_version (h : requestLine base line = (base', none)) :
    ∃ version m n, VersionToken line version ∧ sscanf_d_d (cstr version) = some (m, n) ∧
      base'.version = ⟨BitVec.ofInt 4 m, BitVec.ofInt 4 n⟩ := by
  rw [requestLine] at h
  cases hmethod : token space line with
  | none => simp [hmethod] at h
  | some word =>
      obtain ⟨method, tmp⟩ := word
      rw [hmethod] at h
      dsimp only at h
      cases hurl : token space tmp with
      | none => simp [hurl] at h
      | some word =>
          obtain ⟨url, tmp'⟩ := word
          rw [hurl] at h
          dsimp only at h
          cases hversion : token cr tmp' with
          | none => simp [hversion] at h
          | some word =>
              obtain ⟨version, rest⟩ := word
              rw [hversion] at h
              dsimp only at h
              cases hnumbers : sscanf_d_d (cstr version) with
              | none => simp [hnumbers] at h
              | some numbers =>
                  obtain ⟨m, n⟩ := numbers
                  rw [hnumbers] at h
                  cases h
                  exact ⟨version, m, n, ⟨method, url, tmp, tmp', rest, hmethod, hurl, hversion⟩,
                    hnumbers, rfl⟩

theorem VersionToken.unique {version' : Str} (h : VersionToken line version)
    (h' : VersionToken line version') : version = version' := by
  obtain ⟨_, _, tmp, tmp', rest, hmethod, hurl, hversion⟩ := h
  obtain ⟨_, _, tmp₁, tmp₁', rest₁, hmethod', hurl', hversion'⟩ := h'
  rw [hmethod] at hmethod'
  cases hmethod'
  rw [hurl] at hurl'
  cases hurl'
  rw [hversion] at hversion'
  cases hversion'
  rfl

theorem headerLine_version (base : Base) (line : Str) :
    (headerLine base line).1.version = base.version := by
  rw [headerLine]
  split
  · rfl
  · split
    · rfl
    · rfl

/-- The header lines leave the version as it is. -/
theorem readHeaders_version {fuel : Nat} {conn conn' : Conn}
    (h : readHeaders fuel base conn = .done base' conn') : base'.version = base.version := by
  induction fuel generalizing base conn with
  | zero => cases h
  | succ fuel ih =>
      rw [readHeaders] at h
      cases hrecv : conn.recvUntil crlf with
      | blocked => simp [hrecv] at h
      | thrown e conn₁ => simp [hrecv] at h
      | done line conn₁ =>
          rw [hrecv] at h
          dsimp only at h
          have hline := headerLine_version base line
          split at h
          · cases h
            rfl
          · split at h
            · cases h
            · rename_i base₁ heq
              rw [heq] at hline
              exact (ih h).trans hline

/-- The version of a message that is accepted comes from its request line. -/
theorem parseThis_version {conn conn' : Conn} (h : parseThis base conn = .done base' conn') :
    ∃ version m n, RequestVersion conn version ∧ sscanf_d_d (cstr version) = some (m, n) ∧
      base'.version = ⟨BitVec.ofInt 4 m, BitVec.ofInt 4 n⟩ := by
  have hrun : ∀ fuel (conn : Conn), readRequest fuel base conn = .done base' conn' →
      ∃ version m n, RequestVersion conn version ∧ sscanf_d_d (cstr version) = some (m, n) ∧
        base'.version = ⟨BitVec.ofInt 4 m, BitVec.ofInt 4 n⟩ := by
    intro fuel
    induction fuel with
    | zero =>
        intro conn h
        cases h
    | succ fuel ih =>
        intro conn h
        rw [readRequest] at h
        cases hrecv : conn.recvUntil crlf with
        | blocked => simp [hrecv] at h
        | thrown e conn₁ => simp [hrecv] at h
        | done line conn₁ =>
            rw [hrecv] at h
            dsimp only at h
            cases hempty : strcmpEq line crlf with
            | true =>
                -- an empty line in front of the request line
                rw [if_pos hempty] at h
                obtain ⟨version, m, n, ⟨line', conn₂, hfirst, htoken⟩, hstored⟩ := ih conn₁ h
                exact ⟨version, m, n, ⟨line', conn₂, .empty hrecv hempty hfirst, htoken⟩, hstored⟩
            | false =>
                rw [if_neg (by simp [hempty])] at h
                split at h
                · cases h
                · rename_i base₁ heq
                  obtain ⟨version, m, n, htoken, hnumbers, hversion⟩ := requestLine_version heq
                  exact ⟨version, m, n, ⟨line, conn₁, .line hrecv hempty, htoken⟩, hnumbers,
                    (readHeaders_version h).trans hversion⟩
  exact hrun _ conn h

theorem RequestVersion.unique {conn : Conn} {version' : Str} (h : RequestVersion conn version)
    (h' : RequestVersion conn version') : version = version' := by
  obtain ⟨line, conn₁, hfirst, htoken⟩ := h
  obtain ⟨line', conn₂, hfirst', htoken'⟩ := h'
  obtain ⟨rfl, -⟩ := hfirst.unique hfirst'
  exact htoken.unique htoken'

/-! ## The response -/

/-- `unparseHead` writes what is stored. -/
theorem unparseHead_version (r : Response) :
    ∃ rest, r.unparseHead = str "HTTP/" ++ to_string r.version.major.toNat ++ str "." ++
      to_string r.version.minor.toNat ++ str " " ++ rest := by
  refine ⟨to_stringInt r.status ++ str " " ++ r.reason ++ crlf ++ unparseHeaders r.headers, ?_⟩
  simp only [Response.unparseHead, List.append_assoc]

theorem echoed_iff : Echoed major minor base ↔ base.version.major.toNat = digitsVal major ∧
    base.version.minor.toNat = digitsVal minor := by
  constructor
  · exact fun h => ⟨h.stored_major, h.stored_minor⟩
  · rintro ⟨hmajor, hminor⟩
    refine ⟨hmajor, hminor, fun r hr => ?_⟩
    have hversion : r.version = base.version := hr
    rw [← hmajor, ← hminor, ← hversion]
    exact unparseHead_version r

/-- A bit field keeps the numbers that fit into it. -/
theorem toNat_field_iff (n : Nat) : (BitVec.ofInt 4 (n : Int)).toNat = n ↔ n < 16 := by
  rw [BitVec.ofInt_natCast, BitVec.toNat_ofNat]
  omega

theorem survives_iff {m n : Int} (hnumbers : sscanf_d_d (cstr version) = some (m, n))
    (hstored : base.version = ⟨BitVec.ofInt 4 m, BitVec.ofInt 4 n⟩) :
    Survives version base ↔ SmallVersion version := by
  apply exists_congr
  intro major
  apply exists_congr
  intro minor
  apply and_congr_right
  intro hdotted
  rw [hdotted.sscanf_eq] at hnumbers
  cases hnumbers
  rw [echoed_iff, hstored, toNat_field_iff, toNat_field_iff]

/-- **When a version survives**: a message that is accepted has a version, and the response has the
numbers of this version exactly when it is digits, a dot and digits, and both numbers are less than
16. -/
theorem version_survives_iff {conn conn' : Conn} (h : parseThis base conn = .done base' conn') :
    (∃ version, RequestVersion conn version) ∧
      ∀ version, RequestVersion conn version →
        (Survives version base' ↔ SmallVersion version) := by
  obtain ⟨version, m, n, hversion, hnumbers, hstored⟩ := parseThis_version h
  refine ⟨⟨version, hversion⟩, fun version' hversion' => ?_⟩
  obtain rfl := hversion.unique hversion'
  exact survives_iff hnumbers hstored

/-! ## Version 16.5 -/

/-- A request line with the version 16.5. -/
def sixteenLine : Str := str "PLAY u 16.5" ++ crlf

theorem sixteenLine_version : VersionToken (sixteenLine ++ [nul]) (str "16.5") :=
  ⟨str "PLAY", str "u", str "u 16.5" ++ crlf ++ [nul], str "16.5" ++ crlf ++ [nul], [lf, nul],
    by decide, by decide, by decide⟩

theorem sixteenLine_first :
    RequestVersion (clear (sixteenLine ++ crlf)) (str "16.5") :=
  ⟨_, _, .line (recvUntil_line (line_of_not_mem (by decide)) (by decide) crlf)
    (by decide), sixteenLine_version⟩

theorem parseThis_sixteen : ∃ conn, parseThis {} (clear (sixteenLine ++ crlf)) =
    .done { method := str "PLAY", url := str "u", version := ⟨0, 5⟩ } conn := by
  have hline : Line crlf sixteenLine := line_of_not_mem (by decide)
  have hlen : sixteenLine.length ≤ 1024 := by decide
  have hscan : requestLine {} (sixteenLine ++ [nul]) =
      ({ method := str "PLAY", url := str "u", version := ⟨0, 5⟩ }, none) := by
    have hwords := @requestLine_words (str "PLAY") (str "u") (str "16.5") 16 5
      ⟨by decide, by decide⟩ ⟨by decide, by decide⟩
      ⟨by decide, by decide⟩ (by decide) {}
    have hsplit : sixteenLine ++ [nul] =
        str "PLAY" ++ space :: (str "u" ++ space :: (str "16.5" ++ crlf ++ [nul])) := by
      decide
    rw [hsplit, hwords]
    rfl
  have hparse := parseThis_line hline hlen (by decide) hscan
    (recvUntil_line hline hlen crlf)
  exact ⟨_, hparse.trans (readHeaders_end _ _ [] fun _ => [])⟩

theorem dotted_sixteen : Dotted (str "16.5") (str "16") (str "5") :=
  ⟨by decide, decimal_cons rfl (decimal_digit rfl), decimal_digit rfl⟩

/-- The version 16.5 is accepted, and answered as 0.5. -/
theorem version_sixteen : ∃ base conn,
    parseThis {} (clear (sixteenLine ++ crlf)) = .done base conn ∧
    RequestVersion (clear (sixteenLine ++ crlf)) (str "16.5") ∧ base.version = ⟨0, 5⟩ ∧
    ¬ Survives (str "16.5") base := by
  obtain ⟨conn, hparse⟩ := parseThis_sixteen
  refine ⟨_, conn, hparse, sixteenLine_first, rfl, ?_⟩
  rintro ⟨major, minor, hdotted, hechoed⟩
  obtain ⟨rfl, rfl⟩ := hdotted.unique dotted_sixteen
  exact absurd hechoed.stored_major (by decide)

theorem version_survives_iff_sixteen : ∃ base conn,
    parseThis {} (clear (sixteenLine ++ crlf)) = .done base conn ∧
      ∀ version, RequestVersion (clear (sixteenLine ++ crlf)) version →
        (Survives version base ↔ SmallVersion version) := by
  obtain ⟨conn, hparse⟩ := parseThis_sixteen
  exact ⟨_, conn, hparse, (version_survives_iff hparse).2⟩

end DianProtocol.Cpp
