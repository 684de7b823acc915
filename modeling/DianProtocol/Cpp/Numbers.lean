import DianProtocol.Cpp.Handle

set_option autoImplicit false

/-! # Numbers in texts

`std::stoi` is lenient: it skips blanks, takes a sign, reads as many digits as there are, and does
not look at what comes behind them. `Numeral` is the texts it takes a number from, `Decimal` those
that are a number and nothing else.
-/

namespace DianProtocol.Cpp

/-- A number written with digits alone. -/
def Decimal (s : Str) : Prop := s ≠ [] ∧ ∀ c ∈ s, isdigit c = true

instance (s : Str) : Decidable (Decimal s) := inferInstanceAs (Decidable (_ ∧ _))

theorem decimal_digit {c : Byte} (h : isdigit c = true) : Decimal [c] :=
  ⟨List.cons_ne_nil _ _, by simpa using h⟩

theorem decimal_cons {c : Byte} {s : Str} (h : isdigit c = true) (hs : Decimal s) :
    Decimal (c :: s) :=
  ⟨List.cons_ne_nil _ _, List.forall_mem_cons.mpr ⟨h, hs.2⟩⟩

/-- Blanks, a sign and digits, with anything but a digit behind them. -/
def Numeral (s : Str) (n : Int) : Prop :=
  ∃ blanks sign digits rest, s = blanks ++ (sign ++ (digits ++ rest)) ∧
    (∀ c ∈ blanks, isspace c = true) ∧ (sign = [] ∨ sign = [43] ∨ sign = [45]) ∧
    Decimal digits ∧ (∀ c, rest.head? = some c → isdigit c = false) ∧
    n = if sign = [45] then -(digitsVal digits : Int) else digitsVal digits

theorem isspace_of_isdigit {c : Byte} (h : isdigit c = true) : isspace c = false := by
  revert c
  decide +kernel

theorem Decimal.not_mem {s : Str} {c : Byte} (h : Decimal s) (hc : isdigit c = false) : c ∉ s := by
  intro hmem
  rw [h.2 c hmem] at hc
  cases hc

/-- A text of members of `p` in front of one that does not start with a member. -/
theorem takeWhile_front {p : Byte → Bool} {s t : Str} (hs : ∀ c ∈ s, p c = true)
    (ht : ∀ c, t.head? = some c → p c = false) :
    (s ++ t).takeWhile p = s ∧ (s ++ t).dropWhile p = t := by
  have htake : t.takeWhile p = [] := by
    cases t with
    | nil => rfl
    | cons c t => exact List.takeWhile_cons_of_neg (by simp [ht c rfl])
  have hdrop : t.dropWhile p = t := by
    cases t with
    | nil => rfl
    | cons c t => exact List.dropWhile_cons_of_neg (by simp [ht c rfl])
  rw [List.takeWhile_append_of_pos hs, List.dropWhile_append_of_pos hs, htake, hdrop,
    List.append_nil]
  exact ⟨rfl, rfl⟩

theorem front_unique {p : Byte → Bool} {s s' t t' : Str} (hs : ∀ c ∈ s, p c = true)
    (hs' : ∀ c ∈ s', p c = true) (ht : ∀ c, t.head? = some c → p c = false)
    (ht' : ∀ c, t'.head? = some c → p c = false) (h : s ++ t = s' ++ t') : s = s' ∧ t = t' := by
  obtain ⟨htake, hdrop⟩ := takeWhile_front hs ht
  obtain ⟨htake', hdrop'⟩ := takeWhile_front hs' ht'
  rw [h] at htake hdrop
  exact ⟨htake.symm.trans htake', hdrop.symm.trans hdrop'⟩

theorem head?_dropWhile {p : Byte → Bool} {s : Str} {c : Byte}
    (h : (s.dropWhile p).head? = some c) : p c = false := by
  have hne : s.dropWhile p ≠ [] := by
    intro hnil
    rw [hnil] at h
    cases h
  have hnot := List.head_dropWhile_not p hne
  rw [List.head?_eq_some_head hne] at h
  rw [Option.some.inj h] at hnot
  simpa using hnot

theorem strtol_numeral {blanks sign digits rest : Str} (hblanks : ∀ c ∈ blanks, isspace c = true)
    (hsign : sign = [] ∨ sign = [43] ∨ sign = [45]) (hdigits : Decimal digits)
    (hrest : ∀ c, rest.head? = some c → isdigit c = false) :
    strtol (blanks ++ (sign ++ (digits ++ rest))) =
      some (if sign = [45] then -(digitsVal digits : Int) else digitsVal digits, rest) := by
  obtain ⟨htake, hdrop⟩ := takeWhile_front hdigits.2 hrest
  have hfirst : ∀ c, (sign ++ (digits ++ rest)).head? = some c → isspace c = false := by
    intro c hc
    rcases hsign with rfl | rfl | rfl
    · obtain ⟨d, digits, rfl⟩ := List.exists_cons_of_ne_nil hdigits.1
      cases hc
      exact isspace_of_isdigit (hdigits.2 c List.mem_cons_self)
    · cases hc
      decide
    · cases hc
      decide
  have hskip := (takeWhile_front hblanks hfirst).2
  unfold strtol
  dsimp only
  rw [hskip]
  split
  · -- a minus sign
    rename_i t heq
    rcases hsign with rfl | rfl | rfl
    · obtain ⟨d, digits, rfl⟩ := List.exists_cons_of_ne_nil hdigits.1
      obtain ⟨rfl, -⟩ := List.cons.inj heq
      exact absurd (hdigits.2 45 List.mem_cons_self) (by decide)
    · exact absurd (List.cons.inj heq).1 (by decide)
    · obtain rfl : t = digits ++ rest := (List.cons.inj heq).2.symm
      dsimp only
      rw [htake, hdrop, if_neg hdigits.1, if_pos rfl, if_pos rfl]
  · -- a plus sign
    rename_i t heq
    rcases hsign with rfl | rfl | rfl
    · obtain ⟨d, digits, rfl⟩ := List.exists_cons_of_ne_nil hdigits.1
      obtain ⟨rfl, -⟩ := List.cons.inj heq
      exact absurd (hdigits.2 43 List.mem_cons_self) (by decide)
    · obtain rfl : t = digits ++ rest := (List.cons.inj heq).2.symm
      dsimp only
      rw [htake, hdrop, if_neg hdigits.1, if_neg (by simp), if_neg (by decide)]
    · exact absurd (List.cons.inj heq).1 (by decide)
  · rename_i hminus hplus
    rcases hsign with rfl | rfl | rfl
    · dsimp only
      rw [List.nil_append, htake, hdrop, if_neg hdigits.1, if_neg (by simp), if_neg (by simp)]
    · exact absurd rfl (hplus _)
    · exact absurd rfl (hminus _)

/-- Blanks, a sign and a text that starts with a digit. -/
theorem numeral_of_sign {s blanks sign t : Str} (hs : s = blanks ++ (sign ++ t))
    (hblanks : ∀ c ∈ blanks, isspace c = true) (hsign : sign = [] ∨ sign = [43] ∨ sign = [45])
    (hdigits : t.takeWhile isdigit ≠ []) :
    Numeral s (if sign = [45] then -(digitsVal (t.takeWhile isdigit) : Int)
      else digitsVal (t.takeWhile isdigit)) := by
  refine ⟨blanks, sign, t.takeWhile isdigit, t.dropWhile isdigit, ?_, hblanks, hsign,
    ⟨hdigits, fun c hc => List.mem_takeWhile_imp hc⟩, fun c hc => head?_dropWhile hc, rfl⟩
  rw [List.takeWhile_append_dropWhile]
  exact hs

theorem numeral_of_strtol {s rest : Str} {n : Int} (h : strtol s = some (n, rest)) :
    Numeral s n := by
  have hblanks : ∀ c ∈ s.takeWhile isspace, isspace c = true := fun c hc =>
    List.mem_takeWhile_imp hc
  have hs : s = s.takeWhile isspace ++ s.dropWhile isspace :=
    (List.takeWhile_append_dropWhile).symm
  unfold strtol at h
  dsimp only at h
  generalize s.dropWhile isspace = u at h hs
  split at h
  · -- a minus sign
    rename_i t
    dsimp only at h
    by_cases hnone : t.takeWhile isdigit = []
    · rw [if_pos hnone] at h
      cases h
    · have hnumeral := @numeral_of_sign s _ [45] t hs hblanks (by simp) hnone
      rw [if_neg hnone, if_pos rfl] at h
      cases h
      rwa [if_pos rfl] at hnumeral
  · -- a plus sign
    rename_i t
    dsimp only at h
    by_cases hnone : t.takeWhile isdigit = []
    · rw [if_pos hnone] at h
      cases h
    · have hnumeral := @numeral_of_sign s _ [43] t hs hblanks (by simp) hnone
      rw [if_neg hnone, if_neg (by simp)] at h
      cases h
      rwa [if_neg (by decide)] at hnumeral
  · dsimp only at h
    by_cases hnone : u.takeWhile isdigit = []
    · rw [if_pos hnone] at h
      cases h
    · have hnumeral := @numeral_of_sign s _ [] u hs hblanks (by simp) hnone
      rw [if_neg hnone, if_neg (by simp)] at h
      cases h
      rwa [if_neg (by simp)] at hnumeral

theorem numeral_iff_strtol {s : Str} {n : Int} :
    Numeral s n ↔ ∃ rest, strtol s = some (n, rest) := by
  constructor
  · rintro ⟨blanks, sign, digits, rest, rfl, hblanks, hsign, hdigits, hrest, rfl⟩
    exact ⟨rest, strtol_numeral hblanks hsign hdigits hrest⟩
  · rintro ⟨rest, h⟩
    exact numeral_of_strtol h

/-- What stands behind a NUL does not matter. -/
theorem numeral_cstr {s : Str} {n : Int} : Numeral (cstr s) n ↔ Numeral s n := by
  constructor
  · rintro ⟨blanks, sign, digits, rest, hs, hblanks, hsign, hdigits, hrest, hn⟩
    refine ⟨blanks, sign, digits, rest ++ s.dropWhile (· ≠ nul), ?_, hblanks, hsign, hdigits,
      fun c hc => ?_, hn⟩
    · have happ : s = cstr s ++ s.dropWhile (· ≠ nul) := (List.takeWhile_append_dropWhile).symm
      rw [hs] at happ
      simpa using happ
    · cases rest with
      | nil =>
          have hnul := head?_dropWhile (p := fun c => decide (c ≠ nul)) hc
          obtain rfl : c = nul := by simpa using hnul
          decide
      | cons d rest => exact hrest c hc
  · rintro ⟨blanks, sign, digits, rest, rfl, hblanks, hsign, hdigits, hrest, hn⟩
    have hkeep : ∀ t : Str, (∀ c ∈ t, c ≠ nul) → ∀ u, cstr (t ++ u) = t ++ cstr u := by
      intro t ht u
      exact List.takeWhile_append_of_pos fun c hc => by simpa using ht c hc
    have hb : ∀ c ∈ blanks, c ≠ nul := by
      rintro c hc rfl
      exact absurd (hblanks _ hc) (by decide)
    have hsg : ∀ c ∈ sign, c ≠ nul := by
      rintro c hc rfl
      rcases hsign with rfl | rfl | rfl
      · cases hc
      · exact absurd hc (by decide)
      · exact absurd hc (by decide)
    have hd : ∀ c ∈ digits, c ≠ nul := by
      rintro c hc rfl
      exact absurd (hdigits.2 _ hc) (by decide)
    refine ⟨blanks, sign, digits, cstr rest, ?_, hblanks, hsign, hdigits, fun c hc => ?_, hn⟩
    · rw [hkeep _ hb, hkeep _ hsg, hkeep _ hd]
    · cases rest with
      | nil => cases hc
      | cons d rest =>
          by_cases hnul : d = nul
          · simp [cstr, hnul] at hc
          · rw [cstr, List.takeWhile_cons_of_pos (by simpa using hnul)] at hc
            exact hrest c hc

/-- The texts and numbers of `stoi`. -/
theorem stoi_ok_iff {s : Str} {n : Int} :
    stoi s = .ok n ↔ Numeral s n ∧ -2 ^ 31 ≤ n ∧ n < 2 ^ 31 := by
  rw [← numeral_cstr, numeral_iff_strtol]
  unfold stoi
  cases hstrtol : strtol (cstr s) with
  | none => simp
  | some result =>
      obtain ⟨m, rest⟩ := result
      dsimp only
      constructor
      · intro h
        split at h
        · rename_i hbounds
          cases h
          exact ⟨⟨rest, rfl⟩, hbounds⟩
        · cases h
      · rintro ⟨⟨rest', heq⟩, hbounds⟩
        cases heq
        rw [if_pos hbounds]

theorem Numeral.unique {s : Str} {m n : Int} (hm : Numeral s m) (hn : Numeral s n) : m = n := by
  obtain ⟨rest, hm⟩ := numeral_iff_strtol.mp hm
  obtain ⟨rest', hn⟩ := numeral_iff_strtol.mp hn
  rw [hm] at hn
  cases hn
  rfl

/-- The number of a decimal text is its value. -/
theorem Decimal.numeral {s : Str} (h : Decimal s) : Numeral s (digitsVal s) :=
  ⟨[], [], s, [], by simp, by simp, by simp, h, by simp, by simp⟩

theorem Decimal.stoi_ok {s : Str} (h : Decimal s) (hlt : digitsVal s < 2 ^ 31) :
    stoi s = .ok (digitsVal s : Int) :=
  stoi_ok_iff.mpr ⟨h.numeral, by omega, by omega⟩

end DianProtocol.Cpp
