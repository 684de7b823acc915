import DianProtocol.Py.Delivery

set_option autoImplicit false

/-! # Ids in texts

`str` writes a `UUID` as 32 hexadecimal digits in groups, and `uuid.UUID` takes the separators out
again. The id of a session goes this way: from SETUP into the header of its answer, through the
client, and back to the server with PLAY and TEARDOWN.
-/

namespace DianProtocol.Py

/-! ## Hexadecimal digits -/

/-- The digits of a number, as characters. -/
def hexText (ds : List Nat) : Text := ds.map Nat.digitChar

/-- The number with these digits. -/
def hexValue (ds : List Nat) : Nat := ds.foldl (fun n d => 16 * n + d) 0

theorem value_digitChar {d : Nat} (h : d < 16) : value 16 d.digitChar = some d := by
  have hall : ∀ d < 16, value 16 (Nat.digitChar d) = some d := by decide
  exact hall d h

/-- No digit is white space, a sign, a separator, or part of a prefix. -/
theorem digitChar_plain {d : Nat} (h : d < 16) :
    isspace d.digitChar = false ∧ d.digitChar ∉ text "+-:{}_xX\n\r\x00" := by
  have hall : ∀ d < 16, isspace (Nat.digitChar d) = false ∧
      Nat.digitChar d ∉ text "+-:{}_xX\n\r\x00" := by decide
  exact hall d h

theorem not_mem_hexText {ds : List Nat} (h : ∀ d ∈ ds, d < 16) {c : Char}
    (hc : c ∈ text "+-:{}_xX\n\r\x00") : c ∉ hexText ds := by
  intro hmem
  obtain ⟨d, hd, rfl⟩ := List.mem_map.mp hmem
  exact (digitChar_plain (h d hd)).2 hc

theorem digits_hexText {ds : List Nat} (h : ∀ d ∈ ds, d < 16) (n : Nat) :
    digits 16 n (hexText ds) = some (ds.foldl (fun n d => 16 * n + d) n) := by
  induction ds generalizing n with
  | nil => rfl
  | cons d ds ih =>
      have hd := h d (by simp)
      have hne : d.digitChar ≠ '_' := by
        intro heq
        exact (digitChar_plain hd).2 (by rw [heq]; decide)
      have hstep : digits 16 n (hexText (d :: ds)) =
          (value 16 d.digitChar).bind fun v => digits 16 (16 * n + v) (hexText ds) := by
        show digits 16 n (d.digitChar :: hexText ds) = _
        rw [digits]
        intro c' t' hc'
        exact absurd hc' hne
      rw [hstep, value_digitChar hd, Option.bind_some, ih fun d' hd' => h d' (by simp [hd'])]
      rfl

theorem unsigned_hexText {ds : List Nat} (h : ∀ d ∈ ds, d < 16) (hne : ds ≠ []) :
    unsigned 16 (hexText ds) = some (hexValue ds) := by
  obtain ⟨d, ds, rfl⟩ := List.exists_cons_of_ne_nil hne
  show (value 16 d.digitChar).bind (fun v => digits 16 v (hexText ds)) = _
  rw [value_digitChar (h d (by simp)), Option.bind_some,
    digits_hexText fun d' hd' => h d' (by simp [hd'])]
  simp [hexValue]

/-- The digits that `str` writes. -/
theorem toDigits_hexText (n : Nat) :
    ∃ ds, Nat.toDigits 16 n = hexText ds ∧ (∀ d ∈ ds, d < 16) ∧ hexValue ds = n := by
  induction n using Nat.strong_induction_on with
  | _ n ih =>
      by_cases hsmall : n < 16
      · refine ⟨[n], Nat.toDigits_of_lt_base hsmall, by simpa using hsmall, ?_⟩
        simp [hexValue]
      · have hmod : n % 16 < 16 := Nat.mod_lt n (by decide)
        obtain ⟨ds, hds, hlt, hvalue⟩ := ih (n / 16) (by omega)
        refine ⟨ds ++ [n % 16], ?_, ?_, ?_⟩
        · rw [Nat.toDigits_of_base_le (by decide) (by omega), hds]
          simp [hexText]
        · intro d hd
          rcases List.mem_append.mp hd with hd | hd
          · exact hlt d hd
          · rw [List.mem_singleton.mp hd]
            exact hmod
        · unfold hexValue at hvalue ⊢
          rw [List.foldl_append, hvalue]
          simp
          omega

/-! ## `uuid.UUID` -/

/-- The 32 digits of an id. -/
theorem exists_hex {id : UUID} (h : id < 2 ^ 128) :
    ∃ ds : List Nat, List.replicate (32 - (Nat.toDigits 16 id).length) '0' ++ Nat.toDigits 16 id =
      hexText ds ∧ (∀ d ∈ ds, d < 16) ∧ hexValue ds = id ∧ ds.length = 32 := by
  obtain ⟨ds, hds, hlt, hvalue⟩ := toDigits_hexText id
  have hlen : (Nat.toDigits 16 id).length ≤ 32 := by
    rw [Nat.length_toDigits_le_iff (by decide) (by decide)]
    exact h
  have hdslen : ds.length = (Nat.toDigits 16 id).length := by
    rw [hds, hexText, List.length_map]
  refine ⟨List.replicate (32 - (Nat.toDigits 16 id).length) 0 ++ ds, ?_, ?_, ?_, ?_⟩
  · rw [hexText, List.map_append, List.map_replicate, ← hexText, ← hds]
    rfl
  · intro d hd
    rcases List.mem_append.mp hd with hd | hd
    · rw [(List.mem_replicate.mp hd).2]
      decide
    · exact hlt d hd
  · have hzero : ∀ k, (List.replicate k 0).foldl (fun n d => 16 * n + d) 0 = 0 := by
      intro k
      induction k with
      | zero => rfl
      | succ k ih => exact ih
    rw [hexValue, List.foldl_append, hzero]
    exact hvalue
  · rw [List.length_append, List.length_replicate, hdslen]
    omega

/-- A pattern with a character that the text does not have is not removed. -/
theorem remove_of_not_mem {pattern t : Text} {c : Char} (hc : c ∈ pattern) (ht : c ∉ t) :
    remove pattern 0 t = t := by
  induction t with
  | nil => rfl
  | cons a t ih =>
      have hno : ¬ pattern <+: a :: t := fun hpre => ht (hpre.subset hc)
      rw [remove, if_neg hno, ih fun hmem => ht (List.mem_cons_of_mem a hmem)]

/-- The parts of an id between its separators. -/
theorem str_parts (t : Text) :
    t.take 8 ++ (t.drop 8).take 4 ++ (t.drop 12).take 4 ++ (t.drop 16).take 4 ++ t.drop 20 = t := by
  have hdrop : ∀ m n, (t.drop m).drop n = t.drop (m + n) := fun m n => List.drop_drop
  calc t.take 8 ++ (t.drop 8).take 4 ++ (t.drop 12).take 4 ++ (t.drop 16).take 4 ++ t.drop 20
      = t.take 8 ++ ((t.drop 8).take 4 ++ ((t.drop 12).take 4 ++ ((t.drop 16).take 4 ++
          (t.drop 16).drop 4))) := by
        rw [hdrop]
        simp only [List.append_assoc]
    _ = t.take 8 ++ ((t.drop 8).take 4 ++ ((t.drop 12).take 4 ++ (t.drop 12).drop 4)) := by
        rw [List.take_append_drop, hdrop]
    _ = t.take 8 ++ ((t.drop 8).take 4 ++ (t.drop 8).drop 4) := by
        rw [List.take_append_drop, hdrop]
    _ = t := by
        rw [List.take_append_drop, List.take_append_drop]

/-- A text of hexadecimal digits has no prefix. -/
theorem hexadecimal_hexText {ds : List Nat} (h : ∀ d ∈ ds, d < 16) :
    hexadecimal (hexText ds) = unsigned 16 (hexText ds) := by
  unfold hexadecimal
  split
  · rename_i x t heq
    have hx : ¬ (x = 'x' ∨ x = 'X') := by
      have hmem : x ∈ hexText ds := by
        rw [heq]
        simp
      rintro (rfl | rfl)
      · exact not_mem_hexText h (by decide) hmem
      · exact not_mem_hexText h (by decide) hmem
    rw [if_neg hx, heq]
  · rfl

theorem signed_hexText {ds : List Nat} (h : ∀ d ∈ ds, d < 16) (hne : ds ≠ []) :
    signed hexadecimal (hexText ds) = some (hexValue ds : Int) := by
  have hspace : ∀ c ∈ hexText ds, isspace c = false := by
    intro c hc
    obtain ⟨d, hd, rfl⟩ := List.mem_map.mp hc
    exact (digitChar_plain (h d hd)).1
  unfold signed
  rw [strip_of_forall hspace]
  -- the first digit is no sign
  split
  · rename_i t heq
    exact absurd (heq ▸ List.mem_cons_self) (not_mem_hexText h (c := '+') (by decide))
  · rename_i t heq
    exact absurd (heq ▸ List.mem_cons_self) (not_mem_hexText h (c := '-') (by decide))
  · rw [hexadecimal_hexText h, unsigned_hexText h hne]
    rfl

/-- The characters of an id are its digits, and the separators. -/
theorem mem_str {ds : List Nat} {id : UUID}
    (hhex : List.replicate (32 - (Nat.toDigits 16 id).length) '0' ++ Nat.toDigits 16 id =
      hexText ds) {c : Char} (hc : c ∈ UUID.str id) : c ∈ hexText ds ∨ c = '-' := by
  simp only [UUID.str, hhex, List.mem_append] at hc
  have hdash : ∀ c, c ∈ text "-" → c = '-' := by
    intro c hmem
    simpa [text] using hmem
  rcases hc with (((((((hc | hc) | hc) | hc) | hc) | hc) | hc) | hc) | hc
  · exact Or.inl (List.mem_of_mem_take hc)
  · exact Or.inr (hdash c hc)
  · exact Or.inl (List.mem_of_mem_drop (List.mem_of_mem_take hc))
  · exact Or.inr (hdash c hc)
  · exact Or.inl (List.mem_of_mem_drop (List.mem_of_mem_take hc))
  · exact Or.inr (hdash c hc)
  · exact Or.inl (List.mem_of_mem_drop (List.mem_of_mem_take hc))
  · exact Or.inr (hdash c hc)
  · exact Or.inl (List.mem_of_mem_drop hc)

/-- Without the separators an id is its digits. -/
theorem filter_str {ds : List Nat} {id : UUID} (hlt : ∀ d ∈ ds, d < 16)
    (hhex : List.replicate (32 - (Nat.toDigits 16 id).length) '0' ++ Nat.toDigits 16 id =
      hexText ds) : (UUID.str id).filter (· ≠ '-') = hexText ds := by
  have hpart : ∀ t : Text, t ⊆ hexText ds → t.filter (· ≠ '-') = t := by
    intro t ht
    rw [List.filter_eq_self]
    intro c hc
    have hne : c ≠ '-' := by
      rintro rfl
      exact not_mem_hexText hlt (by decide) (ht hc)
    simp [hne]
  have hdash : (text "-").filter (· ≠ '-') = [] := by decide
  have htake : ∀ m n, ((hexText ds).drop m).take n ⊆ hexText ds := fun m n c hc =>
    List.mem_of_mem_drop (List.mem_of_mem_take hc)
  simp only [UUID.str, hhex, List.filter_append, hdash, List.append_nil,
    hpart _ (List.take_subset 8 _), hpart _ (htake _ _), hpart _ (List.drop_subset _ _)]
  exact str_parts _

theorem not_mem_str {id : UUID} (h : id < 2 ^ 128) {c : Char} (hdash : c ≠ '-')
    (hc : c ∈ text "+-:{}_xX\n\r\x00") : c ∉ UUID.str id := by
  obtain ⟨ds, hhex, hlt, -, -⟩ := exists_hex h
  intro hmem
  rcases mem_str hhex hmem with hmem | heq
  · exact not_mem_hexText hlt hc hmem
  · exact hdash heq

/-- **Ids go through texts**: `uuid.UUID` reads back what `str` has written. -/
theorem UUID.ofText_str {id : UUID} (h : id < 2 ^ 128) : UUID.ofText (UUID.str id) = some id := by
  obtain ⟨ds, hhex, hlt, hvalue, hlen⟩ := exists_hex h
  have hcolon : ':' ∉ UUID.str id := not_mem_str h (by decide) (by decide)
  have hbrace : ∀ c ∈ UUID.str id, decide (c = '\x7b' ∨ c = '\x7d') = false := by
    intro c hc
    rw [decide_eq_false_iff_not]
    rintro (rfl | rfl)
    · exact not_mem_str h (by decide) (by decide) hc
    · exact not_mem_str h (by decide) (by decide) hc
  have hfirst : (UUID.str id).dropWhile (fun c => decide (c = '\x7b' ∨ c = '\x7d')) =
      UUID.str id := by
    rw [List.dropWhile_eq_self_iff]
    intro hpos
    simp [hbrace _ (List.getElem_mem hpos)]
  have hlast : (UUID.str id).rdropWhile (fun c => decide (c = '\x7b' ∨ c = '\x7d')) =
      UUID.str id := by
    rw [List.rdropWhile_eq_self_iff]
    intro hne
    simp [hbrace _ (List.getLast_mem hne)]
  have hne : ds ≠ [] := by
    rintro rfl
    cases hlen
  have hlength : (hexText ds).length = 32 := by
    rw [hexText, List.length_map, hlen]
  have hrange : (0 : Int) ≤ id ∧ (id : Int) < 2 ^ 128 :=
    ⟨Int.natCast_nonneg id, by exact_mod_cast h⟩
  unfold UUID.ofText
  dsimp only
  rw [remove_of_not_mem (c := ':') (by decide) hcolon,
    remove_of_not_mem (c := ':') (by decide) hcolon, hfirst, hlast, filter_str hlt hhex,
    if_pos hlength, signed_hexText hlt hne, hvalue, Option.bind_some, if_pos hrange,
    Int.toNat_natCast]

/-- An id is a legal value of a header. -/
theorem legalValue_str {id : UUID} (h : id < 2 ^ 128) : LegalValue (UUID.str id) := by
  obtain ⟨ds, hhex, hlt, -, -⟩ := exists_hex h
  refine ⟨strip_of_forall fun c hc => ?_, not_mem_str h (by decide) (by decide)⟩
  rcases mem_str hhex hc with hmem | rfl
  · obtain ⟨d, hd, rfl⟩ := List.mem_map.mp hmem
    exact (digitChar_plain (hlt d hd)).1
  · decide

end DianProtocol.Py
