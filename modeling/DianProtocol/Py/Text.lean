import Mathlib

set_option autoImplicit false

/-! # Python's `str`, `bytes` and `dict`

A `str` is a list of characters, `bytes` are a list of bytes, and `encode` and `decode` go between
them in UTF-8. `strip` and `int` use Unicode's white space and decimal digits as Python does. A
`dict` keeps its items in the order in which their keys were first set.
-/

namespace DianProtocol.Py

abbrev Text := List Char

abbrev Bytes := List UInt8

/-- A string literal. -/
def text (s : String) : Text := s.toList

/-! ## UTF-8 -/

/-- `str.encode` -/
def encode (t : Text) : Bytes := t.flatMap String.utf8EncodeChar

/-- `bytes.decode`; `none` is a `UnicodeDecodeError`. -/
def decode (b : Bytes) : Option Text := b.toByteArray.utf8Decode?.map Array.toList

theorem decode_encode (t : Text) : decode (encode t) = some t := by
  show t.utf8Encode.utf8Decode?.map Array.toList = some t
  rw [List.utf8Decode?_utf8Encode]
  rfl

/-- What can be decoded is the encoding of what it is decoded to. -/
theorem encode_of_decode {b : Bytes} {t : Text} (h : decode b = some t) : encode t = b := by
  have hsome : b.toByteArray.utf8Decode?.isSome := by
    rw [decode, Option.map_eq_some_iff] at h
    obtain ⟨chars, hchars, -⟩ := h
    rw [hchars]
    rfl
  obtain ⟨u, hu⟩ := ByteArray.isSome_utf8Decode?_iff.mp hsome
  have hbytes : b = encode u := by
    have hlist : b.toByteArray = (encode u).toByteArray := hu
    exact List.toByteArray_inj.mp hlist
  rw [hbytes, decode_encode] at h
  rw [hbytes, Option.some.inj h]

theorem encode_append (t t' : Text) : encode (t ++ t') = encode t ++ encode t' :=
  List.flatMap_append

/-- The byte of an ASCII character occurs in the encoding of that character only. -/
theorem mem_utf8EncodeChar {c : Char} {b : UInt8} (hb : b.toNat < 128)
    (h : b ∈ String.utf8EncodeChar c) : c.toNat = b.toNat := by
  -- every byte of a longer encoding is at least 128
  have hlead : ∀ n k lead, 128 ≤ lead → 0 < k → lead + k ≤ 256 →
      b ≠ UInt8.ofNat (n % k + lead) := by
    rintro n k lead hlow hk hhigh rfl
    have hmod := Nat.mod_lt n hk
    rw [UInt8.toNat_ofNat'] at hb
    omega
  unfold String.utf8EncodeChar at h
  dsimp only at h
  split at h
  · rename_i hle
    rw [List.mem_singleton.mp h, UInt8.toNat_ofNat']
    show c.toNat = c.toNat % 2 ^ 8
    have hle' : c.toNat ≤ 127 := hle
    omega
  · exfalso
    split at h
    · simp only [List.mem_cons, List.not_mem_nil, or_false] at h
      rcases h with h | h
      · exact hlead _ _ _ (by omega) (by omega) (by omega) h
      · exact hlead _ _ _ (by omega) (by omega) (by omega) h
    split at h
    · simp only [List.mem_cons, List.not_mem_nil, or_false] at h
      rcases h with h | h | h
      · exact hlead _ _ _ (by omega) (by omega) (by omega) h
      · exact hlead _ _ _ (by omega) (by omega) (by omega) h
      · exact hlead _ _ _ (by omega) (by omega) (by omega) h
    · simp only [List.mem_cons, List.not_mem_nil, or_false] at h
      rcases h with h | h | h | h
      · exact hlead _ _ _ (by omega) (by omega) (by omega) h
      · exact hlead _ _ _ (by omega) (by omega) (by omega) h
      · exact hlead _ _ _ (by omega) (by omega) (by omega) h
      · exact hlead _ _ _ (by omega) (by omega) (by omega) h

/-- `'\n'` -/
def lf : UInt8 := 10

/-- `b"\r\n"` -/
def crlf : Bytes := encode (text "\r\n")

/-- An ASCII byte stands for its character only. -/
theorem not_mem_encode {t : Text} {c : Char} {b : UInt8} (hb : b.toNat < 128)
    (hc : c.toNat = b.toNat) (h : c ∉ t) : b ∉ encode t := by
  intro hmem
  obtain ⟨c', hc', hb'⟩ := List.mem_flatMap.mp hmem
  have hval : c'.toNat = c.toNat := (mem_utf8EncodeChar hb hb').trans hc.symm
  have heq : c' = c := Char.ext (UInt32.toNat_inj.mp hval)
  exact h (heq ▸ hc')

theorem lf_not_mem_encode {t : Text} (h : '\n' ∉ t) : lf ∉ encode t :=
  not_mem_encode (by decide) rfl h

theorem encode_injective : Function.Injective encode := by
  intro t t' h
  have hdecode := congrArg decode h
  rw [decode_encode, decode_encode] at hdecode
  exact Option.some.inj hdecode

/-- A text with an ASCII character at its start is encoded with that character's byte there. -/
theorem head?_encode {t : Text} {b : UInt8} (hb : b.toNat < 128) (h : (encode t).head? = some b) :
    ∃ c rest, t = c :: rest ∧ c.toNat = b.toNat := by
  cases t with
  | nil => cases h
  | cons c t =>
      have hne : String.utf8EncodeChar c ≠ [] := by simp
      have happ : encode (c :: t) = String.utf8EncodeChar c ++ encode t := List.flatMap_cons
      rw [happ, List.head?_append_of_ne_nil _ hne] at h
      exact ⟨c, t, rfl, mem_utf8EncodeChar hb (List.mem_of_head? h)⟩

/-- `head?_encode` for the end of a text. -/
theorem getLast?_encode {t : Text} {b : UInt8} (hb : b.toNat < 128)
    (h : (encode t).getLast? = some b) : ∃ rest c, t = rest ++ [c] ∧ c.toNat = b.toNat := by
  rcases List.eq_nil_or_concat' t with rfl | ⟨rest, c, rfl⟩
  · cases h
  · have hne : String.utf8EncodeChar c ≠ [] := by simp
    have hsingle : encode [c] = String.utf8EncodeChar c := by simp [encode]
    rw [encode_append, hsingle, List.getLast?_append_of_ne_nil _ hne] at h
    exact ⟨rest, c, rfl, mem_utf8EncodeChar hb (List.mem_of_getLast? h)⟩

/-- An ASCII byte at the end of an encoding is the last character. -/
theorem concat_of_encode {t : Text} {b : Bytes} {c : Char} {last : UInt8} (hlast : last.toNat < 128)
    (hc : encode [c] = [last]) (h : encode t = b ++ [last]) :
    ∃ t', t = t' ++ [c] ∧ encode t' = b := by
  have hmem : last ∈ String.utf8EncodeChar c := by
    have hsingle : encode [c] = String.utf8EncodeChar c := by simp [encode]
    rw [← hsingle, hc]
    simp
  have hend : (encode t).getLast? = some last := by rw [h, List.getLast?_concat]
  obtain ⟨t', c', rfl, hc'⟩ := getLast?_encode hlast hend
  have hval : c'.toNat = c.toNat := hc'.trans (mem_utf8EncodeChar hlast hmem).symm
  obtain rfl : c' = c := Char.ext (UInt32.toNat_inj.mp hval)
  rw [encode_append, hc] at h
  exact ⟨t', rfl, (List.append_inj' h rfl).1⟩

/-! ## `strip` and `int` -/

/-- `str.isspace` for one character. -/
def isspace (c : Char) : Bool :=
  let n := c.toNat
  (9 ≤ n && n ≤ 13) || (28 ≤ n && n ≤ 32) || n = 0x85 || n = 0xa0 || n = 0x1680 ||
    (0x2000 ≤ n && n ≤ 0x200a) || n = 0x2028 || n = 0x2029 || n = 0x202f || n = 0x205f || n = 0x3000

/-- `str.strip` -/
def strip (t : Text) : Text := (t.dropWhile isspace).rdropWhile isspace

/-- The digits 0 of Unicode's decimal digits; each is followed by the other nine. -/
def zeros : List Nat :=
  [0x30, 0x660, 0x6f0, 0x7c0, 0x966, 0x9e6, 0xa66, 0xae6, 0xb66, 0xbe6, 0xc66, 0xce6, 0xd66, 0xde6,
    0xe50, 0xed0, 0xf20, 0x1040, 0x1090, 0x17e0, 0x1810, 0x1946, 0x19d0, 0x1a80, 0x1a90, 0x1b50,
    0x1bb0, 0x1c40, 0x1c50, 0xa620, 0xa8d0, 0xa900, 0xa9d0, 0xa9f0, 0xaa50, 0xabf0, 0xff10, 0x104a0,
    0x10d30, 0x11066, 0x110f0, 0x11136, 0x111d0, 0x112f0, 0x11450, 0x114d0, 0x11650, 0x116c0,
    0x11730, 0x118e0, 0x11950, 0x11c50, 0x11d50, 0x11da0, 0x11f50, 0x16a60, 0x16ac0, 0x16b50,
    0x1d7ce, 0x1d7d8, 0x1d7e2, 0x1d7ec, 0x1d7f6, 0x1e140, 0x1e2f0, 0x1e4f0, 0x1e950, 0x1fbf0]

/-- The value of a decimal digit. -/
def digit (c : Char) : Option Nat :=
  (zeros.find? fun z => z ≤ c.toNat && c.toNat < z + 10).map fun z => c.toNat - z

/-- The value of a letter as a digit. -/
def letter (c : Char) : Option Nat :=
  if c.isLower then some (c.toNat - 87) else if c.isUpper then some (c.toNat - 55) else none

/-- The value of a digit in a base. -/
def value (base : Nat) (c : Char) : Option Nat := ((digit c).or (letter c)).filter (· < base)

/-- The rest of a number after its first digit: digits, each after at most one underscore. -/
def digits (base n : Nat) : Text → Option Nat
  | [] => some n
  -- a second underscore, or one at the end, is no digit
  | '_' :: c :: t => (value base c).bind fun d => digits base (base * n + d) t
  | c :: t => (value base c).bind fun d => digits base (base * n + d) t

/-- A number without a sign. -/
def unsigned (base : Nat) : Text → Option Nat
  | [] => none
  | c :: t => (value base c).bind fun d => digits base d t

/-- A number with or without a sign, and with white space around it. -/
def signed (unsigned : Text → Option Nat) (t : Text) : Option Int :=
  match strip t with
  | '+' :: t => (unsigned t).map fun n => (n : Int)
  | '-' :: t => (unsigned t).map fun n => -(n : Int)
  | t => (unsigned t).map fun n => (n : Int)

/-- `int(t)`, without the limit that later interpreters put on the number of digits; `none` is a
`ValueError`. -/
def int (t : Text) : Option Int := signed (unsigned 10) t

/-- `str(n)` of an integer. -/
def str (n : Int) : Text := (toString n).toList

theorem digit_of_isDigit {c : Char} (h : c.isDigit) : digit c = some (c.toNat - 48) := by
  have hc : 48 ≤ c.toNat ∧ c.toNat ≤ 57 := by
    simpa [Char.isDigit, UInt32.le_iff_toNat_le] using h
  have hfind : zeros.find? (fun z => z ≤ c.toNat && c.toNat < z + 10) = some 0x30 := by
    rw [zeros, List.find?_cons_of_pos]
    simp only [Bool.and_eq_true, decide_eq_true_eq]
    omega
  rw [digit, hfind]
  rfl

theorem value_of_isDigit {c : Char} (h : c.isDigit) : value 10 c = some (c.toNat - 48) := by
  have hc : 48 ≤ c.toNat ∧ c.toNat ≤ 57 := by
    simpa [Char.isDigit, UInt32.le_iff_toNat_le] using h
  have hlt : c.toNat - 48 < 10 := by omega
  simp [value, digit_of_isDigit h, hlt]

theorem digits_of_isDigit {t : Text} (h : ∀ c ∈ t, c.isDigit) (n : Nat) :
    digits 10 n t = some (Nat.ofDigitChars 10 t n) := by
  induction t generalizing n with
  | nil => rfl
  | cons c t ih =>
      have hc := value_of_isDigit (h c (by simp))
      have hne : c ≠ '_' := by
        rintro rfl
        exact absurd (h '_' (by simp)) (by decide)
      have hstep : digits 10 n (c :: t) =
          (value 10 c).bind fun d => digits 10 (10 * n + d) t := by
        rw [digits]
        intro c' t' hc'
        exact absurd hc' hne
      rw [hstep, hc, Option.bind_some, ih (fun c' hc' => h c' (by simp [hc'])),
        Nat.ofDigitChars_cons]
      rfl

theorem strip_of_forall {t : Text} (h : ∀ c ∈ t, isspace c = false) : strip t = t := by
  have hdrop : t.dropWhile isspace = t := by
    rw [List.dropWhile_eq_self_iff]
    intro hpos
    simp [h _ (List.getElem_mem hpos)]
  rw [strip, hdrop, List.rdropWhile_eq_self_iff]
  intro hne
  simp [h _ (List.getLast_mem hne)]

theorem strip_length_le (t : Text) : (strip t).length ≤ t.length :=
  calc (strip t).length
      ≤ (t.dropWhile isspace).length := (List.rdropWhile_prefix _ _).length_le
    _ ≤ t.length := (List.dropWhile_suffix _).length_le

/-- White space at the start is stripped. -/
theorem strip_cons {t : Text} {c : Char} (hc : isspace c = true) : strip (c :: t) = strip t := by
  unfold strip
  rw [List.dropWhile_cons_of_pos hc]

/-- White space at the end is stripped. -/
theorem strip_concat {t : Text} {c : Char} (hc : isspace c = true) :
    strip (t ++ [c]) = strip t := by
  unfold strip
  rw [List.dropWhile_append]
  by_cases ht : t.dropWhile isspace = []
  · -- there is nothing but white space
    simp [ht, hc]
  · have hne : (t.dropWhile isspace).isEmpty = false := by simp [ht]
    rw [hne, if_neg (by simp), List.rdropWhile_concat_pos _ _ _ hc]

theorem isspace_of_isDigit {c : Char} (h : c.isDigit) : isspace c = false := by
  have hdigit : 48 ≤ c.toNat ∧ c.toNat ≤ 57 := by
    simpa [Char.isDigit, UInt32.le_iff_toNat_le] using h
  simp [isspace]
  omega

theorem int_of_isDigit {t : Text} (hne : t ≠ []) (h : ∀ c ∈ t, c.isDigit) :
    int t = some (Nat.ofDigitChars 10 t 0 : Int) := by
  have hspace : ∀ c ∈ t, isspace c = false := fun c hc => isspace_of_isDigit (h c hc)
  obtain ⟨c, rest, rfl⟩ := List.exists_cons_of_ne_nil hne
  have hc := h c (by simp)
  have hunsigned : unsigned 10 (c :: rest) = some (Nat.ofDigitChars 10 (c :: rest) 0) := by
    rw [unsigned, value_of_isDigit hc, Option.bind_some,
      digits_of_isDigit (fun c' hc' => h c' (by simp [hc'])), Nat.ofDigitChars_cons]
    simp
  unfold int signed
  rw [strip_of_forall hspace]
  -- a sign is not a digit
  split
  · rename_i heq
    cases heq
    exact absurd hc (by decide)
  · rename_i heq
    cases heq
    exact absurd hc (by decide)
  · rw [hunsigned]
    rfl

theorem str_natCast (n : Nat) : str (n : Int) = Nat.toDigits 10 n := by
  show (toString (n : Int)).toList = _
  rw [← Nat.toList_repr]
  rfl

theorem str_isDigit {n : Nat} {c : Char} (h : c ∈ str (n : Int)) : c.isDigit := by
  rw [str_natCast] at h
  exact Nat.isDigit_of_mem_toDigits (by decide) (by decide) h

theorem str_ne_nil (n : Nat) : str (n : Int) ≠ [] := by
  rw [str_natCast]
  exact Nat.toDigits_ne_nil

/-- `int` reads back what `str` writes. -/
theorem int_str (n : Nat) : int (str (n : Int)) = some (n : Int) :=
  calc int (str (n : Int))
      = some (Nat.ofDigitChars 10 (str (n : Int)) 0 : Int) :=
        int_of_isDigit (str_ne_nil n) fun c hc => str_isDigit hc
    _ = some (n : Int) := by rw [str_natCast, Nat.ofDigitChars_ten_toDigits]

/-- A text with no white space at its ends is not changed. -/
theorem strip_of_ends {t : Text} (hfirst : ∀ c, t.head? = some c → isspace c = false)
    (hlast : ∀ c, t.getLast? = some c → isspace c = false) : strip t = t := by
  have hdrop : t.dropWhile isspace = t := by
    cases t with
    | nil => rfl
    | cons c t =>
        have hc := hfirst c rfl
        exact List.dropWhile_cons_of_neg (by simp [hc])
  rw [strip, hdrop, List.rdropWhile_eq_self_iff]
  intro hne
  simp [hlast _ (List.getLast?_eq_some_getLast hne)]

theorem lf_not_mem_str (n : Int) : '\n' ∉ str n := by
  have hdigits : ∀ k : Nat, '\n' ∉ str (k : Int) := fun k hmem =>
    absurd (str_isDigit hmem) (by decide)
  cases n with
  | ofNat k => exact hdigits k
  | negSucc k =>
      have hneg : str (Int.negSucc k) = '-' :: str ((k + 1 : Nat) : Int) := by
        show ("-" ++ Nat.repr (k + 1)).toList = '-' :: (Nat.repr (k + 1)).toList
        rw [String.toList_append]
        rfl
      rw [hneg, List.mem_cons, not_or]
      exact ⟨by decide, hdigits (k + 1)⟩

/-! ## Dictionaries -/

/-- A `dict` from strings to strings. -/
@[ext]
structure Dict where
  items : List (Text × Text)
  nodup : (items.map Prod.fst).Nodup

namespace Dict

instance : EmptyCollection Dict := ⟨⟨[], List.nodup_nil⟩⟩

/-- `d.get(key)` -/
def get? (d : Dict) (key : Text) : Option Text := d.items.lookup key

/-- The items after `d[key] = value`. -/
def setItems (key value : Text) : List (Text × Text) → List (Text × Text)
  | [] => [(key, value)]
  -- a key that is there keeps its place
  | (k, v) :: items => if k = key then (k, value) :: items else (k, v) :: setItems key value items

theorem setItems_of_not_mem {key value : Text} {items : List (Text × Text)}
    (h : key ∉ items.map Prod.fst) : setItems key value items = items ++ [(key, value)] := by
  induction items with
  | nil => rfl
  | cons kv items ih =>
      obtain ⟨hne, hnot⟩ := not_or.mp (mt List.mem_cons.mpr h)
      rw [setItems, if_neg fun heq => hne heq.symm, ih hnot]
      rfl

theorem setItems_keys {key value : Text} {items : List (Text × Text)}
    (h : key ∈ items.map Prod.fst) :
    (setItems key value items).map Prod.fst = items.map Prod.fst := by
  induction items with
  | nil => simp at h
  | cons kv items ih =>
      rw [setItems]
      split
      · rfl
      · rename_i hne
        rcases List.mem_cons.mp h with heq | hmem
        · exact absurd heq.symm hne
        · rw [List.map_cons, List.map_cons, ih hmem]

/-- `d[key] = value` -/
def set (d : Dict) (key value : Text) : Dict where
  items := setItems key value d.items
  nodup := by
    by_cases h : key ∈ d.items.map Prod.fst
    · -- the keys stay
      rw [setItems_keys h]
      exact d.nodup
    · -- the key comes last
      rw [setItems_of_not_mem h, List.map_append, List.nodup_append]
      refine ⟨d.nodup, by simp, fun a ha b hb => ?_⟩
      rw [List.mem_singleton.mp hb]
      rintro rfl
      exact h ha

theorem lookup_setItems (key value key' : Text) (items : List (Text × Text)) :
    (setItems key value items).lookup key' =
      if key' = key then some value else items.lookup key' := by
  induction items with
  | nil =>
      by_cases h : key' = key
      · simp [setItems, h]
      · have hne : (key' == key) = false := by simp [h]
        simp [setItems, List.lookup, hne, h]
  | cons kv items ih =>
      obtain ⟨k, v⟩ := kv
      rw [setItems]
      split
      · rename_i hk
        subst hk
        by_cases h : key' = k
        · simp [h]
        · have hne : (key' == k) = false := by simp [h]
          simp [List.lookup, hne, h]
      · rename_i hk
        by_cases h : key' = k
        · subst h
          simp [hk]
        · have hne : (key' == k) = false := by simp [h]
          simp only [List.lookup, hne, ih]

theorem get?_set (d : Dict) (key value key' : Text) :
    (d.set key value).get? key' = if key' = key then some value else d.get? key' :=
  lookup_setItems key value key' d.items

/-- An item of `d[key] = value` is the new one or an old one. -/
theorem mem_setItems {key value : Text} {items : List (Text × Text)} {item : Text × Text}
    (h : item ∈ setItems key value items) : item = (key, value) ∨ item ∈ items := by
  induction items with
  | nil => exact Or.inl (List.mem_singleton.mp h)
  | cons kv items ih =>
      rw [setItems] at h
      split at h
      · rename_i hk
        rcases List.mem_cons.mp h with rfl | h
        · exact Or.inl (by rw [hk])
        · exact Or.inr (List.mem_cons_of_mem _ h)
      · rcases List.mem_cons.mp h with rfl | h
        · exact Or.inr List.mem_cons_self
        · exact (ih h).imp_right fun hmem => List.mem_cons_of_mem _ hmem

end Dict

end DianProtocol.Py
