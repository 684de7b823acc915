import Mathlib

set_option autoImplicit false

/-! # Byte strings and the C and C++ library functions of the server

A `std::string` is a list of bytes, and a C string is a list of bytes that is read up to its first
NUL. The functions of the standard library that the server applies to them are defined here under
their own names: `to_string`, `strcmp`, `stoi` and the conversion `%d` of `sscanf`.
-/

namespace DianProtocol.Cpp

abbrev Byte := UInt8

/-- A `std::string`. -/
abbrev Str := List Byte

/-- The bytes of a string literal. -/
def str (s : String) : Str := s.toUTF8.data.toList

theorem str_injective : Function.Injective str := by
  intro s t h
  have hbytes : s.toByteArray.data = t.toByteArray.data := Array.toList_inj.mp h
  exact String.toByteArray_inj.mp (ByteArray.ext hbytes)

def nul : Byte := 0
def lf : Byte := 10
def cr : Byte := 13
def space : Byte := 32

/-- `"\r\n"` -/
def crlf : Str := [cr, lf]

/-- `std::map<std::string, υ>`: ordered by key, at most one entry for a key. -/
abbrev Map (υ : Type) := Std.ExtTreeMap Str υ

namespace Map

variable {υ : Type} {m : Map υ} {k a : Str} {v : υ}

theorem mem_insert : a ∈ m.insert k v ↔ k = a ∨ a ∈ m := by
  rw [Std.ExtTreeMap.mem_insert, Std.LawfulEqOrd.compare_eq_iff_eq]

theorem mem_insertIfNew : a ∈ m.insertIfNew k v ↔ k = a ∨ a ∈ m := by
  rw [Std.ExtTreeMap.mem_insertIfNew, Std.LawfulEqOrd.compare_eq_iff_eq]

theorem mem_erase : a ∈ m.erase k ↔ k ≠ a ∧ a ∈ m := by
  rw [Std.ExtTreeMap.mem_erase, ne_eq, Std.LawfulEqOrd.compare_eq_iff_eq]

theorem getElem?_insert : (m.insert k v)[a]? = if k = a then some v else m[a]? := by
  simp only [Std.ExtTreeMap.getElem?_insert, Std.LawfulEqOrd.compare_eq_iff_eq]

theorem getElem?_insertIfNew :
    (m.insertIfNew k v)[a]? = if k = a ∧ k ∉ m then some v else m[a]? := by
  simp only [Std.ExtTreeMap.getElem?_insertIfNew, Std.LawfulEqOrd.compare_eq_iff_eq]

theorem getElem?_erase : (m.erase k)[a]? = if k = a then none else m[a]? := by
  simp only [Std.ExtTreeMap.getElem?_erase, Std.LawfulEqOrd.compare_eq_iff_eq]

theorem mem_iff_getElem? : a ∈ m ↔ ∃ v, m[a]? = some v := by
  rw [Std.ExtTreeMap.mem_iff_isSome_getElem?, Option.isSome_iff_exists]

theorem ext {m₁ m₂ : Map υ} (h : ∀ a : Str, m₁[a]? = m₂[a]?) : m₁ = m₂ :=
  Std.ExtTreeMap.ext_getElem? h

theorem insertIfNew_of_mem (h : k ∈ m) : m.insertIfNew k v = m := by
  refine ext fun a => ?_
  rw [getElem?_insertIfNew, if_neg fun hk => hk.2 h]

theorem insert_insert {v' : υ} : (m.insert k v).insert k v' = m.insert k v' := by
  refine ext fun a => ?_
  rw [getElem?_insert, getElem?_insert, getElem?_insert]
  by_cases hk : k = a
  · rw [if_pos hk, if_pos hk]
  · rw [if_neg hk, if_neg hk, if_neg hk]

end Map

/-- `std::to_string` of an unsigned integer. -/
def to_string (n : Nat) : Str := str (toString n)

theorem to_string_injective : Function.Injective to_string := by
  intro m n h
  have hrepr : Nat.repr m = Nat.repr n := str_injective h
  have hdigits := congrArg String.toList hrepr
  rw [Nat.toList_repr, Nat.toList_repr] at hdigits
  have hvalue := congrArg (fun ds => Nat.ofDigitChars 10 ds 0) hdigits
  simpa only [Nat.ofDigitChars_ten_toDigits] using hvalue

/-- The part of a character array before its first NUL. -/
def cstr (s : Str) : Str := s.takeWhile (· ≠ nul)

/-- `strcmp(a, b) == 0` -/
def strcmpEq (a b : Str) : Bool := cstr a = cstr b

/-- `trim` of base.cpp: erase the blanks at both ends. -/
def trim (s : Str) : Str := (s.dropWhile (· = space)).rdropWhile (· = space)

def isspace (c : Byte) : Bool := c = space || (9 ≤ c && c ≤ 13)

def isdigit (c : Byte) : Bool := 48 ≤ c && c ≤ 57

/-- The number written by decimal digits. -/
def digitsVal (ds : Str) : Nat := ds.foldl (fun n c => 10 * n + (c.toNat - 48)) 0

/-- `strtol(s, &rest, 10)` without its range check, also the conversion `%d`: blanks, a sign and
at least one digit. `none` when there is no digit. -/
def strtol (s : Str) : Option (Int × Str) :=
  let s := s.dropWhile isspace
  let (negative, s) := match s with
    | 45 :: t => (true, t)
    | 43 :: t => (false, t)
    | _ => (false, s)
  let ds := s.takeWhile isdigit
  if ds = [] then none
  else some (if negative then -(digitsVal ds : Int) else digitsVal ds, s.dropWhile isdigit)

/-- `sscanf(s, "%d.%d", &major, &minor)` when it returns 2. -/
def sscanf_d_d (s : Str) : Option (Int × Int) :=
  match strtol s with
  | some (major, 46 :: rest) => (strtol rest).map fun (minor, _) => (major, minor)
  | _ => none

end DianProtocol.Cpp
