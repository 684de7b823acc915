import Mathlib.Tactic

set_option autoImplicit false

/-! # A heap of arrays

Arrays that are allocated, copied and freed by hand. Every access is checked: a copy outside of an
array, a copy between parts that overlap, and freeing an array twice are `undefined`, so that a run
without that outcome is free of these faults. A pointer is the name of an array, or null.

`Owned` is the discipline under which several owners hold arrays: each of them its own. Its rules
say how allocating, freeing, adopting and releasing an array change what the owners hold.
-/

namespace Blocks

/-! ## Results -/

/-- The outcome of code that may raise an exception, or have undefined behaviour. -/
inductive Checked (α : Type) where
  | ok (a : α)
  | raised
  | undefined

namespace Checked

variable {α β : Type}

def bind : Checked α → (α → Checked β) → Checked β
  | .ok a, f => f a
  | .raised, _ => .raised
  | .undefined, _ => .undefined

instance : Monad Checked where
  pure := .ok
  bind := .bind

@[simp] theorem ok_bind (a : α) (f : α → Checked β) : (Checked.ok a >>= f) = f a := rfl

@[simp] theorem raised_bind (f : α → Checked β) : (Checked.raised >>= f) = .raised := rfl

/-- The result of a step that has a meaning or none. -/
def ofOption : Option α → Checked α
  | some a => .ok a
  | none => .undefined

/-- The result is in `Q`, an exception is only raised when `R` allows it, and nothing is undefined.
-/
def Meets (x : Checked α) (Q : α → Prop) (R : Prop) : Prop :=
  match x with
  | .ok a => Q a
  | .raised => R
  | .undefined => False

theorem Meets.mono {x : Checked α} {Q Q' : α → Prop} {R R' : Prop} (h : x.Meets Q R)
    (hQ : ∀ a, Q a → Q' a) (hR : R → R') : x.Meets Q' R' := by
  cases x with
  | ok a => exact hQ a h
  | raised => exact hR h
  | undefined => exact h

theorem Meets.bind {x : Checked α} {f : α → Checked β} {Q : α → Prop} {Q' : β → Prop} {R : Prop}
    (h : x.Meets Q R) (hf : ∀ a, Q a → (f a).Meets Q' R) : (x >>= f).Meets Q' R := by
  cases x with
  | ok a => exact hf a h
  | raised => exact h
  | undefined => exact h.elim

end Checked

/-! ## The heap -/

/-- The arrays that are allocated, by name. Names from `next` on have not been used. -/
structure Heap (β : Type) where
  get : Nat → Option (List β)
  next : Nat
  fresh : ∀ p, next ≤ p → get p = none

/-- Nothing has been allocated. -/
def Heap.empty {β : Type} : Heap β := ⟨fun _ => none, 0, fun _ _ => rfl⟩

/-- A pointer to an array, or null. -/
abbrev Ptr := Option Nat

/-- `data` in the place of the elements from `off` on. -/
def splice {β : Type} (l : List β) (off : Nat) (data : List β) : List β :=
  l.take off ++ data ++ l.drop (off + data.length)

namespace Heap

variable {β : Type} (h : Heap β)

theorem lt_next {h : Heap β} {p : Nat} {l : List β} (hp : h.get p = some l) : p < h.next := by
  by_contra hge
  rw [h.fresh p (by omega)] at hp
  cases hp

/-- Allocate an array that holds `l`; its name is `h.next`. -/
def alloc (l : List β) : Heap β where
  get := Function.update h.get h.next (some l)
  next := h.next + 1
  fresh := by
    intro p hp
    have hne : p ≠ h.next := by omega
    rw [Function.update_of_ne hne]
    exact h.fresh p (by omega)

/-- Free the array of a pointer. Null is left alone. -/
def free : Ptr → Option (Heap β)
  | none => some h
  | some p =>
      if (h.get p).isSome then
        some
          { get := Function.update h.get p none
            next := h.next
            fresh := by
              intro q hq
              by_cases hqp : q = p
              · rw [hqp, Function.update_self]
              · rw [Function.update_of_ne hqp]
                exact h.fresh q hq }
      else none

/-- Read `n` elements at `off`. Nothing can be read at null. -/
def read (p : Ptr) (off n : Nat) : Option (List β) :=
  match p with
  | none => if n = 0 then some [] else none
  | some p =>
      (h.get p).bind fun l => if off + n ≤ l.length then some ((l.drop off).take n) else none

/-- Write `data` at `off`. -/
def write (p : Ptr) (off : Nat) (data : List β) : Option (Heap β) :=
  match p with
  | none => if data = [] then some h else none
  | some p =>
      if hlive : ∃ l, h.get p = some l ∧ off + data.length ≤ l.length then
        some
          { get := Function.update h.get p ((h.get p).map fun l => splice l off data)
            next := h.next
            fresh := by
              intro q hq
              by_cases hqp : q = p
              · obtain ⟨l, hl, -⟩ := hlive
                have hlt := lt_next hl
                omega
              · rw [Function.update_of_ne hqp]
                exact h.fresh q hq }
      else none

/-- `memcpy(dst + i, src + j, n)` between arrays that are not the same. -/
def copy (dst : Ptr) (i : Nat) (src : Ptr) (j n : Nat) : Option (Heap β) :=
  if dst = src ∧ n ≠ 0 then none else (h.read src j n).bind fun data => h.write dst i data

/-- The pointer holds the list: it is null and the list empty, or the array holds it. -/
def Holds (p : Ptr) (l : List β) : Prop :=
  match p with
  | none => l = []
  | some p => h.get p = some l

variable {h} {l l' : List β} {p q : Nat} {ptr : Ptr}

@[simp] theorem get_alloc_next : (h.alloc l).get h.next = some l := Function.update_self _ _ _

theorem get_alloc_of_ne (hp : p ≠ h.next) : (h.alloc l).get p = h.get p :=
  Function.update_of_ne hp _ _

/-- What is allocated already stays as it is. -/
theorem get_alloc_of_some (hp : h.get p = some l') : (h.alloc l).get p = some l' := by
  rw [get_alloc_of_ne (by have := lt_next hp; omega), hp]

theorem Holds.unique (hl : h.Holds ptr l) (hl' : h.Holds ptr l') : l = l' := by
  cases ptr with
  | none => exact Eq.trans hl hl'.symm
  | some p => exact Option.some.inj (Eq.trans (Eq.symm hl) hl')

theorem Holds.alloc (hptr : h.Holds ptr l') : (h.alloc l).Holds ptr l' := by
  cases ptr with
  | none => exact hptr
  | some p => exact get_alloc_of_some hptr

theorem read_of_holds (hptr : h.Holds ptr l) {off n : Nat} (hle : off + n ≤ l.length) :
    h.read ptr off n = some ((l.drop off).take n) := by
  cases ptr with
  | none =>
      obtain rfl : l = [] := hptr
      have hn : n = 0 := by
        simp only [List.length_nil] at hle
        omega
      simp [read, hn]
  | some p =>
      have hget : h.get p = some l := hptr
      simp [read, hget, hle]

/-- A write into an array changes this array, and no other one. -/
theorem write_of_get (hp : h.get p = some l) {off : Nat} {data : List β}
    (hle : off + data.length ≤ l.length) :
    ∃ h', h.write (some p) off data = some h' ∧
      h'.get = Function.update h.get p (some (splice l off data)) ∧ h'.next = h.next := by
  have hlive : ∃ l, h.get p = some l ∧ off + data.length ≤ l.length := ⟨l, hp, hle⟩
  refine ⟨_, dif_pos hlive, ?_, rfl⟩
  simp only [hp, Option.map_some]

/-- A write at a pointer that may be null. -/
theorem write_of_holds (hptr : h.Holds ptr l) {off : Nat} {data : List β}
    (hle : off + data.length ≤ l.length) :
    ∃ h', h.write ptr off data = some h' ∧ h'.Holds ptr (splice l off data) ∧
      h'.next = h.next := by
  cases ptr with
  | none =>
      obtain rfl : l = [] := hptr
      obtain rfl : data = [] := by
        simp only [List.length_nil] at hle
        exact List.eq_nil_of_length_eq_zero (by omega)
      exact ⟨h, rfl, by simp [Holds, splice], rfl⟩
  | some p =>
      obtain ⟨h', hwrite, hget, hnext⟩ := write_of_get hptr hle
      refine ⟨h', hwrite, ?_, hnext⟩
      show h'.get p = _
      rw [hget, Function.update_self]

theorem copy_of_holds (hq : h.get q = some l) (hptr : h.Holds ptr l') (hne : ptr ≠ some q)
    {i j n : Nat} (hdst : i + n ≤ l.length) (hsrc : j + n ≤ l'.length) :
    ∃ h', h.copy (some q) i ptr j n = some h' ∧
      h'.get = Function.update h.get q (some (splice l i ((l'.drop j).take n))) ∧
      h'.next = h.next := by
  have hlen : ((l'.drop j).take n).length = n := by
    simp only [List.length_take, List.length_drop]
    omega
  obtain ⟨h', hwrite, hget, hnext⟩ := write_of_get hq (show i + ((l'.drop j).take n).length ≤
    l.length by omega)
  refine ⟨h', ?_, hget, hnext⟩
  rw [copy, if_neg fun hc => hne hc.1.symm, read_of_holds hptr hsrc]
  exact hwrite

/-- An array that is held can be freed. -/
theorem free_of_holds (hptr : h.Holds ptr l) :
    ∃ h', h.free ptr = some h' ∧ (∀ p, ptr = some p → h'.get p = none) ∧
      (∀ p, ptr ≠ some p → h'.get p = h.get p) ∧ h'.next = h.next := by
  cases ptr with
  | none => exact ⟨h, rfl, by simp, fun _ _ => rfl, rfl⟩
  | some p =>
      have hlive : (h.get p).isSome = true := by
        have hget : h.get p = some l := hptr
        rw [hget]
        rfl
      refine ⟨_, if_pos hlive, ?_, ?_, rfl⟩
      · intro q hq
        obtain rfl := Option.some.inj hq
        exact Function.update_self _ _ _
      · intro q hq
        exact Function.update_of_ne (fun heq => hq (by rw [heq])) _ _

end Heap

/-! ## Owners -/

section

variable {β ι : Type} {h h' : Heap β} {ptr : ι → Option Ptr} {content : ι → Option (List β)}

/-- Each owner holds what `content` says, and no array has two owners. -/
structure Owned (h : Heap β) (ptr : ι → Option Ptr) (content : ι → Option (List β)) : Prop where
  holds : ∀ i, Option.Rel h.Holds (ptr i) (content i)
  exclusive : ∀ i j p, ptr i = some (some p) → ptr j = some (some p) → i = j

theorem Owned.content_of_ptr (ho : Owned h ptr content) {i : ι} {p : Ptr} (hi : ptr i = some p) :
    ∃ l, content i = some l ∧ h.Holds p l := by
  have hholds := ho.holds i
  rw [hi] at hholds
  generalize content i = c at hholds ⊢
  cases hholds with
  | some hp => exact ⟨_, rfl, hp⟩

theorem Owned.ptr_of_content (ho : Owned h ptr content) {i : ι} {l : List β}
    (hi : content i = some l) : ∃ p, ptr i = some p ∧ h.Holds p l := by
  have hholds := ho.holds i
  rw [hi] at hholds
  generalize ptr i = o at hholds ⊢
  cases hholds with
  | some hp => exact ⟨_, rfl, hp⟩

theorem Owned.ptr_none_iff (ho : Owned h ptr content) {i : ι} :
    ptr i = none ↔ content i = none := by
  have hholds := ho.holds i
  generalize ptr i = o at hholds ⊢
  generalize content i = c at hholds ⊢
  cases hholds with
  | some hp => simp
  | none => simp

/-- The heap may change where nobody owns anything. -/
theorem Owned.congr (ho : Owned h ptr content)
    (hsame : ∀ i p, ptr i = some (some p) → h'.get p = h.get p) : Owned h' ptr content := by
  refine ⟨fun i => ?_, ho.exclusive⟩
  have hholds := ho.holds i
  have hi := hsame i
  generalize ptr i = o at hholds hi ⊢
  generalize content i = c at hholds ⊢
  cases hholds with
  | none => exact .none
  | @some p l hp =>
      apply Option.Rel.some
      cases p with
      | none => exact hp
      | some p => exact (hi p rfl).trans hp

/-- A name that has not been used belongs to nobody. -/
theorem Owned.lt_next (ho : Owned h ptr content) {i : ι} {p : Nat} (hi : ptr i = some (some p)) :
    p < h.next := by
  obtain ⟨l, -, hholds⟩ := ho.content_of_ptr hi
  exact Heap.lt_next hholds

variable [DecidableEq ι]

/-- An owner gives its array up. -/
theorem Owned.release (ho : Owned h ptr content) (i : ι) :
    Owned h (Function.update ptr i none) (Function.update content i none) := by
  refine ⟨fun j => ?_, fun j k p hj hk => ?_⟩
  · by_cases hji : j = i
    · subst hji
      rw [Function.update_self, Function.update_self]
      exact .none
    · rw [Function.update_of_ne hji, Function.update_of_ne hji]
      exact ho.holds j
  · have hji : j ≠ i := by
      rintro rfl
      simp at hj
    have hki : k ≠ i := by
      rintro rfl
      simp at hk
    rw [Function.update_of_ne hji] at hj
    rw [Function.update_of_ne hki] at hk
    exact ho.exclusive j k p hj hk

/-- An array that belongs to nobody gets an owner. -/
theorem Owned.adopt (ho : Owned h ptr content) {i : ι} {p : Ptr} {l : List β}
    (hholds : h.Holds p l) (hfree : ∀ j q, p = some q → j ≠ i → ptr j ≠ some (some q)) :
    Owned h (Function.update ptr i (some p)) (Function.update content i (some l)) := by
  refine ⟨fun j => ?_, fun j k q hj hk => ?_⟩
  · by_cases hji : j = i
    · subst hji
      rw [Function.update_self, Function.update_self]
      exact .some hholds
    · rw [Function.update_of_ne hji, Function.update_of_ne hji]
      exact ho.holds j
  · by_cases hji : j = i
    · by_cases hki : k = i
      · rw [hji, hki]
      · rw [hji, Function.update_self] at hj
        rw [Function.update_of_ne hki] at hk
        exact absurd hk (hfree k q (Option.some.inj hj) hki)
    · by_cases hki : k = i
      · rw [hki, Function.update_self] at hk
        rw [Function.update_of_ne hji] at hj
        exact absurd hj (hfree j q (Option.some.inj hk) hji)
      · rw [Function.update_of_ne hji] at hj
        rw [Function.update_of_ne hki] at hk
        exact ho.exclusive j k q hj hk

/-- An owner takes a new array, and what it had before may go. -/
theorem Owned.replace (ho : Owned h ptr content) {i : ι} {l : List β}
    (hnew : h'.get h.next = some l)
    (hsame : ∀ p, ptr i ≠ some (some p) → p ≠ h.next → h'.get p = h.get p) :
    Owned h' (Function.update ptr i (some (some h.next))) (Function.update content i (some l)) := by
  have hreleased : Owned h' (Function.update ptr i none) (Function.update content i none) := by
    apply (ho.release i).congr
    intro j p hj
    have hji : j ≠ i := by
      rintro rfl
      simp at hj
    rw [Function.update_of_ne hji] at hj
    -- what the others own is older than the new array, and not what `i` gives up
    have hlt := ho.lt_next hj
    apply hsame p _ (by omega)
    intro hi
    exact hji (ho.exclusive j i p hj hi)
  have hadopted := hreleased.adopt (i := i) (p := some h.next) hnew (by
    intro j q hq hji hj
    rw [Function.update_of_ne hji] at hj
    have hlt := ho.lt_next hj
    have hnext := Option.some.inj hq
    omega)
  rw [Function.update_idem, Function.update_idem] at hadopted
  exact hadopted

/-- The array of an owner can be freed, and the others keep theirs. -/
theorem Owned.free (ho : Owned h ptr content) {i : ι} {p : Ptr} (hi : ptr i = some p) :
    ∃ h', h.free p = some h' ∧ h'.next = h.next ∧ (∀ q, p ≠ some q → h'.get q = h.get q) ∧
      Owned h' (Function.update ptr i none) (Function.update content i none) := by
  obtain ⟨l, -, hholds⟩ := ho.content_of_ptr hi
  obtain ⟨h', hfree, -, hsame, hnext⟩ := Heap.free_of_holds hholds
  refine ⟨h', hfree, hnext, hsame, (ho.release i).congr ?_⟩
  intro j q hj
  apply hsame
  rintro rfl
  have hji : j ≠ i := by
    rintro rfl
    simp at hj
  rw [Function.update_of_ne hji] at hj
  exact hji (ho.exclusive j i q hj hi)

end

end Blocks
