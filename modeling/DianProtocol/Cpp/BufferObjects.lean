import DianProtocol.Cpp.HeapBuffer

set_option autoImplicit false

/-! # Buffers as lists of bytes

The objects of a program that constructs, copies, moves, assigns, resizes and destroys buffers, and
the lists that they should be. What the objects hold is always the result of list operations
(`step_spec`), and they own their arrays, so that nothing is freed twice or used after it has been
freed. But the constructor from `const void*` bounds its copy by a member that is not set:
`buffers_are_lists_iff` says when its list is the one that was passed.
-/

namespace DianProtocol.Cpp

open Blocks

/-! ## The objects and the lists -/

/-- The operations on buffers with names. The new or changed one comes first. -/
inductive BufferOp where
  | ofVoid (i : Nat) (data : Str)
  | ofConstVoid (i : Nat) (data : Str)
  | copy (i j : Nat)
  | move (i j : Nat)
  | assign (i j : Nat)
  | resize (i : Nat) (newsize : Nat)
  | destroy (i : Nat)

/-- The buffers that are alive, and the heap. -/
structure Buffers where
  heap : Heap Byte
  objs : Nat → Option Buffer

/-- No buffer has been constructed. -/
def Buffers.empty : Buffers := ⟨Heap.empty, fun _ => none⟩

/-- An operation. Objects are constructed where there is none, and only living ones are used. -/
def BufferOp.step (supply : Supply) (op : BufferOp) (st : Buffers) : Checked Buffers :=
  match op with
  | .ofVoid i data =>
      match st.objs i with
      | some _ => .undefined
      | none => do
          let (b, h) ← Buffer.ofVoid supply (.outside data) data.length st.heap
          return ⟨h, Function.update st.objs i (some b)⟩
  | .ofConstVoid i data =>
      match st.objs i with
      | some _ => .undefined
      | none => do
          let (b, h) ← Buffer.ofConstVoid supply (.outside data) data.length st.heap
          return ⟨h, Function.update st.objs i (some b)⟩
  | .copy i j =>
      match st.objs i, st.objs j with
      | none, some other => do
          let (b, h) ← Buffer.copy supply other st.heap
          return ⟨h, Function.update st.objs i (some b)⟩
      | _, _ => .undefined
  | .move i j =>
      match st.objs i, st.objs j with
      | none, some other =>
          .ok ⟨st.heap, Function.update (Function.update st.objs i (some other.move.1)) j
            (some other.move.2)⟩
      | _, _ => .undefined
  | .assign i j =>
      match st.objs i, st.objs j with
      | some this, some other => do
          let (b, h) ← Buffer.assign supply this other st.heap
          return ⟨h, Function.update st.objs i (some b)⟩
      | _, _ => .undefined
  | .resize i newsize =>
      match st.objs i with
      | none => .undefined
      | some this => do
          let (b, h) ← Buffer.resize supply this newsize st.heap
          return ⟨h, Function.update st.objs i (some b)⟩
  | .destroy i =>
      match st.objs i with
      | none => .undefined
      | some this => do
          let h ← this.destroy st.heap
          return ⟨h, Function.update st.objs i none⟩

/-- Operations one after the other; `memory` is what each of them finds. -/
def Buffers.run : (Nat → Supply) → List BufferOp → Buffers → Checked Buffers
  | _, [], st => .ok st
  | memory, op :: ops, st => do
      let st ← op.step (memory 0) st
      Buffers.run (fun n => memory (n + 1)) ops st

/-- The lists in the place of the buffers. -/
abbrev Lists := Nat → Option Str

/-- The operation on lists, `none` where an object is used that is not alive, constructed where one
is, or assigned to itself. `copied` is what the constructor from `const void*` makes of its data. -/
def BufferOp.lists (copied : Memory → Str → Str) (supply : Supply) (op : BufferOp) (ls : Lists) :
    Option Lists :=
  match op with
  | .ofVoid i data => if ls i = none then some (Function.update ls i (some data)) else none
  | .ofConstVoid i data =>
      if ls i = none then some (Function.update ls i (some (copied supply.toMemory data))) else none
  | .copy i j => if ls i = none then (ls j).map fun l => Function.update ls i (some l) else none
  | .move i j =>
      if ls i = none then
        (ls j).map fun l => Function.update (Function.update ls i (some l)) j (some [])
      else none
  | .assign i j =>
      if ls i ≠ none ∧ i ≠ j then (ls j).map fun l => Function.update ls i (some l) else none
  -- the first bytes are kept, and the others are what the memory holds
  | .resize i newsize =>
      (ls i).map fun l => Function.update ls i (some (newArray newsize l supply.junk))
  | .destroy i => if ls i ≠ none then some (Function.update ls i none) else none

/-- The list operations as they should be: the data is copied. -/
def BufferOp.spec (supply : Supply) (op : BufferOp) (ls : Lists) : Option Lists :=
  op.lists (fun _ data => data) supply ls

def Lists.run : (Nat → Supply) → List BufferOp → Lists → Option Lists
  | _, [], ls => some ls
  | memory, op :: ops, ls =>
      (op.spec (memory 0) ls).bind fun ls => Lists.run (fun n => memory (n + 1)) ops ls

/-- The buffers have the sizes and the contents of the lists. -/
def Buffers.Show (st : Buffers) (ls : Lists) : Prop :=
  ∀ i, Option.Rel (fun b l => b._size = l.length ∧ st.heap.Holds b._buffer l) (st.objs i) (ls i)

/-- The size of the array that an operation asks for. -/
def BufferOp.request (op : BufferOp) (ls : Lists) : Option Nat :=
  match op with
  | .ofVoid _ data => some data.length
  | .ofConstVoid _ data => some data.length
  | .copy _ j => (ls j).map List.length
  | .move _ _ => none
  | .assign _ j => (ls j).map List.length
  | .resize i newsize => if (ls i).map List.length = some newsize then none else some newsize
  | .destroy _ => none

/-- The operation gets the array that it asks for. -/
def BufferOp.Granted (supply : Supply) (op : BufferOp) (ls : Lists) : Prop :=
  ∀ n, op.request ls = some n → supply.Grants n

/-- What the constructor from `const void*` does not copy is in the array already. -/
def BufferOp.Keeps (supply : Supply) : BufferOp → Prop
  | .ofConstVoid _ data => supply.toMemory.Keeps data
  | _ => True

/-- All operations keep their data, up to the first one that gets no array. -/
def AllKept : (Nat → Supply) → List BufferOp → Lists → Prop
  | _, [], _ => True
  | memory, op :: ops, ls => op.Granted (memory 0) ls → op.Keeps (memory 0) ∧
      ∀ ls', op.spec (memory 0) ls = some ls' → AllKept (fun n => memory (n + 1)) ops ls'

/-! ## One operation -/

/-- The buffers hold the lists, and each of them its own array. -/
structure Buffers.Rep (st : Buffers) (ls : Lists) : Prop where
  owned : Owned st.heap (fun i => (st.objs i).map (·._buffer)) ls
  size : ∀ i b l, st.objs i = some b → ls i = some l → b._size = l.length

section

variable {supply : Supply} {st : Buffers} {ls ls' : Lists} {h : Heap Byte} {i j : Nat} {l : Str}

theorem map_update (objs : Nat → Option Buffer) (i : Nat) (o : Option Buffer) :
    (fun k => (Function.update objs i o k).map (·._buffer)) =
      Function.update (fun k => (objs k).map (·._buffer)) i (o.map (·._buffer)) := by
  funext k
  by_cases hk : k = i
  · rw [hk, Function.update_self, Function.update_self]
  · rw [Function.update_of_ne hk, Function.update_of_ne hk]

namespace Buffers.Rep

theorem shows (hrep : st.Rep ls) : st.Show ls := by
  intro i
  have hholds := hrep.owned.holds i
  have hsize := hrep.size i
  cases ho : st.objs i with
  | none =>
      simp only [ho, Option.map_none] at hholds
      cases hl : ls i with
      | none => exact .none
      | some l =>
          rw [hl] at hholds
          cases hholds
  | some b =>
      simp only [ho, Option.map_some] at hholds
      cases hl : ls i with
      | none =>
          rw [hl] at hholds
          cases hholds
      | some l =>
          rw [hl] at hholds
          cases hholds with
          | some hp => exact .some ⟨hsize b l ho hl, hp⟩

theorem dead_iff (hrep : st.Rep ls) : st.objs i = none ↔ ls i = none := by
  rw [← hrep.owned.ptr_none_iff, Option.map_eq_none_iff]

/-- The buffer of a list. -/
theorem live (hrep : st.Rep ls) (hl : ls i = some l) :
    ∃ b, st.objs i = some b ∧ b._size = l.length ∧ st.heap.Holds b._buffer l := by
  obtain ⟨p, hp, hholds⟩ := hrep.owned.ptr_of_content hl
  obtain ⟨b, hb, rfl⟩ := Option.map_eq_some_iff.mp hp
  exact ⟨b, hb, hrep.size i b l hb hl, hholds⟩

/-- The sizes behind the update of one buffer. -/
theorem size_update (hrep : st.Rep ls) {b : Buffer} (hsize : b._size = l.length) :
    ∀ k b' l', Function.update st.objs i (some b) k = some b' →
      Function.update ls i (some l) k = some l' → b'._size = l'.length := by
  intro k b' l' hb hl
  by_cases hk : k = i
  · rw [hk, Function.update_self] at hb hl
    cases hb
    cases hl
    exact hsize
  · rw [Function.update_of_ne hk] at hb hl
    exact hrep.size k b' l' hb hl

/-- The array of a buffer, and that it holds the list. -/
theorem ptr (hrep : st.Rep ls) {b : Buffer} (hb : st.objs i = some b) (hl : ls i = some l) :
    (st.objs i).map (·._buffer) = some b._buffer ∧ st.heap.Holds b._buffer l := by
  have hptr : (st.objs i).map (·._buffer) = some b._buffer := by rw [hb, Option.map_some]
  obtain ⟨l', hl', hholds⟩ := hrep.owned.content_of_ptr hptr
  obtain rfl : l = l' := Option.some.inj (hl.symm.trans hl')
  exact ⟨hptr, hholds⟩

/-- A buffer gets a new array, and the one that it had may go. -/
theorem replace (hrep : st.Rep ls) (hnew : h.get st.heap.next = some l)
    (hsame : ∀ p, (st.objs i).map (·._buffer) ≠ some (some p) → p ≠ st.heap.next →
      h.get p = st.heap.get p) :
    Buffers.Rep ⟨h, Function.update st.objs i (some ⟨some st.heap.next, l.length⟩)⟩
      (Function.update ls i (some l)) := by
  refine ⟨?_, hrep.size_update rfl⟩
  rw [map_update]
  exact hrep.owned.replace hnew hsame

/-- A buffer is destroyed. -/
theorem destroy (hrep : st.Rep ls) {b : Buffer} (hb : st.objs i = some b) :
    ∃ h', b.destroy st.heap = .ok h' ∧ h'.next = st.heap.next ∧
      Buffers.Rep ⟨h', Function.update st.objs i none⟩ (Function.update ls i none) := by
  have hptr : (fun k => (st.objs k).map (·._buffer)) i = some b._buffer := by
    simp only [hb, Option.map_some]
  obtain ⟨h', hfree, hnext, -, howned⟩ := hrep.owned.free hptr
  refine ⟨h', by rw [Buffer.destroy, hfree]; rfl, hnext, ?_, fun k b' l' hb' hl' => ?_⟩
  · rw [map_update]
    exact howned
  · have hlive : Function.update st.objs i none k = some b' := hb'
    by_cases hk : k = i
    · rw [hk, Function.update_self] at hlive
      cases hlive
    · rw [Function.update_of_ne hk] at hlive hl'
      exact hrep.size k b' l' hlive hl'

end Buffers.Rep

/-- A buffer is constructed from memory. -/
theorem construct_spec (supply : Supply) (hrep : st.Rep ls) {src : Source} {n size : Nat}
    (hsrc : src.Holds st.heap l) (hn : n ≤ l.length) (hle : n ≤ size) (i : Nat) :
    (fromMemory supply src n size st.heap >>= fun (b, h) =>
        return (⟨h, Function.update st.objs i (some b)⟩ : Buffers)).Meets
      (fun st' => supply.Grants size ∧
        st'.Rep (Function.update ls i (some (newArray size (l.take n) supply.junk))))
      (¬ supply.Grants size) := by
  refine (fromMemory_spec hsrc hn hle).bind ?_
  rintro ⟨b, h⟩ ⟨hgrants, rfl, -, hget⟩
  have hnew : h.get st.heap.next = some (newArray size (l.take n) supply.junk) := by
    rw [hget, Function.update_self]
  have hrep' := hrep.replace (i := i) hnew fun p _ hp => by rw [hget, Function.update_of_ne hp]
  rw [length_newArray] at hrep'
  exact ⟨hgrants, hrep'⟩

theorem newArray_length (l : Str) (junk : Junk) : newArray l.length l junk = l := by
  simp [newArray]

/-- A buffer with a copy of the whole list. -/
theorem construct_copy (supply : Supply) (hrep : st.Rep ls) {src : Source}
    (hsrc : src.Holds st.heap l) (i : Nat) :
    (fromMemory supply src l.length l.length st.heap >>= fun (b, h) =>
        return (⟨h, Function.update st.objs i (some b)⟩ : Buffers)).Meets
      (fun st' => supply.Grants l.length ∧ st'.Rep (Function.update ls i (some l)))
      (¬ supply.Grants l.length) := by
  have hspec := construct_spec supply hrep hsrc le_rfl le_rfl i
  rw [List.take_length, newArray_length] at hspec
  exact hspec

/-- The array changes hands. -/
theorem Buffers.Rep.move (hrep : st.Rep ls) {other : Buffer} (hij : i ≠ j)
    (hother : st.objs j = some other) (hl : ls j = some l) :
    Buffers.Rep ⟨st.heap, Function.update (Function.update st.objs i (some other.move.1)) j
        (some other.move.2)⟩
      (Function.update (Function.update ls i (some l)) j (some [])) := by
  obtain ⟨hptr, hholds⟩ := hrep.ptr hother hl
  refine ⟨?_, fun k b' l' hb hk => ?_⟩
  · -- `other` gives its array up, the new buffer takes it, and `other` gets the null pointer
    have hreleased := hrep.owned.release j
    have htaken := hreleased.adopt (i := i) hholds (by
      intro k q hq hki hk
      by_cases hkj : k = j
      · rw [hkj, Function.update_self] at hk
        cases hk
      · rw [Function.update_of_ne hkj] at hk
        rw [hq] at hptr
        exact hkj (hrep.owned.exclusive k j q hk hptr))
    have hnull := htaken.adopt (i := j) (p := none) (l := []) rfl (by
      intro k q hq
      cases hq)
    rw [Function.update_comm hij, Function.update_idem, Function.update_comm hij,
      Function.update_idem, Function.update_comm hij.symm, Function.update_comm hij.symm] at hnull
    rw [map_update, map_update]
    exact hnull
  · have hlive : Function.update (Function.update st.objs i (some other.move.1)) j
        (some other.move.2) k = some b' := hb
    by_cases hkj : k = j
    · rw [hkj, Function.update_self] at hlive hk
      cases hlive
      cases hk
      rfl
    · rw [Function.update_of_ne hkj] at hlive hk
      exact hrep.size_update (hrep.size j other l hother hl) k b' l' hlive hk

/-- The new array takes the place of the old one. -/
theorem resize_spec (supply : Supply) (hrep : st.Rep ls) {this : Buffer}
    (hthis : st.objs i = some this) (hl : ls i = some l) (newsize : Nat) :
    (this.resize supply newsize st.heap >>= fun (b, h) =>
        return (⟨h, Function.update st.objs i (some b)⟩ : Buffers)).Meets
      (fun st' => (newsize ≠ l.length → supply.Grants newsize) ∧
        st'.Rep (Function.update ls i (some (newArray newsize l supply.junk))))
      (newsize ≠ l.length ∧ ¬ supply.Grants newsize) := by
  have hsize := hrep.size i this l hthis hl
  obtain ⟨hptr, hholds⟩ := hrep.ptr hthis hl
  by_cases heq : newsize = l.length
  -- `resize` returns at once, and no byte of fresh memory comes in
  · rw [Buffer.resize, if_pos (by omega), Checked.ok_bind]
    refine ⟨fun hne => absurd heq hne, ?_⟩
    rw [heq, newArray_length, ← hthis, ← hl, Function.update_eq_self, Function.update_eq_self]
    exact hrep
  · rw [Buffer.resize, if_neg (by omega)]
    refine ((reallocate_spec hholds hsize newsize).mono (fun _ h => h) fun hno =>
      ⟨heq, hno⟩).bind ?_
    rintro ⟨b, h⟩ ⟨hgrants, rfl, -, hnew, hsame⟩
    have hrep' := hrep.replace (i := i) hnew fun p hp hne =>
      hsame p (fun hthis' => hp (by rw [hptr, hthis'])) hne
    rw [length_newArray] at hrep'
    exact ⟨fun _ => hgrants, hrep'⟩

/-! ## What an operation asks for -/

theorem granted_iff {op : BufferOp} {n : Nat} (h : op.request ls = some n) :
    op.Granted supply ls ↔ supply.Grants n := by
  constructor
  · intro hgranted
    exact hgranted n h
  · intro hgrants m hm
    rw [h] at hm
    cases hm
    exact hgrants

theorem granted_of_none {op : BufferOp} (h : op.request ls = none) : op.Granted supply ls := by
  intro n hn
  rw [h] at hn
  cases hn

theorem granted_resize (hl : ls i = some l) (newsize : Nat) :
    (BufferOp.resize i newsize).Granted supply ls ↔
      (newsize ≠ l.length → supply.Grants newsize) := by
  rw [BufferOp.Granted, BufferOp.request, hl, Option.map_some]
  by_cases heq : l.length = newsize
  · rw [heq, if_pos rfl]
    simp
  · have hne : newsize ≠ l.length := fun h => heq h.symm
    rw [if_neg fun h => heq (Option.some.inj h)]
    simp [hne]

theorem buffer_eq_newArray (m : Memory) (data : Str) :
    m.buffer data = newArray data.length (data.take (min m._size data.length)) m.junk := by
  rw [Memory.buffer, ← List.take_eq_take_min]

/-- What an operation does to the buffers is what it does to the lists, with the data that the
constructor from `const void*` makes. -/
theorem step_spec {op : BufferOp} (hrep : st.Rep ls)
    (hls : op.lists Memory.buffer supply ls = some ls') :
    (op.step supply st).Meets (fun st' => op.Granted supply ls ∧ st'.Rep ls')
      (¬ op.Granted supply ls) := by
  cases op with
  | ofVoid i data =>
      obtain ⟨hnone, hupdate⟩ := Option.ite_none_right_eq_some.mp hls
      obtain rfl := Option.some.inj hupdate
      have hdata : (Source.outside data).Holds st.heap data := rfl
      have hspec := construct_copy supply hrep hdata i
      rw [granted_iff rfl, BufferOp.step, hrep.dead_iff.mpr hnone]
      exact hspec
  | ofConstVoid i data =>
      obtain ⟨hnone, hupdate⟩ := Option.ite_none_right_eq_some.mp hls
      obtain rfl := Option.some.inj hupdate
      have hdata : (Source.outside data).Holds st.heap data := rfl
      have hspec := construct_spec supply hrep hdata (min_le_right supply._size data.length)
        (min_le_right _ _) i
      rw [granted_iff rfl, BufferOp.step, hrep.dead_iff.mpr hnone, buffer_eq_newArray]
      exact hspec
  | copy i j =>
      obtain ⟨hnone, hmap⟩ := Option.ite_none_right_eq_some.mp hls
      obtain ⟨l, hl, rfl⟩ := Option.map_eq_some_iff.mp hmap
      obtain ⟨other, hother, hsize, hholds⟩ := hrep.live hl
      have hsrc : (Source.array other._buffer).Holds st.heap l := hholds
      have hspec := construct_copy supply hrep hsrc i
      rw [← hsize] at hspec
      rw [granted_iff (n := other._size) (by rw [BufferOp.request, hl, hsize]; rfl), BufferOp.step,
        hrep.dead_iff.mpr hnone, hother]
      exact hspec
  | move i j =>
      obtain ⟨hnone, hmap⟩ := Option.ite_none_right_eq_some.mp hls
      obtain ⟨l, hl, rfl⟩ := Option.map_eq_some_iff.mp hmap
      obtain ⟨other, hother, -, -⟩ := hrep.live hl
      have hij : i ≠ j := by
        rintro rfl
        rw [hnone] at hl
        cases hl
      rw [BufferOp.step, hrep.dead_iff.mpr hnone, hother]
      exact ⟨granted_of_none rfl, hrep.move hij hother hl⟩
  | assign i j =>
      obtain ⟨⟨hsome, hij⟩, hmap⟩ := Option.ite_none_right_eq_some.mp hls
      obtain ⟨l, hl, rfl⟩ := Option.map_eq_some_iff.mp hmap
      obtain ⟨l₀, hl₀⟩ := Option.ne_none_iff_exists'.mp hsome
      obtain ⟨this, hthis, -, -⟩ := hrep.live hl₀
      obtain ⟨other, hother, hsize, -⟩ := hrep.live hl
      obtain ⟨h, hdestroy, -, hrep'⟩ := hrep.destroy hthis
      -- the array of the other buffer is still there
      obtain ⟨other', hother', -, hholds⟩ :=
        hrep'.live (i := j) (by rw [Function.update_of_ne hij.symm, hl])
      have hsame : Function.update st.objs i none j = some other' := hother'
      rw [Function.update_of_ne hij.symm, hother] at hsame
      cases hsame
      have hsrc : (Source.array other._buffer).Holds h l := hholds
      have hspec := construct_copy supply hrep' hsrc i
      rw [← hsize] at hspec
      simp only [Function.update_idem] at hspec
      rw [granted_iff (n := other._size) (by rw [BufferOp.request, hl, hsize]; rfl), BufferOp.step,
        hthis, hother]
      dsimp only
      rw [Buffer.assign, hdestroy, Checked.ok_bind]
      exact hspec
  | resize i newsize =>
      obtain ⟨l, hl, rfl⟩ := Option.map_eq_some_iff.mp hls
      obtain ⟨this, hthis, -, -⟩ := hrep.live hl
      have hspec := resize_spec supply hrep hthis hl newsize
      rw [granted_resize hl, BufferOp.step, hthis]
      refine hspec.mono (fun _ h => h) ?_
      rintro ⟨hne, hno⟩ hgranted
      exact hno (hgranted hne)
  | destroy i =>
      obtain ⟨hsome, hupdate⟩ := Option.ite_none_right_eq_some.mp hls
      obtain rfl := Option.some.inj hupdate
      obtain ⟨l, hl⟩ := Option.ne_none_iff_exists'.mp hsome
      obtain ⟨this, hthis, -, -⟩ := hrep.live hl
      obtain ⟨h, hdestroy, -, hrep'⟩ := hrep.destroy hthis
      rw [BufferOp.step, hthis]
      dsimp only
      rw [hdestroy, Checked.ok_bind]
      exact ⟨granted_of_none rfl, hrep'⟩

/-! ## Sequences -/

/-- The list that the constructor from `const void*` makes is the data when that is kept; for the
other operations there is no difference. -/
theorem lists_eq_spec {op : BufferOp} (hspec : op.spec supply ls = some ls') :
    ∃ ls₂, op.lists Memory.buffer supply ls = some ls₂ ∧ (ls₂ = ls' ↔ op.Keeps supply) := by
  cases op with
  | ofConstVoid i data =>
      obtain ⟨hnone, hupdate⟩ := Option.ite_none_right_eq_some.mp hspec
      obtain rfl := Option.some.inj hupdate
      refine ⟨_, if_pos hnone, ?_⟩
      rw [(Function.update_injective ls i).eq_iff, Option.some_inj]
      exact supply.toMemory.buffer_eq_iff data
  | _ => exact ⟨ls', hspec, by simp [BufferOp.Keeps]⟩

/-- Buffers show one list each. -/
theorem Buffers.Show.unique (h : st.Show ls) (h' : st.Show ls') : ls = ls' := by
  funext i
  have hi := h i
  have hi' := h' i
  generalize st.objs i = o at hi hi'
  generalize ls i = a at hi ⊢
  generalize ls' i = b at hi' ⊢
  cases hi with
  | none =>
      cases hi' with
      | none => rfl
  | some hl =>
      cases hi' with
      | some hl' => rw [hl.2.unique hl'.2]

/-- From any state: the buffers go on to show the lists exactly as long as all data is kept. -/
theorem run_shows_iff {ops : List BufferOp} {memory : Nat → Supply} (hrep : st.Rep ls)
    (hops : (Lists.run memory ops ls).isSome) :
    (∀ k ls', Lists.run memory (ops.take k) ls = some ls' →
      (Buffers.run memory (ops.take k) st).Meets (fun st' => st'.Show ls') True) ↔
    AllKept memory ops ls := by
  induction ops generalizing st ls memory with
  | nil =>
      refine ⟨fun _ => trivial, fun _ k ls' hls => ?_⟩
      rw [List.take_nil] at hls ⊢
      obtain rfl := Option.some.inj hls
      exact hrep.shows
  | cons op ops ih =>
      obtain ⟨ls₁, hspec, hrest⟩ : ∃ ls₁, op.spec (memory 0) ls = some ls₁ ∧
          (Lists.run (fun n => memory (n + 1)) ops ls₁).isSome := by
        obtain ⟨lsₙ, hrun⟩ := Option.isSome_iff_exists.mp hops
        obtain ⟨ls₁, hspec, hrun₁⟩ := Option.bind_eq_some_iff.mp hrun
        exact ⟨ls₁, hspec, by rw [hrun₁]; rfl⟩
      obtain ⟨ls₂, hls₂, hkeeps⟩ := lists_eq_spec hspec
      have hstep := step_spec hrep hls₂
      -- the run on from the state behind the first operation
      have hbehind : ∀ k ls', Lists.run memory ((op :: ops).take (k + 1)) ls = some ls' ↔
          Lists.run (fun n => memory (n + 1)) (ops.take k) ls₁ = some ls' := by
        intro k ls'
        rw [List.take_succ_cons, Lists.run, hspec, Option.bind_some]
      cases hresult : op.step (memory 0) st with
      | undefined =>
          rw [hresult] at hstep
          exact hstep.elim
      | raised =>
          -- `new` has raised an exception, and nothing comes after it
          rw [hresult] at hstep
          refine ⟨fun _ hgranted => absurd hgranted hstep, fun _ k ls' hls => ?_⟩
          cases k with
          | zero =>
              obtain rfl := Option.some.inj hls
              exact hrep.shows
          | succ k =>
              rw [List.take_succ_cons, Buffers.run, hresult, Checked.raised_bind]
              exact trivial
      | ok st₁ =>
          rw [hresult] at hstep
          obtain ⟨hgranted, hrep₁⟩ := hstep
          have hrun : ∀ k, Buffers.run memory ((op :: ops).take (k + 1)) st =
              Buffers.run (fun n => memory (n + 1)) (ops.take k) st₁ := by
            intro k
            rw [List.take_succ_cons, Buffers.run, hresult, Checked.ok_bind]
          constructor
          · intro hshow _
            have hshow₁ : st₁.Show ls₁ := by
              have hfirst := hshow 1 ls₁ ((hbehind 0 ls₁).mpr rfl)
              rw [hrun] at hfirst
              exact hfirst
            -- the state behind the operation shows two lists, so its data has been kept
            obtain rfl : ls₂ = ls₁ := hrep₁.shows.unique hshow₁
            refine ⟨hkeeps.mp rfl, fun ls' hls' => ?_⟩
            obtain rfl := Option.some.inj (hspec.symm.trans hls')
            apply (ih hrep₁ hrest).mp
            intro k ls' hls
            have hnext := hshow (k + 1) ls' ((hbehind k ls').mpr hls)
            rw [hrun] at hnext
            exact hnext
          · intro hkept k ls' hls
            obtain ⟨hkeep, hnext⟩ := hkept hgranted
            obtain rfl : ls₂ = ls₁ := hkeeps.mpr hkeep
            cases k with
            | zero =>
                obtain rfl := Option.some.inj hls
                exact hrep.shows
            | succ k =>
                rw [hrun]
                exact (ih hrep₁ hrest).mpr (hnext ls₂ hspec) k ls' ((hbehind k ls').mp hls)

end

theorem Buffers.Rep.empty : Buffers.empty.Rep fun _ => none where
  owned := ⟨fun _ => .none, fun _ _ _ h => by cases h⟩
  size := by
    intro i b l h
    cases h

/-- **When buffers are lists of bytes**: over every sequence of operations in which objects are
constructed before they are used, all states have the sizes and contents of the lists if and only
if the constructor from `const void*` always finds what it does not copy. -/
theorem buffers_are_lists_iff (memory : Nat → Supply) (ops : List BufferOp)
    (hops : (Lists.run memory ops fun _ => none).isSome) :
    (∀ k ls, Lists.run memory (ops.take k) (fun _ => none) = some ls →
      (Buffers.run memory (ops.take k) Buffers.empty).Meets (fun st => st.Show ls) True) ↔
    AllKept memory ops fun _ => none :=
  run_shows_iff Buffers.Rep.empty hops

/-- A buffer is copied, moved, assigned and resized. -/
theorem buffers_are_lists_iff_abc :
    AllKept (fun _ => ⟨⟨fun _ => 7, 2, 0⟩, true⟩)
        [BufferOp.ofVoid 0 [97, 98, 99], .ofConstVoid 1 [97, 98], .copy 2 0, .move 3 0,
          .assign 1 3, .resize 1 5, .destroy 2] (fun _ => none) ∧
      ∀ k ls, Lists.run (fun _ => ⟨⟨fun _ => 7, 2, 0⟩, true⟩)
          ([BufferOp.ofVoid 0 [97, 98, 99], .ofConstVoid 1 [97, 98], .copy 2 0, .move 3 0,
            .assign 1 3, .resize 1 5, .destroy 2].take k) (fun _ => none) = some ls →
        (Buffers.run (fun _ => ⟨⟨fun _ => 7, 2, 0⟩, true⟩)
          ([BufferOp.ofVoid 0 [97, 98, 99], .ofConstVoid 1 [97, 98], .copy 2 0, .move 3 0,
            .assign 1 3, .resize 1 5, .destroy 2].take k) Buffers.empty).Meets
          (fun st => st.Show ls) True := by
  have hkeeps : Memory.Keeps ⟨fun _ => 7, 2, 0⟩ [97, 98] := by decide
  have hkept : AllKept (fun _ => ⟨⟨fun _ => 7, 2, 0⟩, true⟩)
      [BufferOp.ofVoid 0 [97, 98, 99], .ofConstVoid 1 [97, 98], .copy 2 0, .move 3 0,
        .assign 1 3, .resize 1 5, .destroy 2] (fun _ => none) := by
    simp [AllKept, BufferOp.Keeps, hkeeps]
  exact ⟨hkept, (buffers_are_lists_iff _ _ rfl).mpr hkept⟩

/-- The member that bounds the copy holds zero: no byte of the data arrives. -/
theorem buffer_not_copied :
    ¬ ∀ k ls, Lists.run (fun _ => ⟨⟨fun _ => 0, 0, 0⟩, true⟩)
        ([BufferOp.ofConstVoid 0 [97]].take k) (fun _ => none) = some ls →
      (Buffers.run (fun _ => ⟨⟨fun _ => 0, 0, 0⟩, true⟩) ([BufferOp.ofConstVoid 0 [97]].take k)
        Buffers.empty).Meets (fun st => st.Show ls) True := by
  intro hshow
  have hkept := (run_shows_iff Buffers.Rep.empty rfl).mp hshow
  have hgranted : (BufferOp.ofConstVoid 0 [97]).Granted ⟨⟨fun _ => 0, 0, 0⟩, true⟩
      fun _ => none := by
    rw [granted_iff rfl]
    decide
  have hlost : ¬ Memory.Keeps ⟨fun _ => 0, 0, 0⟩ [97] := by decide
  exact hlost (hkept hgranted).1

end DianProtocol.Cpp
