import DianProtocol.Cpp.ReadUntil

set_option autoImplicit false

/-! # Calls of a reader

A sequence of calls of `read` and `readUntil` on one reader is compared with the cursor that answers
them from what is left of the text. The buffer of `readUntil` is copied by a constructor that bounds
the copy by a member it has not set yet, so each call also depends on the memory that it finds:
`Memory.Keeps` says that the copy is complete.
-/

namespace DianProtocol.Cpp

open Cursor

/-! ## The buffer of `readUntil` -/

namespace Memory

/-- What the copy leaves out is in the array already. -/
def Keeps (m : Memory) (data : Str) : Prop :=
  ∀ i (h : i < data.length), m._size ≤ i → m.junk i = data[i]

instance (m : Memory) (data : Str) : Decidable (m.Keeps data) :=
  inferInstanceAs (Decidable (∀ i (h : i < data.length), m._size ≤ i → m.junk i = data[i]))

theorem length_buffer (m : Memory) (data : Str) : (m.buffer data).length = data.length :=
  length_newArray _ _ _

theorem buffer_nil (m : Memory) : m.buffer [] = [] :=
  List.eq_nil_of_length_eq_zero (m.length_buffer [])

theorem getElem_buffer (m : Memory) (data : Str) {i : Nat} (h : i < (m.buffer data).length)
    (h' : i < data.length) :
    (m.buffer data)[i] = if i < m._size then data[i] else m.junk i := by
  simp only [buffer, newArray, List.take_take, List.length_take]
  by_cases hi : i < m._size
  · rw [if_pos hi, List.getElem_append_left (by simp; omega), List.getElem_take]
  · rw [if_neg hi, List.getElem_append_right (by simp; omega), List.getElem_map,
      List.getElem_range']
    congr 1
    simp only [List.length_take]
    omega

theorem buffer_eq_iff (m : Memory) (data : Str) : m.buffer data = data ↔ m.Keeps data := by
  constructor
  · intro heq i hi hsize
    have hget := m.getElem_buffer data (by rwa [length_buffer]) hi
    rw [if_neg (by omega)] at hget
    rw [← hget]
    simp only [heq]
  · intro hkeeps
    refine List.ext_getElem (m.length_buffer data) fun i hi hi' => ?_
    rw [m.getElem_buffer data hi hi']
    by_cases hsize : i < m._size
    · rw [if_pos hsize]
    · rw [if_neg hsize]
      exact hkeeps i hi' (by omega)

theorem take_buffer (m : Memory) (data : Str) (k : Nat) :
    (m.buffer data).take k = m.buffer (data.take k) := by
  refine List.ext_getElem (by simp [length_buffer]) fun i hi hi' => ?_
  have hlen : i < (data.take k).length := by rwa [length_buffer] at hi'
  have hdata : i < data.length := by
    rw [List.length_take] at hlen
    omega
  rw [List.getElem_take, m.getElem_buffer data _ hdata, m.getElem_buffer _ hi' hlen,
    List.getElem_take]

end Memory

/-! ## Runs of calls -/

/-- Successive calls on a reader, each with memory of its own: the buffers that they return. -/
def runCalls {ρ : Type} (call : ρ → Call Byte → Memory → Option (Reading ρ Str)) :
    (Nat → Memory) → ρ → List (Call Byte) → Option (Reading ρ (List Str))
  | _, r, [] => some (.done [] r)
  | memory, r, c :: cs =>
      match call r c (memory 0) with
      | none => none
      | some (.thrown e) => some (.thrown e)
      | some .blocked => some .blocked
      | some (.done data r) =>
          (runCalls call (fun i => memory (i + 1)) r cs).map (Reading.map (data :: ·))

section

variable {ρ : Type} {call : ρ → Call Byte → Memory → Option (Reading ρ Str)}

/-- The first call, and the others. -/
theorem runCalls_cons {memory : Nat → Memory} {r r' : ρ} {c : Call Byte} {cs : List (Call Byte)}
    {results : List Str} :
    runCalls call memory r (c :: cs) = some (.done results r') ↔
      ∃ data r₁ rest, call r c (memory 0) = some (.done data r₁) ∧
        runCalls call (fun i => memory (i + 1)) r₁ cs = some (.done rest r') ∧
          results = data :: rest := by
  rw [runCalls]
  cases hcall : call r c (memory 0) with
  | none => simp
  | some reading =>
      cases reading with
      | thrown e => simp
      | blocked => simp
      | done data r₁ =>
          dsimp only
          constructor
          · intro h
            cases hrest : runCalls call (fun i => memory (i + 1)) r₁ cs with
            | none =>
                rw [hrest] at h
                cases h
            | some reading =>
                rw [hrest] at h
                cases reading with
                | thrown e => cases h
                | blocked => cases h
                | done rest r₂ =>
                    cases h
                    exact ⟨data, r₁, rest, rfl, hrest, rfl⟩
          · rintro ⟨data', r₁', rest, heq, hrest, rfl⟩
            cases heq
            rw [hrest]
            rfl

end

/-! ## Delivery -/

section

variable {ρ : Type} {call : Nat → ρ → Call Byte → Memory → Option (Reading ρ Str)}
  {At : ρ → Str → Prop} {Safe : Memory → Str → Call Byte → Prop}

/-- The calls return, and their buffers lose, repeat and invent nothing of `content`. -/
def Delivered (call : Nat → ρ → Call Byte → Memory → Option (Reading ρ Str))
    (memory : Nat → Memory) (r : ρ) (content : Str) (calls : List (Call Byte)) : Prop :=
  ∃ fuel results r', runCalls (call fuel) memory r calls = some (.done results r') ∧
    Delivers content calls results

/-- A reader at a place in a text answers a call as the cursor does if and only if the call is
safe, and is then where the cursor is. -/
structure Follows (call : Nat → ρ → Call Byte → Memory → Option (Reading ρ Str))
    (At : ρ → Str → Prop) (Safe : Memory → Str → Call Byte → Prop) : Prop where
  mono : ∀ {fuel r c m reading}, call fuel r c m = some reading → ∀ k,
    call (fuel + k) r c m = some reading
  safe : ∀ {r left c m}, At r left → c.Proper → Safe m left c → ∃ fuel r',
    call fuel r c m = some (.done (c.answer left) r') ∧
      At r' (left.drop (c.answer left).length)
  other : ∀ {r left c m}, At r left → c.Proper → ¬ Safe m left c → ∃ fuel data r',
    call fuel r c m = some (.done data r') ∧
      ¬ (data <+: left ∧ ∀ d, c = .readUntil d → Until d left data)

theorem Follows.runCalls_mono (h : Follows call At Safe) {fuel : Nat} {memory : Nat → Memory}
    {r r' : ρ} {calls : List (Call Byte)} {results : List Str}
    (hrun : runCalls (call fuel) memory r calls = some (.done results r')) (k : Nat) :
    runCalls (call (fuel + k)) memory r calls = some (.done results r') := by
  induction calls generalizing memory r results with
  | nil => exact hrun
  | cons c cs ih =>
      obtain ⟨data, r₁, rest, hcall, hrest, rfl⟩ := runCalls_cons.mp hrun
      exact runCalls_cons.mpr ⟨data, r₁, rest, h.mono hcall k, ih hrest, rfl⟩

/-- Two runs of one call that return, return the same. -/
theorem Follows.call_unique (h : Follows call At Safe) {fuel fuel' : Nat} {r : ρ} {c : Call Byte}
    {m : Memory} {reading reading' : Reading ρ Str} (hcall : call fuel r c m = some reading)
    (hcall' : call fuel' r c m = some reading') : reading = reading' := by
  have hmore := h.mono hcall fuel'
  have hmore' := h.mono hcall' fuel
  rw [Nat.add_comm fuel' fuel, hmore] at hmore'
  exact Option.some.inj hmore'

theorem along_shift {P : Nat → Str → Call Byte → Prop} {i : Nat} {left : Str}
    {calls : List (Call Byte)} :
    Along P (i + 1) left calls ↔ Along (fun j => P (j + 1)) i left calls := by
  induction calls generalizing i left with
  | nil => exact Iff.rfl
  | cons c cs ih =>
      unfold Along
      rw [ih]

/-- **What a reader delivers**: its calls lose, repeat and invent nothing if and only if each of
them is safe at the place of the cursor. -/
theorem Follows.delivers_iff_along (h : Follows call At Safe) {memory : Nat → Memory} {r : ρ}
    {left : Str} (hat : At r left) {calls : List (Call Byte)} (hcalls : ∀ c ∈ calls, c.Proper) :
    Delivered call memory r left calls ↔ Along (fun i => Safe (memory i)) 0 left calls := by
  induction calls generalizing memory r left with
  | nil => exact iff_of_true ⟨0, [], r, rfl, delivers_nil left⟩ trivial
  | cons c cs ih =>
      have hc : c.Proper := hcalls c List.mem_cons_self
      have hcs : ∀ c' ∈ cs, c'.Proper := fun c' hc' => hcalls c' (by simp [hc'])
      unfold Along
      rw [along_shift]
      constructor
      · rintro ⟨fuel, results, r', hrun, hdelivers⟩
        obtain ⟨data, r₁, rest, hcall, hrest, rfl⟩ := runCalls_cons.mp hrun
        obtain ⟨hpre, huntil, hdelivers⟩ := delivers_cons.mp hdelivers
        by_cases hsafe : Safe (memory 0) left c
        · obtain ⟨fuel', r₂, hcall', hat'⟩ := h.safe hat hc hsafe
          have heq := h.call_unique hcall hcall'
          cases heq
          exact ⟨hsafe, (ih hat' hcs).mp ⟨fuel, rest, r', hrest, hdelivers⟩⟩
        · obtain ⟨fuel', data', r₂, hcall', hnot⟩ := h.other hat hc hsafe
          have heq := h.call_unique hcall hcall'
          cases heq
          exact absurd ⟨hpre, huntil⟩ hnot
      · rintro ⟨hsafe, halong⟩
        obtain ⟨fuel, r₁, hcall, hat'⟩ := h.safe hat hc hsafe
        obtain ⟨fuel', rest, r', hrest, hdelivers⟩ := (ih hat' hcs).mpr halong
        have hmore := h.runCalls_mono hrest fuel
        rw [Nat.add_comm] at hmore
        refine ⟨fuel + fuel', c.answer left :: rest, r',
          runCalls_cons.mpr ⟨_, r₁, rest, h.mono hcall fuel', hmore, rfl⟩, ?_⟩
        refine delivers_cons.mpr ⟨c.prefix_answer left, fun d hd => ?_, hdelivers⟩
        subst hd
        exact cut_until hc left

end

end DianProtocol.Cpp
