import Mathlib.Data.List.Nodup
import Mathlib.Logic.Function.Basic

set_option autoImplicit false

/-! # Socket handles

Objects of the class `dian::socket::socket` hold a handle of the system. `close` and the destructor
both apply `closesocket` to it, and the flag `closed`, which `close` sets and which a move sets in
its source, is never looked at. The system may give out the value of a closed handle again, for a
connection of another worker, so what a second `closesocket` closes is not always what the object
once held.

`handles_closed_once` says when all is well: as long as no object is closed or destroyed after it
has been closed or moved from.
-/

namespace DianProtocol.Cpp

/-! ## The class `socket` -/

abbrev SOCKET := Nat

/-- An object of the class `socket`. The last two fields are not in the source: which of the handles
given out by the system the value stands for, and whether the object has been closed or moved from
since it got that handle, or has got it from one that had. -/
structure Object where
  socketvalue : SOCKET
  closed : Bool := false
  issue : Nat
  spent : Bool := false
  deriving DecidableEq

/-- A call of `closesocket`: the handle that the object held, and the handle that was open under
this value and is closed by the call. -/
structure Closing where
  issue : Nat
  hit : Option Nat
  deriving DecidableEq

/-- The objects that are alive, the handles that are open, the values of all handles that the system
has given out, the handles that a constructor has been called with, and the calls of `closesocket`.
-/
structure Sockets where
  objects : Nat → Option Object := fun _ => none
  open_ : SOCKET → Option Nat := fun _ => none
  issued : List SOCKET := []
  constructed : List Nat := []
  closings : List Closing := []

/-- What happens to sockets. The objects are numbered, as are the handles, in the order in which
the system gives them out. -/
inductive HandleOp where
  | issue (value : SOCKET)
  | construct (o n : Nat)
  | moveConstruct (o other : Nat)
  | moveAssign (o other : Nat)
  | close (o : Nat)
  | destroy (o : Nat)
  deriving DecidableEq

namespace Sockets

/-- `closesocket(socketvalue)` -/
def closesocket (s : Sockets) (x : Object) : Sockets :=
  { s with open_ := Function.update s.open_ x.socketvalue none,
           closings := s.closings ++ [⟨x.issue, s.open_ x.socketvalue⟩] }

def set (s : Sockets) (o : Nat) (x : Option Object) : Sockets :=
  { s with objects := Function.update s.objects o x }

/-- One operation, `none` when it is impossible. -/
def step (s : Sockets) : HandleOp → Option Sockets
  -- the result of `::accept` or `::socket`: a value under which nothing is open
  | .issue value =>
      if s.open_ value = none then
        some { s with open_ := Function.update s.open_ value (some s.issued.length),
                      issued := s.issued ++ [value] }
      else none
  -- `socket(SOCKET socketvalue)`
  | .construct o n =>
      match s.objects o, s.issued[n]? with
      | none, some value =>
          some { s.set o (some { socketvalue := value, issue := n }) with
                 constructed := n :: s.constructed }
      | _, _ => none
  -- `socket(socket &&other)`
  | .moveConstruct o other =>
      match s.objects o, s.objects other with
      | none, some x =>
          some ((s.set o (some { socketvalue := x.socketvalue, issue := x.issue,
                                 spent := x.spent })).set other
            (some { x with closed := true, spent := true }))
      | _, _ => none
  -- `operator=(socket &&other)`: the flag of the target stays as it is
  | .moveAssign o other =>
      match s.objects o, s.objects other with
      | some x, some y =>
          if o = other then some (s.set o (some { x with closed := true }))
          else some ((s.set o (some { x with socketvalue := y.socketvalue, issue := y.issue,
                                             spent := y.spent })).set other
            (some { y with closed := true, spent := true }))
      | _, _ => none
  | .close o =>
      (s.objects o).map fun x =>
        (s.closesocket x).set o (some { x with closed := true, spent := true })
  -- `~socket`
  | .destroy o => (s.objects o).map fun x => (s.closesocket x).set o none

/-- Operations one after the other, of all threads. -/
def run : Sockets → List HandleOp → Option Sockets
  | s, [] => some s
  | s, op :: ops => (s.step op).bind fun s => run s ops

/-- `closesocket` has been applied at most once to every handle, and never to a handle that another
object holds. -/
structure ClosedOnce (s : Sockets) : Prop where
  once : (s.closings.map Closing.issue).Nodup
  own : ∀ c ∈ s.closings, c.hit = some c.issue

/-- The object `o` has been neither closed nor moved from since it got its handle. -/
def Owns (s : Sockets) (o : Nat) : Prop := ∀ x, s.objects o = some x → x.spent = false

/-- An operation that closes and destroys no object which has been closed or moved from, and
constructs no second object from one handle. -/
def Honours (s : Sockets) : HandleOp → Prop
  | .construct _ n => n ∉ s.constructed
  | .close o => s.Owns o
  | .destroy o => s.Owns o
  | _ => True

/-- All operations do so. -/
def AllHonour : Sockets → List HandleOp → Prop
  | _, [] => True
  | s, op :: ops => s.Honours op ∧ ∀ s', s.step op = some s' → AllHonour s' ops

/-! ## The invariant -/

/-- An open handle is held by one object that owns it, or has not been given to a constructor. -/
structure Inv (s : Sockets) : Prop where
  closedOnce : s.ClosedOnce
  issued : ∀ v n, s.open_ v = some n → s.issued[n]? = some v
  closed : ∀ c ∈ s.closings, c.issue < s.issued.length ∧ ∀ v, s.open_ v ≠ some c.issue
  constructed : ∀ o x, s.objects o = some x → x.issue ∈ s.constructed
  bounded : ∀ n ∈ s.constructed, n < s.issued.length
  fresh : ∀ n v, s.issued[n]? = some v → n ∉ s.constructed → s.open_ v = some n
  owned : ∀ o x, s.objects o = some x → x.spent = false → s.open_ x.socketvalue = some x.issue
  unique : ∀ o o' x x', s.objects o = some x → s.objects o' = some x' → x.spent = false →
    x'.spent = false → x.issue = x'.issue → o = o'

theorem inv_empty : Inv {} where
  closedOnce := ⟨List.nodup_nil, by simp⟩
  issued _ _ h := by cases h
  closed := by simp
  constructed _ _ h := by cases h
  bounded := by simp
  fresh _ _ h := by simp at h
  owned _ _ h := by cases h
  unique _ _ _ _ h := by cases h

/-- Handles change hands: an object that owns its handle has it from the object `f o`, which owned
it before, and no two objects have theirs from one. -/
theorem Inv.transfer {s : Sockets} (hs : Inv s) (objects : Nat → Option Object) (f : Nat → Nat)
    (hin : ∀ o x, objects o = some x → x.issue ∈ s.constructed)
    (hfrom : ∀ o x, objects o = some x → x.spent = false → ∃ y, s.objects (f o) = some y ∧
      y.spent = false ∧ y.socketvalue = x.socketvalue ∧ y.issue = x.issue)
    (hone : ∀ o o' x x', objects o = some x → objects o' = some x' → x.spent = false →
      x'.spent = false → f o = f o' → o = o') : Inv { s with objects := objects } where
  closedOnce := ⟨hs.closedOnce.once, hs.closedOnce.own⟩
  issued := hs.issued
  closed := hs.closed
  constructed := hin
  bounded := hs.bounded
  fresh := hs.fresh
  owned o x hx hown := by
    obtain ⟨y, hy, hyo, hv, hi⟩ := hfrom o x hx hown
    rw [← hv, ← hi]
    exact hs.owned (f o) y hy hyo
  unique o o' x x' hx hx' hown hown' he := by
    obtain ⟨y, hy, hyo, -, hi⟩ := hfrom o x hx hown
    obtain ⟨y', hy', hyo', -, hi'⟩ := hfrom o' x' hx' hown'
    have hf : f o = f o' := hs.unique _ _ y y' hy hy' hyo hyo' (by rw [hi, hi', he])
    exact hone o o' x x' hx hx' hown hown' hf

/-- The objects behind `set`: the one that is set, and the others. -/
theorem objects_set {s : Sockets} {o o' : Nat} {y : Option Object} {z : Object}
    (h : (s.set o y).objects o' = some z) :
    (o' = o ∧ y = some z) ∨ (o' ≠ o ∧ s.objects o' = some z) := by
  by_cases he : o' = o
  · subst he
    simp only [set, Function.update_self] at h
    exact .inl ⟨rfl, h⟩
  · simp only [set, Function.update_of_ne he] at h
    exact .inr ⟨he, h⟩

/-- A handle that has not been closed before, and is what the call closes. -/
theorem ClosedOnce.closesocket {s : Sockets} (hs : s.ClosedOnce) {x : Object}
    (hopen : s.open_ x.socketvalue = some x.issue) (hnew : ∀ c ∈ s.closings, c.issue ≠ x.issue) :
    (s.closesocket x).ClosedOnce where
  once := by
    simp only [Sockets.closesocket, List.map_append, List.map_cons, List.map_nil]
    refine List.nodup_append.2 ⟨hs.once, List.nodup_singleton _, ?_⟩
    rintro a ha b hb rfl
    obtain ⟨c, hc, rfl⟩ := List.mem_map.1 ha
    exact hnew c hc (List.mem_singleton.1 hb)
  own := by
    intro c hc
    simp only [Sockets.closesocket, List.mem_append, List.mem_singleton] at hc
    rcases hc with hc | rfl
    · exact hs.own c hc
    · exact hopen

/-- `closesocket` by an object that owns its handle, which then is no more or owns nothing. -/
theorem Inv.closesocket {s : Sockets} (hs : Inv s) {o : Nat} {x : Object} (y : Option Object)
    (hx : s.objects o = some x) (hown : x.spent = false)
    (hy : ∀ z, y = some z → z.spent = true ∧ z.issue = x.issue) :
    Inv ((s.closesocket x).set o y) := by
  have hopen : s.open_ x.socketvalue = some x.issue := hs.owned o x hx hown
  have hnew : ∀ c ∈ s.closings, c.issue ≠ x.issue := by
    intro c hc he
    exact (hs.closed c hc).2 x.socketvalue (by rw [hopen, he])
  have hother : ∀ v, v ≠ x.socketvalue → s.open_ v ≠ some x.issue := by
    intro v hv he
    have h1 := hs.issued v _ he
    have h2 := hs.issued _ _ hopen
    rw [h1] at h2
    exact hv (Option.some.inj h2)
  -- an object that owns a handle afterwards owned it before, and is another one
  have hold : ∀ o' z, ((s.closesocket x).set o y).objects o' = some z → z.spent = false →
      o' ≠ o ∧ s.objects o' = some z := by
    intro o' z hz hzo
    rcases objects_set hz with ⟨-, hz⟩ | ⟨he, hz⟩
    · rw [(hy z hz).1] at hzo
      cases hzo
    · exact ⟨he, hz⟩
  constructor
  · have honce := hs.closedOnce.closesocket hopen hnew
    exact ⟨honce.once, honce.own⟩
  · intro v n hv
    by_cases he : v = x.socketvalue
    · simp [set, Sockets.closesocket, he] at hv
    · simp only [set, Sockets.closesocket, Function.update_of_ne he] at hv
      exact hs.issued v n hv
  · intro c hc
    simp only [set, Sockets.closesocket, List.mem_append, List.mem_singleton] at hc ⊢
    have hbound : c.issue < s.issued.length ∧ ∀ v, v ≠ x.socketvalue →
        s.open_ v ≠ some c.issue := by
      rcases hc with hc | rfl
      · exact ⟨(hs.closed c hc).1, fun v _ => (hs.closed c hc).2 v⟩
      · exact ⟨hs.bounded _ (hs.constructed o x hx), hother⟩
    refine ⟨hbound.1, fun v => ?_⟩
    by_cases he : v = x.socketvalue
    · simp [he]
    · rw [Function.update_of_ne he]
      exact hbound.2 v he
  · intro o' z hz
    rcases objects_set hz with ⟨-, hz⟩ | ⟨-, hz⟩
    · rw [(hy z hz).2]
      exact hs.constructed o x hx
    · exact hs.constructed o' z hz
  · exact hs.bounded
  · intro n v hn hfresh
    have hv := hs.fresh n v hn hfresh
    have hne : v ≠ x.socketvalue := by
      rintro rfl
      rw [hopen] at hv
      exact hfresh (Option.some.inj hv ▸ hs.constructed o x hx)
    simp only [set, Sockets.closesocket, Function.update_of_ne hne]
    exact hv
  · intro o' z hz hzo
    obtain ⟨he, hz⟩ := hold o' z hz hzo
    have hv := hs.owned o' z hz hzo
    have hne : z.socketvalue ≠ x.socketvalue := by
      intro h
      rw [h, hopen] at hv
      exact he (hs.unique _ _ z x hz hx hzo hown (Option.some.inj hv).symm)
    simp only [set, Sockets.closesocket, Function.update_of_ne hne]
    exact hv
  · intro o₁ o₂ z z' hz hz' hzo hzo' hi
    exact hs.unique o₁ o₂ z z' (hold o₁ z hz hzo).2 (hold o₂ z' hz' hzo').2 hzo hzo' hi

/-- A new handle is one that no object holds. -/
theorem Inv.issue {s : Sockets} (hs : Inv s) {value : SOCKET} (hv : s.open_ value = none) :
    Inv { s with open_ := Function.update s.open_ value (some s.issued.length),
                 issued := s.issued ++ [value] } where
  closedOnce := ⟨hs.closedOnce.once, hs.closedOnce.own⟩
  issued v n h := by
    by_cases he : v = value
    · subst he
      simp only [Function.update_self, Option.some.injEq] at h
      simp [← h]
    · simp only [Function.update_of_ne he] at h
      have hn := hs.issued v n h
      rw [List.getElem?_append_left (List.getElem?_eq_some_iff.1 hn).1, hn]
  closed c hc := by
    obtain ⟨hlt, hopen⟩ := hs.closed c hc
    refine ⟨by rw [List.length_append]; omega, fun v => ?_⟩
    by_cases he : v = value
    · subst he
      simp only [Function.update_self, ne_eq, Option.some.injEq]
      omega
    · simp only [Function.update_of_ne he]
      exact hopen v
  constructed := hs.constructed
  bounded n hn := by
    have := hs.bounded n hn
    rw [List.length_append]
    omega
  fresh n v hn hfresh := by
    rcases Nat.lt_or_ge n s.issued.length with hlt | hge
    · rw [List.getElem?_append_left hlt] at hn
      have hopen := hs.fresh n v hn hfresh
      have hne : v ≠ value := by
        rintro rfl
        rw [hv] at hopen
        cases hopen
      simp only [Function.update_of_ne hne]
      exact hopen
    · rw [List.getElem?_append_right hge] at hn
      obtain ⟨hlt, rfl⟩ := List.getElem?_eq_some_iff.1 hn
      simp only [List.length_singleton] at hlt
      have h0 : n = s.issued.length := by omega
      simp [h0]
  owned o x hx hown := by
    have hopen := hs.owned o x hx hown
    have hne : x.socketvalue ≠ value := by
      intro h
      rw [h, hv] at hopen
      cases hopen
    simp only [Function.update_of_ne hne]
    exact hopen
  unique := hs.unique

/-- A constructor gets a handle that no object has had. -/
theorem Inv.construct {s : Sockets} (hs : Inv s) {o n : Nat} {value : SOCKET}
    (hn : s.issued[n]? = some value) (hfresh : n ∉ s.constructed) :
    Inv { s.set o (some { socketvalue := value, issue := n }) with
          constructed := n :: s.constructed } where
  closedOnce := ⟨hs.closedOnce.once, hs.closedOnce.own⟩
  issued := hs.issued
  closed := hs.closed
  constructed o' x hx := by
    rcases objects_set hx with ⟨-, hx⟩ | ⟨-, hx⟩
    · cases hx
      exact List.mem_cons_self
    · exact List.mem_cons_of_mem _ (hs.constructed o' x hx)
  bounded m hm := by
    rcases List.mem_cons.1 hm with rfl | hm
    · exact (List.getElem?_eq_some_iff.1 hn).1
    · exact hs.bounded m hm
  fresh m v hm hnot := hs.fresh m v hm fun h => hnot (List.mem_cons_of_mem _ h)
  owned o' x hx hown := by
    rcases objects_set hx with ⟨-, hx⟩ | ⟨-, hx⟩
    · cases hx
      exact hs.fresh n value hn hfresh
    · exact hs.owned o' x hx hown
  unique o₁ o₂ x x' hx hx' hown hown' hi := by
    have hother : ∀ o' z, s.objects o' = some z → z.issue ≠ n := by
      intro o' z hz h
      exact hfresh (h ▸ hs.constructed o' z hz)
    rcases objects_set hx with ⟨h₁, hx⟩ | ⟨-, hx⟩
    · rcases objects_set hx' with ⟨h₂, -⟩ | ⟨-, hx'⟩
      · rw [h₁, h₂]
      · cases hx
        exact absurd hi.symm (hother o₂ x' hx')
    · rcases objects_set hx' with ⟨-, hx'⟩ | ⟨-, hx'⟩
      · cases hx'
        exact absurd hi (hother o₁ x hx)
      · exact hs.unique o₁ o₂ x x' hx hx' hown hown' hi

/-- `o` gets the handle of `other`, and `other` keeps nothing but the value. -/
theorem Inv.move {s : Sockets} (hs : Inv s) {o other : Nat} {x y z : Object} (hne : o ≠ other)
    (hx : s.objects other = some x) (hv : y.socketvalue = x.socketvalue) (hi : y.issue = x.issue)
    (hy : y.spent = x.spent) (hz : z.spent = true) (hzi : z.issue = x.issue) :
    Inv ((s.set o (some y)).set other (some z)) := by
  have hlook : ∀ o' w, ((s.set o (some y)).set other (some z)).objects o' = some w →
      (o' = other ∧ w = z) ∨ (o' = o ∧ w = y) ∨ (o' ≠ other ∧ o' ≠ o ∧ s.objects o' = some w) := by
    intro o' w hw
    rcases objects_set hw with ⟨h₁, hw⟩ | ⟨h₁, hw⟩
    · cases hw
      exact .inl ⟨h₁, rfl⟩
    rcases objects_set hw with ⟨h₂, hw⟩ | ⟨h₂, hw⟩
    · cases hw
      exact .inr (.inl ⟨h₂, rfl⟩)
    · exact .inr (.inr ⟨h₁, h₂, hw⟩)
  refine hs.transfer _ (fun o' => if o' = o then other else o') ?_ ?_ ?_
  · intro o' w hw
    rcases hlook o' w hw with ⟨-, rfl⟩ | ⟨-, rfl⟩ | ⟨-, -, hw⟩
    · rw [hzi]
      exact hs.constructed other x hx
    · rw [hi]
      exact hs.constructed other x hx
    · exact hs.constructed o' w hw
  · intro o' w hw hown
    rcases hlook o' w hw with ⟨-, rfl⟩ | ⟨rfl, rfl⟩ | ⟨-, h, hw⟩
    · rw [hz] at hown
      cases hown
    · exact ⟨x, by simpa using hx, by rw [← hy, hown], hv.symm, hi.symm⟩
    · exact ⟨w, by simpa [h] using hw, hown, rfl, rfl⟩
  · intro o₁ o₂ w w' hw hw' hown hown' hf
    have hnot : ∀ o' w, ((s.set o (some y)).set other (some z)).objects o' = some w →
        w.spent = false → o' ≠ other := by
      intro o' w hw hown h
      rcases hlook o' w hw with ⟨-, rfl⟩ | ⟨rfl, -⟩ | ⟨h', -⟩
      · rw [hz] at hown
        cases hown
      · exact hne h
      · exact h' h
    have h₁ := hnot o₁ w hw hown
    have h₂ := hnot o₂ w' hw' hown'
    split at hf <;> split at hf
    · next he he' => rw [he, he']
    · exact absurd hf.symm h₂
    · exact absurd hf h₁
    · exact hf

/-- An object onto itself: only the flag changes. -/
theorem Inv.setClosed {s : Sockets} (hs : Inv s) {o : Nat} {x : Object}
    (hx : s.objects o = some x) : Inv (s.set o (some { x with closed := true })) := by
  have hlook : ∀ o' w, (s.set o (some { x with closed := true })).objects o' = some w →
      ∃ z, s.objects o' = some z ∧ z.spent = w.spent ∧ z.socketvalue = w.socketvalue ∧
        z.issue = w.issue := by
    intro o' w hw
    rcases objects_set hw with ⟨rfl, heq⟩ | ⟨-, hw⟩
    · cases heq
      exact ⟨x, hx, rfl, rfl, rfl⟩
    · exact ⟨w, hw, rfl, rfl, rfl⟩
  refine hs.transfer _ id ?_ ?_ fun _ _ _ _ _ _ _ _ hf => hf
  · intro o' w hw
    obtain ⟨z, hz, -, -, hi⟩ := hlook o' w hw
    rw [← hi]
    exact hs.constructed o' z hz
  · intro o' w hw hown
    obtain ⟨z, hz, ho, hv, hi⟩ := hlook o' w hw
    exact ⟨z, hz, by rw [ho, hown], hv, hi⟩

/-- One operation. -/
theorem inv_step {s s' : Sockets} {op : HandleOp} (hs : Inv s) (h : s.Honours op)
    (hstep : s.step op = some s') : Inv s' := by
  cases op with
  | issue value =>
    simp only [step] at hstep
    split at hstep
    · next hv =>
      obtain rfl := Option.some.inj hstep
      exact hs.issue hv
    · cases hstep
  | construct o n =>
    simp only [step] at hstep
    split at hstep
    · next hn =>
      obtain rfl := Option.some.inj hstep
      exact hs.construct hn h
    · cases hstep
  | moveConstruct o other =>
    simp only [step] at hstep
    split at hstep
    · next x ho hx =>
      obtain rfl := Option.some.inj hstep
      have hne : o ≠ other := by
        rintro rfl
        rw [ho] at hx
        cases hx
      exact hs.move hne hx rfl rfl rfl rfl rfl
    · cases hstep
  | moveAssign o other =>
    simp only [step] at hstep
    split at hstep
    · next x y hx hy =>
      split at hstep
      · obtain rfl := Option.some.inj hstep
        exact hs.setClosed hx
      · next hne =>
        obtain rfl := Option.some.inj hstep
        exact hs.move hne hy rfl rfl rfl rfl rfl
    · cases hstep
  | close o =>
    obtain ⟨x, hx, rfl⟩ := Option.map_eq_some_iff.1 hstep
    exact hs.closesocket _ hx (h x hx) (by rintro z ⟨⟩; exact ⟨rfl, rfl⟩)
  | destroy o =>
    obtain ⟨x, hx, rfl⟩ := Option.map_eq_some_iff.1 hstep
    exact hs.closesocket _ hx (h x hx) (by rintro z ⟨⟩)

/-- Any number of operations. -/
theorem inv_run {ops : List HandleOp} {s s' : Sockets} (hs : Inv s) (h : AllHonour s ops)
    (hrun : run s ops = some s') : Inv s' := by
  induction ops generalizing s with
  | nil => exact Option.some.inj hrun ▸ hs
  | cons op ops ih =>
    obtain ⟨s₁, hstep, hrest⟩ := Option.bind_eq_some_iff.1 hrun
    exact ih (inv_step hs h.1 hstep) (h.2 s₁ hstep) hrest

/-- While `closed` is honoured from outside, every handle is closed at most once, and by the object
that holds it: what another connection has got is not touched. -/
theorem handles_closed_once (ops : List HandleOp) (s : Sockets) (h : AllHonour {} ops)
    (hrun : run {} ops = some s) : s.ClosedOnce :=
  (inv_run inv_empty h hrun).closedOnce

/-- A connection that is accepted, handed on and destroyed. -/
theorem handles_closed_once_moved :
    ∃ s, AllHonour {} [.issue 7, .construct 0 0, .moveConstruct 1 0, .destroy 1] ∧
      run {} [.issue 7, .construct 0 0, .moveConstruct 1 0, .destroy 1] = some s ∧
      s.closings = [⟨0, some 0⟩] ∧ s.ClosedOnce := by
  have hall : AllHonour {} [.issue 7, .construct 0 0, .moveConstruct 1 0, .destroy 1] := by
    refine ⟨trivial, ?_⟩
    rintro _ ⟨⟩
    refine ⟨List.not_mem_nil, ?_⟩
    rintro _ ⟨⟩
    refine ⟨trivial, ?_⟩
    rintro _ ⟨⟩
    refine ⟨?_, fun _ _ => trivial⟩
    rintro _ ⟨⟩
    rfl
  exact ⟨_, hall, rfl, rfl, handles_closed_once _ _ hall rfl⟩

/-- The end of a connection after an error reply in `RtspServer::start`: `close`, and then `client`
is destroyed. In between the value `7` has become that of a second connection. -/
theorem handle_closed_twice :
    ∃ s, run {} [.issue 7, .construct 0 0, .close 0, .issue 7, .construct 1 1, .destroy 0] =
        some s ∧ s.closings = [⟨0, some 0⟩, ⟨0, some 1⟩] ∧ ¬ s.ClosedOnce := by
  refine ⟨_, rfl, rfl, fun h => ?_⟩
  have hown := h.own ⟨0, some 1⟩ (List.mem_of_mem_getLast? rfl)
  cases hown

/-! ## What the flag is for -/

/-- An operation that neither ends the object `o` nor gives it another handle. -/
def Keeps (o : Nat) : HandleOp → Prop
  | .moveAssign o' _ => o' ≠ o
  | .destroy o' => o' ≠ o
  | _ => True

theorem objects_set_ne {s : Sockets} {o o' : Nat} (y : Option Object) (h : o ≠ o') :
    (s.set o' y).objects o = s.objects o := by
  simp only [set, Function.update_of_ne h]

/-- An object keeps its handle when one with the same handle takes its place. -/
theorem kept_set {s : Sockets} {o other : Nat} {x z : Object} (y : Object)
    (hx : s.objects o = some x) (hz : o = other → x = z) (hy : y.issue = z.issue) :
    ∃ y', (s.set other (some y)).objects o = some y' ∧ y'.issue = x.issue := by
  by_cases he : o = other
  · rw [hz he]
    subst he
    exact ⟨y, Function.update_self _ _ _, hy⟩
  · exact ⟨x, (objects_set_ne _ he).trans hx, rfl⟩

/-- The object keeps its handle, and what has been closed remains closed. -/
theorem keeps_step {s s' : Sockets} {op : HandleOp} {o : Nat} {x : Object} (hop : Keeps o op)
    (hx : s.objects o = some x) (hstep : s.step op = some s') :
    (∃ y, s'.objects o = some y ∧ y.issue = x.issue) ∧ s.closings <+: s'.closings := by
  cases op with
  | issue value =>
    simp only [step] at hstep
    split at hstep
    · obtain rfl := Option.some.inj hstep
      exact ⟨⟨x, hx, rfl⟩, List.prefix_rfl⟩
    · cases hstep
  | construct o' n =>
    simp only [step] at hstep
    split at hstep
    · next ho' _ =>
      obtain rfl := Option.some.inj hstep
      have hne : o ≠ o' := by
        rintro rfl
        rw [ho'] at hx
        cases hx
      exact ⟨⟨x, (objects_set_ne _ hne).trans hx, rfl⟩, List.prefix_rfl⟩
    · cases hstep
  | moveConstruct o' other =>
    simp only [step] at hstep
    split at hstep
    · next z ho' hz =>
      obtain rfl := Option.some.inj hstep
      have hne : o ≠ o' := by
        rintro rfl
        rw [ho'] at hx
        cases hx
      have hx' : ∀ y, (s.set o' y).objects o = some x := fun y => (objects_set_ne y hne).trans hx
      refine ⟨kept_set (z := z) _ (hx' _) (fun he => ?_) rfl, List.prefix_rfl⟩
      exact Option.some.inj (hx.symm.trans (he ▸ hz))
    · cases hstep
  | moveAssign o' other =>
    simp only [step] at hstep
    split at hstep
    · next w z hw hz =>
      have hne : o ≠ o' := fun h => hop h.symm
      split at hstep
      · obtain rfl := Option.some.inj hstep
        exact ⟨⟨x, (objects_set_ne _ hne).trans hx, rfl⟩, List.prefix_rfl⟩
      · obtain rfl := Option.some.inj hstep
        have hx' : ∀ y, (s.set o' y).objects o = some x := fun y =>
          (objects_set_ne y hne).trans hx
        refine ⟨kept_set (z := z) _ (hx' _) (fun he => ?_) rfl, List.prefix_rfl⟩
        exact Option.some.inj (hx.symm.trans (he ▸ hz))
    · cases hstep
  | close o' =>
    obtain ⟨z, hz, rfl⟩ := Option.map_eq_some_iff.1 hstep
    refine ⟨kept_set (z := z) _ hx (fun he => ?_) rfl, List.prefix_append _ _⟩
    exact Option.some.inj (hx.symm.trans (he ▸ hz))
  | destroy o' =>
    obtain ⟨z, hz, rfl⟩ := Option.map_eq_some_iff.1 hstep
    have hne : o ≠ o' := fun h => hop h.symm
    exact ⟨⟨x, (objects_set_ne _ hne).trans hx, rfl⟩, List.prefix_append _ _⟩

theorem keeps_run {ops : List HandleOp} {s s' : Sockets} {o : Nat} {x : Object}
    (hops : ∀ op ∈ ops, Keeps o op) (hx : s.objects o = some x) (hrun : run s ops = some s') :
    (∃ y, s'.objects o = some y ∧ y.issue = x.issue) ∧ s.closings <+: s'.closings := by
  induction ops generalizing s x with
  | nil =>
    obtain rfl := Option.some.inj hrun
    exact ⟨⟨x, hx, rfl⟩, List.prefix_rfl⟩
  | cons op ops ih =>
    obtain ⟨s₁, hstep, hrest⟩ := Option.bind_eq_some_iff.1 hrun
    obtain ⟨⟨y, hy, hi⟩, hpre⟩ := keeps_step (hops op List.mem_cons_self) hx hstep
    obtain ⟨⟨z, hz, hi'⟩, hpre'⟩ := ih (fun op h => hops op (List.mem_cons_of_mem _ h)) hy hrest
    exact ⟨⟨z, hz, hi'.trans hi⟩, hpre.trans hpre'⟩

/-- An object that has been closed closes its handle a second time when it is destroyed, whatever
happens in between. -/
theorem closed_destroyed {ops : List HandleOp} {s s₁ s₂ s₃ : Sockets} {o : Nat}
    (hclose : s.step (.close o) = some s₁) (hops : ∀ op ∈ ops, Keeps o op)
    (hrun : run s₁ ops = some s₂) (hdestroy : s₂.step (.destroy o) = some s₃) :
    ¬ s₃.ClosedOnce := by
  obtain ⟨x, hx, rfl⟩ := Option.map_eq_some_iff.1 hclose
  obtain ⟨z, hz, rfl⟩ := Option.map_eq_some_iff.1 hdestroy
  obtain ⟨⟨y, hy, hi⟩, hpre⟩ := keeps_run hops (Function.update_self _ _ _) hrun
  obtain rfl := Option.some.inj (hy.symm.trans hz)
  intro h
  have hin : x.issue ∈ s₂.closings.map Closing.issue :=
    List.mem_map.2 ⟨⟨x.issue, s.open_ x.socketvalue⟩,
      hpre.subset (List.mem_append_right _ (List.mem_singleton.2 rfl)), rfl⟩
  have hnodup := h.once
  simp only [set, closesocket, List.map_append, List.map_cons, List.map_nil] at hnodup
  exact (List.nodup_append.1 hnodup).2.2 _ hin _ (List.mem_singleton.2 rfl) hi.symm

end Sockets

end DianProtocol.Cpp
