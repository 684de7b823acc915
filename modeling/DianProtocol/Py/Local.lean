import Mathlib.Data.List.AList
import DianProtocol.Py.Text

set_option autoImplicit false

/-! # `Local`

A `Local` is to give every thread a dictionary of its own. The dictionaries are kept in the
attribute `_local`, but `__setattr__` is overridden: it calls `__setitem__`, which looks for the
dictionary of the thread in `self._local`. As there is no such attribute yet, Python calls
`__getattr__`, which looks in `self._local` again, until the recursion limit is reached. No `Local`
is ever constructed (`new_recursion`), and no method of the class gives an object the attribute
(`call_recursion`).

`run_isolated` says what the methods would do on an object that has the attribute.
-/

namespace DianProtocol.Py

variable {κ ν : Type}

/-! ## Dictionaries -/

/-- A `dict`: its items in the order in which the keys have come in. -/
abbrev Table (κ ν : Type) := AList fun _ : κ => ν

/-- What the operations raise. -/
inductive LocalExn where
  | KeyError
  | TypeError
  | RecursionError
  deriving DecidableEq

/-- The operations on the items of a dictionary. `default` is `none` where it is left out. -/
inductive ItemOp (κ ν : Type) where
  | getitem (key : κ)
  | setitem (key : κ) (value : ν)
  | delitem (key : κ)
  | contains (key : κ)
  | len
  | iter
  | clear
  | get (key : κ) (default : Option ν)
  | pop (key : κ) (default : Option ν)
  | update (items : List (κ × ν))
  | setdefault (key : κ) (default : ν)

/-- What an operation returns; an iterator is given by its elements. -/
inductive Seen (κ ν : Type) where
  | None
  | value (v : ν)
  | bool (b : Bool)
  | int (n : Nat)
  | keys (ks : List κ)
  deriving DecidableEq

section

variable [DecidableEq κ]

/-- `d[key] = value` -/
def Table.set (d : Table κ ν) (key : κ) (value : ν) : Table κ ν :=
  if h : key ∈ d then d.replace key value
  else
    { entries := d.entries ++ [⟨key, value⟩]
      nodupKeys := by
        rw [List.NodupKeys, List.keys, List.map_append, List.nodup_append]
        refine ⟨d.nodupKeys, by simp, fun k hk k' hk' => ?_⟩
        rw [List.mem_singleton.mp hk']
        rintro rfl
        exact h hk }

/-- An operation of a plain `dict`. -/
def ItemOp.dict : ItemOp κ ν → Table κ ν → Except LocalExn (Seen κ ν) × Table κ ν
  | .getitem key, d =>
      match d.lookup key with
      | some v => (.ok (.value v), d)
      | none => (.error .KeyError, d)
  | .setitem key value, d => (.ok .None, d.set key value)
  | .delitem key, d => if key ∈ d then (.ok .None, d.erase key) else (.error .KeyError, d)
  | .contains key, d => (.ok (.bool (key ∈ d)), d)
  | .len, d => (.ok (.int d.keys.length), d)
  | .iter, d => (.ok (.keys d.keys), d)
  | .clear, _ => (.ok .None, ∅)
  | .get key default, d =>
      match d.lookup key, default with
      | some v, _ => (.ok (.value v), d)
      | none, some v => (.ok (.value v), d)
      | none, none => (.ok .None, d)
  | .pop key default, d =>
      match d.lookup key, default with
      | some v, _ => (.ok (.value v), d.erase key)
      | none, some v => (.ok (.value v), d)
      | none, none => (.error .KeyError, d)
  | .update items, d => (.ok .None, items.foldl (fun d (key, value) => d.set key value) d)
  | .setdefault key default, d =>
      match d.lookup key with
      | some v => (.ok (.value v), d)
      | none => (.ok (.value default), d.set key default)

/-! ## The object -/

abbrev Tid := Nat

/-- The dictionaries of the threads, by `_get_tid()`. -/
abbrev Tables (κ ν : Type) := Tid → Option (Table κ ν)

/-- A `Local`: the items that `dict.__init__` has put into it, which no method looks at, and its
attribute `_local`, if it has one. -/
structure Local (κ ν : Type) where
  own : Table κ ν
  _local : Option (Tables κ ν) := none

/-- The name of an attribute as a key, and `{}` as a value. -/
structure Objects (κ ν : Type) where
  name : Text → κ
  empty : ν

/-- `_get_tid()`, when `depth` calls are left up to the recursion limit. -/
def get_tid (tid : Tid) : Nat → Except LocalExn Tid
  | 0 => .error .RecursionError
  | _ + 1 => .ok tid

/-- `self._local`: the attribute. Without it `missing` is evaluated, the call of `__getattr__`. What
that would return is an item of the thread, and no dictionary of threads. -/
def Local.load (self : Local κ ν) (missing : Except LocalExn (Seen κ ν)) :
    Except LocalExn (Tables κ ν) :=
  match self._local with
  | some tables => .ok tables
  | none => missing.bind fun _ => .error .TypeError

/-- `self.__getattr__(name)`, when `depth` calls are left. -/
def Local.getattr (o : Objects κ ν) (self : Local κ ν) (tid : Tid) :
    Nat → κ → Except LocalExn (Seen κ ν)
  | 0, _ => .error .RecursionError
  | depth + 1, name => do
      let id ← get_tid tid depth
      let tables ← self.load (self.getattr o tid depth (o.name (text "_local")))
      if (tables id).isNone then
        return .None
      let tables ← self.load (self.getattr o tid depth (o.name (text "_local")))
      let id ← get_tid tid depth
      match tables id with
      | none => throw .KeyError
      | some d =>
          match d.lookup name with
          | none => throw .KeyError
          | some v => return .value v

/-- The code of a method. What it has done to the object stays when it raises. -/
abbrev LocalM (κ ν : Type) := ExceptT LocalExn (StateM (Local κ ν))

def LocalM.ofExcept {α : Type} (r : Except LocalExn α) : LocalM κ ν α := ExceptT.mk (pure r)

namespace Local

variable (o : Objects κ ν) (tid : Tid) (depth : Nat)

/-- `self._local` in a method. -/
def tables : LocalM κ ν (Tables κ ν) := do
  let self ← get
  LocalM.ofExcept (self.load (self.getattr o tid depth (o.name (text "_local"))))

/-- `self._get_tid() in self._local` -/
def hasTable : LocalM κ ν Bool := do
  let id ← LocalM.ofExcept (get_tid tid depth)
  let tables ← tables o tid depth
  return (tables id).isSome

/-- `self._local[self._get_tid()] = d` -/
def setTable (d : Table κ ν) : LocalM κ ν Unit := do
  let tables ← tables o tid depth
  let id ← LocalM.ofExcept (get_tid tid depth)
  modify fun self => { self with _local := some (Function.update tables id (some d)) }

/-- An operation on `self._local[self._get_tid()]`. -/
def onTable (op : ItemOp κ ν) : LocalM κ ν (Seen κ ν) := do
  let tables ← tables o tid depth
  let id ← LocalM.ofExcept (get_tid tid depth)
  match tables id with
  | none => throw .KeyError
  | some d =>
      let (r, d) := op.dict d
      modify fun self => { self with _local := some (Function.update tables id (some d)) }
      LocalM.ofExcept r

/-- A method that gives a thread without a dictionary an empty one. -/
def creating (op : ItemOp κ ν) : LocalM κ ν (Seen κ ν) := do
  if !(← hasTable o tid depth) then
    setTable o tid depth ∅
  onTable o tid depth op

/-- A method that has an answer of its own for a thread without a dictionary. -/
def orElse (absent : Except LocalExn (Seen κ ν)) (op : ItemOp κ ν) : LocalM κ ν (Seen κ ν) := do
  if !(← hasTable o tid depth) then
    LocalM.ofExcept absent
  else
    onTable o tid depth op

/-- A call of a method, when `depth` calls are left in it. -/
def body : ItemOp κ ν → LocalM κ ν (Seen κ ν)
  | .getitem key => onTable o tid depth (.getitem key)
  | .setitem key value => creating o tid depth (.setitem key value)
  | .delitem key => onTable o tid depth (.delitem key)
  | .contains key => orElse o tid depth (.ok (.bool false)) (.contains key)
  | .len => orElse o tid depth (.ok (.int 0)) .len
  | .iter => orElse o tid depth (.ok (.keys [])) .iter
  | .clear => orElse o tid depth (.ok .None) .clear
  -- the default is not looked at
  | .get key default => orElse o tid depth (.ok .None) (.get key default)
  | .pop key default => orElse o tid depth (.error .KeyError) (.pop key default)
  | .update items => creating o tid depth (.update items)
  | .setdefault key default => creating o tid depth (.setdefault key default)

/-- A call of a method, when `depth` calls are left in front of it. -/
def call (op : ItemOp κ ν) : LocalM κ ν (Seen κ ν) :=
  match depth with
  | 0 => throw .RecursionError
  | depth + 1 => body o tid depth op

/-- `self.name = value`, which is `self.__setitem__(name, value)` -/
def setattr (name : Text) (value : ν) : LocalM κ ν (Seen κ ν) :=
  match depth with
  | 0 => throw .RecursionError
  | depth + 1 => call o tid depth (.setitem (o.name name) value)

/-- `Local(items)`: `dict.__init__`, which does not use the methods of `Local`, and the assignment
`self._local = {}`. -/
def new (items : List (κ × ν)) : Except LocalExn (Local κ ν) :=
  match depth with
  | 0 => .error .RecursionError
  | depth + 1 =>
      let own := items.foldl (fun d (key, value) => Table.set d key value) ∅
      match (setattr o tid depth (text "_local") o.empty).run.run { own := own } with
      | (.ok _, self) => .ok self
      | (.error e, _) => .error e

/-- The operations of the threads on one object, one after the other. -/
def run (limit : Nat) : List (Tid × ItemOp κ ν) → Local κ ν → List (Except LocalExn (Seen κ ν))
  | [], _ => []
  | (tid, op) :: ops, self =>
      let (r, self) := (call o tid limit op).run.run self
      r :: run limit ops self

end Local

/-- The same operations when every thread has a plain `dict`. -/
def privateRun : List (Tid × ItemOp κ ν) → (Tid → Table κ ν) → List (Except LocalExn (Seen κ ν))
  | [], _ => []
  | (tid, op) :: ops, ds =>
      let (r, d) := op.dict (ds tid)
      r :: privateRun ops (Function.update ds tid d)

/-- A `Local` can be constructed, and every thread sees its own operations alone. -/
def Isolates (o : Objects κ ν) (limit : Nat) (tid : Tid) (items : List (κ × ν)) : Prop :=
  ∃ self, Local.new o tid limit items = .ok self ∧
    ∀ ops, Local.run o limit ops self = privateRun ops fun _ => ∅

/-! ## Without the attribute -/

namespace Local

variable (o : Objects κ ν) (tid : Tid) {self : Local κ ν}

/-- `__getattr__` calls itself up to the recursion limit. -/
theorem getattr_recursion (h : self._local = none) (depth : Nat) (name : κ) :
    self.getattr o tid depth name = .error .RecursionError := by
  induction depth generalizing name with
  | zero => rfl
  | succ depth ih =>
      cases depth with
      | zero => rfl
      | succ depth =>
          -- `self._local` is missing here too, so `__getattr__` is called with one call less
          have hload : self.load
              (self.getattr o tid (depth + 1) (o.name (text "_local"))) =
              .error .RecursionError := by
            rw [load, h, ih]
            rfl
          rw [getattr, get_tid, hload]
          rfl

theorem tables_recursion (h : self._local = none) (depth : Nat) :
    (tables o tid depth).run.run self = (.error .RecursionError, self) := by
  have hload : self.load (self.getattr o tid depth (o.name (text "_local"))) =
      .error .RecursionError := by
    rw [load, h, getattr_recursion o tid h]
    rfl
  show (self.load (self.getattr o tid depth (o.name (text "_local"))), self) = _
  rw [hload]

omit [DecidableEq κ] in
/-- What comes after an exception is not done. -/
theorem run_bind_error {α β : Type} {m : LocalM κ ν α} {f : α → LocalM κ ν β} {e : LocalExn}
    (h : m.run.run self = (.error e, self)) : (m >>= f).run.run self = (.error e, self) := by
  rw [ExceptT.run_bind, StateT.run_bind, h]
  rfl

theorem onTable_recursion (h : self._local = none) (depth : Nat) (op : ItemOp κ ν) :
    (onTable o tid depth op).run.run self = (.error .RecursionError, self) :=
  run_bind_error (tables_recursion o tid h depth)

theorem hasTable_recursion (h : self._local = none) (depth : Nat) :
    (hasTable o tid depth).run.run self = (.error .RecursionError, self) := by
  cases depth with
  | zero => rfl
  | succ depth =>
      have htables : (do
          let tables ← tables o tid (depth + 1)
          return (tables tid).isSome : LocalM κ ν Bool).run.run self =
          (.error .RecursionError, self) := run_bind_error (tables_recursion o tid h _)
      exact htables

theorem creating_recursion (h : self._local = none) (depth : Nat) (op : ItemOp κ ν) :
    (creating o tid depth op).run.run self = (.error .RecursionError, self) := by
  unfold creating
  exact run_bind_error (hasTable_recursion o tid h depth)

theorem orElse_recursion (h : self._local = none) (depth : Nat)
    (absent : Except LocalExn (Seen κ ν)) (op : ItemOp κ ν) :
    (orElse o tid depth absent op).run.run self = (.error .RecursionError, self) := by
  unfold orElse
  exact run_bind_error (hasTable_recursion o tid h depth)

/-- Every operation on an object without the attribute fails, and leaves the object without it. -/
theorem call_recursion (h : self._local = none) (depth : Nat) (op : ItemOp κ ν) :
    (call o tid depth op).run.run self = (.error .RecursionError, self) := by
  cases depth with
  | zero => rfl
  | succ depth =>
      rw [call, body.eq_def]
      cases op with
      | getitem key => exact onTable_recursion o tid h depth _
      | setitem key value => exact creating_recursion o tid h depth _
      | delitem key => exact onTable_recursion o tid h depth _
      | contains key => exact orElse_recursion o tid h depth _ _
      | len => exact orElse_recursion o tid h depth _ _
      | iter => exact orElse_recursion o tid h depth _ _
      | clear => exact orElse_recursion o tid h depth _ _
      | get key default => exact orElse_recursion o tid h depth _ _
      | pop key default => exact orElse_recursion o tid h depth _ _
      | update items => exact creating_recursion o tid h depth _
      | setdefault key default => exact creating_recursion o tid h depth _

/-- No `Local` is constructed, whatever the recursion limit is. -/
theorem new_recursion (limit : Nat) (items : List (κ × ν)) :
    new o tid limit items = .error .RecursionError := by
  cases limit with
  | zero => rfl
  | succ depth =>
      have hsetattr : ∀ self : Local κ ν, self._local = none →
          (setattr o tid depth (text "_local") o.empty).run.run self =
            (.error .RecursionError, self) := by
        intro self h
        cases depth with
        | zero => rfl
        | succ depth => exact call_recursion o tid h depth _
      rw [new]
      dsimp only
      rw [hsetattr _ rfl]

end Local

/-- **No isolation**: whatever the recursion limit is, a `Local` cannot be constructed. -/
theorem local_never_isolates (o : Objects κ ν) (limit : Nat) (tid : Tid) (items : List (κ × ν)) :
    Local.new o tid limit items = .error .RecursionError ∧ ¬ Isolates o limit tid items := by
  have hnew := Local.new_recursion o tid limit items
  refine ⟨hnew, ?_⟩
  rintro ⟨self, hself, -⟩
  rw [hnew] at hself
  cases hself

end

/-- Keys and values that are strings, with `{}` as its text. -/
def textObjects : Objects Text Text := ⟨id, text "{}"⟩

/-- `Local()`, with the recursion limit that Python starts with. -/
theorem local_not_constructed : ¬ Isolates textObjects 1000 0 [] := by
  rintro ⟨self, hself, -⟩
  rw [Local.new_recursion] at hself
  cases hself

/-! ## With the attribute -/

/-- The dictionaries that the threads see. -/
def Tables.seen (t : Tables κ ν) (tid : Tid) : Table κ ν := (t tid).getD ∅

theorem Tables.seen_update (t : Tables κ ν) (tid : Tid) (d : Table κ ν) :
    Tables.seen (Function.update t tid (some d)) = Function.update (Tables.seen t) tid d := by
  funext id
  by_cases hid : id = tid
  · subst hid
    simp [Tables.seen]
  · simp [Tables.seen, hid]

/-- An operation that does not ask for a default value. -/
def ItemOp.NoDefault : ItemOp κ ν → Prop
  | .get _ default => default = none
  | .pop _ default => default = none
  | _ => True

theorem Local.run_bind_ok {α β : Type} {m : LocalM κ ν α} {f : α → LocalM κ ν β} {a : α}
    {self self' : Local κ ν} (h : m.run.run self = (.ok a, self')) :
    (m >>= f).run.run self = (f a).run.run self' := by
  rw [ExceptT.run_bind, StateT.run_bind, h]
  rfl

namespace Local

variable [DecidableEq κ] (o : Objects κ ν) (tid : Tid) (depth : Nat) (own : Table κ ν)
  (t : Tables κ ν)

/-- `m` does to the object what `op` does to the dictionary that the thread sees. -/
def Does (op : ItemOp κ ν) (m : LocalM κ ν (Seen κ ν)) : Prop :=
  ∃ t', m.run.run ⟨own, some t⟩ = ((op.dict (Tables.seen t tid)).1, ⟨own, some t'⟩) ∧
    Tables.seen t' = Function.update (Tables.seen t) tid (op.dict (Tables.seen t tid)).2

theorem hasTable_run : (hasTable o tid (depth + 1)).run.run ⟨own, some t⟩ =
    (.ok (t tid).isSome, ⟨own, some t⟩) := rfl

theorem onTable_run (op : ItemOp κ ν) :
    (onTable o tid (depth + 1) op).run.run ⟨own, some t⟩ = match t tid with
      | none => (.error .KeyError, ⟨own, some t⟩)
      | some d => ((op.dict d).1, ⟨own, some (Function.update t tid (some (op.dict d).2))⟩) := by
  have htables : (tables o tid (depth + 1)).run.run ⟨own, some t⟩ = (.ok t, ⟨own, some t⟩) := rfl
  have hid : (LocalM.ofExcept (get_tid tid (depth + 1)) : LocalM κ ν Tid).run.run ⟨own, some t⟩ =
      (.ok tid, ⟨own, some t⟩) := rfl
  rw [onTable, run_bind_ok htables, run_bind_ok hid]
  cases t tid with
  | none => rfl
  | some d => rfl

variable {tid t}

/-- A thread that has a dictionary. -/
theorem onTable_does {d : Table κ ν} (h : t tid = some d) (op : ItemOp κ ν) :
    Does tid own t op (onTable o tid (depth + 1) op) := by
  have hseen : Tables.seen t tid = d := by rw [Tables.seen, h, Option.getD_some]
  refine ⟨Function.update t tid (some (op.dict d).2), ?_, ?_⟩
  · rw [onTable_run, h, hseen]
  · rw [Tables.seen_update, hseen]

/-- A method that answers a thread without a dictionary as an empty one would. -/
theorem orElse_does {op : ItemOp κ ν} {absent : Except LocalExn (Seen κ ν)}
    (hempty : op.dict ∅ = (absent, ∅)) :
    Does tid own t op (orElse o tid (depth + 1) absent op) := by
  cases h : t tid with
  | none =>
      have hseen : Tables.seen t tid = ∅ := by rw [Tables.seen, h, Option.getD_none]
      refine ⟨t, ?_, ?_⟩
      · rw [orElse, run_bind_ok (hasTable_run o tid depth own t), h, hseen, hempty]
        rfl
      · rw [hseen, hempty, ← hseen, Function.update_eq_self]
  | some d =>
      obtain ⟨t', hrun, hseen⟩ := onTable_does o depth own h op
      refine ⟨t', ?_, hseen⟩
      rw [orElse, run_bind_ok (hasTable_run o tid depth own t), h]
      exact hrun

/-- A method that only looks a dictionary up, where an empty one has nothing to be found. -/
theorem unchecked_does {op : ItemOp κ ν} (hempty : op.dict ∅ = (.error .KeyError, ∅)) :
    Does tid own t op (onTable o tid (depth + 1) op) := by
  cases h : t tid with
  | none =>
      have hseen : Tables.seen t tid = ∅ := by rw [Tables.seen, h, Option.getD_none]
      refine ⟨t, ?_, ?_⟩
      · rw [onTable_run, h, hseen, hempty]
      · rw [hseen, hempty, ← hseen, Function.update_eq_self]
  | some d => exact onTable_does o depth own h op

theorem creating_does (op : ItemOp κ ν) :
    Does tid own t op (creating o tid (depth + 1) op) := by
  cases h : t tid with
  | none =>
      have hseen : Tables.seen t tid = ∅ := by rw [Tables.seen, h, Option.getD_none]
      have hsame : Tables.seen (Function.update t tid (some ∅)) = Tables.seen t := by
        rw [Tables.seen_update, ← hseen, Function.update_eq_self]
      obtain ⟨t', hrun, hseen'⟩ :=
        onTable_does o depth own (Function.update_self tid (some ∅) t) op
      rw [hsame] at hrun hseen'
      refine ⟨t', ?_, hseen'⟩
      rw [creating, run_bind_ok (hasTable_run o tid depth own t), h]
      exact hrun
  | some d =>
      -- there is a dictionary, and none is made
      obtain ⟨t', hrun, hseen⟩ := onTable_does o depth own h op
      refine ⟨t', ?_, hseen⟩
      rw [creating, run_bind_ok (hasTable_run o tid depth own t), h]
      exact hrun

/-- With the attribute, and two calls left, an operation does what it does to a plain `dict`. -/
theorem call_does {op : ItemOp κ ν} (hop : op.NoDefault) :
    Does tid own t op (call o tid (depth + 2) op) := by
  rw [call, body.eq_def]
  cases op with
  | getitem key => exact unchecked_does o depth own (by simp [ItemOp.dict])
  | setitem key value => exact creating_does o depth own _
  | delitem key => exact unchecked_does o depth own (by simp [ItemOp.dict])
  | contains key => exact orElse_does o depth own (by simp [ItemOp.dict])
  | len => exact orElse_does o depth own rfl
  | iter => exact orElse_does o depth own rfl
  | clear => exact orElse_does o depth own rfl
  | get key default =>
      obtain rfl : default = none := hop
      exact orElse_does o depth own (by simp [ItemOp.dict])
  | pop key default =>
      obtain rfl : default = none := hop
      exact orElse_does o depth own (by simp [ItemOp.dict])
  | update items => exact creating_does o depth own _
  | setdefault key default => exact creating_does o depth own _

/-- All that is missing is the attribute: on an object that has it, the threads see what each of
them would see of a `dict` of its own, as long as `get` and `pop` are called without a default. -/
theorem run_isolated {ops : List (Tid × ItemOp κ ν)} (hops : ∀ op ∈ ops, op.2.NoDefault) :
    run o (depth + 2) ops ⟨own, some t⟩ = privateRun ops (Tables.seen t) := by
  induction ops generalizing t with
  | nil => rfl
  | cons op ops ih =>
      obtain ⟨tid, op⟩ := op
      obtain ⟨t', hcall, hseen⟩ := call_does o depth own (hops (tid, op) List.mem_cons_self)
      rw [run, privateRun, hcall]
      dsimp only
      rw [ih fun op hmem => hops op (List.mem_cons_of_mem _ hmem), hseen]

/-- With a default they differ: a thread without a dictionary gets `None`. -/
example : run textObjects 1000 [(0, .get (text "a") (some (text "b")))] ⟨∅, some fun _ => none⟩ ≠
    privateRun [(0, .get (text "a") (some (text "b")))] fun _ => ∅ := by
  decide

end Local

end DianProtocol.Py
