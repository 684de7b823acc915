import Mathlib.Tactic

set_option autoImplicit false

/-! # Path names

How a path name leads to a file when there are no symbolic links: its components stand between the
slashes, an empty one and `.` stay where they are, `..` goes to the parent directory, and every
other one is looked up in the directory that has been reached.

`opens_name` and `opens_slash_name` are what a program that joins a directory and a name relies on:
a file that is opened so is an entry of this directory.
-/

namespace Paths

/-- Files and directories, without symbolic links. -/
structure Hierarchy (ι : Type) where
  root : ι
  isDir : ι → Bool
  entry : ι → List Char → Option ι
  parent : ι → ι
  parent_dir : ∀ d, isDir d = true → isDir (parent d) = true

/-- The parts of a path between its slashes. -/
def components (path : List Char) : List (List Char) := path.splitOn '/'

theorem components_slash (front back : List Char) :
    components (front ++ '/' :: back) = components front ++ components back :=
  List.splitOn_append_cons_self front back

theorem components_name {name : List Char} (h : '/' ∉ name) : components name = [name] :=
  List.splitOn_eq_singleton h

namespace Hierarchy

variable {ι : Type} (fs : Hierarchy ι)

/-- Where a component leads from the directory `d`. -/
def step (d : ι) (name : List Char) : Option ι :=
  if name = [] ∨ name = ['.'] then some d
  else if name = ['.', '.'] then some (fs.parent d)
  else fs.entry d name

/-- Where components lead from `x`. Only a directory has components below it. -/
def walk (x : ι) : List (List Char) → Option ι
  | [] => some x
  | name :: names => if fs.isDir x then (fs.step x name).bind fun y => walk y names else none

/-- Where a path starts. -/
def start (cwd : ι) (path : List Char) : ι := if path.head? = some '/' then fs.root else cwd

/-- The file or directory that a path names; the empty path names none. -/
def resolve (cwd : ι) (path : List Char) : Option ι :=
  if path = [] then none else fs.walk (fs.start cwd path) (components path)

/-- The file that is opened under a path, which cannot be a directory. -/
def opens (cwd : ι) (path : List Char) : Option ι :=
  (fs.resolve cwd path).filter fun x => !fs.isDir x

/-- The place where the names of a directory are looked up, when `dir` stands in front of them. -/
def directory (cwd : ι) (dir : List Char) : Option ι :=
  if dir = [] then some cwd else fs.resolve cwd dir

/-- `x` lies directly in the directory `d`. -/
def Lists (d x : ι) : Prop :=
  fs.isDir d = true ∧ ∃ name, name ≠ [] ∧ '/' ∉ name ∧ name ≠ ['.'] ∧ name ≠ ['.', '.'] ∧
    fs.entry d name = some x

variable {fs}

theorem opens_eq_some {cwd x : ι} {path : List Char} :
    fs.opens cwd path = some x ↔ fs.resolve cwd path = some x ∧ fs.isDir x = false := by
  rw [opens, Option.filter_eq_some_iff, Bool.not_eq_true']

theorem walk_append (x : ι) (names names' : List (List Char)) :
    fs.walk x (names ++ names') = (fs.walk x names).bind fun y => fs.walk y names' := by
  induction names generalizing x with
  | nil => rfl
  | cons name names ih =>
      rw [List.cons_append, walk, walk]
      by_cases hdir : fs.isDir x = true
      · rw [if_pos hdir, if_pos hdir, Option.bind_assoc]
        exact congrArg _ (funext ih)
      · rw [if_neg hdir, if_neg hdir]
        rfl

theorem walk_single (x : ι) (name : List Char) :
    fs.walk x [name] = if fs.isDir x then fs.step x name else none := by
  rw [walk]
  exact if_congr Iff.rfl (Option.bind_fun_some _) rfl

/-- The empty component behind a final slash stays in the directory. -/
theorem walk_slash {x d : ι} {names : List (List Char)} (h : fs.walk x names = some d)
    (hd : fs.isDir d = true) : fs.walk x (names ++ [[]]) = some d := by
  rw [walk_append, h, Option.bind_some, walk_single, if_pos hd, step, if_pos (Or.inl rfl)]

/-- The dot components lead to directories, so a file that one component leads to is an entry. -/
theorem walk_single_file {x y : ι} {name : List Char} (h : fs.walk x [name] = some y)
    (hslash : '/' ∉ name) (hy : fs.isDir y = false) : fs.Lists x y := by
  rw [walk_single] at h
  split at h
  · rename_i hdir
    rw [step] at h
    split at h
    · cases h
      rw [hdir] at hy
      cases hy
    · rename_i hstay
      split at h
      · cases h
        rw [fs.parent_dir x hdir] at hy
        cases hy
      · rename_i hup
        exact ⟨hdir, name, fun h => hstay (Or.inl h), hslash, fun h => hstay (Or.inr h), hup, h⟩
  · cases h

/-- The directory that a file was looked up in. -/
theorem walk_name {x y : ι} {names : List (List Char)} {name : List Char}
    (h : fs.walk x (names ++ [name]) = some y) (hslash : '/' ∉ name) (hy : fs.isDir y = false) :
    ∃ d, fs.walk x names = some d ∧ fs.Lists d y := by
  rw [walk_append, Option.bind_eq_some_iff] at h
  obtain ⟨d, hd, hlast⟩ := h
  exact ⟨d, hd, walk_single_file hlast hslash hy⟩

section

variable {cwd x : ι} {dir name : List Char}

/-- A name alone is looked up in the working directory. -/
theorem opens_name (hslash : '/' ∉ name) (h : fs.opens cwd name = some x) : fs.Lists cwd x := by
  obtain ⟨hresolve, hx⟩ := opens_eq_some.mp h
  rw [resolve, components_name hslash] at hresolve
  split at hresolve
  · cases hresolve
  · have hstart : fs.start cwd name = cwd := by
      apply if_neg
      intro hhead
      exact hslash (List.mem_of_head? hhead)
    rw [hstart] at hresolve
    exact walk_single_file hresolve hslash hx

/-- The walk of a path that ends with a slash and a name. -/
theorem walk_of_opens_slash (hslash : '/' ∉ name) (h : fs.opens cwd (dir ++ '/' :: name) = some x) :
    ∃ d, fs.walk (fs.start cwd (dir ++ '/' :: name)) (components dir) = some d ∧
      fs.Lists d x := by
  obtain ⟨hresolve, hx⟩ := opens_eq_some.mp h
  rw [resolve, if_neg (by simp), components_slash, components_name hslash] at hresolve
  exact walk_name hresolve hslash hx

theorem start_append (hdir : dir ≠ []) (back : List Char) :
    fs.start cwd (dir ++ back) = fs.start cwd dir := by
  rw [start, start, List.head?_append_of_ne_nil dir hdir]

/-- A name behind a directory and a slash is looked up in this directory. -/
theorem opens_slash_name (hdir : dir ≠ []) (hslash : '/' ∉ name)
    (h : fs.opens cwd (dir ++ '/' :: name) = some x) :
    ∃ d, fs.directory cwd dir = some d ∧ fs.Lists d x := by
  obtain ⟨d, hd, hlists⟩ := walk_of_opens_slash hslash h
  rw [start_append hdir] at hd
  exact ⟨d, by rw [directory, if_neg hdir, resolve, if_neg hdir, hd], hlists⟩

/-- The same for a directory that already ends with a slash. -/
theorem opens_append_name (hslash : '/' ∉ name)
    (h : fs.opens cwd (dir ++ '/' :: name) = some x) :
    ∃ d, fs.directory cwd (dir ++ ['/']) = some d ∧ fs.Lists d x := by
  obtain ⟨d, hd, hlists⟩ := walk_of_opens_slash hslash h
  have hstart : fs.start cwd (dir ++ '/' :: name) = fs.start cwd (dir ++ ['/']) := by
    rw [List.append_cons]
    exact start_append (by simp) name
  have hnil : components ([] : List Char) = [[]] := components_name (by simp)
  have hwalk := walk_slash hd hlists.1
  rw [hstart] at hwalk
  refine ⟨d, ?_, hlists⟩
  rw [directory, if_neg (by simp), resolve, if_neg (by simp), components_slash, hnil, hwalk]

end

end Hierarchy

end Paths
