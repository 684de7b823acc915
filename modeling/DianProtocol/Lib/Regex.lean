import Mathlib.Tactic

set_option autoImplicit false

/-! # Backtracking patterns

Regular expressions as a backtracking matcher reads them: a pattern matches in several ways, which
are tried in a fixed order, and the match is the first way in which the whole pattern succeeds.
`results` lists the ways in that order (a greedy repetition tries the longest first, a lazy one the
shortest), so the match is the head of the list.

Two kinds of lemmas come with each construct: membership in `results` (what it can match at all),
and the head of `results` (what is tried first). The second is where greediness counts: `head_rep`
says which part of the text a repetition takes in front of the rest of a pattern.
-/

namespace Regex

/-- Patterns over the alphabet `α`. Repetitions are of single characters. -/
inductive Pat (α : Type) where
  | one (p : α → Bool)
  | rep (greedy : Bool) (min : Nat) (p : α → Bool)
  | seq (a b : Pat α)
  | opt (a : Pat α)
  | group (name : String) (a : Pat α)
  | eol (newline : α)

/-- One way to match: the groups, the text matched and the text after it. -/
structure Way (α : Type) where
  groups : List (String × List α)
  matched : List α
  rest : List α
  deriving DecidableEq

variable {α : Type}

/-- One way after the other. -/
def Way.append (x y : Way α) : Way α := ⟨x.groups ++ y.groups, x.matched ++ y.matched, y.rest⟩

/-- The lengths that a repetition tries, when up to `n` characters are possible. -/
def lengths (greedy : Bool) (min n : Nat) : List Nat :=
  let ks := List.range' min (n + 1 - min)
  if greedy then ks.reverse else ks

variable [DecidableEq α]

/-- The ways in which a pattern matches at the start of a text, in the order in which they are
tried. -/
def results : Pat α → List α → List (Way α)
  | .one p, c :: s => if p c then [⟨[], [c], s⟩] else []
  | .one _, [] => []
  | .rep greedy min p, s =>
      (lengths greedy min (s.takeWhile p).length).map fun k => ⟨[], s.take k, s.drop k⟩
  | .seq a b, s => (results a s).flatMap fun x => (results b x.rest).map x.append
  -- first with `a`, then without
  | .opt a, s => results a s ++ [⟨[], [], s⟩]
  | .group name a, s =>
      (results a s).map fun x => ⟨(name, x.matched) :: x.groups, x.matched, x.rest⟩
  -- at the end of the text, or in front of a newline that ends it
  | .eol newline, s => if s = [] ∨ s = [newline] then [⟨[], [], s⟩] else []

section

variable {s : List α}

theorem results_one_nil {p : α → Bool} : results (.one p) [] = [] := rfl

theorem results_one_cons {p : α → Bool} {c : α} :
    results (.one p) (c :: s) = if p c then [⟨[], [c], s⟩] else [] := rfl

theorem results_rep {greedy : Bool} {min : Nat} {p : α → Bool} :
    results (.rep greedy min p) s =
      (lengths greedy min (s.takeWhile p).length).map fun k => ⟨[], s.take k, s.drop k⟩ := rfl

theorem results_seq {a b : Pat α} :
    results (.seq a b) s = (results a s).flatMap fun x => (results b x.rest).map x.append := rfl

theorem results_opt {a : Pat α} : results (.opt a) s = results a s ++ [⟨[], [], s⟩] := rfl

theorem results_group {name : String} {a : Pat α} :
    results (.group name a) s =
      (results a s).map fun x => ⟨(name, x.matched) :: x.groups, x.matched, x.rest⟩ := rfl

theorem results_eol {newline : α} :
    results (.eol newline) s = if s = [] ∨ s = [newline] then [⟨[], [], s⟩] else [] := rfl

end

/-- The match of a pattern at the start of a text. -/
def Pat.match? (r : Pat α) (s : List α) : Option (Way α) := (results r s).head?

/-- The text of a group, `none` when the group took no part in the match. -/
def Way.group? (x : Way α) (name : String) : Option (List α) := x.groups.lookup name

/-! ## What a pattern can match -/

theorem mem_lengths {greedy : Bool} {min n k : Nat} :
    k ∈ lengths greedy min n ↔ min ≤ k ∧ k ≤ n := by
  have hrange : k ∈ List.range' min (n + 1 - min) ↔ min ≤ k ∧ k ≤ n := by
    rw [List.mem_range'_1]
    omega
  unfold lengths
  cases greedy with
  | false => exact hrange
  | true => exact List.mem_reverse.trans hrange

omit [DecidableEq α] in
/-- Prefixes of a text in `p` are those not longer than the longest. -/
theorem all_take_iff {p : α → Bool} {s : List α} {k : Nat} (hk : k ≤ s.length) :
    (∀ c ∈ s.take k, p c = true) ↔ k ≤ (s.takeWhile p).length := by
  induction s generalizing k with
  | nil =>
      have hzero : k = 0 := by simpa using hk
      simp [hzero]
  | cons c s ih =>
      cases k with
      | zero => simp
      | succ k =>
          by_cases hc : p c
          · have hlen : k ≤ s.length := by simpa using hk
            simp [hc, ih hlen]
          · simp [hc]

theorem mem_rep {greedy : Bool} {min : Nat} {p : α → Bool} {s : List α} {x : Way α} :
    x ∈ results (.rep greedy min p) s ↔ ∃ u v, s = u ++ v ∧ (∀ c ∈ u, p c = true) ∧
      min ≤ u.length ∧ x = ⟨[], u, v⟩ := by
  simp only [results_rep, List.mem_map, mem_lengths]
  constructor
  · rintro ⟨k, ⟨hmin, hk⟩, rfl⟩
    have hlen : k ≤ s.length := hk.trans (List.takeWhile_prefix p).length_le
    refine ⟨s.take k, s.drop k, (List.take_append_drop k s).symm,
      (all_take_iff hlen).mpr hk, ?_, rfl⟩
    rw [List.length_take]
    omega
  · rintro ⟨u, v, rfl, hu, hmin, rfl⟩
    have hlen : u.length ≤ (u ++ v).length := by simp
    refine ⟨u.length, ⟨hmin, (all_take_iff hlen).mp ?_⟩, ?_⟩
    · rwa [List.take_left]
    · rw [List.take_left, List.drop_left]

theorem mem_one {p : α → Bool} {s : List α} {x : Way α} :
    x ∈ results (.one p) s ↔ ∃ c t, s = c :: t ∧ p c = true ∧ x = ⟨[], [c], t⟩ := by
  cases s with
  | nil => simp [results_one_nil]
  | cons c t =>
      by_cases hc : p c
      · simp [results_one_cons, hc]
      · simp [results_one_cons, hc]

theorem mem_seq {a b : Pat α} {s : List α} {x : Way α} :
    x ∈ results (.seq a b) s ↔ ∃ y ∈ results a s, ∃ z ∈ results b y.rest, x = y.append z := by
  simp only [results_seq, List.mem_flatMap, List.mem_map, eq_comm]

theorem mem_group {name : String} {a : Pat α} {s : List α} {x : Way α} :
    x ∈ results (.group name a) s ↔ ∃ y ∈ results a s,
      x = ⟨(name, y.matched) :: y.groups, y.matched, y.rest⟩ := by
  simp only [results_group, List.mem_map, eq_comm]

theorem mem_eol {newline : α} {s : List α} {x : Way α} :
    x ∈ results (.eol newline) s ↔ (s = [] ∨ s = [newline]) ∧ x = ⟨[], [], s⟩ := by
  rw [results_eol]
  by_cases hend : s = [] ∨ s = [newline]
  · rw [if_pos hend, List.mem_singleton, and_iff_right hend]
  · rw [if_neg hend]
    simp [hend]

/-- What a pattern leaves is the end of the text. -/
theorem rest_suffix {a : Pat α} {s : List α} {x : Way α} (h : x ∈ results a s) : x.rest <:+ s := by
  induction a generalizing s x with
  | one p =>
      obtain ⟨c, t, rfl, -, rfl⟩ := mem_one.mp h
      exact List.suffix_cons c t
  | rep greedy min p =>
      obtain ⟨u, v, rfl, -, -, rfl⟩ := mem_rep.mp h
      exact List.suffix_append u v
  | seq a b iha ihb =>
      obtain ⟨y, hy, z, hz, rfl⟩ := mem_seq.mp h
      exact (ihb hz).trans (iha hy)
  | opt a ih =>
      rcases List.mem_append.mp h with h | h
      · exact ih h
      · rw [List.mem_singleton.mp h]
  | group name a ih =>
      obtain ⟨y, hy, rfl⟩ := mem_group.mp h
      have hrest := ih hy
      exact hrest
  | eol newline =>
      obtain ⟨-, rfl⟩ := mem_eol.mp h
      exact List.suffix_refl s

/-! ## What is tried first -/

theorem head_flatMap {β γ : Type} {l before after : List β} {x : β} {y : γ} {f : β → List γ}
    (hl : l = before ++ x :: after) (hbefore : ∀ z ∈ before, f z = []) (hx : (f x).head? = some y) :
    (l.flatMap f).head? = some y := by
  subst hl
  induction before with
  | nil =>
      rw [List.nil_append, List.flatMap_cons, List.head?_append, hx]
      rfl
  | cons z before ih =>
      -- `z` gives nothing, so the head comes from what follows it
      rw [List.cons_append, List.flatMap_cons, hbefore z (by simp), List.nil_append]
      exact ih fun z' hz' => hbefore z' (by simp [hz'])

/-- The head of a sequence, from the way that the first part is tried with success. -/
theorem head_seq {a b : Pat α} {s : List α} {x y : Way α} {before after : List (Way α)}
    (ha : results a s = before ++ x :: after) (hbefore : ∀ z ∈ before, results b z.rest = [])
    (hb : (results b x.rest).head? = some y) :
    (results (.seq a b) s).head? = some (x.append y) := by
  refine head_flatMap ha (fun z hz => ?_) ?_
  · rw [hbefore z hz]
    rfl
  · rw [List.head?_map, hb]
    rfl

/-- The match of a sequence is some way of its first part, with the match of its second part behind
it. -/
theorem match_seq {a b : Pat α} {s : List α} {x : Way α} (h : (Pat.seq a b).match? s = some x) :
    ∃ y ∈ results a s, ∃ z, b.match? y.rest = some z ∧ x = y.append z := by
  obtain ⟨y, hy, hx⟩ : ∃ y ∈ results a s,
      ((results b y.rest).map y.append).head? = some x := by
    have hsome : ∀ ys : List (Way α),
        (ys.flatMap fun y => (results b y.rest).map y.append).head? = some x →
        ∃ y ∈ ys, ((results b y.rest).map y.append).head? = some x := by
      intro ys hys
      induction ys with
      | nil => cases hys
      | cons y ys ih =>
          rw [List.flatMap_cons, List.head?_append, Option.or_eq_some_iff] at hys
          rcases hys with hhead | ⟨-, htail⟩
          · exact ⟨y, by simp, hhead⟩
          · obtain ⟨y', hmem, hx⟩ := ih htail
            exact ⟨y', by simp [hmem], hx⟩
    exact hsome _ h
  rw [List.head?_map, Option.map_eq_some_iff] at hx
  obtain ⟨z, hz, rfl⟩ := hx
  exact ⟨y, hy, z, hz, rfl⟩

theorem head_one {p : α → Bool} {b : Pat α} {c : α} {s : List α} {y : Way α} (hc : p c = true)
    (hb : (results b s).head? = some y) :
    (results (.seq (.one p) b) (c :: s)).head? = some ⟨y.groups, c :: y.matched, y.rest⟩ := by
  have hone : results (.one p) (c :: s) = [] ++ ⟨[], [c], s⟩ :: [] := by
    simp [results_one_cons, hc]
  exact head_seq hone (by simp) hb

/-- Before it tries the length `k`, a greedy repetition has tried longer ones, a lazy one shorter.
-/
theorem lengths_split (greedy : Bool) {min n k : Nat} (hmin : min ≤ k) (hk : k ≤ n) :
    ∃ before after, lengths greedy min n = before ++ k :: after ∧
      ∀ j ∈ before, if greedy then k < j ∧ j ≤ n else min ≤ j ∧ j < k := by
  have hsplit : List.range' min (n + 1 - min) =
      List.range' min (k - min) ++ k :: List.range' (k + 1) (n - k) := by
    have hlen : n + 1 - min = (k - min) + ((n - k) + 1) := by omega
    have hstart : min + (k - min) = k := by omega
    rw [hlen, ← List.range'_append_1, hstart, List.range'_succ]
  cases greedy with
  | false =>
      refine ⟨_, _, hsplit, fun j hj => ?_⟩
      have hj' := List.mem_range'_1.mp hj
      rw [if_neg (by simp)]
      omega
  | true =>
      refine ⟨(List.range' (k + 1) (n - k)).reverse, (List.range' min (k - min)).reverse, ?_,
        fun j hj => ?_⟩
      · simp [lengths, hsplit]
      · have hj' := List.mem_range'_1.mp (List.mem_reverse.mp hj)
        rw [if_pos rfl]
        omega

section

variable {greedy : Bool} {min : Nat} {p : α → Bool} {b : Pat α} {u v : List α} {y : Way α}

/-- The pattern `b` fails after every part that the repetition tries before `u`. -/
def FailsBefore (greedy : Bool) (min : Nat) (p : α → Bool) (b : Pat α) (u v : List α) : Prop :=
  ∀ u' v', u ++ v = u' ++ v' → (∀ c ∈ u', p c = true) → min ≤ u'.length →
    (if greedy then u.length < u'.length else u'.length < u.length) → results b v' = []

/-- A greedy repetition that has come to a character outside of its class has tried nothing
longer. -/
theorem failsBefore_of_stop {c : α} (hc : p c = false) : FailsBefore true min p b u (c :: v) := by
  intro u' v' heq hu' _ hlt
  rw [if_pos rfl] at hlt
  exfalso
  rcases List.append_eq_append_iff.mp heq with ⟨between, rfl, hrest⟩ | ⟨between, rfl, -⟩
  · -- what is longer than `u` contains `c`
    cases between with
    | nil => simp at hlt
    | cons d between =>
        obtain ⟨rfl, -⟩ := List.cons.inj hrest
        have hmem := hu' c (by simp)
        rw [hc] at hmem
        cases hmem
  · simp only [List.length_append] at hlt
    omega

/-- A pattern that matches nothing has no results. -/
theorem results_eq_nil {s : List α} (h : ∀ x, x ∉ results b s) : results b s = [] :=
  List.eq_nil_iff_forall_not_mem.mpr h

private theorem results_rep_split (hu : ∀ c ∈ u, p c = true) (hmin : min ≤ u.length)
    (hfail : FailsBefore greedy min p b u v) :
    ∃ before after, results (.rep greedy min p) (u ++ v) = before ++ ⟨[], u, v⟩ :: after ∧
      ∀ z ∈ before, results b z.rest = [] := by
  have hlen : u.length ≤ (u ++ v).length := by simp
  have hk : u.length ≤ ((u ++ v).takeWhile p).length :=
    (all_take_iff hlen).mp (by rwa [List.take_left])
  obtain ⟨before, after, hsplit, hbefore⟩ := lengths_split greedy hmin hk
  refine ⟨before.map fun k => ⟨[], (u ++ v).take k, (u ++ v).drop k⟩,
    after.map fun k => ⟨[], (u ++ v).take k, (u ++ v).drop k⟩, ?_, fun z hz => ?_⟩
  · simp only [results_rep, hsplit, List.map_append, List.map_cons, List.take_left, List.drop_left]
  · obtain ⟨k, hk, rfl⟩ := List.mem_map.mp hz
    have hmem : k ∈ lengths greedy min ((u ++ v).takeWhile p).length := by
      rw [hsplit]
      exact List.mem_append_left _ hk
    obtain ⟨hmin', hle⟩ := mem_lengths.mp hmem
    have hlen' : k ≤ (u ++ v).length := hle.trans (List.takeWhile_prefix p).length_le
    have htake : ((u ++ v).take k).length = k := List.length_take_of_le hlen'
    refine hfail _ _ (List.take_append_drop k (u ++ v)).symm ((all_take_iff hlen').mpr hle) ?_ ?_
    · omega
    · have hj := hbefore k hk
      rw [htake]
      cases greedy with
      | false =>
          rw [if_neg (by simp)] at hj ⊢
          exact hj.2
      | true =>
          rw [if_pos rfl] at hj ⊢
          exact hj.1

/-- The part that a repetition takes in front of `b`. -/
theorem head_rep (hu : ∀ c ∈ u, p c = true) (hmin : min ≤ u.length)
    (hfail : FailsBefore greedy min p b u v) (hb : (results b v).head? = some y) :
    (results (.seq (.rep greedy min p) b) (u ++ v)).head? =
      some ⟨y.groups, u ++ y.matched, y.rest⟩ := by
  obtain ⟨before, after, hsplit, hbefore⟩ := results_rep_split hu hmin hfail
  exact head_seq hsplit hbefore hb

/-- `head_rep` for a repetition that is a group. -/
theorem head_group_rep (name : String) (hu : ∀ c ∈ u, p c = true) (hmin : min ≤ u.length)
    (hfail : FailsBefore greedy min p b u v) (hb : (results b v).head? = some y) :
    (results (.seq (.group name (.rep greedy min p)) b) (u ++ v)).head? =
      some ⟨(name, u) :: y.groups, u ++ y.matched, y.rest⟩ := by
  obtain ⟨before, after, hsplit, hbefore⟩ := results_rep_split hu hmin hfail
  have hgroup : results (.group name (.rep greedy min p)) (u ++ v) =
      before.map (fun x => ⟨(name, x.matched) :: x.groups, x.matched, x.rest⟩) ++
        ⟨[(name, u)], u, v⟩ ::
          after.map fun x => ⟨(name, x.matched) :: x.groups, x.matched, x.rest⟩ := by
    rw [results_group, hsplit, List.map_append, List.map_cons]
  refine head_seq hgroup (fun z hz => ?_) hb
  obtain ⟨x, hx, rfl⟩ := List.mem_map.mp hz
  exact hbefore x hx

end

end Regex
