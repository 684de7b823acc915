import DianProtocol.Cpp.Progress

set_option autoImplicit false

/-! # Session ids

SETUP chooses an id that is no key of `sessions` in one critical section and stores its session in
another. An id that is chosen by two workers before either has stored it is stored twice, and the
second store overwrites the session of the first. `store_fresh` says that there is no other way: the
ids that are chosen and the ids of the live sessions stay apart as long as each choice keeps them
apart.
-/

namespace DianProtocol.Cpp

open Concurrent

variable {ι : Type} [DecidableEq ι]

/-! ## Chosen ids -/

/-- The id for a session that an event chooses: the generated one, or what the setup callback has
made of it. -/
def chosenId : Event Actions Ctl → Option Str
  | .act .generateId id => some id
  | .act (.callback .setup _ _) ret => if ret.thrown.isNone then some ret.session.id else none
  | _ => none

/-- An id that is chosen is the one the worker has chosen already, or it is no key of `sessions` and
no other worker has chosen it for a session that is still to be stored. -/
def ChoosesFresh (before : List (Label Actions ι (Shared ι) Ctl))
    (l : Label Actions ι (Shared ι) Ctl) : Prop :=
  ∀ id ∈ chosenId l.event, (progress.of l.who before).pending = some id ∨
    (id ∉ l.pre.sessions ∧ ∀ i, i ≠ l.who → (progress.of i before).pending ≠ some id)

instance [Fintype ι] (before : List (Label Actions ι (Shared ι) Ctl))
    (l : Label Actions ι (Shared ι) Ctl) : Decidable (ChoosesFresh before l) :=
  inferInstanceAs (Decidable (∀ id ∈ chosenId l.event,
    (progress.of l.who before).pending = some id ∨
      (id ∉ l.pre.sessions ∧ ∀ i, i ≠ l.who → (progress.of i before).pending ≠ some id)))

/-- The live sessions are in the map, and the ids that are chosen are those of no live session and
of one worker each. -/
structure IdsApart (o : SObs ι) : Prop where
  live : ∀ k, SetUp o.trace k → k ∈ o.shared.sessions
  fresh : ∀ i id, (progress.of i o.trace).pending = some id → ¬ SetUp o.trace id
  distinct : ∀ i j id, (progress.of i o.trace).pending = some id →
    (progress.of j o.trace).pending = some id → i = j

/-- The id that a worker has chosen after an action was chosen before it or by it. -/
theorem pending_act {t : Progress} {e : Act} {r : e.Ans} {id : Str}
    (h : (t.act e r).pending = some id) :
    chosenId (.act (S := Actions) e r) = some id ∨
      (t.pending = some id ∧ ∀ session, e ≠ .store session) := by
  cases e with
  | generateId => exact Or.inl h
  | callback cb x ptr =>
      cases cb with
      | setup => exact Or.inl h
      | play => exact Or.inr ⟨h, nofun⟩
      | teardown => exact Or.inr ⟨h, nofun⟩
  | store session => cases h
  | send site x => cases h
  | _ => exact Or.inr ⟨h, nofun⟩

section

variable {srv : Server} {i j : ι} {o : SObs ι} {e : Act} {r : e.Ans} {s : Shared ι} {id : Str}

/-- The id that worker `j` has chosen after an action of worker `i`: it has just chosen it, or it
had chosen it before and has not just stored it. -/
theorem pending_push
    (h : (progress.of j (o.push i (.act (S := Actions) e r) s).trace).pending = some id) :
    (j = i ∧ chosenId (.act (S := Actions) e r) = some id) ∨
      ((progress.of j o.trace).pending = some id ∧ (j = i → ∀ session, e ≠ .store session)) := by
  by_cases hj : i = j
  · subst hj
    rw [Ghost.of_push_self] at h
    rcases pending_act h with hchosen | ⟨hpending, hstore⟩
    · exact Or.inl ⟨rfl, hchosen⟩
    · exact Or.inr ⟨hpending, fun _ => hstore⟩
  · rw [Ghost.of_push_of_ne _ hj] at h
    exact Or.inr ⟨h, fun heq => absurd heq.symm hj⟩

/-- After a choice, the ids are those that were chosen before, or the new id is a fresh one. -/
theorem IdsApart.chosen (h : IdsApart o)
    (hchooses : ChoosesFresh o.trace ⟨i, o.shared, .act (S := Actions) e r⟩)
    (hid : chosenId (.act (S := Actions) e r) = some id) :
    ¬ SetUp o.trace id ∧ ∀ j, j ≠ i → (progress.of j o.trace).pending ≠ some id := by
  rcases hchooses id hid with hpending | ⟨hmem, hothers⟩
  · exact ⟨h.fresh i id hpending, fun j hj hpending' => hj (h.distinct j i id hpending' hpending)⟩
  · exact ⟨fun hlive => hmem (h.live id hlive), hothers⟩

theorem IdsApart.act (h : IdsApart o) (hpre : (progress.of i o.trace).Pre srv e)
    (hperf : Performs srv i o.shared e r s)
    (hchooses : ChoosesFresh o.trace ⟨i, o.shared, .act (S := Actions) e r⟩) :
    IdsApart (o.push i (.act (S := Actions) e r) s) where
  live := by
    intro k hk
    rcases setUp_concat hk with ⟨session, hstore, rfl⟩ | ⟨hlive, herase⟩
    · cases hstore
      obtain rfl : s = _ := hperf
      exact Map.mem_insert.mpr (Or.inl rfl)
    · refine performs_keeps_key hperf (h.live k hlive) ?_
      rintro rfl
      exact herase rfl
  fresh := by
    intro j id hpending hlive
    rcases setUp_concat hlive with ⟨session, hstore, rfl⟩ | ⟨hlive, -⟩
    · -- worker `i` stores the session, so it had chosen the id and has it no longer
      cases hstore
      rcases pending_push hpending with ⟨-, hchosen⟩ | ⟨hpending, hself⟩
      · cases hchosen
      · exact hself (h.distinct j i _ hpending hpre.2) session rfl
    · rcases pending_push hpending with ⟨-, hchosen⟩ | ⟨hpending, -⟩
      · exact (h.chosen hchooses hchosen).1 hlive
      · exact h.fresh j id hpending hlive
  distinct := by
    intro j₁ j₂ id h₁ h₂
    rcases pending_push h₁ with ⟨rfl, hchosen⟩ | ⟨hold₁, -⟩
    · rcases pending_push h₂ with ⟨rfl, -⟩ | ⟨hold₂, -⟩
      · rfl
      · by_contra hne
        exact (h.chosen hchooses hchosen).2 j₂ (Ne.symm hne) hold₂
    · rcases pending_push h₂ with ⟨rfl, hchosen⟩ | ⟨hold₂, -⟩
      · by_contra hne
        exact (h.chosen hchooses hchosen).2 j₁ hne hold₁
      · exact h.distinct j₁ j₂ id hold₁ hold₂

/-- A worker that enters a round has chosen no id in it. -/
theorem IdsApart.enter (h : IdsApart o) (l : Ctl) : IdsApart (o.push i (.enter l) o.shared) := by
  have hpending : ∀ j id, (progress.of j (o.push i (.enter l) o.shared).trace).pending = some id →
      (progress.of j o.trace).pending = some id := by
    intro j id hj
    by_cases hij : i = j
    · subst hij
      rw [Ghost.of_push_self] at hj
      cases hj
    · rw [Ghost.of_push_of_ne _ hij] at hj
      exact hj
  have hlive : ∀ k, SetUp (o.push i (.enter l) o.shared).trace k → SetUp o.trace k := by
    intro k hk
    rcases setUp_concat hk with ⟨session, hstore, -⟩ | ⟨hlive, -⟩
    · cases hstore
    · exact hlive
  exact
    { live := fun k hk => h.live k (hlive k hk)
      fresh := fun j id hj hk => h.fresh j id (hpending j id hj) (hlive id hk)
      distinct := fun j₁ j₂ id h₁ h₂ =>
        h.distinct j₁ j₂ id (hpending j₁ id h₁) (hpending j₂ id h₂) }

end

/-- In every run in which no worker chooses an id that is a key of `sessions` or that another SETUP
has chosen and not yet stored, no SETUP stores a session over a live one. -/
theorem store_fresh (srv : Server) (w : World Actions ι (Shared ι) Ctl)
    (hreach : Reach (system srv) initial w) (hchooses : Throughout ChoosesFresh w.obs.trace) (i : ι)
    (session : Session) (k : Unit → Prog Actions Ctl)
    (hprog : w.prog i = .act (S := Actions) (.store session) k) :
    ¬ SetUp w.obs.trace session.id := by
  have hapart : IdsApart w.obs := by
    refine hreach.throughout_invariant hchooses ?_ ?_ ?_
    · exact ⟨by simp [initial, SetUp], (fun i id h => nomatch h), fun i j id h => nomatch h⟩
    · intro w₁ j e k r s hreach₁ hp hperf hchosen hapart
      exact hapart.act (pre_reach hreach₁ hp) hperf hchosen
    · intro w₁ j l _ _ _ hapart
      exact hapart.enter l
  exact hapart.fresh i session.id (pre_reach hreach hprog).2

/-! ### Two SETUPs at the same time -/

/-- A client that sets up a session, for which the worker generates the id from `draw`. -/
def setup (i : Bool) (draw : Nat × Nat) : List (Bool × Choice) :=
  List.replicate 7 (i, { conn := .ofString "SETUP diantp://a/ 0.5\r\nTransport: TCP\r\n\r\n",
                         draws := [draw] })

/-- The first worker stores its session and answers, and the second one takes the lock. -/
def stores : List (Bool × Choice) :=
  List.replicate 4 (false, { ok := true }) ++ [(true, { ok := true })]

/-- The worker `true` is about to store a session, and there is a session with its id in the map or
not. -/
def storesOver (w : World Actions Bool (Shared Bool) Ctl) (taken : Bool) : Bool :=
  match w.prog true with
  | .act (.store session) _ => decide (session.id ∈ w.obs.shared.sessions) == taken
  | _ => false

/-- `store_fresh` at two SETUPs that choose different ids. -/
theorem store_fresh_setup : ∃ w : World Actions Bool (Shared Bool) Ctl,
    Reach (system plainServer) initial w ∧ ∃ session k,
      w.prog true = .act (S := Actions) (.store session) k ∧ ¬ SetUp w.obs.trace session.id := by
  obtain ⟨w, hreach, hw⟩ := run_map plainServer (setup false (0, 0) ++ setup true (0, 1) ++ stores)
    (fun w => storesOver w false && decide (Throughout ChoosesFresh w.obs.trace)) true
    (by decide)
  obtain ⟨hstores, hchooses⟩ := Bool.and_eq_true_iff.mp hw
  unfold storesOver at hstores
  split at hstores
  · rename_i session k hprog
    exact ⟨w, hreach, session, k, hprog,
      store_fresh plainServer w hreach (of_decide_eq_true hchooses) true session k hprog⟩
  · cases hstores

/-- When `rand()` gives two workers the same values at the same time, the second SETUP stores its
session over the one of the first. -/
theorem setup_overwrites : ∃ w : World Actions Bool (Shared Bool) Ctl,
    Reach (system plainServer) initial w ∧ ∃ session k,
      w.prog true = .act (S := Actions) (.store session) k ∧ SetUp w.obs.trace session.id := by
  obtain ⟨w, hreach, hw⟩ := run_map plainServer (setup false (0, 0) ++ setup true (0, 0) ++ stores)
    (fun w => storesOver w true && decide (PlaysFound w.obs.trace)) true (by decide)
  obtain ⟨hstores, hplays⟩ := Bool.and_eq_true_iff.mp hw
  unfold storesOver at hstores
  split at hstores
  · rename_i session k hprog
    have hmem : session.id ∈ w.obs.shared.sessions := by simpa using hstores
    exact ⟨w, hreach, session, k, hprog,
      (reach_sound plainServer_keepsIds hreach (of_decide_eq_true hplays)).setUp _ hmem⟩
  · cases hstores

end DianProtocol.Cpp
