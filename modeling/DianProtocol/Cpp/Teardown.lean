import DianProtocol.Cpp.Pointers

set_option autoImplicit false

/-! # Tearing a session down once

TEARDOWN looks its session up in one critical section and erases it in another, with the callback
and the answer between them. `torn_once` says when a session id is torn down at most once: while no
two TEARDOWNs of an id overlap, no PLAY inserts an erased id again, and no id is used for a second
session. Two TEARDOWNs that overlap both find the session and are both carried out
(`teardown_twice`).
-/

namespace DianProtocol.Cpp

open Concurrent

variable {ι : Type} [DecidableEq ι]

/-! ## Conditions on a run -/

/-- The session id that a TEARDOWN has found. -/
def tornKey : Event Actions Ctl → Option Str
  | .act (.index .teardown key) _ => some key
  | _ => none

/-- The id under which an event stores a session. -/
def storedKey : Event Actions Ctl → Option Str
  | .act (.store session) _ => some session.id
  | _ => none

/-- A TEARDOWN has found `key`, and it has not been erased since. -/
def tearing (key : Str) (trace : List (Label Actions ι (Shared ι) Ctl)) : Bool :=
  trace.foldl (fun busy l =>
    if tornKey l.event = some key then true
    else if erasedKey l.event = some key then false
    else busy) false

/-- No TEARDOWN finds an id while another TEARDOWN of it is under way, no PLAY inserts an id, and no
SETUP stores a session under an id that a TEARDOWN has found before. -/
def TeardownsApart (before : List (Label Actions ι (Shared ι) Ctl))
    (l : Label Actions ι (Shared ι) Ctl) : Prop :=
  (∀ key ∈ tornKey l.event, tearing key before = false) ∧ playFinds l = true ∧
    ∀ key ∈ storedKey l.event, ∀ m ∈ before, tornKey m.event ≠ some key

instance (before : List (Label Actions ι (Shared ι) Ctl)) (l : Label Actions ι (Shared ι) Ctl) :
    Decidable (TeardownsApart before l) :=
  inferInstanceAs (Decidable (_ ∧ _ ∧ _))

/-! ## One TEARDOWN for each id -/

omit [DecidableEq ι] in
theorem tearing_concat (key : Str) (trace : List (Label Actions ι (Shared ι) Ctl))
    (l : Label Actions ι (Shared ι) Ctl) :
    tearing key (trace ++ [l]) =
      if tornKey l.event = some key then true
      else if erasedKey l.event = some key then false
      else tearing key trace := by
  simp [tearing]

/-- A session that a TEARDOWN has found is gone when the TEARDOWN is over, and no other TEARDOWN has
found it. -/
structure TornApart (o : SObs ι) : Prop where
  gone : ∀ key, (∃ l ∈ o.trace, tornKey l.event = some key) → tearing key o.trace = false →
    key ∉ o.shared.sessions
  once : ∀ key before₁ l₁ before₂ l₂, Occurs o.trace before₁ l₁ → Occurs o.trace before₂ l₂ →
    tornKey l₁.event = some key → tornKey l₂.event = some key → before₁ = before₂ ∧ l₁ = l₂

omit [DecidableEq ι] in
theorem Occurs.mem {trace before : List (Label Actions ι (Shared ι) Ctl)}
    {l : Label Actions ι (Shared ι) Ctl} (h : Occurs trace before l) : l ∈ trace :=
  h.subset (List.mem_append_right _ (List.mem_singleton.mpr rfl))

section

variable {srv : Server} {i : ι} {o : SObs ι}

omit [DecidableEq ι] in
/-- After an event that finds no session, the TEARDOWNs are those before it. -/
theorem TornApart.once_push (h : TornApart o) {ev : Event Actions Ctl} {s : Shared ι}
    (hev : ∀ key, tornKey ev = some key → ¬ ∃ l ∈ o.trace, tornKey l.event = some key) :
    ∀ key before₁ l₁ before₂ l₂, Occurs (o.push i ev s).trace before₁ l₁ →
      Occurs (o.push i ev s).trace before₂ l₂ → tornKey l₁.event = some key →
      tornKey l₂.event = some key → before₁ = before₂ ∧ l₁ = l₂ := by
  intro key before₁ l₁ before₂ l₂ h₁ h₂ hkey₁ hkey₂
  rcases occurs_concat.mp h₁ with ⟨rfl, rfl⟩ | hocc₁
  · rcases occurs_concat.mp h₂ with ⟨rfl, rfl⟩ | hocc₂
    · exact ⟨rfl, rfl⟩
    · exact absurd ⟨l₂, Occurs.mem hocc₂, hkey₂⟩ (hev key hkey₁)
  · rcases occurs_concat.mp h₂ with ⟨rfl, rfl⟩ | hocc₂
    · exact absurd ⟨l₁, Occurs.mem hocc₁, hkey₁⟩ (hev key hkey₂)
    · exact h.once key before₁ l₁ before₂ l₂ hocc₁ hocc₂ hkey₁ hkey₂

theorem TornApart.act {e : Act} {r : e.Ans} {s : Shared ι} (h : TornApart o)
    (hpre : Pre False i o e) (hperf : Performs srv i o.shared e r s)
    (hapart : TeardownsApart o.trace ⟨i, o.shared, .act (S := Actions) e r⟩) :
    TornApart (o.push i (.act (S := Actions) e r) s) where
  gone := by
    rintro key ⟨l, hl, hkey⟩ hover hmem
    rw [Obs.push_trace, tearing_concat] at hover
    split at hover
    · cases hover
    rename_i hnot
    have hfound : ∃ l ∈ o.trace, tornKey l.event = some key := by
      rcases List.mem_append.mp hl with hl | hl
      · exact ⟨l, hl, hkey⟩
      · rw [List.mem_singleton.mp hl] at hkey
        exact absurd hkey hnot
    split at hover
    · -- the key has just been erased
      rename_i herased
      cases e with
      | erase k =>
          obtain rfl : s = _ := hperf
          cases herased
          exact (Map.mem_erase.mp hmem).1 rfl
      | _ => cases herased
    · -- it was not there before, and the event does not insert it
      have hgone := h.gone key hfound hover
      rcases performs_new_key hperf hmem with hold | ⟨cb, rfl⟩ | ⟨session, rfl, rfl⟩
      · exact hgone hold
      · by_cases hcb : cb = .play
        · subst hcb
          exact hgone (of_decide_eq_true hapart.2.1)
        · exact hgone (hpre.2.2.1 hcb)
      · obtain ⟨m, hm, hmkey⟩ := hfound
        exact hapart.2.2 _ rfl m hm hmkey
  once := by
    refine h.once_push fun key hkey hfound => ?_
    cases e with
    | index cb k =>
        cases cb with
        | teardown =>
            cases hkey
            -- the session is there, although an earlier TEARDOWN of it is over
            exact h.gone key hfound (hapart.1 key rfl) (hpre.2.2.1 (by simp))
        | setup => cases hkey
        | play => cases hkey
    | _ => cases hkey

omit [DecidableEq ι] in
theorem TornApart.enter (h : TornApart o) (l : Ctl) : TornApart (o.push i (.enter l) o.shared) where
  gone := by
    rintro key ⟨m, hm, hkey⟩ hover
    rw [Obs.push_trace, tearing_concat] at hover
    rcases List.mem_append.mp hm with hm | hm
    · exact h.gone key ⟨m, hm, hkey⟩ hover
    · rw [List.mem_singleton.mp hm] at hkey
      cases hkey
  once := h.once_push fun key hkey => by cases hkey

end

/-! ## What belongs to a TEARDOWN -/

/-- The event belongs to a TEARDOWN of `key` that is carried out: it is the callback for the
session, or an answer other than 454 to a TEARDOWN of it. -/
def CarriesOut (key : Str) (before : List (Label Actions ι (Shared ι) Ctl))
    (l : Label Actions ι (Shared ι) Ctl) : Prop :=
  (∃ x ret, l.event = .act (S := Actions) (.callback .teardown x (.entry key)) ret) ∨
    ∃ request conn site x sent, l.event = .act (S := Actions) (.send site x) sent ∧
      (progress.of l.who before).ctl = some (.dispatch request conn) ∧
      request.method = str "TEARDOWN" ∧ sessionId request = key ∧ x.response.status ≠ 454

/-- A TEARDOWN of `key` is carried out only after it has found the session. -/
theorem CarriesOut.torn {srv : Server} {key : Str} {before : List (Label Actions ι (Shared ι) Ctl)}
    {l : Label Actions ι (Shared ι) Ctl} (h : CarriesOut key before l)
    (hprepared : Prepared srv before l) : (progress.of l.who before).torn = some key := by
  rcases h with ⟨x, ret, hev⟩ | ⟨request, conn, site, x, sent, hev, hctl, hm, rfl, hstatus⟩
  · obtain ⟨-, -, -, -, -, htorn⟩ := hprepared _ _ hev
    exact htorn rfl
  · have hanswers := hprepared _ _ hev request conn hctl (Or.inl hm)
    unfold Progress.Answers at hanswers
    rw [if_neg hstatus] at hanswers
    exact (hanswers.2 hm).2

/-- A worker that tears a session down has found it in its present round. -/
theorem torn_occurs {i : ι} {key : Str} {trace : List (Label Actions ι (Shared ι) Ctl)}
    (h : (progress.of i trace).torn = some key) : ∃ before l, Occurs trace before l ∧ l.who = i ∧
      tornKey l.event = some key ∧ (progress.of i before).round = (progress.of i trace).round := by
  induction trace using List.reverseRecOn with
  | nil => cases h
  | append_singleton trace l ih =>
      rw [Ghost.of_concat] at h
      -- if the session was torn down before `l`, the round is still the same
      have hold : (progress.of i trace).torn = some key →
          (progress.of i (trace ++ [l])).round = (progress.of i trace).round →
          ∃ before m, Occurs (trace ++ [l]) before m ∧ m.who = i ∧ tornKey m.event = some key ∧
            (progress.of i before).round = (progress.of i (trace ++ [l])).round := by
        intro htorn hround
        obtain ⟨before, m, hocc, hm, hkey, hsame⟩ := ih htorn
        exact ⟨before, m, occurs_concat.mpr (Or.inr hocc), hm, hkey, hsame.trans hround.symm⟩
      by_cases hwho : l.who = i
      · rw [if_pos hwho] at h
        cases hev : l.event with
        | enter ctl =>
            rw [hev] at h
            cases h
        | act e r =>
            have hround : (progress.of i (trace ++ [l])).round = (progress.of i trace).round := by
              rw [Ghost.of_concat, if_pos hwho, hev]
              exact Progress.act_round _ _ _
            rw [hev] at h
            cases e with
            | index cb k =>
                cases cb with
                | teardown =>
                    refine ⟨trace, l, occurs_concat.mpr (Or.inl ⟨rfl, rfl⟩), hwho, ?_, hround.symm⟩
                    rw [hev]
                    exact h
                | setup => exact hold h hround
                | play => exact hold h hround
            | callback cb x ptr => cases cb <;> exact hold h hround
            | _ => exact hold h hround
      · rw [if_neg hwho] at h
        refine hold h ?_
        rw [Ghost.of_concat, if_neg hwho]

/-- At most one TEARDOWN of `key` is carried out, that of one worker in one round, and every other
TEARDOWN of `key` that is over has been answered 454 and nothing else. -/
def TornDownOnce (w : World Actions ι (Shared ι) Ctl) (key : Str) : Prop :=
  ∃ owner : Option (ι × Nat),
    (∀ before l, Occurs w.obs.trace before l → CarriesOut key before l →
      owner = some (l.who, (progress.of l.who before).round)) ∧
    ∀ i request conn l, w.prog i = .ret l →
      (progress.of i w.obs.trace).ctl = some (.dispatch request conn) →
      request.method = str "TEARDOWN" → sessionId request = key →
      owner ≠ some (i, (progress.of i w.obs.trace).round) →
      ∃ sent, (progress.of i w.obs.trace).sends = [(454, sent)]

/-- The TEARDOWN that is carried out is the one that has found the session. -/
theorem tornDownOnce_of_owner {srv : Server} {w : World Actions ι (Shared ι) Ctl}
    (hreach : Reach (system srv) initial w) {key : Str} (owner : Option (ι × Nat))
    (howner : ∀ i trace, trace <+: w.obs.trace → (progress.of i trace).torn = some key →
      owner = some (i, (progress.of i trace).round)) : TornDownOnce w key := by
  refine ⟨owner, ?_, ?_⟩
  · intro before l hocc hcarries
    refine howner l.who before ((List.prefix_append _ _).trans hocc) ?_
    exact hcarries.torn (prepared_throughout hreach before l hocc)
  · intro i request conn l hprog hctl hm hid hne
    have hwalk := reach_walks hreach i
    rw [hprog] at hwalk
    rcases hwalk request conn hctl (Or.inl hm) with ⟨-, -, htorn⟩ | ⟨-, hsends⟩
    · rw [hid] at htorn
      exact absurd (howner i _ List.prefix_rfl (htorn hm)) hne
    · exact hsends

theorem reach_tornApart {srv : Server} {w : World Actions ι (Shared ι) Ctl}
    (hreach : Reach (system srv) initial w) (hapart : Throughout TeardownsApart w.obs.trace) :
    TornApart w.obs := by
  have hinit : TornApart (initial (ι := ι)).obs :=
    ⟨by simp [initial], fun _ before₁ l₁ _ _ hocc => absurd (Occurs.mem hocc) List.not_mem_nil⟩
  refine hreach.throughout_invariant hapart hinit ?_ ?_
  · intro w₁ i e k r s hreach₁ hp hperf hlast h
    exact h.act ((outline_holds False.elim hreach₁).pre hp) hperf hlast
  · intro w₁ i l _ _ _ h
    exact h.enter l

/-- In every run in which the TEARDOWNs of an id do not overlap, no PLAY inserts an id and no id is
stored again after its TEARDOWN, every id is torn down at most once. -/
theorem torn_once (srv : Server) (w : World Actions ι (Shared ι) Ctl)
    (hreach : Reach (system srv) initial w) (hapart : Throughout TeardownsApart w.obs.trace)
    (key : Str) : TornDownOnce w key := by
  have hinv := reach_tornApart hreach hapart
  by_cases hfound : ∃ before l, Occurs w.obs.trace before l ∧ tornKey l.event = some key
  · obtain ⟨before₀, l₀, hocc₀, hkey₀⟩ := hfound
    refine tornDownOnce_of_owner hreach (some (l₀.who, (progress.of l₀.who before₀).round)) ?_
    intro i trace hp htorn
    obtain ⟨before, l, hocc, hwho, hkey, hround⟩ := torn_occurs htorn
    obtain ⟨rfl, rfl⟩ := hinv.once key _ _ _ _ (hocc.of_prefix hp) hocc₀ hkey hkey₀
    rw [hwho, hround]
  · refine tornDownOnce_of_owner hreach none fun i trace hp htorn => ?_
    obtain ⟨before, l, hocc, -, hkey, -⟩ := torn_occurs htorn
    exact absurd ⟨before, l, hocc.of_prefix hp, hkey⟩ hfound

/-! ### Two TEARDOWNs at the same time -/

/-- A server with a teardown callback that does nothing. -/
def teardownServer : Server :=
  { teardownCallback := true,
    behaves := fun _ x session ret => ret = { vars := x, session := session } }

/-- A client that sets a session up, and its TEARDOWN up to the callback. -/
def setupTearing : List (Bool × Choice) :=
  List.replicate 17 (false, { conn := .ofString ("SETUP diantp://a/ 0.5\r\nTransport: TCP\r\n\r\n"
    ++ "TEARDOWN diantp://a/ 0.5\r\nSession: 00\r\n\r\n") })

/-- The rest of a TEARDOWN, from the callback on. -/
def tearingEnds (i : Bool) : List (Bool × Choice) := List.replicate 5 (i, { ok := true })

/-- The run of `teardownServer` along a schedule. -/
theorem teardownServer_map (sched : List (Bool × Choice))
    (g : World Actions Bool (Shared Bool) Ctl → Bool)
    (h : ((system teardownServer).follow (answerCalls teardownServer
      fun _ x session => { vars := x, session := session }) initial sched).map g = some true) :
    ∃ w, Reach (system teardownServer) initial w ∧ g w = true :=
  follow_map (fun _ _ _ => rfl) sched g true h

/-- `torn_once` at a TEARDOWN that comes after another one. -/
theorem torn_once_twice : ∃ w : World Actions Bool (Shared Bool) Ctl,
    Reach (system teardownServer) initial w ∧
      (progress.of false w.obs.trace).sends = [(200, true)] ∧
      (progress.of true w.obs.trace).sends = [(454, true)] ∧ TornDownOnce w (str "00") := by
  obtain ⟨w, hreach, hw⟩ :=
    teardownServer_map (setupTearing ++ tearingEnds false ++ teardown.take 8)
    (fun w => decide ((progress.of false w.obs.trace).sends = [(200, true)] ∧
      (progress.of true w.obs.trace).sends = [(454, true)] ∧
      Throughout TeardownsApart w.obs.trace)) (by decide)
  obtain ⟨hfirst, hsecond, hapart⟩ := of_decide_eq_true hw
  exact ⟨w, hreach, hfirst, hsecond, torn_once teardownServer w hreach hapart (str "00")⟩

/-- The worker that runs a teardown callback, and the id for which it runs. -/
def callbackOf (l : Label Actions Bool (Shared Bool) Ctl) : Option (Bool × Str) :=
  match l.event with
  | .act (.callback .teardown _ (.entry key)) _ => some (l.who, key)
  | _ => none

theorem callbackOf_carriesOut {trace : List (Label Actions Bool (Shared Bool) Ctl)} {i : Bool}
    {key : Str} (h : (i, key) ∈ trace.filterMap callbackOf) :
    ∃ before l, Occurs trace before l ∧ CarriesOut key before l ∧ l.who = i := by
  obtain ⟨l, hl, hcall⟩ := List.mem_filterMap.mp h
  obtain ⟨before, since, rfl⟩ := List.append_of_mem hl
  refine ⟨before, l, ⟨since, by simp⟩, ?_⟩
  unfold callbackOf at hcall
  split at hcall
  · rename_i x k ret hev
    obtain ⟨rfl, rfl⟩ := Prod.mk.inj (Option.some.inj hcall)
    exact ⟨Or.inl ⟨x, ret, hev⟩, rfl⟩
  · cases hcall

/-- Two TEARDOWNs that overlap both run the callback and are both answered 200. -/
theorem teardown_twice : ∃ w : World Actions Bool (Shared Bool) Ctl,
    Reach (system teardownServer) initial w ∧
      (progress.of false w.obs.trace).sends = [(200, true)] ∧
      (progress.of true w.obs.trace).sends = [(200, true)] ∧ ¬ TornDownOnce w (str "00") := by
  obtain ⟨w, hreach, hw⟩ := teardownServer_map
    (setupTearing ++ teardown.take 8 ++ tearingEnds false ++ tearingEnds true)
    (fun w => decide ((progress.of false w.obs.trace).sends = [(200, true)] ∧
      (progress.of true w.obs.trace).sends = [(200, true)] ∧
      (false, str "00") ∈ w.obs.trace.filterMap callbackOf ∧
      (true, str "00") ∈ w.obs.trace.filterMap callbackOf)) (by decide)
  obtain ⟨hfirst, hsecond, hcall₁, hcall₂⟩ := of_decide_eq_true hw
  refine ⟨w, hreach, hfirst, hsecond, ?_⟩
  rintro ⟨owner, howner, -⟩
  obtain ⟨before₁, l₁, hocc₁, hcarries₁, hwho₁⟩ := callbackOf_carriesOut hcall₁
  obtain ⟨before₂, l₂, hocc₂, hcarries₂, hwho₂⟩ := callbackOf_carriesOut hcall₂
  have hsame := (howner _ _ hocc₁ hcarries₁).symm.trans (howner _ _ hocc₂ hcarries₂)
  rw [hwho₁, hwho₂] at hsame
  cases hsame

end DianProtocol.Cpp
