import DianProtocol.Cpp.Progress

set_option autoImplicit false

/-! # The life of a session

Requests that are handled one after another, each by any worker, with nobody else at work. In such a
history the ids in `sessions` are those that a SETUP has stored and no TEARDOWN has erased since, a
PLAY or TEARDOWN is answered 454 exactly when its session is not among them, and a request that
neither stores nor erases a session leaves the map as it was (`lifecycle`) — but for the entry of a
PLAY, where the play callback may have changed the session through its pointer (`play_changes`).
-/

namespace DianProtocol.Cpp

open Concurrent

variable {ι : Type} [DecidableEq ι]

/-! ## Histories -/

/-- Worker `i` handles `request` from `o` on, with nobody else at work, and leaves `o'`. -/
def HandlesAlone (srv : Server) (i : ι) (o : SObs ι) (request : Request) (conn : Conn)
    (o' : SObs ι) : Prop :=
  ∃ r, Exec (system srv) i (fun _ _ => False)
    (o.push i (.enter (.dispatch request conn)) o.shared)
    ((handle srv).run ⟨request, .ofRequest request, conn⟩) o' r

/-- What the server has come to by handling requests one after another. -/
inductive History (srv : Server) : SObs ι → Prop where
  | start : History srv ⟨[], {}⟩
  | handle {o o' : SObs ι} {i : ι} {request : Request} {conn : Conn} :
      History srv o → HandlesAlone srv i o request conn o' → History srv o'

/-- `head` is the head of a response with the status 454. -/
def Is454 (head : Str) : Prop :=
  ∃ response : Response, response.status = 454 ∧ head = response.unparseHead

/-- No callback answers 454. -/
def No454 (srv : Server) : Prop :=
  ∀ cb x session ret, srv.behaves cb x session ret → ∀ head ∈ ret.heads, ¬ Is454 head

/-- An answer 454 is among the actions, sent by `_handle` or by a callback. -/
def Answered454 (acts : List (Σ e : Actions.Act, Actions.Ans e)) : Prop :=
  (∃ site x, ⟨.send site x, true⟩ ∈ acts ∧ x.response.status = 454) ∨
    ∃ cb x ptr ret, ⟨.callback cb x ptr, ret⟩ ∈ acts ∧ ∃ head ∈ ret.heads, Is454 head

/-- If the action sends an answer, the socket has taken it. -/
def sendSucceeds : (Σ e : Actions.Act, Actions.Ans e) → Bool
  | ⟨.send _ _, sent⟩ => sent
  | _ => true

/-- The socket has taken every answer. -/
def SendsSucceed (acts : List (Σ e : Actions.Act, Actions.Ans e)) : Prop :=
  ∀ a ∈ acts, sendSucceeds a = true

/-- The action stores a session. -/
def isStore : (Σ e : Actions.Act, Actions.Ans e) → Bool
  | ⟨.store _, _⟩ => true
  | _ => false

/-- A session has been stored. -/
def Stores (acts : List (Σ e : Actions.Act, Actions.Ans e)) : Prop := ∃ a ∈ acts, isStore a = true

/-- `m'` is `m`, or it is `m` with the session that the callback of a PLAY has left at its entry. -/
def Leaves (request : Request) (acts : List (Σ e : Actions.Act, Actions.Ans e)) (m m' : Sessions) :
    Prop :=
  m' = m ∨ (request.method = str "PLAY" ∧ sessionId request ∈ m ∧ ∃ x ret,
    ⟨.callback .play x (.entry (sessionId request)), ret⟩ ∈ acts ∧
      m' = m.insert (sessionId request) ret.session)

/-! ## The answers among the actions -/

theorem mem_sends_act {t : Progress} {e : Act} {r : e.Ans} {status : Int} {sent : Bool} :
    (status, sent) ∈ (t.act e r).sends ↔ (status, sent) ∈ t.sends ∨ ∃ site x,
      x.response.status = status ∧
        (⟨.send site x, sent⟩ : Σ e : Actions.Act, Actions.Ans e) = ⟨e, r⟩ := by
  have hother : (∀ site x, e ≠ .send site x) → (t.act e r).sends = t.sends →
      ((status, sent) ∈ (t.act e r).sends ↔ (status, sent) ∈ t.sends ∨ ∃ site x,
        x.response.status = status ∧
          (⟨.send site x, sent⟩ : Σ e : Actions.Act, Actions.Ans e) = ⟨e, r⟩) := by
    intro hne hsends
    rw [hsends]
    constructor
    · exact Or.inl
    · rintro (hmem | ⟨site, x, -, heq⟩)
      · exact hmem
      · exact absurd (Sigma.mk.inj heq).1.symm (hne site x)
  cases e with
  | send site x =>
      have hsends : (t.act (.send site x) r).sends = t.sends ++ [(x.response.status, r)] := rfl
      rw [hsends, List.mem_append, List.mem_singleton]
      constructor
      · rintro (hmem | heq)
        · exact Or.inl hmem
        · obtain ⟨rfl, rfl⟩ := Prod.mk.inj heq
          exact Or.inr ⟨site, x, rfl, rfl⟩
      · rintro (hmem | ⟨site', x', rfl, heq⟩)
        · exact Or.inl hmem
        · cases heq
          exact Or.inr rfl
  | callback cb x ptr => exact hother nofun (by cases cb <;> rfl)
  | _ => exact hother nofun rfl

/-- The sends of a worker's progress are those among its actions. -/
theorem mem_sends {i : ι} {trace : List (Label Actions ι (Shared ι) Ctl)} {status : Int}
    {sent : Bool} :
    (status, sent) ∈ (progress.of i trace).sends ↔
      ∃ site x, x.response.status = status ∧ ⟨.send site x, sent⟩ ∈ actsOf i trace := by
  induction trace using List.reverseRecOn with
  | nil => simp [Ghost.of, progress, actsOf]
  | append_singleton trace l ih =>
      rw [Ghost.of_concat, actsOf, List.foldl_concat, ← actsOf]
      by_cases hwho : l.who = i
      · rw [if_pos hwho, if_pos hwho]
        cases hev : l.event with
        | enter ctl => simp [Ghost.event, progress]
        | act e r =>
            show (status, sent) ∈ ((progress.of i trace).act e r).sends ↔ _
            rw [mem_sends_act, ih]
            simp only [List.mem_append, List.mem_singleton, and_or_left, exists_or]
      · rw [if_neg hwho, if_neg hwho]
        exact ih

/-! ## One request -/

/-- What holds while worker `i` handles `request`, which it has entered in `o₀`. -/
structure Alone (i : ι) (o₀ : SObs ι) (request : Request) (conn : Conn) (o : SObs ι) : Prop where
  ctl : (progress.of i o.trace).ctl = some (.dispatch request conn)
  /-- the ids in the map are those set up -/
  keys : ∀ k, k ∈ o.shared.sessions ↔ SetUp o.trace k
  /-- a request that uses a session looks it up before it changes the map -/
  before : UsesSession request → (progress.of i o.trace).found = none →
    o.shared.sessions = o₀.shared.sessions
  found : ∀ key b, (progress.of i o.trace).found = some (key, b) →
    key = sessionId request ∧ (b = true ↔ key ∈ o₀.shared.sessions)
  present : ∀ key, (progress.of i o.trace).found = some (key, true) →
    (progress.of i o.trace).torn = none → key ∈ o.shared.sessions
  torn : ∀ key, (progress.of i o.trace).torn = some key →
    (progress.of i o.trace).found = some (key, true) ∧ request.method = str "TEARDOWN"
  leaves : (progress.of i o.trace).torn = none → ¬ Stores (o.acts i) →
    Leaves request (o.acts i) o₀.shared.sessions o.shared.sessions

section

variable {srv : Server} {i : ι} {o₀ o : SObs ι} {request : Request} {conn : Conn} {e : Act}
  {r : e.Ans} {s : Shared ι}

omit [DecidableEq ι] in
theorem Leaves.mono {acts acts' : List (Σ e : Actions.Act, Actions.Ans e)} {m m' : Sessions}
    (h : Leaves request acts m m') (hacts : acts ⊆ acts') : Leaves request acts' m m' := by
  rcases h with heq | ⟨hm, hmem, x, ret, hcall, heq⟩
  · exact Or.inl heq
  · exact Or.inr ⟨hm, hmem, x, ret, hacts hcall, heq⟩

theorem progress_push (o : SObs ι) (i : ι) (e : Act) (r : e.Ans) (s : Shared ι) :
    progress.of i (o.push i (.act (S := Actions) e r) s).trace = (progress.of i o.trace).act e r :=
  Ghost.of_push_self _ _ _ _

theorem setUp_push {k : Str} (hstore : ∀ session, e ≠ .store session) (herase : e ≠ .erase k) :
    SetUp (o.push i (.act (S := Actions) e r) s).trace k ↔ SetUp o.trace k := by
  constructor
  · intro h
    rcases setUp_concat h with ⟨session, hev, -⟩ | ⟨hlive, -⟩
    · cases hev
      exact absurd rfl (hstore session)
    · exact hlive
  · intro h
    refine h.push ?_
    rintro heq
    cases heq
    exact herase rfl

/-- An action that neither adds nor removes an id. -/
theorem Alone.same_ids (h : Alone i o₀ request conn o)
    (hids : ∀ k, k ∈ s.sessions ↔ k ∈ o.shared.sessions)
    (hstore : ∀ session, e ≠ .store session) (herase : ∀ key, e ≠ .erase key)
    (hbefore : (progress.of i o.trace).found = none → s.sessions = o.shared.sessions)
    (hfound : ((progress.of i o.trace).act e r).found = (progress.of i o.trace).found)
    (hstill : ((progress.of i o.trace).act e r).torn = none → (progress.of i o.trace).torn = none)
    (htorn : ∀ key, ((progress.of i o.trace).act e r).torn = some key →
      (progress.of i o.trace).found = some (key, true) ∧ request.method = str "TEARDOWN")
    (hleaves : ((progress.of i o.trace).act e r).torn = none → ¬ Stores (o.acts i) →
      Leaves request (o.acts i ++ [⟨e, r⟩]) o₀.shared.sessions s.sessions) :
    Alone i o₀ request conn (o.push i (.act (S := Actions) e r) s) := by
  constructor
  · rw [progress_push, Progress.act_ctl]
    exact h.ctl
  · intro k
    rw [Obs.push_shared, hids k, setUp_push hstore (herase k)]
    exact h.keys k
  · rw [progress_push, hfound, Obs.push_shared]
    intro huse hnone
    rw [hbefore hnone]
    exact h.before huse hnone
  · rw [progress_push, hfound]
    exact h.found
  · rw [progress_push, hfound, Obs.push_shared]
    intro key hkey hnone
    exact (hids key).mpr (h.present key hkey (hstill hnone))
  · rw [progress_push, hfound]
    exact htorn
  · rw [progress_push, Obs.push_shared, Obs.acts_push_act_self]
    intro hnone hstores
    refine hleaves hnone ?_
    rintro ⟨a, hmem, hstored⟩
    exact hstores ⟨a, List.mem_append_left _ hmem, hstored⟩

/-- An action that changes neither the map nor what the worker knows about its session. -/
theorem Alone.quiet (h : Alone i o₀ request conn o)
    (hsessions : s.sessions = o.shared.sessions) (hstore : ∀ session, e ≠ .store session)
    (herase : ∀ key, e ≠ .erase key)
    (hfound : ((progress.of i o.trace).act e r).found = (progress.of i o.trace).found)
    (htorn : ((progress.of i o.trace).act e r).torn = (progress.of i o.trace).torn) :
    Alone i o₀ request conn (o.push i (.act (S := Actions) e r) s) := by
  refine h.same_ids (fun k => ?_) hstore herase (fun _ => hsessions) hfound ?_ ?_ ?_
  · rw [hsessions]
  · rw [htorn]
    exact id
  · rw [htorn]
    exact h.torn
  · rw [htorn, hsessions]
    intro hnone hstores
    exact (h.leaves hnone hstores).mono (List.subset_append_left _ _)

theorem Alone.serves (h : Alone i o₀ request conn o) {cb : Callback}
    (hserves : (progress.of i o.trace).Serves cb) : request.method = cb.method := by
  obtain ⟨request', conn', hctl, hm⟩ := hserves
  rw [h.ctl] at hctl
  cases hctl
  exact hm

theorem Alone.find (h : Alone i o₀ request conn o) {key : Str} {found : Bool}
    (hpre : (progress.of i o.trace).Pre srv (.find key))
    (hperf : Performs srv i o.shared (.find key) found s) :
    Alone i o₀ request conn (o.push i (.act (S := Actions) (.find key) found) s) := by
  obtain ⟨hnone, request', conn', hctl, huse, rfl⟩ := hpre
  rw [h.ctl] at hctl
  cases hctl
  obtain ⟨hmem, rfl⟩ : _ ∧ s = _ := hperf
  have hsame := h.before huse hnone
  have htorn : (progress.of i o.trace).torn = none := by
    cases htorn : (progress.of i o.trace).torn with
    | none => rfl
    | some key =>
        have hfound := (h.torn key htorn).1
        rw [hnone] at hfound
        cases hfound
  constructor
  · rw [progress_push, Progress.act_ctl]
    exact h.ctl
  · intro k
    rw [setUp_push (by simp) (by simp)]
    exact h.keys k
  · intro _ hfound
    rw [progress_push] at hfound
    cases hfound
  · intro key b hfound
    rw [progress_push] at hfound
    cases hfound
    refine ⟨rfl, ?_⟩
    rw [← hsame]
    exact hmem
  · intro key hfound _
    rw [progress_push] at hfound
    cases hfound
    exact hmem.mp rfl
  · intro key htorn'
    rw [progress_push] at htorn'
    exact absurd (htorn.symm.trans htorn') (by simp)
  · intro _ _
    exact Or.inl hsame

theorem Alone.index (h : Alone i o₀ request conn o) {cb : Callback} {key : Str} {r : Unit}
    (hpre : (progress.of i o.trace).Pre srv (.index cb key))
    (hperf : Performs srv i o.shared (.index cb key) r s) :
    Alone i o₀ request conn (o.push i (.act (S := Actions) (.index cb key) r) s) := by
  obtain ⟨hserves, hfound, htorn⟩ := hpre
  obtain rfl : s = _ := hperf
  have hm := h.serves hserves
  -- the key is there, so the map stays as it is
  have hsame : o.shared.sessions.insertIfNew key {} = o.shared.sessions :=
    Map.insertIfNew_of_mem (h.present key hfound htorn)
  by_cases hcb : cb = .teardown
  · subst hcb
    have hset : ((progress.of i o.trace).act (.index .teardown key) r).torn = some key := by
      simp [Progress.act]
    refine h.same_ids (fun k => ?_) (by simp) (by simp) (fun _ => hsame) rfl ?_ ?_ ?_
    · rw [hsame]
    · rw [hset]
      intro hnone
      cases hnone
    · rw [hset]
      intro k hk
      cases hk
      exact ⟨hfound, hm⟩
    · rw [hset]
      intro hnone
      cases hnone
  · exact h.quiet hsame (by simp) (by simp) rfl (if_neg hcb)

theorem Alone.store (h : Alone i o₀ request conn o) {session : Session} {r : Unit}
    (hpre : (progress.of i o.trace).Pre srv (.store session))
    (hperf : Performs srv i o.shared (.store session) r s) :
    Alone i o₀ request conn (o.push i (.act (S := Actions) (.store session) r) s) := by
  obtain rfl : s = _ := hperf
  have hm := h.serves hpre.1
  have hctl : ctlOf i o.trace = some (.dispatch request conn) := by
    rw [← progress_ctl]
    exact h.ctl
  constructor
  · rw [progress_push, Progress.act_ctl]
    exact h.ctl
  · intro k
    constructor
    · intro hk
      by_cases hid : session.id = k
      · exact ⟨o.trace, _, [], rfl, ⟨request, conn, hctl, hm⟩, ⟨session, rfl, hid⟩, by simp⟩
      · rcases Map.mem_insert.mp hk with heq | hmem
        · exact absurd heq hid
        · exact ((h.keys k).mp hmem).push (by simp)
    · intro hk
      rcases setUp_concat hk with ⟨session', hev, rfl⟩ | ⟨hlive, -⟩
      · cases hev
        exact Map.mem_insert.mpr (Or.inl rfl)
      · exact Map.mem_insert.mpr (Or.inr ((h.keys k).mpr hlive))
  · intro huse
    exact absurd huse (not_usesSession hm (by decide) (by decide))
  · rw [progress_push]
    exact h.found
  · intro key hfound htorn
    rw [progress_push] at hfound htorn
    exact Map.mem_insert.mpr (Or.inr (h.present key hfound htorn))
  · rw [progress_push]
    exact h.torn
  · intro _ hstores
    refine absurd ⟨⟨.store session, r⟩, ?_, rfl⟩ hstores
    rw [Obs.acts_push_act_self]
    exact List.mem_append_right _ (List.mem_singleton.mpr rfl)

theorem Alone.erase (h : Alone i o₀ request conn o) {key : Str} {r : Unit}
    (hpre : (progress.of i o.trace).Pre srv (.erase key))
    (hperf : Performs srv i o.shared (.erase key) r s) :
    Alone i o₀ request conn (o.push i (.act (S := Actions) (.erase key) r) s) := by
  obtain ⟨-, key', hfound, htorn⟩ := hpre
  obtain rfl : s = _ := hperf
  have hstill : ((progress.of i o.trace).act (.erase key) r).torn ≠ none := by
    show (progress.of i o.trace).torn ≠ none
    rw [htorn]
    simp
  constructor
  · rw [progress_push, Progress.act_ctl]
    exact h.ctl
  · intro k
    rw [Obs.push_shared, Map.mem_erase, h.keys k]
    constructor
    · rintro ⟨hne, hlive⟩
      refine hlive.push ?_
      rintro heq
      cases heq
      exact hne rfl
    · intro hk
      rcases setUp_concat hk with ⟨session, hev, -⟩ | ⟨hlive, hne⟩
      · cases hev
      · refine ⟨?_, hlive⟩
        rintro rfl
        exact hne rfl
  · intro _ hnone
    rw [progress_push] at hnone
    exact absurd (hfound.symm.trans hnone) (by simp)
  · rw [progress_push]
    exact h.found
  · intro k _ hnone
    rw [progress_push] at hnone
    exact absurd hnone hstill
  · rw [progress_push]
    exact h.torn
  · intro hnone
    rw [progress_push] at hnone
    exact absurd hnone hstill

/-- The callback of a PLAY or TEARDOWN may change the session at its entry, which is there. -/
theorem Alone.callEntry (h : Alone i o₀ request conn o) {cb : Callback} {x : Locals} {key : Str}
    {ret : CallbackReturn} (hpre : (progress.of i o.trace).Pre srv (.callback cb x (.entry key)))
    (hperf : Performs srv i o.shared (.callback cb x (.entry key)) ret s) :
    Alone i o₀ request conn
      (o.push i (.act (S := Actions) (.callback cb x (.entry key)) ret) s) := by
  obtain ⟨hcb, -, hserves, hfound, -, htorn⟩ := hpre
  have hm := h.serves hserves
  have hfound_same : ((progress.of i o.trace).act (.callback cb x (.entry key)) ret).found =
      (progress.of i o.trace).found := by
    cases cb <;> rfl
  have htorn_same : ((progress.of i o.trace).act (.callback cb x (.entry key)) ret).torn =
      (progress.of i o.trace).torn := by
    cases cb <;> rfl
  have hkeys : ∀ k, k ∈ s.sessions ↔ k ∈ o.shared.sessions := by
    intro k
    constructor
    · intro hk
      rcases performs_new_key hperf hk with hk | ⟨cb', hcb'⟩ | ⟨session, hs, -⟩
      · exact hk
      · cases hcb'
      · cases hs
    · intro hk
      exact performs_keeps_key hperf hk nofun
  obtain ⟨-, rfl⟩ : _ ∧ s = _ := hperf
  refine h.same_ids hkeys (by simp) (by simp) (fun hnone => ?_) hfound_same ?_ ?_ ?_
  · exact absurd (hfound.symm.trans hnone) (by simp)
  · rw [htorn_same]
    exact id
  · rw [htorn_same]
    exact h.torn
  · rw [htorn_same]
    intro hnone hstores
    have hleaves := h.leaves hnone hstores
    have hpresent := h.present key hfound hnone
    obtain ⟨rfl, hold⟩ := h.found key true hfound
    -- the session is not being torn down, so this is a PLAY
    cases cb with
    | setup => exact absurd rfl hcb
    | teardown => exact absurd (hnone.symm.trans (htorn rfl)) (by simp)
    | play =>
        refine Or.inr ⟨hm, hold.mp rfl, x, ret,
          List.mem_append_right _ (List.mem_singleton.mpr rfl), ?_⟩
        show (if sessionId request ∈ o.shared.sessions then _ else _) = _
        rw [if_pos hpresent]
        rcases hleaves with heq | ⟨-, -, x₀, ret₀, -, heq⟩
        · rw [heq]
        · rw [heq, Map.insert_insert]

/-- **One action** of a worker that is alone. -/
theorem Alone.act (h : Alone i o₀ request conn o) (hpre : (progress.of i o.trace).Pre srv e)
    (hperf : Performs srv i o.shared e r s) :
    Alone i o₀ request conn (o.push i (.act (S := Actions) e r) s) := by
  cases e with
  | find key => exact h.find hpre hperf
  | index cb key => exact h.index hpre hperf
  | store session => exact h.store hpre hperf
  | erase key => exact h.erase hpre hperf
  | callback cb x ptr =>
      cases ptr with
      | entry key => exact h.callEntry hpre hperf
      | own session =>
          obtain ⟨rfl, -⟩ := hpre
          obtain ⟨-, rfl⟩ : _ ∧ s = _ := hperf
          exact h.quiet rfl nofun nofun rfl rfl
  | hang => exact hperf.elim
  | lock | unlock | generateId | accept =>
      obtain ⟨-, rfl⟩ : _ ∧ s = _ := hperf
      exact h.quiet rfl nofun nofun rfl rfl
  | auth session | send site x | sendBody site body | close =>
      obtain rfl : s = _ := hperf
      exact h.quiet rfl nofun nofun rfl rfl

theorem Alone.start (i : ι) (o : SObs ι) (request : Request) (conn : Conn)
    (hkeys : ∀ k, k ∈ o.shared.sessions ↔ SetUp o.trace k) :
    Alone i o request conn (o.push i (.enter (.dispatch request conn)) o.shared) := by
  have hprogress : progress.of i (o.push i (.enter (.dispatch request conn)) o.shared).trace =
      { round := (progress.of i o.trace).round + 1, ctl := some (.dispatch request conn) } :=
    Ghost.of_push_self _ _ _ _
  constructor
  · rw [hprogress]
  · intro k
    rw [Obs.push_shared, hkeys k]
    constructor
    · exact fun h => h.push (by simp)
    · intro h
      rcases setUp_concat h with ⟨session, hev, -⟩ | ⟨hlive, -⟩
      · cases hev
      · exact hlive
  · exact fun _ _ => rfl
  · intro key b hfound
    rw [hprogress] at hfound
    cases hfound
  · intro key hfound
    rw [hprogress] at hfound
    cases hfound
  · intro key htorn
    rw [hprogress] at htorn
    cases htorn
  · exact fun _ _ => Or.inl rfl

end

/-- The callbacks among the actions have done what the server's callbacks do. -/
def Behaved (srv : Server) (acts : List (Σ e : Actions.Act, Actions.Ans e)) : Prop :=
  ∀ cb x ptr ret, ⟨.callback cb x ptr, ret⟩ ∈ acts → ∃ session, srv.behaves cb x session ret

theorem Behaved.act {srv : Server} {i : ι} {o : SObs ι} {e : Act} {r : e.Ans} {s : Shared ι}
    (h : Behaved srv (o.acts i)) (hperf : Performs srv i o.shared e r s) :
    Behaved srv ((o.push i (.act (S := Actions) e r) s).acts i) := by
  rw [Obs.acts_push_act_self]
  intro cb x ptr ret hcall
  rcases List.mem_append.mp hcall with hcall | hcall
  · exact h cb x ptr ret hcall
  · cases List.mem_singleton.mp hcall
    obtain ⟨⟨pointee, -, hbehaves⟩, -⟩ := hperf
    exact ⟨pointee, hbehaves⟩

/-- **The run lemma**: what holds when a worker that is alone has handled a request. -/
theorem HandlesAlone.ends {srv : Server} {i : ι} {o o' : SObs ι} {request : Request} {conn : Conn}
    (h : HandlesAlone srv i o request conn o')
    (hkeys : ∀ k, k ∈ o.shared.sessions ↔ SetUp o.trace k) :
    (progress.of i o'.trace).Finished ∧ Alone i o request conn o' ∧ Behaved srv (o'.acts i) := by
  obtain ⟨r, hexec⟩ := h
  have hwalk : Walks srv (fun _ _ => True) (fun t _ => t.Finished)
      ((handle srv).run ⟨request, .ofRequest request, conn⟩)
      (progress.of i (o.push i (.enter (.dispatch request conn)) o.shared).trace) := by
    rw [Ghost.of_push_self]
    exact handle_walks
  have hstart : Behaved srv ((o.push i (.enter (.dispatch request conn)) o.shared).acts i) := by
    rw [Obs.acts_push_enter_self]
    exact fun _ _ _ _ hcall => absurd hcall List.not_mem_nil
  refine Ghost.exec (J := fun o' => Alone i o request conn o' ∧ Behaved srv (o'.acts i)) hexec hwalk
    ⟨Alone.start i o request conn hkeys, hstart⟩ (fun _ _ _ _ _ => trivial) ?_
  intro o₁ e r s hpre _ hperf hJ
  exact ⟨hJ.1.act hpre hperf, hJ.2.act hperf⟩

/-- In a history, the ids in the map are those that are set up. -/
theorem History.keys {srv : Server} {o : SObs ι} (h : History srv o) :
    ∀ k, k ∈ o.shared.sessions ↔ SetUp o.trace k := by
  induction h with
  | start =>
      intro k
      constructor
      · intro hk
        simp at hk
      · rintro ⟨before, l, since, hnil, -⟩
        simp at hnil
  | handle _ hhandle ih => exact (hhandle.ends ih).2.1.keys

/-- **The life of a session.** After any history, a PLAY or TEARDOWN is answered 454 if and only if
its session is not one that a SETUP has stored and no TEARDOWN has erased since; and a request that
does not store a session and is no TEARDOWN of such a session leaves the map as it was, but for what
the callback of a PLAY leaves at its entry. -/
theorem lifecycle (srv : Server) (h454 : No454 srv) (o o' : SObs ι) (hhistory : History srv o)
    (i : ι) (request : Request) (conn : Conn) (hhandle : HandlesAlone srv i o request conn o')
    (hsends : SendsSucceed (o'.acts i)) :
    (UsesSession request →
      (Answered454 (o'.acts i) ↔ ¬ SetUp o.trace (sessionId request))) ∧
    (¬ Stores (o'.acts i) →
      (request.method = str "TEARDOWN" → ¬ SetUp o.trace (sessionId request)) →
      Leaves request (o'.acts i) o.shared.sessions o'.shared.sessions) := by
  obtain ⟨hfinished, halone, hbehaved⟩ := hhandle.ends hhistory.keys
  constructor
  · intro huse
    rcases hfinished request conn halone.ctl huse with ⟨hfound, h200, -⟩ | ⟨hfound, sent, hanswer⟩
    · -- the session was found, so there is no answer 454
      have hlive := (hhistory.keys _).mp ((halone.found _ _ hfound).2.mp rfl)
      refine ⟨fun hanswered => ?_, fun hdead => absurd hlive hdead⟩
      rcases hanswered with ⟨site, x, hsend, hstatus⟩ | ⟨cb, x, ptr, ret, hcall, head, hhead, his⟩
      · exact absurd rfl (h200 _ (mem_sends.mpr ⟨site, x, hstatus, hsend⟩))
      · obtain ⟨session, hbehaves⟩ := hbehaved cb x ptr ret hcall
        exact absurd his (h454 cb x session ret hbehaves head hhead)
    · have hdead : ¬ SetUp o.trace (sessionId request) := fun hlive =>
        absurd ((halone.found _ _ hfound).2.mpr ((hhistory.keys _).mpr hlive)) (by simp)
      refine ⟨fun _ => hdead, fun _ => Or.inl ?_⟩
      have hmem : (454, sent) ∈ (progress.of i o'.trace).sends := by
        rw [hanswer]
        exact List.mem_singleton.mpr rfl
      obtain ⟨site, x, hstatus, hsend⟩ := mem_sends.mp hmem
      obtain rfl : sent = true := hsends _ hsend
      exact ⟨site, x, hsend, hstatus⟩
  · intro hstores hteardown
    refine halone.leaves ?_ hstores
    by_contra htorn
    obtain ⟨key, htorn⟩ := Option.ne_none_iff_exists'.mp htorn
    obtain ⟨hfound, hm⟩ := halone.torn key htorn
    obtain ⟨rfl, hold⟩ := halone.found key true hfound
    exact hteardown hm ((hhistory.keys _).mp (hold.mp rfl))

/-! ### Two histories -/

/-- A server whose play callback writes a user into the session. -/
def namingServer : Server where
  playCallback := true
  behaves _ x session ret := ret = { vars := x, session := { session with user := str "u" } }

/-- `namingServer` handles one request, with a socket that takes every answer. -/
def serve (o : SObs Unit) (request : Request) : Option (SObs Unit) :=
  (alone (answerCalls namingServer
      (fun _ x session => { vars := x, session := { session with user := str "u" } })
      { ok := true }) ()
    ((handle namingServer).run ⟨request, .ofRequest request, .ofString ""⟩)
    (o.push () (.enter (.dispatch request (.ofString ""))) o.shared)).map Prod.fst

theorem serve_handles {o o' : SObs Unit} {request : Request} (h : serve o request = some o') :
    HandlesAlone namingServer () o request (.ofString "") o' := by
  obtain ⟨⟨o₁, r⟩, halone, rfl⟩ := Option.map_eq_some_iff.mp h
  exact ⟨r, alone_sound (answerCalls_sound (fun _ _ _ => rfl) _) halone⟩

theorem namingServer_no454 : No454 namingServer := by
  intro cb x session ret hret head hhead
  obtain rfl : ret = _ := hret
  exact absurd hhead List.not_mem_nil

def setupRequest : Request :=
  { method := str "SETUP", url := str "diantp://a/",
    headers := (∅ : Headers).insert (str "Transport") (str "TCP") }

/-- A request for the session with the id `00`. -/
def sessionRequest (method : String) : Request :=
  { method := str method,
    headers := ((∅ : Headers).insert (str "CSeq") (str "1")).insert (str "Session") (str "00") }

/-- `lifecycle` at a PLAY after the TEARDOWN of its session: it is answered 454. -/
theorem lifecycle_play : ∃ o o' : SObs Unit, History namingServer o ∧
    HandlesAlone namingServer () o (sessionRequest "PLAY") (.ofString "") o' ∧
    Answered454 (o'.acts ()) := by
  have hrun : ((serve ⟨[], {}⟩ setupRequest).bind fun o₁ =>
      (serve o₁ (sessionRequest "TEARDOWN")).bind fun o₂ =>
        (serve o₂ (sessionRequest "PLAY")).map fun o₃ =>
          decide (str "00" ∉ o₂.shared.sessions ∧ ∀ a ∈ o₃.acts (), sendSucceeds a = true)) =
      some true := by decide +kernel
  obtain ⟨o₁, h₁, hrun⟩ := Option.bind_eq_some_iff.mp hrun
  obtain ⟨o₂, h₂, hrun⟩ := Option.bind_eq_some_iff.mp hrun
  obtain ⟨o₃, h₃, hrun⟩ := Option.map_eq_some_iff.mp hrun
  obtain ⟨hgone, hsends⟩ := of_decide_eq_true hrun
  have hhistory : History namingServer o₂ :=
    .handle (.handle .start (serve_handles h₁)) (serve_handles h₂)
  refine ⟨o₂, o₃, hhistory, serve_handles h₃, ?_⟩
  refine ((lifecycle namingServer namingServer_no454 o₂ o₃ hhistory () _ _ (serve_handles h₃)
    hsends).1 (Or.inr rfl)).mpr fun hlive => hgone ?_
  exact (hhistory.keys _).mpr hlive

/-- A PLAY whose callback changes the session changes the map, although it neither stores nor tears
down a session, and the callback neither throws nor changes the session id. -/
theorem play_changes : ∃ o o' : SObs Unit, KeepsIds namingServer ∧ No454 namingServer ∧
    (∀ cb x session ret, namingServer.behaves cb x session ret → ret.thrown = none) ∧
    History namingServer o ∧
    HandlesAlone namingServer () o (sessionRequest "PLAY") (.ofString "") o' ∧
    SendsSucceed (o'.acts ()) ∧ ¬ Stores (o'.acts ()) ∧
    o'.shared.sessions ≠ o.shared.sessions := by
  have hrun : ((serve ⟨[], {}⟩ setupRequest).bind fun o₁ =>
      (serve o₁ (sessionRequest "PLAY")).map fun o₂ =>
        decide ((∀ a ∈ o₂.acts (), sendSucceeds a = true) ∧ (¬ ∃ a ∈ o₂.acts (), isStore a = true) ∧
          o₂.shared.sessions[str "00"]? ≠ o₁.shared.sessions[str "00"]?)) = some true := by
    decide +kernel
  obtain ⟨o₁, h₁, hrun⟩ := Option.bind_eq_some_iff.mp hrun
  obtain ⟨o₂, h₂, hrun⟩ := Option.map_eq_some_iff.mp hrun
  obtain ⟨hsends, hstores, hne⟩ := of_decide_eq_true hrun
  refine ⟨o₁, o₂, ?_, namingServer_no454, ?_, .handle .start (serve_handles h₁), serve_handles h₂,
    hsends, hstores, ?_⟩
  · intro cb x session ret hret
    obtain rfl : ret = _ := hret
    rfl
  · intro cb x session ret hret
    obtain rfl : ret = _ := hret
    rfl
  · intro heq
    exact hne (by rw [heq])

end DianProtocol.Cpp
