import DianProtocol.Lib.Ghost
import DianProtocol.Cpp.Start

set_option autoImplicit false

/-! # What a worker knows from its own events

`Progress` is what a worker has done since it entered its present round: the session it has looked
up, the reference it has taken into `sessions`, the session id it has chosen, the answers it has
sent. `Progress.Pre` says of each action of `_handle` what the worker has done before it, whatever
the other workers do and whatever the actions answer; `handle_meets` proves it by one walk through
the code.
-/

namespace DianProtocol.Cpp

open Concurrent

/-! ## Progress -/

/-- What a worker has done in its present round. -/
structure Progress where
  /-- how many rounds it has entered -/
  round : Nat := 0
  ctl : Option Ctl := none
  /-- the key it has looked up, and whether it was there -/
  found : Option (Str × Bool) := none
  /-- the reference into `sessions` that it has taken for a callback that has not run yet -/
  pointer : Option (Callback × Str) := none
  /-- the session it tears down -/
  torn : Option Str := none
  /-- the id it has chosen for a session that it has not stored yet -/
  pending : Option Str := none
  /-- the status of each answer it has sent, and whether the socket took it -/
  sends : List (Int × Bool) := []

/-- The progress after an action. A SETUP gives its id up when its callback throws, and when it
answers without having stored a session. -/
def Progress.act (t : Progress) : (e : Act) → e.Ans → Progress
  | .generateId, id => { t with pending := some id }
  | .find key, found => { t with found := some (key, found) }
  | .index cb key, _ =>
      { t with pointer := some (cb, key), torn := if cb = .teardown then some key else t.torn }
  | .store _, _ => { t with pending := none }
  | .callback .setup _ _, ret =>
      { t with pending := if ret.thrown.isNone then some ret.session.id else none }
  | .callback _ _ _, _ => { t with pointer := none }
  | .send _ x, sent => { t with pending := none, sends := t.sends ++ [(x.response.status, sent)] }
  | _, _ => t

@[simp] theorem Progress.act_round (t : Progress) (e : Act) (r : e.Ans) :
    (t.act e r).round = t.round := by
  cases e with
  | callback cb x ptr => cases cb <;> rfl
  | _ => rfl

@[simp] theorem Progress.act_ctl (t : Progress) (e : Act) (r : e.Ans) :
    (t.act e r).ctl = t.ctl := by
  cases e with
  | callback cb x ptr => cases cb <;> rfl
  | _ => rfl

/-- The ghost state of a worker. -/
def progress : Ghost Actions Ctl Progress where
  init := {}
  act := Progress.act
  enter t l := { round := t.round + 1, ctl := some l }

/-- The worker is in `_handle` with a request that `cb` belongs to. -/
def Progress.Serves (t : Progress) (cb : Callback) : Prop :=
  ∃ request conn, t.ctl = some (.dispatch request conn) ∧ request.method = cb.method

/-- The callback is not `nullptr`. -/
def Server.isSet (srv : Server) : Callback → Bool
  | .setup => srv.setupCallback
  | .play => srv.playCallback
  | .teardown => srv.teardownCallback

/-- A PLAY or TEARDOWN is answered 454 when its session has not been found, and otherwise with
another status; a TEARDOWN with 200. -/
def Progress.Answers (t : Progress) (request : Request) (status : Int) : Prop :=
  if status = 454 then t.found = some (sessionId request, false)
  else t.found = some (sessionId request, true) ∧
    (request.method = str "TEARDOWN" → status = 200 ∧ t.torn = some (sessionId request))

/-- What a worker has done before it performs an action. -/
def Progress.Pre (srv : Server) (t : Progress) : Act → Prop
  | .find key => t.found = none ∧ ∃ request conn, t.ctl = some (.dispatch request conn) ∧
      UsesSession request ∧ key = sessionId request
  | .index cb key => t.Serves cb ∧ t.found = some (key, true) ∧ t.torn = none
  | .store session => t.Serves .setup ∧ t.pending = some session.id
  | .erase _ => t.Serves .teardown ∧ ∃ key, t.found = some (key, true) ∧ t.torn = some key
  | .callback cb _ (.own session) => cb = .setup ∧ t.pending = some session.id
  | .callback cb _ (.entry key) =>
      cb ≠ .setup ∧ srv.isSet cb = true ∧ t.Serves cb ∧ t.found = some (key, true) ∧
        t.pointer = some (cb, key) ∧ (cb = .teardown → t.torn = some key)
  | .send _ x => ∀ request conn, t.ctl = some (.dispatch request conn) → UsesSession request →
      t.Answers request x.response.status
  | _ => True

/-- A PLAY or TEARDOWN has looked up the session of its request. When it was not there the worker
has sent the answer 454 and nothing else; when it was, it has not sent this answer, and a TEARDOWN
has torn it down. -/
def Progress.Finished (t : Progress) : Prop :=
  ∀ request conn, t.ctl = some (.dispatch request conn) → UsesSession request →
    (t.found = some (sessionId request, true) ∧ (∀ s ∈ t.sends, s.1 ≠ 454) ∧
        (request.method = str "TEARDOWN" → t.torn = some (sessionId request))) ∨
      (t.found = some (sessionId request, false) ∧ ∃ sent, t.sends = [(454, sent)])

/-! ## The walk through `_handle` -/

section

variable {answers : (e : Act) → e.Ans → Prop} {srv : Server} {request : Request} {conn : Conn}
  {α β : Type}

/-- `p` performs its actions as `Progress.Pre` says, and ends in `Post`. -/
abbrev Walks (srv : Server) (answers : (e : Act) → e.Ans → Prop) (Post : Progress → α → Prop)
    (p : Prog Actions α) (t : Progress) : Prop :=
  p.Meets (S := Actions) (progress.step answers) (Progress.Pre srv) Post t

/-- What holds before `Response::send` and after it. -/
theorem send_walks {K : Progress → Prop} {site : Site} {x : Locals} {t : Progress} (hK : K t)
    (hpre : ∀ y, y.response.status = x.response.status → t.Pre srv (.send site y))
    (hsend : ∀ y sent, y.response.status = x.response.status → K (t.act (.send site y) sent)) :
    Walks srv answers (fun t _ => K t) ((send site).run x) t := by
  rw [send_run]
  split
  · exact hK
  split
  · refine Ghost.meets_act (hpre x rfl) fun sent _ => ?_
    cases sent with
    | true => exact hsend x true rfl
    | false => exact hsend x false rfl
  · rename_i body hbody
    split
    · exact hK
    · refine Ghost.meets_act (hpre _ rfl) fun sent _ => ?_
      cases sent with
      | true =>
          refine Ghost.meets_act trivial fun thrown _ => ?_
          cases thrown with
          | none => exact hsend _ true rfl
          | some e => exact hsend _ true rfl
      | false => exact hsend _ false rfl

/-- An action, and what comes after it. -/
theorem perform_walks {Post : Progress → Except Exn β × Locals → Prop} {e : Act}
    {f : e.Ans → Handler β} {x : Locals} {t : Progress} (hpre : t.Pre srv e)
    (hf : ∀ r, Walks srv answers Post ((f r).run x) (t.act e r)) :
    Walks srv answers Post ((perform e >>= f).run x) t :=
  Ghost.meets_act hpre fun r _ => hf r

/-! ### Requests that use no session -/

/-- The worker handles a request that is neither a PLAY nor a TEARDOWN. -/
structure Progress.Plain (request : Request) (conn : Conn) (t : Progress) : Prop where
  ctl : t.ctl = some (.dispatch request conn)
  plain : ¬ UsesSession request

theorem Progress.Plain.pre_send {t : Progress} (h : t.Plain request conn) (site : Site)
    (x : Locals) :
    t.Pre srv (.send site x) := by
  intro request' conn' hctl huse
  rw [h.ctl] at hctl
  cases hctl
  exact absurd huse h.plain

theorem Progress.Plain.finished {t : Progress} (h : t.Plain request conn) : t.Finished := by
  intro request' conn' hctl huse
  rw [h.ctl] at hctl
  cases hctl
  exact absurd huse h.plain

theorem Progress.Plain.uses_walks {t : Progress} {m : Handler α} {x : Locals}
    (h : t.Plain request conn) (hm : Exc.Uses (S := Actions) IsSend m) :
    Walks srv answers (fun t _ => t.Plain request conn) (m.run x) t := by
  refine Prog.Meets.of_uses (K := Progress.Plain request conn) ?_ ?_ (hm x) h
  · intro t e hK he
    cases e with
    | send site y => exact hK.pre_send site y
    | sendBody site body => trivial
    | _ => exact he.elim
  · intro t e r t' hK he hstep
    obtain ⟨-, rfl⟩ := hstep
    cases e with
    | send site y => exact ⟨hK.ctl, hK.plain⟩
    | sendBody site body => exact hK
    | _ => exact he.elim

/-- What `authenticate` and `callSetup` leave: the id of the session that they return is the one
chosen. -/
def Chosen (request : Request) (conn : Conn) (t : Progress) :
    Except Exn (Option Session) × Locals → Prop
  | (.ok (some session), _) => t.Plain request conn ∧ t.pending = some session.id
  | _ => t.Plain request conn

theorem unauthorized_walks {x : Locals} {t : Progress} (h : t.Plain request conn) :
    Walks srv answers (Chosen request conn) (unauthorized.run x) t := by
  unfold unauthorized
  rw [setStatus_bind]
  refine Prog.Meets.exc_bind ((h.uses_walks (send_uses _)).mono fun t₁ r h₁ => ?_)
  rcases r with ⟨e | a, x₁⟩
  · exact h₁
  · exact h₁

theorem checkAuth_walks {session : Session} {x : Locals} {t : Progress} (h : t.Plain request conn)
    (hid : t.pending = some session.id) :
    Walks srv answers (Chosen request conn) ((checkAuth srv session).run x) t := by
  unfold checkAuth
  split
  · refine Ghost.meets_act trivial fun r _ => ?_
    rcases r with e | accepted
    · exact h
    · cases accepted with
      | false => exact unauthorized_walks h
      | true => exact ⟨h, hid⟩
  · exact Ghost.meets_act trivial fun r => nomatch r

theorem authenticate_walks {session : Session} {x : Locals} {t : Progress}
    (h : t.Plain request conn) (hid : t.pending = some session.id) :
    Walks srv answers (Chosen request conn) ((authenticate srv session).run x) t := by
  unfold authenticate
  rw [Exc.run_vars_bind]
  split
  · rw [requestHeader_bind, requestHeader_bind]
    split
    · exact checkAuth_walks h hid
    · exact ⟨h, hid⟩
  · split
    · exact unauthorized_walks h
    · exact ⟨h, hid⟩

/-- The setup callback may choose another id. -/
theorem callSetup_walks {session : Session} {x : Locals} {t : Progress} (h : t.Plain request conn)
    (hid : t.pending = some session.id) :
    Walks srv answers
      (fun t r => t.Plain request conn ∧ ∀ ses, r.1 = .ok ses → t.pending = some ses.id)
      ((callSetup srv session).run x) t := by
  unfold callSetup
  split
  · rw [call_run]
    refine Ghost.meets_act ⟨rfl, hid⟩ fun ret _ => ⟨⟨h.ctl, h.plain⟩, fun ses hses => ?_⟩
    rcases hthrown : ret.thrown with - | e
    · rw [hthrown] at hses
      cases hses
      exact if_pos (by rw [hthrown]; rfl)
    · rw [hthrown] at hses
      cases hses
  · refine ⟨h, fun ses hses => ?_⟩
    cases hses
    exact hid

theorem setupSession_walks {session : Session} {x : Locals} {t : Progress}
    (h : t.Plain request conn) (hm : request.method = str "SETUP")
    (hid : t.pending = some session.id) :
    Walks srv answers (fun t _ => t.Finished) ((setupSession srv session).run x) t := by
  unfold setupSession
  rw [requestHeader_bind]
  split
  · exact h.finished
  · rw [requestHeader_bind]
    refine Prog.Meets.exc_bind ((callSetup_walks h ?_).mono fun t₁ r hr => ?_)
    · exact hid
    obtain ⟨h₁, hid₁⟩ := hr
    rcases r with ⟨e | ses, x₁⟩
    · exact h₁.finished
    · refine perform_walks trivial fun _ => ?_
      refine perform_walks ⟨⟨request, conn, h₁.ctl, hm⟩, hid₁ ses rfl⟩ fun _ => ?_
      refine perform_walks trivial fun _ => ?_
      have h₂ : Progress.Plain request conn { t₁ with pending := none } := ⟨h₁.ctl, h₁.plain⟩
      refine Prog.Meets.mono (h₂.uses_walks (m := unlessSended _) ?_) fun t r h => h.finished
      exact unlessSended_uses (Exc.Uses.bind (setStatus_uses _ _) fun _ =>
        Exc.Uses.bind (setHeader_uses _ _) fun _ =>
          Exc.Uses.bind (setHeader_uses _ _) fun _ => send_uses _)

theorem handleSetup_walks {x : Locals} {t : Progress} (h : t.Plain request conn)
    (hm : request.method = str "SETUP") :
    Walks srv answers (fun t _ => t.Finished) ((handleSetup srv).run x) t := by
  unfold handleSetup
  rw [Exc.run_vars_bind]
  split
  · exact h.finished
  · refine perform_walks trivial fun _ => perform_walks trivial fun id =>
      perform_walks trivial fun _ => ?_
    have h₁ : Progress.Plain request conn { t with pending := some id } := ⟨h.ctl, h.plain⟩
    refine Prog.Meets.exc_bind ((authenticate_walks h₁ rfl).mono fun t₂ r h₂ => ?_)
    rcases r with ⟨e | ses, x₂⟩
    · exact h₂.finished
    · cases ses with
      | none => exact h₂.finished
      | some session => exact setupSession_walks h₂.1 hm h₂.2

/-! ### Requests that use a session -/

/-- The worker handles the PLAY or TEARDOWN `request` and has found its session. -/
structure Progress.Found (request : Request) (conn : Conn) (torn : Option Str) (t : Progress) :
    Prop where
  ctl : t.ctl = some (.dispatch request conn)
  found : t.found = some (sessionId request, true)
  torn : t.torn = torn
  sends : ∀ s ∈ t.sends, s.1 ≠ 454

section

variable {torn : Option Str} {x : Locals} {t : Progress}

theorem Progress.Found.finished (h : t.Found request conn torn)
    (htorn : request.method = str "TEARDOWN" → torn = some (sessionId request)) : t.Finished := by
  intro request' conn' hctl _
  rw [h.ctl] at hctl
  cases hctl
  exact Or.inl ⟨h.found, h.sends, fun hm => h.torn.trans (htorn hm)⟩

theorem Progress.Found.pre_send (h : t.Found request conn torn)
    (htorn : request.method = str "TEARDOWN" →
      x.response.status = 200 ∧ torn = some (sessionId request))
    (hstatus : x.response.status ≠ 454) (site : Site) : t.Pre srv (.send site x) := by
  intro request' conn' hctl _
  rw [h.ctl] at hctl
  cases hctl
  unfold Progress.Answers
  rw [if_neg hstatus, h.torn]
  exact ⟨h.found, htorn⟩

/-- An answer other than 454. -/
theorem Progress.Found.send_walks (h : t.Found request conn torn)
    (htorn : request.method = str "TEARDOWN" →
      x.response.status = 200 ∧ torn = some (sessionId request))
    (hstatus : x.response.status ≠ 454) (site : Site) :
    Walks srv answers (fun t _ => t.Found request conn torn) ((send site).run x) t := by
  refine DianProtocol.Cpp.send_walks h (fun y hy => h.pre_send (fun hm => ?_) ?_ site)
    fun y sent hy => ?_
  · rw [hy]
    exact htorn hm
  · rw [hy]
    exact hstatus
  · refine ⟨h.ctl, h.found, h.torn, fun s hs => ?_⟩
    rcases List.mem_append.mp hs with hs | hs
    · exact h.sends s hs
    · rw [List.mem_singleton.mp hs, hy]
      exact hstatus

/-- The callbacks for an entry of `sessions`. -/
theorem Progress.Found.callEntry_walks {isSet : Bool} {cb : Callback} (hcb : cb ≠ .setup)
    (hset : srv.isSet cb = isSet) (h : t.Found request conn torn)
    (hptr : t.pointer = some (cb, sessionId request)) (hm : request.method = cb.method)
    (htorn : cb = .teardown → torn = some (sessionId request)) :
    Walks srv answers (fun t _ => t.Found request conn torn)
      ((callEntry isSet cb (sessionId request)).run x) t := by
  unfold callEntry
  split
  · rename_i hisSet
    refine Prog.Meets.exc_bind ?_
    rw [call_run]
    refine Ghost.meets_act ⟨hcb, hset.trans hisSet, ⟨request, conn, h.ctl, hm⟩, h.found, hptr,
      fun h' => h.torn.trans (htorn h')⟩ fun ret _ => ?_
    have h₁ : Progress.Found request conn torn
        (t.act (.callback cb x (.entry (sessionId request))) ret) :=
      by cases cb <;> exact ⟨h.ctl, h.found, h.torn, h.sends⟩
    cases hthrown : ret.thrown with
    | none => exact h₁
    | some e => exact h₁
  · exact h

theorem sessionNotFound_walks (hctl : t.ctl = some (.dispatch request conn))
    (hfound : t.found = some (sessionId request, false)) (hsends : t.sends = [])
    (hbody : x.response.body = none) (hsended : x.response.sended = false) :
    Walks srv answers (fun t _ => t.Finished) (sessionNotFound.run x) t := by
  have hend : ∀ (t' : Progress) sent, t'.ctl = t.ctl → t'.found = t.found →
      t'.sends = t.sends ++ [(454, sent)] → t'.Finished := by
    intro t' sent hctl' hfound' hsends' request' conn' hctl'' _
    rw [hctl', hctl] at hctl''
    cases hctl''
    refine Or.inr ⟨hfound'.trans hfound, sent, ?_⟩
    rw [hsends', hsends]
    rfl
  rw [sessionNotFound_run hbody hsended]
  refine Ghost.meets_act ?_ fun sent _ => ?_
  · intro request' conn' hctl' _
    rw [hctl] at hctl'
    cases hctl'
    exact (if_pos rfl).mpr hfound
  cases sent with
  | true => exact Ghost.meets_act trivial fun _ _ => hend _ true rfl rfl rfl
  | false => exact hend _ false rfl rfl rfl

end

theorem handleTeardown_walks {n : Nat} (hm : request.method = str "TEARDOWN") :
    Walks srv answers (fun t _ => t.Finished)
      ((handleTeardown srv).run ⟨request, .ofRequest request, conn⟩)
      { round := n, ctl := some (.dispatch request conn) } := by
  unfold handleTeardown
  rw [requestHeader_bind]
  refine perform_walks trivial fun _ => ?_
  refine perform_walks ⟨rfl, request, conn, rfl, Or.inl hm, rfl⟩ fun found => ?_
  cases found with
  | false => exact sessionNotFound_walks rfl rfl rfl rfl rfl
  | true =>
      refine perform_walks ⟨⟨request, conn, rfl, hm⟩, rfl, rfl⟩ fun _ =>
        perform_walks trivial fun _ => ?_
      have h : Progress.Found request conn (some (sessionId request))
          { round := n, ctl := some (.dispatch request conn),
            found := some (sessionId request, true),
            pointer := some (.teardown, sessionId request), torn := some (sessionId request) } :=
        ⟨rfl, rfl, rfl, by simp⟩
      refine Prog.Meets.exc_bind ((h.callEntry_walks (by simp) rfl rfl hm fun _ => rfl).mono
        fun t₁ r h₁ => ?_)
      rcases r with ⟨e | a, x₁⟩
      · exact h₁.finished fun _ => rfl
      refine Prog.Meets.exc_bind (Prog.Meets.mono (P := fun t _ =>
        t.Found request conn (some (sessionId request))) ?_ fun t₂ r h₂ => ?_)
      · -- the answer, unless the callback has sent one
        unfold unlessSended
        rw [Exc.run_vars_bind]
        split
        · exact h₁
        · rw [setStatus_bind, requestHeader_bind, setHeader_bind]
          exact h₁.send_walks (fun _ => ⟨rfl, rfl⟩) (by simp) _
      rcases r with ⟨e | a, x₂⟩
      · exact h₂.finished fun _ => rfl
      · refine perform_walks trivial fun _ => ?_
        rw [requestHeader_bind]
        refine perform_walks ⟨⟨request, conn, h₂.ctl, hm⟩, _, h₂.found, h₂.torn⟩ fun _ => ?_
        exact Ghost.meets_act trivial fun _ _ => h₂.finished fun _ => rfl

theorem playSession_walks {x : Locals} {t : Progress} (hm : request.method = str "PLAY")
    (h : t.Found request conn none) :
    Walks srv answers (fun t _ => t.Finished) ((playSession srv (sessionId request)).run x) t := by
  have hplay : request.method = str "TEARDOWN" → False := by
    rw [hm]
    decide
  unfold playSession
  rw [Exc.run_vars_bind]
  split
  · refine perform_walks trivial fun _ => ?_
    refine perform_walks ⟨⟨request, conn, h.ctl, hm⟩, h.found, h.torn⟩ fun _ => ?_
    refine perform_walks trivial fun _ => ?_
    have h₁ : Progress.Found request conn none
        { t with pointer := some (.play, sessionId request) } :=
      ⟨h.ctl, h.found, h.torn, h.sends⟩
    rw [requestHeader_bind, setHeader_bind, setHeader_bind]
    refine Prog.Meets.exc_bind ((h₁.callEntry_walks (by simp) rfl rfl hm nofun).mono
      fun t₂ r h₂ => ?_)
    rcases r with ⟨e | a, x₂⟩
    · exact h₂.finished fun hm => (hplay hm).elim
    · dsimp only
      unfold unlessSended
      rw [Exc.run_vars_bind]
      split
      · exact h₂.finished fun hm => (hplay hm).elim
      · rw [setStatus_bind, requestHeader_bind, setHeader_bind, setHeader_bind, Exc.run_vars_bind,
          setHeader_bind]
        refine Prog.Meets.mono (h₂.send_walks (fun hm => (hplay hm).elim) ?_ _) fun t _ h =>
          h.finished fun hm => (hplay hm).elim
        simp
  · rw [setStatus_bind]
    refine Prog.Meets.mono (h.send_walks (fun hm => (hplay hm).elim) ?_ _) fun t _ h =>
          h.finished fun hm => (hplay hm).elim
    simp

theorem handlePlay_walks {n : Nat} (hm : request.method = str "PLAY") :
    Walks srv answers (fun t _ => t.Finished)
      ((handlePlay srv).run ⟨request, .ofRequest request, conn⟩)
      { round := n, ctl := some (.dispatch request conn) } := by
  unfold handlePlay
  refine perform_walks trivial fun _ => ?_
  rw [requestHeader_bind]
  refine perform_walks ⟨rfl, request, conn, rfl, Or.inr hm, rfl⟩ fun found => ?_
  cases found with
  | false => exact sessionNotFound_walks rfl rfl rfl rfl rfl
  | true =>
      refine perform_walks trivial fun _ => ?_
      exact playSession_walks hm ⟨rfl, rfl, rfl, fun _ hs => nomatch hs⟩

/-- **What `_handle` does, as the worker sees it.** -/
theorem handle_walks {n : Nat} : Walks srv answers (fun t _ => t.Finished)
    ((handle srv).run ⟨request, .ofRequest request, conn⟩)
    { round := n, ctl := some (.dispatch request conn) } := by
  have hplain : ∀ m : Handler Unit, Exc.Uses (S := Actions) IsSend m → ¬ UsesSession request →
      Walks srv answers (fun t _ => t.Finished) (m.run ⟨request, .ofRequest request, conn⟩)
        { round := n, ctl := some (.dispatch request conn) } := by
    intro m hm huse
    have h : Progress.Plain request conn { round := n, ctl := some (.dispatch request conn) } :=
      ⟨rfl, huse⟩
    exact (h.uses_walks hm).mono fun t _ h => h.finished
  unfold handle
  rw [Exc.run_vars_bind]
  dsimp only
  split
  · rename_i hoptions
    exact hplain _ handleOptions_uses (not_usesSession hoptions (by decide) (by decide))
  split
  · rename_i hsetup
    exact handleSetup_walks ⟨rfl, not_usesSession hsetup (by decide) (by decide)⟩ hsetup
  split
  · exact handleTeardown_walks (by assumption)
  rename_i hteardown
  split
  · exact handlePlay_walks (by assumption)
  · rename_i hplay
    refine hplain _ ?_ fun huse => huse.elim hteardown hplay
    exact Exc.Uses.bind (setStatus_uses _ _) fun _ => Exc.Uses.bind (setHeader_uses _ _) fun _ =>
      send_uses _

/-- A round that sends and closes only, from a control state in which no request is handled. -/
theorem replyError_walks {status : Int} {reason : String} {x : Locals} {t : Progress}
    (h : ∀ request conn, t.ctl ≠ some (.dispatch request conn)) :
    Walks srv answers (fun t _ => t.Finished)
      (((replyError status reason).run x).bind afterReply) t := by
  let K := fun t : Progress => ∀ request conn, t.ctl ≠ some (.dispatch request conn)
  have hfinished : ∀ t, K t → t.Finished := fun t hK request conn hctl _ =>
    absurd hctl (hK request conn)
  refine Prog.Meets.bind (Prog.Meets.mono (P := fun t _ => K t) ?_ fun t r hK => ?_)
  · refine Prog.Meets.of_uses (K := K) ?_ ?_ (replyError_uses status reason x) h
    · intro t e hK he
      rcases he with he | rfl
      · cases e with
        | send site y => exact fun request conn hctl => absurd hctl (hK request conn)
        | sendBody site body => trivial
        | _ => exact he.elim
      · trivial
    · intro t e r t' hK he hstep
      obtain ⟨-, rfl⟩ := hstep
      rcases he with he | rfl
      · cases e with
        | send site y => exact hK
        | sendBody site body => exact hK
        | _ => exact he.elim
      · exact hK
  · rcases r with ⟨e | a, x'⟩
    · exact hfinished t hK
    · exact hfinished t hK

end

/-! ## Runs -/

section

variable {ι : Type} [DecidableEq ι] {srv : Server} {answers : (e : Act) → e.Ans → Prop}

theorem rounds_walk (n : Nat) (l : Ctl) (p : Prog Actions Ctl)
    (hround : round srv l = some p) :
    Walks srv answers (fun t _ => t.Finished) p { round := n, ctl := some l } := by
  have hfinished : ∀ l, (∀ request conn, l ≠ .dispatch request conn) →
      ({ round := n, ctl := some l } : Progress).Finished := by
    intro l hl request conn hctl _
    cases hctl
    exact absurd rfl (hl request conn)
  cases l with
  | accept =>
      cases hround
      refine Ghost.meets_act trivial fun r _ => ?_
      rcases r with e | conn
      · exact hfinished _ (by simp)
      · exact hfinished _ (by simp)
  | serve conn =>
      obtain rfl := Option.some.inj hround
      dsimp only
      split
      · exact hfinished _ (by simp)
      · exact hfinished _ (by simp)
      · exact hfinished _ (by simp)
      · exact Ghost.meets_act trivial fun r => nomatch r
  | dispatch request conn =>
      cases hround
      refine Prog.Meets.bind (handle_walks.mono fun t r h => ?_)
      obtain ⟨l, hl, -⟩ := afterHandle_ret r
      rw [hl]
      exact h
  | badRequest request conn =>
      cases hround
      exact replyError_walks (by simp)
  | serverError x =>
      cases hround
      exact replyError_walks (by simp)
  | terminate e => cases hround

theorem progress_ctl (i : ι) (trace : List (Label Actions ι (Shared ι) Ctl)) :
    (progress.of i trace).ctl = ctlOf i trace := by
  induction trace using List.reverseRecOn with
  | nil => rfl
  | append_singleton trace l ih =>
      rw [Ghost.of_concat, ctlOf, List.foldl_concat, ← ctlOf, ← ih]
      split
      · cases l.event with
        | act e r => exact Progress.act_ctl _ _ _
        | enter ctl => rfl
      · rfl

/-- What every worker has done, in every run. -/
theorem reach_walks {w : World Actions ι (Shared ι) Ctl} (h : Reach (system srv) initial w)
    (i : ι) :
    Walks srv (fun _ _ => True) (fun t _ => t.Finished) (w.prog i) (progress.of i w.obs.trace) := by
  refine Ghost.meets_reach (fun t l p _ hround => rounds_walk _ l p hround) (fun i => ?_) h
    (fun _ _ _ _ _ => trivial) i
  exact fun request conn hctl => nomatch hctl

/-- **What a worker has done before an action**, in every run. -/
theorem pre_reach {w : World Actions ι (Shared ι) Ctl} (h : Reach (system srv) initial w) {i : ι}
    {e : Act} {k : e.Ans → Prog Actions Ctl} (hprog : w.prog i = .act e k) :
    (progress.of i w.obs.trace).Pre srv e := by
  have hwalk := reach_walks h i
  rw [hprog] at hwalk
  exact hwalk.1

/-- If `l` is an action, its worker has done before what `Progress.Pre` says. -/
def Prepared (srv : Server) (before : List (Label Actions ι (Shared ι) Ctl))
    (l : Label Actions ι (Shared ι) Ctl) : Prop :=
  ∀ e r, l.event = .act (S := Actions) e r → (progress.of l.who before).Pre srv e

theorem prepared_throughout {w : World Actions ι (Shared ι) Ctl}
    (h : Reach (system srv) initial w) :
    Throughout (Prepared srv) w.obs.trace := by
  refine h.invariant (J := fun w => Throughout (Prepared srv) w.obs.trace) throughout_nil
    fun w₁ w₂ hreach ih hstep => ?_
  cases hstep with
  | act hp hperf =>
      refine throughout_concat.mpr ⟨ih, fun e r hev => ?_⟩
      cases hev
      exact pre_reach hreach hp
  | enter hp hl =>
      refine throughout_concat.mpr ⟨ih, fun e r hev => ?_⟩
      cases hev

end

end DianProtocol.Cpp
