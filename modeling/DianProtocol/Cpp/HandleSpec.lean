import DianProtocol.Cpp.Outline

set_option autoImplicit false

/-! # The specification of `_handle`

`handle_safe`: a worker that handles a request performs every action under the circumstances of the
outline, whatever the other workers do in between, and holds `sessions_lock` afterwards exactly when
the answer 454 could not be sent. There is one rule for each action, named after it, and one lemma
for each handler, which follows the rules through the handler's code.

`Idle` and `Locked` are the two assertions that hold between the actions: outside and inside of the
critical sections.
-/

namespace DianProtocol.Cpp

open Concurrent

variable {ι : Type} [DecidableEq ι]

/-! ## The actions of the helper functions -/

open Exc (vars assign throw)

/-- The actions of `Response::send`. -/
def IsSend : Act → Prop
  | .send _ _ => True
  | .sendBody _ _ => True
  | _ => False

theorem setHeader_uses {allowed : Act → Prop} (key value : Str) :
    Exc.Uses (S := Actions) allowed (setHeader key value) := Exc.Uses.assign _

theorem setStatus_uses {allowed : Act → Prop} (status : Int) (reason : String) :
    Exc.Uses (S := Actions) allowed (setStatus status reason) := Exc.Uses.assign _

theorem requestHeader_uses {allowed : Act → Prop} (key : Str) :
    Exc.Uses (S := Actions) allowed (requestHeader key) :=
  Exc.Uses.bind Exc.Uses.vars fun _ =>
    Exc.Uses.bind (Exc.Uses.assign _) fun _ => Exc.Uses.pure _

theorem setContentLength_uses {allowed : Act → Prop} :
    Exc.Uses (S := Actions) allowed setContentLength := by
  refine Exc.Uses.bind Exc.Uses.vars fun x => ?_
  split
  · exact Exc.Uses.pure _
  · split
    · exact Exc.Uses.throw _
    · exact setHeader_uses _ _

theorem transmit_uses (site : Site) (body : Option StreamReader) :
    Exc.Uses (S := Actions) IsSend (transmit site body) := by
  cases body with
  | none => exact Exc.Uses.pure _
  | some body =>
      refine Exc.Uses.bind (Exc.Uses.perform (S := Actions) (e := .sendBody site body) trivial) ?_
      intro r
      split
      · exact Exc.Uses.pure _
      · exact Exc.Uses.throw _

theorem send_uses (site : Site) : Exc.Uses (S := Actions) IsSend (send site) := by
  refine Exc.Uses.bind Exc.Uses.vars fun x => ?_
  split
  · exact Exc.Uses.throw _
  · refine Exc.Uses.bind setContentLength_uses fun _ => Exc.Uses.bind Exc.Uses.vars fun x => ?_
    refine Exc.Uses.bind (Exc.Uses.perform (S := Actions) (e := .send site x) trivial) ?_
    intro sent
    split
    · exact Exc.Uses.bind (transmit_uses site _) fun _ => Exc.Uses.assign _
    · exact Exc.Uses.throw _

/-- `Response::send` as a program: the head, and with it the body when there is one. -/
theorem send_run (site : Site) (x : Locals) :
    (send site).run x =
      if x.response.sended then .ret (.error (.runtime_error "Response already sended"), x)
      else match x.response.body with
        | none => .act (S := Actions) (.send site x) fun sent : Bool =>
            if sent then .ret (.ok (), { x with response := { x.response with sended := true } })
            else .ret (.error (.SendError (-1)), x)
        | some body => match body.maxlen with
          | none =>
              .ret (.error (.NotImplementError "Thunked Transport Not Implemented"), x)
          | some con_len =>
              let x' := { x with response := { x.response with
                headers := x.response.headers.insert (str "Content-Length") (to_string con_len) } }
              .act (S := Actions) (.send site x') fun sent : Bool =>
                if sent then .act (S := Actions) (.sendBody site body) fun thrown : Option Exn =>
                  match thrown with
                  | none =>
                      .ret (.ok (), { x' with response := { x'.response with sended := true } })
                  | some e => .ret (.error e, x')
                else .ret (.error (.SendError (-1)), x') := by
  rcases x with ⟨request, ⟨base, status, reason, body, sended⟩, conn⟩
  cases sended with
  | true => rfl
  | false =>
      cases body with
      | none =>
          refine congrArg (Prog.act (S := Actions) _) (funext fun sent => ?_)
          cases sent with
          | true => rfl
          | false => rfl
      | some body =>
          rcases body with ⟨maxlen, reads⟩
          cases maxlen with
          | none => rfl
          | some con_len =>
              refine congrArg (Prog.act (S := Actions) _) (funext fun sent => ?_)
              cases sent with
              | true =>
                  refine congrArg (Prog.act (S := Actions) _) (funext fun thrown => ?_)
                  cases thrown with
                  | none => rfl
                  | some e => rfl
              | false => rfl

theorem unlessSended_uses {allowed : Act → Prop} {m : Handler Unit}
    (h : Exc.Uses (S := Actions) allowed m) :
    Exc.Uses (S := Actions) allowed (unlessSended m) := by
  refine Exc.Uses.bind Exc.Uses.vars fun x => ?_
  split
  · exact Exc.Uses.pure _
  · exact h

theorem call_uses {allowed : Act → Prop} {cb : Callback} {ptr : SessionPtr}
    (h : ∀ x, allowed (.callback cb x ptr)) : Exc.Uses (S := Actions) allowed (call cb ptr) := by
  refine Exc.Uses.bind Exc.Uses.vars fun x => ?_
  refine Exc.Uses.bind (Exc.Uses.perform (S := Actions) (e := .callback cb x ptr) (h x))
    fun ret => ?_
  refine Exc.Uses.bind (Exc.Uses.assign _) fun _ => ?_
  split
  · exact Exc.Uses.pure _
  · exact Exc.Uses.throw _

theorem callEntry_uses {allowed : Act → Prop} {isSet : Bool} {cb : Callback} {key : Str}
    (h : ∀ x, allowed (.callback cb x (.entry key))) :
    Exc.Uses (S := Actions) allowed (callEntry isSet cb key) := by
  unfold callEntry
  split
  · exact Exc.Uses.bind (call_uses h) fun _ => Exc.Uses.pure _
  · exact Exc.Uses.pure _

theorem handleOptions_uses : Exc.Uses (S := Actions) IsSend handleOptions := by
  refine Exc.Uses.bind (setStatus_uses _ _) fun _ => Exc.Uses.bind (setHeader_uses _ _) fun _ =>
    Exc.Uses.bind Exc.Uses.vars fun x => ?_
  split
  · exact Exc.Uses.bind (setStatus_uses _ _) fun _ => send_uses _
  · exact send_uses _

/-! ## Handling a request -/

theorem not_usesSession {request : Request} {method : Str} (hm : request.method = method)
    (hteardown : method ≠ str "TEARDOWN") (hplay : method ≠ str "PLAY") :
    ¬ UsesSession request := by
  rintro (ht | hp)
  · exact hteardown (hm.symm.trans ht)
  · exact hplay (hm.symm.trans hp)

/-- The exit of `_handle` that leaves the lock held: the session of a TEARDOWN or PLAY is not in
the map, and the socket refuses the answer 454. -/
def Leaks (request : Request) (acts : List (Σ e : Actions.Act, Actions.Ans e)) : Prop :=
  UsesSession request ∧ (∃ key, ⟨.find key, false⟩ ∈ acts) ∧
    ∃ x, ⟨.send .handle x, false⟩ ∈ acts

/-- The lock is held exactly after a leaking exit; `held` is the case that the worker held it
from the start. -/
def Released (held : Prop) (i : ι) (request : Request) (o : SObs ι) : Prop :=
  held ∨ (o.shared.mutex = some i ↔ Leaks request (o.acts i))

/-- A request that uses a session uses one of `ids`. -/
def Covers (request : Request) (ids : List Str) : Prop :=
  UsesSession request → sessionId request ∈ ids

/-- Worker `i` handles `request`, has found every session it looked for, and knows that the
sessions `ids` are authorized. -/
structure Handling (gate : Prop) (i : ι) (request : Request) (conn : Conn) (ids : List Str)
    (o : SObs ι) : Prop where
  ctl : o.ctl i = some (.dispatch request conn)
  found : ∀ key, ⟨.find key, false⟩ ∉ o.acts i
  auth : gate → ∀ id ∈ ids, Authorized o.trace id

/-- `Handling` outside of the critical sections. -/
structure Idle (held gate : Prop) (i : ι) (request : Request) (conn : Conn) (ids : List Str)
    (o : SObs ι) : Prop extends Handling gate i request conn ids o where
  free : held ∨ o.shared.mutex ≠ some i

/-- `Handling` inside a critical section. -/
structure Locked (gate : Prop) (i : ι) (request : Request) (conn : Conn) (ids : List Str)
    (o : SObs ι) : Prop extends Handling gate i request conn ids o where
  mutex : o.shared.mutex = some i

section

variable {srv : Server} {gate held : Prop} {i : ι} {request : Request} {conn : Conn}
  {ids : List Str} {o o' : SObs ι} {α : Type} {Post : SObs ι → α → Prop}

theorem Handling.rely (h : Handling gate i request conn ids o) (hr : Rely i o o') :
    Handling gate i request conn ids o' where
  ctl := hr.ctl.trans h.ctl
  found := by
    rw [hr.acts]
    exact h.found
  auth := fun hg id hid => (h.auth hg id hid).mono hr.trace

theorem Handling.push (h : Handling gate i request conn ids o) {e : Act} {r : e.Ans} {s : Shared ι}
    (hne : ∀ key, e ≠ .find key) :
    Handling gate i request conn ids (o.push i (.act (S := Actions) e r) s) where
  ctl := by rw [Obs.ctl_push_act]; exact h.ctl
  found := by
    intro key hmem
    rw [Obs.acts_push_act_self] at hmem
    rcases List.mem_append.mp hmem with hmem | hmem
    · exact h.found key hmem
    · exact hne key (Sigma.mk.inj (List.mem_singleton.mp hmem)).1.symm
  auth := fun hg id hid => (h.auth hg id hid).mono (List.prefix_append _ _)

theorem Idle.rely (h : Idle held gate i request conn ids o) (hr : Rely i o o') :
    Idle held gate i request conn ids o' :=
  ⟨h.toHandling.rely hr, h.free.imp_right fun hf hm => hf (hr.mutex.mp hm)⟩

theorem Locked.rely (h : Locked gate i request conn ids o) (hr : Rely i o o') :
    Locked gate i request conn ids o' :=
  ⟨h.toHandling.rely hr, hr.mutex.mpr h.mutex⟩

/-- Outside of the critical sections nothing has leaked. -/
theorem Idle.released (h : Idle held gate i request conn ids o) : Released held i request o := by
  rcases h.free with hheld | hfree
  · exact Or.inl hheld
  · refine Or.inr ⟨fun hm => absurd hm hfree, ?_⟩
    rintro ⟨-, ⟨key, hkey⟩, -⟩
    exact absurd hkey (h.found key)

theorem Handling.serves (h : Handling gate i request conn ids o) {cb : Callback}
    (hm : request.method = cb.method) : Serves i o cb := ⟨request, conn, h.ctl, hm⟩

theorem Handling.pre_send (h : Handling gate i request conn ids o) (hcov : Covers request ids)
    (site : Site) (x : Locals) : Pre gate i o (.send site x) := by
  intro _ request' conn' hctl huse hg
  rw [h.ctl] at hctl
  cases hctl
  exact h.auth hg _ (hcov huse)

/-! ### Rules for the actions -/

/-- The actions outside of the critical sections that leave the mutex alone. -/
def Quiet : Act → Prop
  | .callback _ _ _ => True
  | .send _ _ => True
  | .sendBody _ _ => True
  | .auth _ => True
  | .hang => True
  | _ => False

theorem Idle.quiet_safe {allowed : Act → Prop} {p : Prog Actions α}
    (h : Idle held gate i request conn ids o) (hp : p.Uses allowed)
    (hquiet : ∀ e, allowed e → Quiet e)
    (hpre : ∀ o e, Handling gate i request conn ids o → allowed e → Pre gate i o e) :
    (outline srv gate).Safe i (fun o' _ => Idle held gate i request conn ids o') p o := by
  refine Outline.Safe.of_uses (K := Idle held gate i request conn ids)
    (fun o o' hr hK => hK.rely hr)
    (fun o e hK _ he => hpre o e hK.toHandling he) (fun o e r s hK he hperf => ?_) hp h
  have hq := hquiet e he
  have hmutex : s.mutex = o.shared.mutex := by
    cases e with
    | hang => exact hperf.elim
    | callback cb x ptr =>
        obtain ⟨-, rfl⟩ : _ ∧ s = _ := hperf
        rfl
    | auth session | send site x | sendBody site body =>
        obtain rfl : s = _ := hperf
        rfl
    | _ => exact hq.elim
  have hne : ∀ key, e ≠ .find key := by
    rintro key rfl
    exact hq
  exact ⟨hK.toHandling.push hne, by rw [Obs.push_shared, hmutex]; exact hK.free⟩

theorem Idle.send_safe {m : Handler α} {x : Locals}
    (h : Idle held gate i request conn ids o) (hcov : Covers request ids)
    (hm : Exc.Uses (S := Actions) IsSend m) :
    (outline srv gate).Safe i (fun o' _ => Idle held gate i request conn ids o') (m.run x) o := by
  refine h.quiet_safe (hm x) (fun e he => ?_) (fun o e hK he => ?_)
  · cases e <;> simp_all [IsSend, Quiet]
  · cases e with
    | send site x => exact hK.pre_send hcov site x
    | sendBody site body => trivial
    | _ => exact he.elim

theorem Idle.lock_safe {k : Unit → Prog Actions α} (h : Idle held gate i request conn ids o)
    (hk : ∀ o', Locked gate i request conn ids o' → o'.acts i = o.acts i ++ [⟨.lock, ()⟩] →
      (outline srv gate).Safe i Post (k ()) o') :
    (outline srv gate).Safe i Post (.act (S := Actions) .lock k) o := by
  intro o₁ hr _
  refine ⟨trivial, fun r s hp => ?_⟩
  obtain ⟨-, rfl⟩ : _ ∧ s = _ := hp
  refine hk _ ⟨(h.toHandling.rely hr).push (by simp), rfl⟩ ?_
  rw [Obs.acts_push_act_self, hr.acts]

theorem Locked.unlock_safe (held : Prop) {k : Unit → Prog Actions α}
    (h : Locked gate i request conn ids o)
    (hk : ∀ o', Idle held gate i request conn ids o' → (outline srv gate).Safe i Post (k ()) o') :
    (outline srv gate).Safe i Post (.act (S := Actions) .unlock k) o := by
  intro o₁ hr _
  refine ⟨(h.rely hr).mutex, fun r s hp => ?_⟩
  obtain ⟨-, rfl⟩ : _ ∧ s = _ := hp
  exact hk _ ⟨(h.toHandling.rely hr).push (by simp), Or.inr (by simp)⟩

theorem Locked.generateId_safe {k : Str → Prog Actions α} (h : Locked gate i request conn ids o)
    (hk : ∀ id o', Locked gate i request conn ids o' →
      (outline srv gate).Safe i Post (k id) o') :
    (outline srv gate).Safe i Post (.act (S := Actions) .generateId k) o := by
  intro o₁ hr _
  refine ⟨(h.rely hr).mutex, fun r s hp => ?_⟩
  obtain ⟨-, rfl⟩ : _ ∧ s = _ := hp
  exact hk r _ ⟨(h.toHandling.rely hr).push (by simp), (h.rely hr).mutex⟩

theorem Locked.find_safe {k : Bool → Prog Actions α} (h : Locked gate i request conn [] o)
    (hfound : ∀ o', Locked gate i request conn [sessionId request] o' →
      sessionId request ∈ o'.shared.sessions → (outline srv gate).Safe i Post (k true) o')
    (hmiss : ∀ o', o'.shared.mutex = some i →
      o'.acts i = o.acts i ++ [⟨.find (sessionId request), false⟩] →
      (outline srv gate).Safe i Post (k false) o') :
    (outline srv gate).Safe i Post (.act (S := Actions) (.find (sessionId request)) k) o := by
  intro o₁ hr hI
  have h₁ := h.rely hr
  refine ⟨h₁.mutex, fun r s hp => ?_⟩
  obtain ⟨hr', rfl⟩ : _ ∧ s = _ := hp
  cases r with
  | true =>
      have hmem : sessionId request ∈ o₁.shared.sessions := hr'.mp rfl
      refine hfound _ ⟨⟨?_, ?_, ?_⟩, h₁.mutex⟩ hmem
      · rw [Obs.ctl_push_act]; exact h₁.ctl
      · intro key' hmem'
        rw [Obs.acts_push_act_self] at hmem'
        rcases List.mem_append.mp hmem' with hmem' | hmem'
        · exact h₁.found key' hmem'
        · cases List.mem_singleton.mp hmem'
      · intro hg id hid
        rw [List.mem_singleton.mp hid]
        exact (hI hg _ hmem).mono (List.prefix_append _ _)
  | false =>
      refine hmiss _ h₁.mutex ?_
      rw [Obs.acts_push_act_self, hr.acts]

theorem Locked.index_safe {cb : Callback} {key : Str} {k : Unit → Prog Actions α}
    (h : Locked gate i request conn ids o) (hm : request.method = cb.method) (hkey : key ∈ ids)
    (hmem : cb ≠ .play → key ∈ o.shared.sessions)
    (hk : ∀ o', Locked gate i request conn ids o' → (outline srv gate).Safe i Post (k ()) o') :
    (outline srv gate).Safe i Post (.act (S := Actions) (.index cb key) k) o := by
  intro o₁ hr _
  have h₁ := h.rely hr
  refine ⟨⟨h₁.mutex, h₁.serves hm, fun hcb => (hr.keys h.mutex key).mpr (hmem hcb),
    fun hg => h₁.auth hg key hkey⟩, fun r s hp => ?_⟩
  obtain rfl : s = _ := hp
  exact hk _ ⟨h₁.toHandling.push (by simp), h₁.mutex⟩

theorem Locked.store_safe {session : Session} {k : Unit → Prog Actions α}
    (h : Locked gate i request conn ids o) (hm : request.method = str "SETUP")
    (hid : gate → session.id ∈ ids)
    (hk : ∀ o', Locked gate i request conn ids o' → (outline srv gate).Safe i Post (k ()) o') :
    (outline srv gate).Safe i Post (.act (S := Actions) (.store session) k) o := by
  intro o₁ hr _
  have h₁ := h.rely hr
  refine ⟨⟨h₁.mutex, h₁.serves hm, fun hg => h₁.auth hg _ (hid hg)⟩, fun r s hp => ?_⟩
  obtain rfl : s = _ := hp
  exact hk _ ⟨h₁.toHandling.push (by simp), h₁.mutex⟩

theorem Locked.erase_safe {key : Str} {k : Unit → Prog Actions α}
    (h : Locked gate i request conn ids o) (hm : request.method = str "TEARDOWN")
    (hk : ∀ o', Locked gate i request conn ids o' → (outline srv gate).Safe i Post (k ()) o') :
    (outline srv gate).Safe i Post (.act (S := Actions) (.erase key) k) o := by
  intro o₁ hr _
  have h₁ := h.rely hr
  refine ⟨⟨h₁.mutex, h₁.serves hm⟩, fun r s hp => ?_⟩
  obtain rfl : s = _ := hp
  exact hk _ ⟨h₁.toHandling.push (by simp), h₁.mutex⟩

/-! ### The handlers -/

theorem perform_bind {β : Type} (e : Act) (f : e.Ans → Handler β) (x : Locals) :
    (perform e >>= f).run x = .act (S := Actions) e fun r => (f r).run x := rfl

theorem setStatus_bind {β : Type} (status : Int) (reason : String) (f : Unit → Handler β)
    (x : Locals) :
    ((setStatus status reason) >>= f).run x = (f ()).run
      { x with response := { x.response with status := status, reason := str reason } } := rfl

theorem setHeader_bind {β : Type} (key value : Str) (f : Unit → Handler β) (x : Locals) :
    ((setHeader key value) >>= f).run x = (f ()).run
      { x with response :=
        { x.response with headers := x.response.headers.insert key value } } := rfl

theorem requestHeader_bind {β : Type} (key : Str) (f : Str → Handler β) (x : Locals) :
    ((requestHeader key) >>= f).run x = (f (x.request.headers.getD key [])).run
      { x with request :=
        { x.request with headers := x.request.headers.insertIfNew key [] } } := rfl

/-- Passing on an exception ends `_handle` outside of the critical sections. -/
theorem Idle.ret_safe {a : α} (h : Idle held gate i request conn ids o) :
    (outline srv gate).Safe i (fun o' _ => Released held i request o') (.ret a) o :=
  fun _ hr _ => (h.rely hr).released

theorem Idle.bind_safe {β : Type} {m : Handler α} {f : α → Handler β} {x : Locals}
    (hm : (outline srv gate).Safe i (fun o' _ => Idle held gate i request conn ids o') (m.run x) o)
    (hf : ∀ a x' o', Idle held gate i request conn ids o' →
      (outline srv gate).Safe i (fun o' _ => Released held i request o') ((f a).run x') o') :
    (outline srv gate).Safe i (fun o' _ => Released held i request o') ((m >>= f).run x) o := by
  refine Outline.Safe.exc_bind (hm.mono fun o' r _ h => ?_)
  rcases r with ⟨e | a, x'⟩
  · exact h.ret_safe
  · exact hf a x' o' h

theorem Idle.done_safe {m : Handler α} {x : Locals}
    (h : Idle held gate i request conn ids o) (hcov : Covers request ids)
    (hm : Exc.Uses (S := Actions) IsSend m) :
    (outline srv gate).Safe i (fun o' _ => Released held i request o') (m.run x) o :=
  (h.send_safe hcov hm).mono fun _ _ _ h => h.released

/-- The callbacks for an entry of `sessions`. -/
theorem Idle.callEntry_safe {isSet : Bool} {cb : Callback} {x : Locals}
    (h : Idle held gate i request conn [sessionId request] o) (huse : UsesSession request) :
    (outline srv gate).Safe i (fun o' _ => Idle held gate i request conn [sessionId request] o')
      ((callEntry isSet cb (sessionId request)).run x) o := by
  have huses : ((callEntry isSet cb (sessionId request)).run x).Uses fun e : Act =>
      ∃ x, e = .callback cb x (.entry (sessionId request)) := callEntry_uses (fun x => ⟨x, rfl⟩) x
  refine h.quiet_safe huses ?_ ?_
  · rintro e ⟨x, rfl⟩
    trivial
  · rintro o e hK ⟨x, rfl⟩ _
    exact ⟨request, conn, hK.ctl, huse, rfl, fun hg => hK.auth hg _ (List.mem_singleton.mpr rfl)⟩

theorem sessionNotFound_run {x : Locals} (hbody : x.response.body = none)
    (hsended : x.response.sended = false) :
    sessionNotFound.run x = .act (S := Actions)
      (.send .handle { x with response :=
        { x.response with status := 454, reason := str "Session Not Found" } })
      fun sent : Bool => if sent then .act (S := Actions) .unlock fun _ => .ret (.ok (),
          { x with response := { x.response with
            status := 454, reason := str "Session Not Found", sended := true } })
        else .ret (.error (.SendError (-1)), { x with response :=
          { x.response with status := 454, reason := str "Session Not Found" } }) := by
  rcases x with ⟨request, ⟨base, status, reason, body, sended⟩, conn⟩
  obtain rfl : body = none := hbody
  obtain rfl : sended = false := hsended
  refine congrArg (Prog.act (S := Actions) _) (funext fun sent => ?_)
  cases sent with
  | true => rfl
  | false => rfl

/-- The answer 454 leaves the lock held exactly when the socket refuses it. -/
theorem sessionNotFound_safe {key : Str} {x : Locals} (huse : UsesSession request)
    (hmutex : o.shared.mutex = some i) (hacts : o.acts i = [⟨.lock, ()⟩, ⟨.find key, false⟩])
    (hbody : x.response.body = none) (hsended : x.response.sended = false) :
    (outline srv gate).Safe i (fun o' _ => Released held i request o')
      (sessionNotFound.run x) o := by
  rw [sessionNotFound_run hbody hsended]
  intro o₁ hr₁ _
  refine ⟨fun h454 => absurd h454 (by simp), fun sent s hp => ?_⟩
  obtain rfl : s = _ := hp
  have hm₁ : o₁.shared.mutex = some i := hr₁.mutex.mpr hmutex
  cases sent with
  | true =>
      intro o₂ hr₂ _
      refine ⟨hr₂.mutex.mpr hm₁, fun _ s hp o₃ hr₃ _ => Or.inr ⟨fun hm => ?_, ?_⟩⟩
      · obtain ⟨-, rfl⟩ : _ ∧ s = _ := hp
        exact absurd (hr₃.mutex.mp hm) (by simp)
      · rintro ⟨-, -, y, hy⟩
        rw [hr₃.acts, Obs.acts_push_act_self, hr₂.acts, Obs.acts_push_act_self, hr₁.acts,
          hacts] at hy
        simp at hy
  | false =>
      intro o₂ hr₂ _
      have hleaks : Leaks request (o₂.acts i) := by
        rw [hr₂.acts, Obs.acts_push_act_self, hr₁.acts, hacts]
        exact ⟨huse, ⟨key, List.mem_append_left _ (by simp)⟩, _,
          List.mem_append_right _ (List.mem_singleton.mpr rfl)⟩
      exact Or.inr ⟨fun _ => hleaks, fun _ => hr₂.mutex.mpr hm₁⟩

theorem handleTeardown_safe (h : Idle held gate i request conn [] o) (hacts : o.acts i = [])
    (hm : request.method = str "TEARDOWN") :
    (outline srv gate).Safe i (fun o' _ => Released held i request o')
      ((handleTeardown srv).run ⟨request, .ofRequest request, conn⟩) o := by
  have huse : UsesSession request := Or.inl hm
  have hcov : Covers request [sessionId request] := fun _ => List.mem_singleton.mpr rfl
  unfold handleTeardown
  rw [requestHeader_bind]
  -- `find` under the lock: the session is there, or the answer is 454
  refine h.lock_safe fun o₁ h₁ hacts₁ =>
    h₁.find_safe (fun o₂ h₂ hmem => ?_) fun o₂ hmutex hacts₂ => ?_
  · refine h₂.index_safe hm (List.mem_singleton.mpr rfl) (fun _ => hmem) fun o₃ h₃ => ?_
    refine h₃.unlock_safe held fun o₄ h₄ => ?_
    refine Idle.bind_safe (h₄.callEntry_safe huse) fun _ x₅ o₅ h₅ => ?_
    refine Idle.bind_safe (h₅.send_safe hcov ?_) fun _ x₆ o₆ h₆ => ?_
    · exact unlessSended_uses (Exc.Uses.bind (setStatus_uses _ _) fun _ =>
        Exc.Uses.bind (requestHeader_uses _) fun _ =>
          Exc.Uses.bind (setHeader_uses _ _) fun _ => send_uses _)
    · exact h₆.lock_safe fun o₇ h₇ _ => h₇.erase_safe hm fun o₈ h₈ =>
        h₈.unlock_safe held fun o₉ h₉ => h₉.ret_safe
  · exact sessionNotFound_safe huse hmutex (by rw [hacts₂, hacts₁, hacts]; rfl) rfl rfl

theorem playSession_safe {x : Locals} (h : Idle held gate i request conn [sessionId request] o)
    (hm : request.method = str "PLAY") :
    (outline srv gate).Safe i (fun o' _ => Released held i request o')
      ((playSession srv (sessionId request)).run x) o := by
  have hcov : Covers request [sessionId request] := fun _ => List.mem_singleton.mpr rfl
  unfold playSession
  rw [Exc.run_vars_bind]
  split
  · -- the key was there in the first section; nothing says that it still is
    rw [perform_bind]
    refine h.lock_safe fun o₁ h₁ _ => ?_
    rw [perform_bind]
    refine h₁.index_safe hm (List.mem_singleton.mpr rfl) (fun hcb => absurd rfl hcb) fun o₂ h₂ => ?_
    rw [perform_bind]
    refine h₂.unlock_safe held fun o₃ h₃ => ?_
    rw [requestHeader_bind, setHeader_bind, setHeader_bind]
    refine Idle.bind_safe (h₃.callEntry_safe (Or.inr hm)) fun _ _ o₄ h₄ => h₄.done_safe hcov ?_
    exact unlessSended_uses (Exc.Uses.bind (setStatus_uses _ _) fun _ =>
      Exc.Uses.bind (requestHeader_uses _) fun _ => Exc.Uses.bind (setHeader_uses _ _) fun _ =>
        Exc.Uses.bind (setHeader_uses _ _) fun _ => Exc.Uses.bind Exc.Uses.vars fun _ =>
          Exc.Uses.bind (setHeader_uses _ _) fun _ => send_uses _)
  · exact h.done_safe hcov (Exc.Uses.bind (setStatus_uses _ _) fun _ => send_uses _)

theorem handlePlay_safe (h : Idle held gate i request conn [] o) (hacts : o.acts i = [])
    (hm : request.method = str "PLAY") :
    (outline srv gate).Safe i (fun o' _ => Released held i request o')
      ((handlePlay srv).run ⟨request, .ofRequest request, conn⟩) o := by
  refine h.lock_safe fun o₁ h₁ hacts₁ =>
    h₁.find_safe (fun o₂ h₂ hmem => ?_) fun o₂ hmutex hacts₂ => ?_
  · exact h₂.unlock_safe held fun o₃ h₃ => playSession_safe h₃ hm
  · exact sessionNotFound_safe (Or.inr hm) hmutex (by rw [hacts₂, hacts₁, hacts]; rfl) rfl rfl

/-- What `authenticate` leaves: an authorized session, when it returns one. -/
def Authenticated (held gate : Prop) (i : ι) (request : Request) (conn : Conn) (o : SObs ι) :
    Except Exn (Option Session) × Locals → Prop
  | (.ok (some session), _) => Idle held gate i request conn [session.id] o
  | _ => Idle held gate i request conn [] o

theorem unauthorized_safe {x : Locals} (h : Idle held gate i request conn [] o)
    (huse : ¬ UsesSession request) :
    (outline srv gate).Safe i (Authenticated held gate i request conn) (unauthorized.run x) o := by
  have hcov : Covers request [] := fun hu => absurd hu huse
  refine Outline.Safe.exc_bind ((h.send_safe hcov (setStatus_uses _ _)).mono fun o₁ r _ h₁ => ?_)
  rcases r with ⟨e | a, x₁⟩
  · exact fun o₂ hr _ => h₁.rely hr
  · refine Outline.Safe.exc_bind ((h₁.send_safe hcov (send_uses _)).mono fun o₂ r _ h₂ => ?_)
    rcases r with ⟨e | a, x₂⟩
    · exact fun o₃ hr _ => h₂.rely hr
    · exact fun o₃ hr _ => h₂.rely hr

theorem Idle.authorized (h : Idle held gate i request conn [] o) {session : Session}
    (hs : gate → Authorized o.trace session.id) :
    Idle held gate i request conn [session.id] o where
  ctl := h.ctl
  found := h.found
  auth := fun hg id hid => by
    rw [List.mem_singleton.mp hid]
    exact hs hg
  free := h.free

theorem checkAuth_safe {session : Session} {x : Locals} (h : Idle held gate i request conn [] o)
    (huse : ¬ UsesSession request) (hm : request.method = str "SETUP")
    (hcred : Credentials request session) :
    (outline srv gate).Safe i (Authenticated held gate i request conn)
      ((checkAuth srv session).run x) o := by
  unfold checkAuth
  split
  · intro o₁ hr₁ _
    refine ⟨trivial, fun r s hp => ?_⟩
    obtain rfl : s = _ := hp
    -- whatever `authCallback` answers, it leaves the state as it was
    have h₁ : Idle held gate i request conn []
        (o₁.push i (.act (S := Actions) (.auth session) r) o₁.shared) :=
      ⟨(h.rely hr₁).toHandling.push (by simp), (h.rely hr₁).free⟩
    rcases r with e | accepted
    · exact fun o₂ hr₂ _ => h₁.rely hr₂
    · cases accepted with
      | false => exact unauthorized_safe h₁ huse
      | true =>
          refine fun o₂ hr₂ _ => (h₁.rely hr₂).authorized fun _ => ?_
          exact Authorized.mono ⟨o₁.trace,
            ⟨i, o₁.shared, .act (S := Actions) (.auth session) _⟩, [], session, request, conn,
            rfl, rfl, rfl, (h.rely hr₁).ctl, hm, hcred⟩ hr₂.trace
  · intro o₁ hr₁ _
    exact ⟨trivial, fun r => nomatch r⟩

theorem authenticate_safe {session : Session} {response : Response} {conn' : Conn}
    (hgate : gate → Gated srv) (h : Idle held gate i request conn [] o)
    (huse : ¬ UsesSession request) (hm : request.method = str "SETUP") :
    (outline srv gate).Safe i (Authenticated held gate i request conn)
      ((authenticate srv session).run ⟨request, response, conn'⟩) o := by
  have hopen : ∀ ses x', ¬ srv.enable_auth = true →
      (outline srv gate).Safe i (Authenticated held gate i request conn)
        (.ret (.ok (some ses), x')) o := fun ses x' hne o₁ hr _ =>
    (h.rely hr).authorized fun hg => absurd (hgate hg).enable_auth hne
  unfold authenticate
  rw [Exc.run_vars_bind]
  split
  · -- there is a User-Agent: the credentials are those of the request
    rename_i hpresent
    have hpresent : str "User-Agent" ∈ request.headers := hpresent
    rw [requestHeader_bind, requestHeader_bind]
    split
    · refine checkAuth_safe h huse hm ⟨hpresent, rfl, ?_⟩
      exact Std.ExtTreeMap.getD_insertIfNew.trans (if_neg fun hne => hne.2 hpresent)
    · rename_i hne
      exact hopen _ _ hne
  · split
    · exact unauthorized_safe h huse
    · rename_i hne
      exact hopen _ _ hne

theorem call_run (cb : Callback) (ptr : SessionPtr) (x : Locals) :
    (call cb ptr).run x = .act (S := Actions) (.callback cb x ptr) fun ret =>
      .ret (match ret.thrown with
        | none => .ok ret.session
        | some e => .error e, ret.vars) := by
  refine congrArg (Prog.act (S := Actions) _) (funext fun ret => ?_)
  rcases ret with ⟨x', session, heads, thrown⟩
  cases thrown with
  | none => rfl
  | some e => rfl

/-- The setup callback gets a session of its own, whose id it does not change. -/
theorem callSetup_safe {session : Session} {id : Str} {x : Locals} (hgate : gate → Gated srv)
    (h : Idle held gate i request conn [id] o) (hid : session.id = id) :
    (outline srv gate).Safe i (fun o' r => Idle held gate i request conn [id] o' ∧
        ∀ ses, r.1 = .ok ses → gate → ses.id = id)
      ((callSetup srv session).run x) o := by
  unfold callSetup
  split
  · rw [call_run]
    intro o₁ hr₁ _
    refine ⟨fun hne => absurd rfl hne, fun r s hp => ?_⟩
    obtain ⟨⟨pointee, hptr, hbeh⟩, rfl⟩ : _ ∧ s = _ := hp
    obtain rfl : session = pointee := hptr session rfl
    have h₁ : Idle held gate i request conn [id] (o₁.push i
        (.act (S := Actions) (.callback .setup x (.own session)) r) o₁.shared) :=
      ⟨(h.rely hr₁).toHandling.push (by simp), (h.rely hr₁).free⟩
    refine fun o₂ hr₂ _ => ⟨h₁.rely hr₂, fun ses hses hg => ?_⟩
    have hkeeps := (hgate hg).keepsId x session r hbeh
    rcases hthrown : r.thrown with - | e
    · rw [hthrown] at hses
      cases hses
      exact hkeeps.trans hid
    · rw [hthrown] at hses
      cases hses
  · refine fun o₁ hr _ => ⟨h.rely hr, fun ses hses _ => ?_⟩
    cases hses
    exact hid

theorem setupSession_safe {session : Session} {x : Locals} (hgate : gate → Gated srv)
    (h : Idle held gate i request conn [session.id] o) (huse : ¬ UsesSession request)
    (hm : request.method = str "SETUP") :
    (outline srv gate).Safe i (fun o' _ => Released held i request o')
      ((setupSession srv session).run x) o := by
  unfold setupSession
  rw [requestHeader_bind]
  split
  · exact h.ret_safe
  · rw [requestHeader_bind]
    refine Outline.Safe.exc_bind ((callSetup_safe hgate h ?_).mono fun o₁ r _ hr => ?_)
    · rfl
    obtain ⟨h₁, hid⟩ := hr
    rcases r with ⟨e | ses, x₁⟩
    · exact h₁.ret_safe
    · refine h₁.lock_safe fun o₂ h₂ _ => h₂.store_safe hm ?_ fun o₃ h₃ =>
        h₃.unlock_safe held fun o₄ h₄ => h₄.done_safe (m := unlessSended _)
          (fun hu => absurd hu huse) ?_
      · exact fun hg => List.mem_singleton.mpr (hid ses rfl hg)
      · exact unlessSended_uses (Exc.Uses.bind (setStatus_uses _ _) fun _ =>
          Exc.Uses.bind (setHeader_uses _ _) fun _ =>
            Exc.Uses.bind (setHeader_uses _ _) fun _ => send_uses _)

theorem handleSetup_safe (hgate : gate → Gated srv) (h : Idle held gate i request conn [] o)
    (hm : request.method = str "SETUP") :
    (outline srv gate).Safe i (fun o' _ => Released held i request o')
      ((handleSetup srv).run ⟨request, .ofRequest request, conn⟩) o := by
  have huse : ¬ UsesSession request := not_usesSession hm (by decide) (by decide)
  unfold handleSetup
  rw [Exc.run_vars_bind]
  split
  · exact h.ret_safe
  · refine h.lock_safe fun o₁ h₁ _ => h₁.generateId_safe fun id o₂ h₂ =>
      h₂.unlock_safe held fun o₃ h₃ => ?_
    refine Outline.Safe.exc_bind ((authenticate_safe hgate h₃ huse hm).mono fun o₄ r _ h₄ => ?_)
    rcases r with ⟨e | ses, x₄⟩
    · exact h₄.ret_safe
    · cases ses with
      | none => exact h₄.ret_safe
      | some session => exact setupSession_safe hgate h₄ huse hm

theorem handleOptions_safe {x : Locals} (h : Idle held gate i request conn [] o)
    (huse : ¬ UsesSession request) :
    (outline srv gate).Safe i (fun o' _ => Released held i request o') (handleOptions.run x) o :=
  h.done_safe (fun hu => absurd hu huse) handleOptions_uses

/-- **The specification of `_handle`**: it keeps to the outline, and leaves the lock held exactly
when the answer 454 cannot be sent. -/
theorem handle_safe (hgate : gate → Gated srv) (h : Idle held gate i request conn [] o)
    (hacts : o.acts i = []) :
    (outline srv gate).Safe i (fun o' _ => Released held i request o')
      ((handle srv).run ⟨request, .ofRequest request, conn⟩) o := by
  unfold handle
  rw [Exc.run_vars_bind]
  dsimp only
  split
  · rename_i hoptions
    exact handleOptions_safe h (not_usesSession hoptions (by decide) (by decide))
  split
  · exact handleSetup_safe hgate h (by assumption)
  split
  · exact handleTeardown_safe h hacts (by assumption)
  rename_i hteardown
  split
  · exact handlePlay_safe h hacts (by assumption)
  · rename_i hplay
    refine h.done_safe (fun hu => absurd hu ?_) (Exc.Uses.bind (setStatus_uses _ _) fun _ =>
      Exc.Uses.bind (setHeader_uses _ _) fun _ => send_uses _)
    rintro (ht | hp)
    · exact hteardown ht
    · exact hplay hp

end

/-! ## The rounds of a worker -/

section

variable {srv : Server} {gate : Prop}

theorem replyError_uses (status : Int) (reason : String) :
    Exc.Uses (S := Actions) (fun e => IsSend e ∨ e = .close) (replyError status reason) :=
  Exc.Uses.bind (setStatus_uses _ _) fun _ =>
    Exc.Uses.bind ((send_uses _).mono fun _ h => Or.inl h) fun _ =>
      Exc.Uses.perform (S := Actions) (e := .close) (Or.inr rfl)

/-- The catch handlers send from a control state in which no request is being handled. -/
theorem replyError_safe {i : ι} {o : SObs ι} {status : Int} {reason : String} {x : Locals}
    (h : ∀ request conn, o.ctl i ≠ some (.dispatch request conn)) :
    (outline srv gate).Safe i ((outline srv gate).head i)
      (((replyError status reason).run x).bind afterReply) o := by
  have hsafe : (outline srv gate).Safe i
      (fun o' _ => ∀ request conn, o'.ctl i ≠ some (.dispatch request conn))
      ((replyError status reason).run x) o := by
    refine Outline.Safe.of_uses (fun o o' hr hK => ?_) (fun o e hK _ he => ?_)
      (fun o e r s hK _ _ => ?_) (replyError_uses status reason x) h
    · rw [show o'.ctl i = o.ctl i from hr.ctl]
      exact hK
    · rcases he with he | rfl
      · cases e with
        | send site y => exact fun _ request conn hctl => absurd hctl (hK request conn)
        | sendBody site body => trivial
        | _ => exact he.elim
      · trivial
    · rw [Obs.ctl_push_act]
      exact hK
  refine Outline.Safe.bind (hsafe.mono fun o' r _ _ => ?_)
  rcases r with ⟨e | a, x'⟩
  · exact fun _ _ _ => trivial
  · exact fun _ _ _ => trivial

theorem rounds_safe (hgate : gate → Gated srv) : (outline (ι := ι) srv gate).RoundsSafe := by
  intro i o l p _ _ hround
  cases l with
  | accept =>
      cases hround
      refine fun o₁ _ _ => ⟨trivial, fun r s _ => ?_⟩
      rcases r with e | conn
      · exact fun _ _ _ => trivial
      · exact fun _ _ _ => trivial
  | serve conn =>
      obtain rfl := Option.some.inj hround
      dsimp only
      split
      · exact fun _ _ _ => trivial
      · exact fun _ _ _ => trivial
      · exact fun _ _ _ => trivial
      · exact fun o₁ _ _ => ⟨trivial, fun r => nomatch r⟩
  | dispatch request conn =>
      cases hround
      -- a worker may come here with the lock it has left held before
      have hidle : Idle (o.shared.mutex = some i) gate i request conn []
          (o.push i (.enter (.dispatch request conn)) o.shared) :=
        { ctl := Obs.ctl_push_enter_self _ _ _ _
          found := by simp
          auth := by simp
          free := Classical.em _ }
      refine Outline.Safe.bind ((handle_safe hgate hidle (by simp)).mono fun o' r _ _ => ?_)
      rcases r with ⟨e | a, x⟩
      · cases e <;> exact fun _ _ _ => trivial
      · exact fun _ _ _ => trivial
  | badRequest request conn =>
      cases hround
      exact replyError_safe (by simp)
  | serverError x =>
      cases hround
      exact replyError_safe (by simp)
  | terminate e => cases hround

/-- The outline holds in every state that the server reaches. -/
theorem outline_holds (hgate : gate → Gated srv) {w : World Actions ι (Shared ι) Ctl}
    (h : Reach (system srv) initial w) : (outline srv gate).Holds w := by
  have hinit : (outline (ι := ι) srv gate).Holds initial :=
    ⟨fun _ k hk => absurd hk (by simp [initial]), fun i _ _ _ => trivial⟩
  exact hinit.reach (rounds_safe hgate) h

end

end DianProtocol.Cpp
