import DianProtocol.Cpp.Worker

set_option autoImplicit false

/-! # The outline of the server

It says of every action of a worker under which circumstances it is performed: the map `sessions`
is touched only while the worker holds `sessions_lock`, and only in the requests that are meant to;
the `operator[]` of TEARDOWN finds its key; and, when authentication is required (`gate`), entries
are made, and sessions are played or torn down, only for ids whose SETUP was authorized.

That the actions keep the invariant and stay within the rely of the other workers is proved here,
once for each action; that `_handle` performs them under these circumstances is `handle_safe`.
-/

namespace DianProtocol.Cpp

open Concurrent

variable {ι : Type}

/-- What can be observed of the server. -/
abbrev SObs (ι : Type) := Obs Actions ι (Shared ι) Ctl

/-- The `Session` header of a request as it was received. -/
def sessionId (request : Request) : Str := request.headers.getD (str "Session") []

/-- The user and password of a session are those of the SETUP request. -/
structure Credentials (request : Request) (session : Session) : Prop where
  present : str "User-Agent" ∈ request.headers
  user : session.user = request.headers.getD (str "User-Agent") []
  password : session.password = request.headers.getD (str "Authorization") []

section

variable [DecidableEq ι]

/-- A SETUP for which the session id `id` was generated presented credentials that `authCallback`
accepted. -/
def Authorized (trace : List (Label Actions ι (Shared ι) Ctl)) (id : Str) : Prop :=
  ∃ before l since session request conn, trace = before ++ l :: since ∧
    l.event = .act (S := Actions) (.auth session) (.ok true) ∧ session.id = id ∧
    ctlOf l.who before = some (.dispatch request conn) ∧ request.method = str "SETUP" ∧
    Credentials request session

theorem Authorized.mono {t t' : List (Label Actions ι (Shared ι) Ctl)} {id : Str}
    (h : Authorized t id) (hp : t <+: t') : Authorized t' id := by
  obtain ⟨before, l, since, session, request, conn, rfl, hrest⟩ := h
  obtain ⟨later, rfl⟩ := hp
  exact ⟨before, l, since ++ later, session, request, conn, by simp, hrest⟩

end

/-- Authentication is required, and the setup callback does not change session ids. -/
structure Gated (srv : Server) : Prop where
  enable_auth : srv.enable_auth = true
  authCallback : srv.authCallback = true
  keepsId : ∀ x session ret, srv.behaves .setup x session ret → ret.session.id = session.id

/-- The requests that use a session. -/
def UsesSession (request : Request) : Prop :=
  request.method = str "TEARDOWN" ∨ request.method = str "PLAY"

variable [DecidableEq ι]

/-- What the other workers leave alone. -/
structure Rely (i : ι) (o o' : SObs ι) : Prop where
  trace : o.trace <+: o'.trace
  ctl : o'.ctl i = o.ctl i
  acts : o'.acts i = o.acts i
  mutex : o'.shared.mutex = some i ↔ o.shared.mutex = some i
  keys : o.shared.mutex = some i → ∀ k, k ∈ o'.shared.sessions ↔ k ∈ o.shared.sessions

/-- The requests that a callback belongs to. -/
def Callback.method : Callback → Str
  | .setup => str "SETUP"
  | .play => str "PLAY"
  | .teardown => str "TEARDOWN"

/-- Worker `i` is in `_handle` with a request that `cb` belongs to. -/
def Serves (i : ι) (o : SObs ι) (cb : Callback) : Prop :=
  ∃ request conn, o.ctl i = some (.dispatch request conn) ∧ request.method = cb.method

/-- The circumstances under which worker `i` performs an action. -/
def Pre (gate : Prop) (i : ι) (o : SObs ι) : Act → Prop
  | .unlock => o.shared.mutex = some i
  | .generateId => o.shared.mutex = some i
  | .find _ => o.shared.mutex = some i
  | .index cb key => o.shared.mutex = some i ∧ Serves i o cb ∧
      (cb ≠ .play → key ∈ o.shared.sessions) ∧ (gate → Authorized o.trace key)
  | .store session => o.shared.mutex = some i ∧ Serves i o .setup ∧
      (gate → Authorized o.trace session.id)
  | .erase _ => o.shared.mutex = some i ∧ Serves i o .teardown
  | .callback cb _ ptr => cb ≠ .setup → ∃ request conn, o.ctl i = some (.dispatch request conn) ∧
      UsesSession request ∧ ptr = .entry (sessionId request) ∧
      (gate → Authorized o.trace (sessionId request))
  | .send _ x => x.response.status = 200 → ∀ request conn,
      o.ctl i = some (.dispatch request conn) → UsesSession request → gate →
      Authorized o.trace (sessionId request)
  | _ => True

/-! ## One action -/

section

variable {srv : Server} {gate : Prop} {i : ι} {o : SObs ι} {e : Act} {r : e.Ans} {s : Shared ι}

omit [DecidableEq ι] in
/-- A key that an action adds to the map is that of an `operator[]` or of a store. -/
theorem performs_new_key (h : Performs srv i o.shared e r s) {k : Str} (hk : k ∈ s.sessions) :
    k ∈ o.shared.sessions ∨ (∃ cb, e = .index cb k) ∨ ∃ session, e = .store session ∧
      session.id = k := by
  cases e with
  | index cb key =>
      obtain rfl : s = _ := h
      rcases Map.mem_insertIfNew.mp hk with rfl | hk
      · exact Or.inr (Or.inl ⟨cb, rfl⟩)
      · exact Or.inl hk
  | store session =>
      obtain rfl : s = _ := h
      rcases Map.mem_insert.mp hk with hk | hk
      · exact Or.inr (Or.inr ⟨session, rfl, hk⟩)
      · exact Or.inl hk
  | erase key =>
      obtain rfl : s = _ := h
      exact Or.inl (Std.ExtTreeMap.mem_of_mem_erase hk)
  | callback cb x ptr =>
      obtain ⟨-, rfl⟩ : _ ∧ s = _ := h
      refine Or.inl ?_
      cases ptr with
      | own session => exact hk
      | entry key =>
          simp only [SessionPtr.write] at hk
          split at hk
          · rename_i hkey
            rcases Map.mem_insert.mp hk with rfl | hk
            · exact hkey
            · exact hk
          · exact hk
  | hang => exact h.elim
  | _ => simp_all [Performs]

/-- The keys of the map change only in the actions that need the lock. -/
theorem performs_keys (hpre : Pre gate i o e) (h : Performs srv i o.shared e r s) :
    o.shared.mutex = some i ∨ ∀ k, k ∈ s.sessions ↔ k ∈ o.shared.sessions := by
  cases e with
  | index cb key => exact Or.inl hpre.1
  | store session => exact Or.inl hpre.1
  | erase key => exact Or.inl hpre.1
  | callback cb x ptr =>
      refine Or.inr fun k => ⟨fun hk => ?_, fun hk => ?_⟩
      · rcases performs_new_key h hk with hk | ⟨cb', hcb⟩ | ⟨session, hs, -⟩
        · exact hk
        · cases hcb
        · cases hs
      · obtain ⟨-, rfl⟩ : _ ∧ s = _ := h
        cases ptr with
        | own session => exact hk
        | entry key =>
            simp only [SessionPtr.write]
            split
            · exact Map.mem_insert.mpr (Or.inr hk)
            · exact hk
  | hang => exact h.elim
  | _ => simp_all [Performs]

omit [DecidableEq ι] in
/-- Only a worker itself takes and releases the lock in its own name. -/
theorem performs_mutex {j : ι} (hj : j ≠ i) (h : Performs srv i o.shared e r s) :
    s.mutex = some j ↔ o.shared.mutex = some j := by
  have hi : i ≠ j := fun h => hj h.symm
  cases e with
  | lock =>
      obtain ⟨hm, rfl⟩ : _ ∧ s = _ := h
      simp [hm, hi]
  | unlock =>
      obtain ⟨hm, rfl⟩ : _ ∧ s = _ := h
      simp [hm, hi]
  | hang => exact h.elim
  | _ => simp_all [Performs]

end

/-! ## The outline -/

theorem Rely.push {i j : ι} (hj : j ≠ i) {o : SObs ι} {ev : Event Actions Ctl} {s : Shared ι}
    (hm : s.mutex = some j ↔ o.shared.mutex = some j)
    (hk : o.shared.mutex = some j → ∀ k, k ∈ s.sessions ↔ k ∈ o.shared.sessions) :
    Rely j o (o.push i ev s) where
  trace := List.prefix_append _ _
  ctl := Obs.ctl_push_of_ne o hj.symm ev s
  acts := Obs.acts_push_of_ne o hj.symm ev s
  mutex := hm
  keys := hk

/-- The outline of the server. `gate` is the assumption that authentication is required; it is
`False` where the server is looked at without one. -/
def outline (srv : Server) (gate : Prop) : Outline (system (ι := ι) srv) where
  inv o := gate → ∀ k ∈ o.shared.sessions, Authorized o.trace k
  rely := Rely
  head _ _ _ := True
  pre := Pre gate
  rely_refl i o := ⟨List.prefix_rfl, rfl, rfl, Iff.rfl, fun _ _ => Iff.rfl⟩
  rely_trans i o₁ o₂ o₃ h₁ h₂ :=
    { trace := h₁.trace.trans h₂.trace
      ctl := h₂.ctl.trans h₁.ctl
      acts := h₂.acts.trans h₁.acts
      mutex := h₂.mutex.trans h₁.mutex
      keys := fun hm k => (h₂.keys (h₁.mutex.mpr hm) k).trans (h₁.keys hm k) }
  act_ok i o e r s hI hpre h := by
    refine ⟨fun hg k hk => ?_, fun j hj => Rely.push hj (performs_mutex hj h) fun hm => ?_⟩
    · -- a key of the map was there before, or has been added under the precondition
      have hpush : o.trace <+: (o.push i (.act e r) s).trace := List.prefix_append _ _
      rcases performs_new_key h hk with hk | ⟨cb, rfl⟩ | ⟨session, rfl, rfl⟩
      · exact (hI hg k hk).mono hpush
      · exact (hpre.2.2.2 hg).mono hpush
      · exact (hpre.2.2 hg).mono hpush
    · -- the keys stay, for worker `i` does not hold the lock that worker `j` holds
      rcases performs_keys hpre h with hi | hk
      · rw [hi] at hm
        exact absurd (Option.some.inj hm).symm hj
      · exact hk
  enter_ok i o l hI _ :=
    ⟨fun hg k hk => (hI hg k hk).mono (List.prefix_append _ _),
      fun j hj => Rely.push hj Iff.rfl fun _ _ => Iff.rfl⟩

end DianProtocol.Cpp
