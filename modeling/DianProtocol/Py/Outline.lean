import DianProtocol.Py.Server

set_option autoImplicit false

/-! # The outline of the Python server

Nothing locks `_sessions`. What makes up for it is ownership: a socket belongs to the worker that
accepted it and an id to the worker that generated it, and a session is stored by the worker to
which both belong. A worker therefore only removes and closes sessions of its own, and every other
worker may rely on that. The one access that nothing protects is the lookup in the socket check: the
session may belong to another worker.
-/

namespace DianProtocol.Py

open Concurrent

variable {ι : Type}

/-- What can be observed of the server. -/
abbrev SObs (ι : Type) := Obs Actions ι (Shared ι) Ctl

section

variable [DecidableEq ι]

/-- In its present round worker `i` has found the key of the request in `_auths`. -/
def Credentials (trace : List (Label Actions ι (Shared ι) Ctl)) (i : ι) (req : SockRequest) :
    Prop :=
  ∃ keys key, ⟨.auths, keys⟩ ∈ actsOf i trace ∧ key ∈ keys ∧
    req.headers.get? (text "Authorization") = some (text "Bearer " ++ key)

/-- The session was stored by worker `i` when it handled a SETUP on the socket of the session, with
accepted credentials if these are required. -/
def SetUp (srv : Server) (trace : List (Label Actions ι (Shared ι) Ctl)) (i : ι) (id : UUID)
    (s : Session) : Prop :=
  ∃ before l since, trace = before ++ l :: since ∧ l.who = i ∧
    l.event = .act (S := Actions) (.setitem id s) () ∧
    ctlOf i before = some (.dispatch s.request s.socket) ∧ s.request.method = text "SETUP" ∧
    (srv.use_auth = true → Credentials before i s.request)

theorem SetUp.mono {srv : Server} {t t' : List (Label Actions ι (Shared ι) Ctl)} {i : ι} {id : UUID}
    {s : Session} (h : SetUp srv t i id s) (hp : t <+: t') : SetUp srv t' i id s := by
  obtain ⟨before, l, since, rfl, hrest⟩ := h
  obtain ⟨later, rfl⟩ := hp
  exact ⟨before, l, since ++ later, by simp, hrest⟩

/-- An entry of `_sessions`: its id and its socket belong to one worker, and its answers go to its
socket, unless the socket of its request is closed. -/
structure Entry (srv : Server) (o : SObs ι) (i : ι) (id : UUID) (s : Session) : Prop where
  uuid : (id, i) ∈ o.shared.uuids
  accepted : (s.socket, i) ∈ o.shared.accepted
  session_id : s.session_id = id
  setUp : SetUp srv o.trace i id s
  sock : s.request.sock = s.socket ∨ s.request.sock ∈ o.shared.closedSockets

structure Inv (srv : Server) (o : SObs ι) : Prop where
  socket_owner : ∀ socket i j, (socket, i) ∈ o.shared.accepted → (socket, j) ∈ o.shared.accepted →
    i = j
  uuid_owner : ∀ id i j, (id, i) ∈ o.shared.uuids → (id, j) ∈ o.shared.uuids → i = j
  entries : ∀ id s, o.shared.sessions id = some s → ∃ i, Entry srv o i id s
  files : ∀ id ∈ o.shared.closedFiles, ∃ i, (id, i) ∈ o.shared.uuids
  closed : ∀ l ∈ o.trace, ∀ id, l.event = .act (S := Actions) (.closeFile id) () →
    id ∈ o.shared.closedFiles

/-- What the other workers leave alone. -/
structure Rely (i : ι) (o o' : SObs ι) : Prop where
  trace : o.trace <+: o'.trace
  ctl : o'.ctl i = o.ctl i
  acts : o'.acts i = o.acts i
  accepted : o.shared.accepted ⊆ o'.shared.accepted
  uuids : ∀ id, (id, i) ∈ o'.shared.uuids ↔ (id, i) ∈ o.shared.uuids
  closedSockets : o.shared.closedSockets ⊆ o'.shared.closedSockets
  own : ∀ id, (id, i) ∈ o.shared.uuids → o'.shared.sessions id = o.shared.sessions id ∧
    (id ∈ o'.shared.closedFiles ↔ id ∈ o.shared.closedFiles)

/-- Worker `i` handles a request on the connection of its session `s`. -/
structure Owned (i : ι) (o : SObs ι) (id : UUID) (s : Session) : Prop where
  mem : o.shared.sessions id = some s
  uuid : (id, i) ∈ o.shared.uuids
  session_id : s.session_id = id
  ctl : ∃ req, o.ctl i = some (.dispatch req s.socket)

/-- The circumstances under which worker `i` stores a session. -/
structure Stores (srv : Server) (i : ι) (o : SObs ι) (id : UUID) (s : Session) : Prop where
  uuid : (id, i) ∈ o.shared.uuids
  accepted : (s.socket, i) ∈ o.shared.accepted
  session_id : s.session_id = id
  ctl : o.ctl i = some (.dispatch s.request s.socket)
  method : s.request.method = text "SETUP"
  credentials : srv.use_auth = true → Credentials o.trace i s.request
  sock : s.request.sock = s.socket ∨ s.request.sock ∈ o.shared.closedSockets

/-- The circumstances under which worker `i` performs an action. -/
def Pre (srv : Server) (i : ι) (o : SObs ι) : Act → Prop
  | .getitem .socketCheck id => (o.acts i).getLast? = some ⟨.contains id, true⟩
  | .getitem _ id => ∃ s, Owned i o id s
  | .setitem id s => Stores srv i o id s
  | .pop id => ∃ s, Owned i o id s
  | .closeFile id => (id, i) ∈ o.shared.uuids
  | .send (.play id) socket _ =>
      ∃ s, Owned i o id s ∧ id ∉ o.shared.closedFiles ∧ socket = s.request.sock
  | _ => True

end

/-! ## One action -/

/-- The actions that may change the shared state. -/
def Writes : Act → Prop
  | .accept => True
  | .uuid4 => True
  | .setitem _ _ => True
  | .pop _ => True
  | .closeFile _ => True
  | .closeSocket _ => True
  | _ => False

theorem performs_same {i : ι} {s s' : Shared ι} {e : Act} {r : e.Ans} (h : Performs i s e r s')
    (he : ¬ Writes e) : s' = s := by
  cases e with
  | unparse socket => exact h
  | auths => exact h
  | exists_ path => exact h
  | open_ id path => exact h
  | contains id => exact h.2
  | getitem site id => exact h.2
  | seek id pos => exact h.2
  | read id n => exact h.2
  | send origin socket data => exact h.2.2.2
  | _ => exact absurd trivial he

/-- What an action can do to the shared state. -/
theorem performs_cases {i : ι} {s s' : Shared ι} {e : Act} {r : e.Ans} (h : Performs i s e r s') :
    s' = s ∨
      (∃ socket, (⟨e, r⟩ : Σ e : Act, e.Ans) = ⟨.accept, .ok socket⟩ ∧
        (∀ j, (socket, j) ∉ s.accepted) ∧
        s' = { s with accepted := (socket, i) :: s.accepted }) ∨
      (∃ id, (⟨e, r⟩ : Σ e : Act, e.Ans) = ⟨.uuid4, id⟩ ∧ (∀ j, (id, j) ∉ s.uuids) ∧
        s' = { s with uuids := (id, i) :: s.uuids }) ∨
      (∃ id session, e = .setitem id session ∧
        s' = { s with sessions := Function.update s.sessions id (some session) }) ∨
      (∃ id, e = .pop id ∧ s' = { s with sessions := Function.update s.sessions id none }) ∨
      (∃ id, e = .closeFile id ∧ s' = { s with closedFiles := id :: s.closedFiles }) ∨
      ∃ socket, e = .closeSocket socket ∧
        s' = { s with closedSockets := socket :: s.closedSockets } := by
  cases e with
  | accept =>
      cases r with
      | ok socket => exact .inr (.inl ⟨socket, rfl, h⟩)
      | error e => exact .inl h
  | uuid4 => exact .inr (.inr (.inl ⟨r, rfl, h⟩))
  | setitem id session => exact .inr (.inr (.inr (.inl ⟨id, session, rfl, h⟩)))
  | pop id => exact .inr (.inr (.inr (.inr (.inl ⟨id, rfl, h.2⟩))))
  | closeFile id => exact .inr (.inr (.inr (.inr (.inr (.inl ⟨id, rfl, h⟩)))))
  | closeSocket socket => exact .inr (.inr (.inr (.inr (.inr (.inr ⟨socket, rfl, h⟩)))))
  | _ => exact .inl (performs_same h fun hwrites => hwrites)

section

variable [DecidableEq ι] {srv : Server} {i : ι} {o : SObs ι}

theorem Entry.push {j : ι} {id : UUID} {s : Session} (h : Entry srv o j id s)
    {ev : Event Actions Ctl} {s' : Shared ι} (huuids : o.shared.uuids ⊆ s'.uuids)
    (haccepted : o.shared.accepted ⊆ s'.accepted)
    (hclosed : o.shared.closedSockets ⊆ s'.closedSockets) :
    Entry srv (o.push i ev s') j id s where
  uuid := huuids h.uuid
  accepted := haccepted h.accepted
  session_id := h.session_id
  setUp := h.setUp.mono (List.prefix_append _ _)
  sock := h.sock.imp_right fun hmem => hclosed hmem

theorem Inv.closed_push (h : Inv srv o) {ev : Event Actions Ctl} {s : Shared ι}
    (hsub : o.shared.closedFiles ⊆ s.closedFiles)
    (hev : ∀ id, ev = .act (S := Actions) (.closeFile id) () → id ∈ s.closedFiles) :
    ∀ l ∈ (o.push i ev s).trace, ∀ id, l.event = .act (S := Actions) (.closeFile id) () →
      id ∈ s.closedFiles := by
  intro l hl id hclose
  rcases List.mem_append.mp hl with hl | hl
  · exact hsub (h.closed l hl id hclose)
  · rw [List.mem_singleton.mp hl] at hclose
    exact hev id hclose

/-- What a step of worker `i` has to keep: the invariant, and the rely of the other workers. -/
structure Keeps (srv : Server) (i : ι) (o : SObs ι) (ev : Event Actions Ctl) (s : Shared ι) :
    Prop where
  inv : Inv srv (o.push i ev s)
  rely : ∀ j, j ≠ i → Rely j o (o.push i ev s)

/-- `Rely.trace`, `Rely.ctl` and `Rely.acts` hold of every step of another worker. -/
theorem Rely.push {j : ι} (hj : j ≠ i) {ev : Event Actions Ctl} {s : Shared ι}
    (haccepted : o.shared.accepted ⊆ s.accepted)
    (huuids : ∀ id, (id, j) ∈ s.uuids ↔ (id, j) ∈ o.shared.uuids)
    (hclosed : o.shared.closedSockets ⊆ s.closedSockets)
    (hown : ∀ id, (id, j) ∈ o.shared.uuids → s.sessions id = o.shared.sessions id ∧
      (id ∈ s.closedFiles ↔ id ∈ o.shared.closedFiles)) : Rely j o (o.push i ev s) where
  trace := List.prefix_append _ _
  ctl := Obs.ctl_push_of_ne o hj.symm ev s
  acts := Obs.acts_push_of_ne o hj.symm ev s
  accepted := haccepted
  uuids := huuids
  closedSockets := hclosed
  own := hown

/-- An event that leaves the shared state as it is and closes no file. -/
theorem Keeps.same (h : Inv srv o) {ev : Event Actions Ctl}
    (hev : ∀ id, ev ≠ .act (S := Actions) (.closeFile id) ()) : Keeps srv i o ev o.shared where
  inv :=
    { socket_owner := h.socket_owner
      uuid_owner := h.uuid_owner
      entries := fun id s hs => (h.entries id s hs).imp fun _ hj =>
        hj.push (List.Subset.refl _) (List.Subset.refl _) (List.Subset.refl _)
      files := h.files
      closed := h.closed_push (List.Subset.refl _) fun id heq => absurd heq (hev id) }
  rely _ hj := Rely.push hj (List.Subset.refl _) (fun _ => Iff.rfl) (List.Subset.refl _)
    fun _ _ => ⟨rfl, Iff.rfl⟩

omit [DecidableEq ι] in
/-- What is new has one owner only. -/
theorem owner_cons {α : Type} {owners : List (α × ι)} {a : α} {i : ι}
    (h : ∀ x j j', (x, j) ∈ owners → (x, j') ∈ owners → j = j') (hfresh : ∀ j, (a, j) ∉ owners) :
    ∀ x j j', (x, j) ∈ (a, i) :: owners → (x, j') ∈ (a, i) :: owners → j = j' := by
  intro x j j' hj hj'
  rcases List.mem_cons.mp hj with heq | hj
  · rcases List.mem_cons.mp hj' with heq' | hj'
    · rw [(Prod.mk.inj heq).2, (Prod.mk.inj heq').2]
    · exact absurd ((Prod.mk.inj heq).1 ▸ hj') (hfresh j')
  · rcases List.mem_cons.mp hj' with heq' | hj'
    · exact absurd ((Prod.mk.inj heq').1 ▸ hj) (hfresh j)
    · exact h x j j' hj hj'

/-- A socket that is accepted is new. -/
theorem Keeps.accept (h : Inv srv o) {socket : Sock}
    (hfresh : ∀ j, (socket, j) ∉ o.shared.accepted) :
    Keeps srv i o (.act (S := Actions) .accept (.ok socket))
      { o.shared with accepted := (socket, i) :: o.shared.accepted } where
  inv :=
    { socket_owner := owner_cons h.socket_owner hfresh
      uuid_owner := h.uuid_owner
      entries := fun id s hs => (h.entries id s hs).imp fun _ hj =>
        hj.push (List.Subset.refl _) (List.subset_cons_self _ _) (List.Subset.refl _)
      files := h.files
      closed := h.closed_push (List.Subset.refl _) nofun }
  rely _ hj := Rely.push hj (List.subset_cons_self _ _) (fun _ => Iff.rfl) (List.Subset.refl _)
    fun _ _ => ⟨rfl, Iff.rfl⟩

/-- An id that is generated is new, and the worker that generated it owns it. -/
theorem Keeps.uuid4 (h : Inv srv o) {id : UUID} (hfresh : ∀ j, (id, j) ∉ o.shared.uuids) :
    Keeps srv i o (.act (S := Actions) .uuid4 id)
      { o.shared with uuids := (id, i) :: o.shared.uuids } where
  inv :=
    { socket_owner := h.socket_owner
      uuid_owner := owner_cons h.uuid_owner hfresh
      entries := fun id s hs => (h.entries id s hs).imp fun _ hj =>
        hj.push (List.subset_cons_self _ _) (List.Subset.refl _) (List.Subset.refl _)
      files := fun id hid => (h.files id hid).imp fun _ hj => List.mem_cons_of_mem _ hj
      closed := h.closed_push (List.Subset.refl _) nofun }
  rely j hj := by
    refine Rely.push hj (List.Subset.refl _) (fun id' => ?_) (List.Subset.refl _)
      fun _ _ => ⟨rfl, Iff.rfl⟩
    simp [hj]

/-- The sessions of a worker may change when an id of another worker is written to. -/
theorem own_update {j : ι} (h : Inv srv o) (hj : j ≠ i) {id : UUID} (hid : (id, i) ∈ o.shared.uuids)
    (value : Option Session) {id' : UUID} (hid' : (id', j) ∈ o.shared.uuids) :
    Function.update o.shared.sessions id value id' = o.shared.sessions id' := by
  refine Function.update_of_ne (fun heq => ?_) _ _
  rw [heq] at hid'
  exact hj (h.uuid_owner id j i hid' hid)

theorem Keeps.setitem (h : Inv srv o) {id : UUID} {s : Session} (hs : Stores srv i o id s) :
    Keeps srv i o (.act (S := Actions) (.setitem id s) ())
      { o.shared with sessions := Function.update o.shared.sessions id (some s) } where
  inv :=
    { socket_owner := h.socket_owner
      uuid_owner := h.uuid_owner
      entries := by
        intro id' s' hmem
        have hs' : Function.update o.shared.sessions id (some s) id' = some s' := hmem
        by_cases hid : id' = id
        · subst hid
          rw [Function.update_self] at hs'
          obtain rfl := Option.some.inj hs'
          exact ⟨i, hs.uuid, hs.accepted, hs.session_id,
            ⟨o.trace, _, [], rfl, rfl, rfl, hs.ctl, hs.method, hs.credentials⟩, hs.sock⟩
        · rw [Function.update_of_ne hid] at hs'
          exact (h.entries id' s' hs').imp fun _ hj =>
            hj.push (List.Subset.refl _) (List.Subset.refl _) (List.Subset.refl _)
      files := h.files
      closed := h.closed_push (List.Subset.refl _) nofun }
  rely j hj := Rely.push hj (List.Subset.refl _) (fun _ => Iff.rfl) (List.Subset.refl _)
    fun _ hid => ⟨own_update h hj hs.uuid _ hid, Iff.rfl⟩

theorem Keeps.pop (h : Inv srv o) {id : UUID} {found : Option Session}
    (hid : (id, i) ∈ o.shared.uuids) :
    Keeps srv i o (.act (S := Actions) (.pop id) found)
      { o.shared with sessions := Function.update o.shared.sessions id none } where
  inv :=
    { socket_owner := h.socket_owner
      uuid_owner := h.uuid_owner
      entries := by
        intro id' s' hmem
        have hs' : Function.update o.shared.sessions id none id' = some s' := hmem
        by_cases heq : id' = id
        · rw [heq, Function.update_self] at hs'
          cases hs'
        · rw [Function.update_of_ne heq] at hs'
          exact (h.entries id' s' hs').imp fun _ hj =>
            hj.push (List.Subset.refl _) (List.Subset.refl _) (List.Subset.refl _)
      files := h.files
      closed := h.closed_push (List.Subset.refl _) nofun }
  rely j hj := Rely.push hj (List.Subset.refl _) (fun _ => Iff.rfl) (List.Subset.refl _)
    fun _ hid' => ⟨own_update h hj hid _ hid', Iff.rfl⟩

theorem Keeps.closeFile (h : Inv srv o) {id : UUID} (hid : (id, i) ∈ o.shared.uuids) :
    Keeps srv i o (.act (S := Actions) (.closeFile id) ())
      { o.shared with closedFiles := id :: o.shared.closedFiles } where
  inv :=
    { socket_owner := h.socket_owner
      uuid_owner := h.uuid_owner
      entries := fun id s hs => (h.entries id s hs).imp fun _ hj =>
        hj.push (List.Subset.refl _) (List.Subset.refl _) (List.Subset.refl _)
      files := by
        intro id' hid'
        rcases List.mem_cons.mp hid' with rfl | hid'
        · exact ⟨i, hid⟩
        · exact h.files id' hid'
      closed := h.closed_push (List.subset_cons_self _ _) fun id' heq => by
        cases heq
        exact List.mem_cons_self }
  rely j hj := by
    refine Rely.push hj (List.Subset.refl _) (fun _ => Iff.rfl) (List.Subset.refl _)
      fun id' hid' => ⟨rfl, ?_⟩
    have hne : id' ≠ id := fun heq => hj (h.uuid_owner id j i (heq ▸ hid') hid)
    simp [hne]

theorem Keeps.closeSocket (h : Inv srv o) (socket : Sock) :
    Keeps srv i o (.act (S := Actions) (.closeSocket socket) ())
      { o.shared with closedSockets := socket :: o.shared.closedSockets } where
  inv :=
    { socket_owner := h.socket_owner
      uuid_owner := h.uuid_owner
      entries := fun id s hs => (h.entries id s hs).imp fun _ hj =>
        hj.push (List.Subset.refl _) (List.Subset.refl _) (List.subset_cons_self _ _)
      files := h.files
      closed := h.closed_push (List.Subset.refl _) nofun }
  rely _ hj := Rely.push hj (List.Subset.refl _) (fun _ => Iff.rfl) (List.subset_cons_self _ _)
    fun _ _ => ⟨rfl, Iff.rfl⟩

theorem Keeps.act (hI : Inv srv o) {e : Act} {r : e.Ans} {s : Shared ι} (hpre : Pre srv i o e)
    (h : Performs i o.shared e r s) : Keeps srv i o (.act (S := Actions) e r) s := by
  cases e with
  | accept =>
      cases r with
      | ok socket =>
          obtain ⟨hfresh, rfl⟩ : _ ∧ s = _ := h
          exact .accept hI hfresh
      | error e =>
          obtain rfl : s = _ := h
          exact .same hI nofun
  | uuid4 =>
      obtain ⟨hfresh, rfl⟩ : _ ∧ s = _ := h
      exact .uuid4 hI hfresh
  | setitem id session =>
      obtain rfl : s = _ := h
      exact .setitem hI hpre
  | pop id =>
      obtain ⟨-, rfl⟩ : _ ∧ s = _ := h
      obtain ⟨session, howned⟩ := hpre
      exact .pop hI howned.uuid
  | closeFile id =>
      obtain rfl : s = _ := h
      exact .closeFile hI hpre
  | closeSocket socket =>
      obtain rfl : s = _ := h
      exact .closeSocket hI socket
  | _ =>
      obtain rfl := performs_same h fun hwrites => hwrites
      exact .same hI nofun

/-! ## The outline -/

/-- Worker `i` serves a connection, and the files of its sessions on it are open. -/
structure Connected (i : ι) (o : SObs ι) (socket : Sock) : Prop where
  accepted : (socket, i) ∈ o.shared.accepted
  files : ∀ id s, (id, i) ∈ o.shared.uuids → o.shared.sessions id = some s → s.socket = socket →
    id ∉ o.shared.closedFiles

/-- The assertion about a worker between two rounds. What `req` holds has been received on the
present connection, or on one that is closed. -/
def Head (i : ι) (o : SObs ι) : Ctl → Prop
  | .accept req => ∀ r, req = some r → r.sock ∈ o.shared.closedSockets
  | .serve req socket => (∀ r, req = some r → r.sock = socket ∨ r.sock ∈ o.shared.closedSockets) ∧
      Connected i o socket
  | .dispatch req socket => (req.sock = socket ∨ req.sock ∈ o.shared.closedSockets) ∧
      Connected i o socket
  | .dead _ => True

theorem Rely.trans {o₁ o₂ : SObs ι} (h : Rely i o o₁) (h' : Rely i o₁ o₂) : Rely i o o₂ where
  trace := h.trace.trans h'.trace
  ctl := h'.ctl.trans h.ctl
  acts := h'.acts.trans h.acts
  accepted := List.Subset.trans h.accepted h'.accepted
  uuids id := (h'.uuids id).trans (h.uuids id)
  closedSockets := List.Subset.trans h.closedSockets h'.closedSockets
  own id hid := by
    obtain ⟨hs, hf⟩ := h.own id hid
    obtain ⟨hs', hf'⟩ := h'.own id ((h.uuids id).mpr hid)
    exact ⟨hs'.trans hs, hf'.trans hf⟩

/-- The outline of the server. -/
def outline (srv : Server) : Outline (system (ι := ι) srv) where
  inv := Inv srv
  rely := Rely
  head := Head
  pre := Pre srv
  rely_refl i o := ⟨List.prefix_rfl, rfl, rfl, List.Subset.refl _, fun _ => Iff.rfl,
    List.Subset.refl _, fun _ _ => ⟨rfl, Iff.rfl⟩⟩
  rely_trans _ _ _ _ h h' := h.trans h'
  act_ok i o e r s hI hpre h := by
    have hkeeps : Keeps srv i o (.act (S := Actions) e r) s := .act hI hpre h
    exact ⟨hkeeps.inv, hkeeps.rely⟩
  enter_ok i o l hI _ := by
    have hkeeps : Keeps srv i o (.enter l) o.shared := .same hI nofun
    exact ⟨hkeeps.inv, hkeeps.rely⟩

end

end DianProtocol.Py
