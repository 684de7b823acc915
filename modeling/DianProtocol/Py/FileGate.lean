import DianProtocol.Py.DispatchSpec

set_option autoImplicit false

/-! # Files are sent to authorized connections

The key of a client is tested in SETUP only, and what `play` sends goes to the socket of the request
of that SETUP, not to the socket that PLAY came on. The two are the same unless the request of the
SETUP was left over from an earlier connection, and then its socket is closed.
-/

namespace DianProtocol.Py

open Concurrent

variable {ι : Type} [DecidableEq ι]

/-- Worker `i` is about to send bytes of a 206 response of session `id` on a socket that is open. -/
def SendsFile (w : World Actions ι (Shared ι) Ctl) (i : ι) (id : UUID) (socket : Sock) : Prop :=
  ∃ data k, w.prog i = .act (S := Actions) (.send (.play id) socket data) k ∧
    socket ∉ w.obs.shared.closedSockets

/-- On this connection a SETUP with an accepted key has created the session, which has not been
closed since. -/
def FileAuthorized (trace : List (Label Actions ι (Shared ι) Ctl)) (i : ι) (id : UUID)
    (socket : Sock) : Prop :=
  ∃ before l since s, trace = before ++ l :: since ∧ l.who = i ∧
    l.event = .act (S := Actions) (.setitem id s) () ∧
    ctlOf i before = some (.dispatch s.request socket) ∧ s.request.sock = socket ∧
    s.request.method = text "SETUP" ∧ Credentials before i s.request ∧
    ∀ l' ∈ since, l'.event ≠ .act (S := Actions) (.closeFile id) ()

/-- **The gate of the Python server**: with `enable_auth` a connection receives bytes of a file only
for a session that was set up on it with an accepted key and that has not been torn down. -/
theorem files_authorized (srv : Server) (hauth : srv.use_auth = true)
    (w : World Actions ι (Shared ι) Ctl) (hreach : Reach (system srv) initial w) (i : ι) (id : UUID)
    (socket : Sock) (h : SendsFile w i id socket) : FileAuthorized w.obs.trace i id socket := by
  have hw := outline_holds hreach
  obtain ⟨data, k, hprog, hopen⟩ := h
  obtain ⟨s, howned, hfile, rfl⟩ : ∃ s, Owned i w.obs id s ∧ id ∉ w.obs.shared.closedFiles ∧
      socket = s.request.sock := hw.pre hprog
  obtain ⟨j, hentry⟩ := hw.1.entries id s howned.mem
  have hj : j = i := hw.1.uuid_owner id j i hentry.uuid howned.uuid
  subst hj
  have hsame : s.request.sock = s.socket := hentry.sock.resolve_right hopen
  obtain ⟨before, l, since, htrace, hwho, hevent, hctl, hmethod, hcredentials⟩ := hentry.setUp
  refine ⟨before, l, since, s, htrace, hwho, hevent, ?_, rfl, hmethod, hcredentials hauth, ?_⟩
  · rw [hsame]
    exact hctl
  · intro l' hl' hclose
    have hmem : l' ∈ w.obs.trace := by
      rw [htrace]
      exact List.mem_append_right _ (List.mem_cons_of_mem _ hl')
    exact hfile (hw.1.closed l' hmem id hclose)

/-- A SETUP with the key `k` and a PLAY of the session with the id 0. -/
def keyRequest (method : String) : Request where
  method := text method
  url := text "diantp://a/b"
  version := text "0.5"
  headers := ((Dict.set {} (text "Transport") (text "TCP")).set (text "Authorization")
    (text "Bearer k")).set (text "Session") (UUID.str 0)

/-- A client that sets a session up and plays it, up to the first send of `play`. -/
def setupPlay : List (Unit × Choice) :=
  List.replicate 13 ((), { request := .ok (keyRequest "SETUP"), auths := [text "k"] }) ++
    List.replicate 6 ((), { request := .ok (keyRequest "PLAY") })

/-- The worker is about to send the file of the session 0 to the open socket 0. -/
def sendsFile (w : World Actions Unit (Shared Unit) Ctl) : Bool :=
  match w.prog () with
  | .act (.send (.play id) socket _) _ =>
      decide (id = 0 ∧ socket = 0 ∧ socket ∉ w.obs.shared.closedSockets)
  | _ => false

theorem files_authorized_setupPlay : ∃ w : World Actions Unit (Shared Unit) Ctl,
    Reach (system { use_auth := true }) initial w ∧ SendsFile w () 0 0 ∧
      FileAuthorized w.obs.trace () 0 0 := by
  obtain ⟨w, hreach, hw⟩ :=
    run_map { use_auth := true } setupPlay sendsFile true (by decide)
  unfold sendsFile at hw
  split at hw
  · rename_i id socket data k hprog
    obtain ⟨rfl, rfl, hopen⟩ := of_decide_eq_true hw
    have hsends : SendsFile w () 0 0 := ⟨data, k, hprog, hopen⟩
    exact ⟨w, hreach, hsends, files_authorized _ rfl w hreach () 0 0 hsends⟩
  · cases hw

end DianProtocol.Py
