import DianProtocol.Cpp.SessionMap

set_option autoImplicit false

/-! # The authentication gate

Credentials are tested in SETUP only. PLAY and TEARDOWN rely on the map: with `enable_auth` every id
in `sessions` is that of an authorized SETUP. This is the invariant of `outline`, and the
`operator[]` of PLAY keeps it because the id has been looked up before, even if it has been erased
since.
-/

namespace DianProtocol.Cpp

open Concurrent

variable {ι : Type} [DecidableEq ι]

/-- The session with id `id` is used: a worker is about to run `playCallback` or `teardownCallback`
for it, or to answer 200 to a PLAY or TEARDOWN for it. -/
inductive Uses (w : World Actions ι (Shared ι) Ctl) (i : ι) : Str → Prop where
  | callback {cb : Callback} {x : Locals} {key : Str}
      {k : CallbackReturn → Prog Actions Ctl} : cb ≠ .setup →
      w.prog i = .act (S := Actions) (.callback cb x (.entry key)) k → Uses w i key
  | ok {request : Request} {conn : Conn} {site : Site} {x : Locals}
      {k : Bool → Prog Actions Ctl} :
      w.obs.ctl i = some (.dispatch request conn) → UsesSession request →
      x.response.status = 200 → w.prog i = .act (S := Actions) (.send site x) k →
      Uses w i (sessionId request)

/-- **The authentication gate**: in every run of a server that requires authentication, a session
is used only after a SETUP for its id has presented credentials that `authCallback` accepted. -/
theorem uses_authorized (srv : Server) (hgated : Gated srv) (w : World Actions ι (Shared ι) Ctl)
    (hreach : Reach (system srv) initial w) (i : ι) (id : Str) (h : Uses w i id) :
    Authorized w.obs.trace id := by
  have hw : (outline srv True).Holds w := outline_holds (fun _ => hgated) hreach
  cases h with
  | @callback cb x key k hcb hprog =>
      obtain ⟨request, conn, -, -, hptr, hauth⟩ := hw.pre hprog hcb
      cases hptr
      exact hauth trivial
  | @ok request conn site x k hctl huse hstatus hprog =>
      exact hw.pre hprog hstatus request conn hctl huse trivial

/-- A server that requires authentication. -/
def gatedServer : Server :=
  { enable_auth := true, authCallback := true, behaves := fun _ _ _ _ => False }

/-- A client that sets a session up, is authorized, and plays it, up to the answer of PLAY. -/
def authorizedPlay : List (Unit × Choice) :=
  List.replicate 20 ((), { conn := .ofString ("SETUP diantp://a/ 0.5\r\nUser-Agent: u\r\n"
    ++ "Authorization: p\r\nTransport: TCP\r\n\r\n"
    ++ "PLAY diantp://a/ 0.5\r\nCSeq: 1\r\nSession: 00\r\n\r\n") })

/-- The worker is about to answer a PLAY of the session with the id `00` with 200. -/
def answersPlay (w : World Actions Unit (Shared Unit) Ctl) : Bool :=
  match w.prog (), w.obs.ctl () with
  | .act (.send .handle x) _, some (.dispatch request _) =>
      decide (x.response.status = 200 ∧ request.method = str "PLAY" ∧ sessionId request = str "00")
  | _, _ => false

theorem uses_authorized_play : ∃ w : World Actions Unit (Shared Unit) Ctl,
    Reach (system gatedServer) initial w ∧ Uses w () (str "00") ∧
      Authorized w.obs.trace (str "00") := by
  obtain ⟨w, hreach, hw⟩ := run_map gatedServer authorizedPlay answersPlay true (by decide +kernel)
  unfold answersPlay at hw
  split at hw
  · rename_i x k request conn hprog hctl
    obtain ⟨hstatus, hmethod, hid⟩ := of_decide_eq_true hw
    have huses : Uses w () (str "00") := hid ▸ .ok hctl (Or.inr hmethod) hstatus hprog
    exact ⟨w, hreach, huses,
      uses_authorized gatedServer ⟨rfl, rfl, fun _ _ _ h => h.elim⟩ w hreach () _ huses⟩
  · cases hw

end DianProtocol.Cpp
