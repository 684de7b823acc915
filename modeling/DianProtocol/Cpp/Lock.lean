import DianProtocol.Cpp.SessionMap

set_option autoImplicit false

/-! # `_handle` and `sessions_lock`

The lock is taken and released by hand. `_handle` releases it on every way out but one: the answer
454 of TEARDOWN and PLAY is sent inside the critical section, and an exception of that send passes
the `unlock`. `handle_unlocks` says that this is the only one, for every request, session map,
callback and outcome of the sends, whatever the other workers do meanwhile.
-/

namespace DianProtocol.Cpp

open Concurrent

variable {ι : Type} [DecidableEq ι]

/-- What the other workers may do between two actions of worker `i`: they neither take nor release
the lock in its name, and add and remove no sessions while it holds the lock. -/
def Others (i : ι) (s s' : Shared ι) : Prop :=
  (s'.mutex = some i ↔ s.mutex = some i) ∧
    (s.mutex = some i → ∀ k, k ∈ s'.sessions ↔ k ∈ s.sessions)

theorem Others.rely {i : ι} {o : SObs ι} {s : Shared ι} (h : Others i o.shared s) :
    Rely i o ⟨o.trace, s⟩ where
  trace := List.prefix_rfl
  ctl := rfl
  acts := rfl
  mutex := h.1
  keys := h.2

/-- Worker `i`, which does not hold the lock, runs `_handle` for `request`: the actions it performs
leave `o`, and `_handle` returns or throws `r`. -/
def Handles (srv : Server) (i : ι) (before : SObs ι) (request : Request) (conn : Conn) (o : SObs ι)
    (r : Except Exn Unit × Locals) : Prop :=
  before.shared.mutex ≠ some i ∧
    Exec (system srv) i (Others i) (before.push i (.enter (.dispatch request conn)) before.shared)
      ((handle srv).run ⟨request, .ofRequest request, conn⟩) o r

/-- After `_handle` the worker holds the lock if and only if the request was a TEARDOWN or PLAY,
its session was not in the map, and the socket refused the answer 454. -/
theorem handle_unlocks (srv : Server) (i : ι) (before : SObs ι) (request : Request) (conn : Conn)
    (o : SObs ι) (r : Except Exn Unit × Locals) (h : Handles srv i before request conn o r) :
    o.shared.mutex ≠ some i ↔ ¬ Leaks request (o.acts i) := by
  obtain ⟨hfree, hexec⟩ := h
  have hidle : Idle False False i request conn []
      (before.push i (.enter (.dispatch request conn)) before.shared) :=
    { ctl := Obs.ctl_push_enter_self _ _ _ _
      found := by simp
      auth := by simp
      free := Or.inr hfree }
  have henv : ∀ (o : SObs ι) s, (outline srv False).inv o → Others i o.shared s →
      (outline srv False).inv ⟨o.trace, s⟩ ∧ (outline srv False).rely i o ⟨o.trace, s⟩ :=
    fun _ _ _ hothers => ⟨False.elim, hothers.rely⟩
  have hsafe : (outline srv False).Safe i (fun o' _ => Released False i request o') _ _ :=
    handle_safe False.elim hidle (by simp)
  obtain ⟨hreleased, -⟩ := Outline.Safe.exec henv hexec False.elim hsafe
  exact not_congr (hreleased.resolve_left id)

/-! ### The answer 454 on a free server -/

/-- A PLAY without a session. -/
def strayPlay : Request := { method := str "PLAY" }

theorem handle_play {srv : Server} {x : Locals} (h : x.request.method = str "PLAY") :
    (handle srv).run x = (handlePlay srv).run x := by
  have hne : ∀ method, str "PLAY" ≠ method → ¬ x.request.method = method := fun method hne heq =>
    hne (h.symm.trans heq)
  unfold handle
  rw [Exc.run_vars_bind]
  dsimp only
  rw [if_neg (hne _ (by decide)), if_neg (hne _ (by decide)), if_neg (hne _ (by decide)), if_pos h]

/-- Its handling ends without the lock when the answer is sent, and with it when it is not. -/
theorem strayPlay_handles (sent : Bool) : ∃ o r,
    Handles plainServer () ⟨[], {}⟩ strayPlay (.ofString "") o r ∧
      o.shared.mutex = if sent then none else some () := by
  have hmiss : (false = true) ↔ sessionId strayPlay ∈ (∅ : Sessions) := by simp
  have hend : CanEnd (system plainServer) () (Others ())
      (fun o _ => o.shared.mutex = if sent then none else some ())
      ((⟨[], {}⟩ : SObs Unit).push () (.enter (.dispatch strayPlay (.ofString ""))) {})
      ((handle plainServer).run ⟨strayPlay, .ofRequest strayPlay, .ofString ""⟩) := by
    rw [handle_play rfl]
    refine .act () ⟨∅, some ()⟩ ⟨rfl, rfl⟩ (.act false ⟨∅, some ()⟩ ⟨hmiss, rfl⟩ ?_)
    refine .act sent ⟨∅, some ()⟩ rfl ?_
    cases sent with
    | true => exact .act () ⟨∅, none⟩ ⟨rfl, rfl⟩ (.ret rfl)
    | false => exact .ret rfl
  obtain ⟨o, r, hexec, hmutex⟩ := hend
  exact ⟨o, r, ⟨by simp, hexec⟩, hmutex⟩

theorem handle_unlocks_strayPlay : ∃ o r,
    Handles plainServer () ⟨[], {}⟩ strayPlay (.ofString "") o r ∧
    ¬ Leaks strayPlay (o.acts ()) := by
  obtain ⟨o, r, h, hmutex⟩ := strayPlay_handles true
  exact ⟨o, r, h, (handle_unlocks _ _ _ _ _ _ _ h).mp (by rw [hmutex]; simp)⟩

/-- When the send of the answer 454 fails, `_handle` throws with the lock held. -/
theorem strayPlay_keeps_lock : ∃ o r,
    Handles plainServer () ⟨[], {}⟩ strayPlay (.ofString "") o r ∧ o.shared.mutex = some () :=
  strayPlay_handles false

end DianProtocol.Cpp
