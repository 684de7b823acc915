import DianProtocol.Cpp.Progress

set_option autoImplicit false

/-! # The sessions that callbacks get

`_handle` passes `playCallback` and `teardownCallback` a reference into `sessions` that it has taken
under the lock and uses without it. It stays valid until the entry is erased, and any other
connection may do this with a TEARDOWN of the same session. `pointer_kept` says that nothing else
does.
-/

namespace DianProtocol.Cpp

open Concurrent

variable {ι : Type} [DecidableEq ι]

/-- Another worker has erased `key` since worker `i` has last taken a reference to its entry. -/
def erasedSince (i : ι) (key : Str) (trace : List (Label Actions ι (Shared ι) Ctl)) : Bool :=
  trace.foldl (fun gone l => match l.event with
    | .act (.index _ k) _ => gone && !decide (l.who = i ∧ k = key)
    | .act (.erase k) _ => gone || decide (l.who ≠ i ∧ k = key)
    | _ => gone) false

/-- The key of `sessions` that an event erases. -/
def erasedKey : Event Actions Ctl → Option Str
  | .act (.erase key) _ => some key
  | _ => none

/-- A worker with this progress has a reference to the entry of `key`, for a callback that is to run
with it. -/
def Progress.holds (srv : Server) (t : Progress) (key : Str) : Bool :=
  match t.pointer with
  | some (cb, k) => srv.isSet cb && decide (k = key)
  | none => false

/-- No entry is erased for which another worker is about to run a callback, or runs it. -/
def ErasesUnheld (srv : Server) (before : List (Label Actions ι (Shared ι) Ctl))
    (l : Label Actions ι (Shared ι) Ctl) : Prop :=
  ∀ key ∈ erasedKey l.event, ∀ i, i ≠ l.who → (progress.of i before).holds srv key = false

instance [Fintype ι] (srv : Server) (before : List (Label Actions ι (Shared ι) Ctl))
    (l : Label Actions ι (Shared ι) Ctl) : Decidable (ErasesUnheld srv before l) :=
  inferInstanceAs (Decidable (∀ key ∈ erasedKey l.event, ∀ i, i ≠ l.who →
    (progress.of i before).holds srv key = false))

/-- The references that callbacks are to get are to entries that have not been erased. -/
def PointersKept (srv : Server) (trace : List (Label Actions ι (Shared ι) Ctl)) : Prop :=
  ∀ i key, (progress.of i trace).holds srv key = true → erasedSince i key trace = false

theorem erasedSince_index (trace : List (Label Actions ι (Shared ι) Ctl)) (i : ι) (s : Shared ι)
    (cb : Callback) (key : Str) (r : Unit) :
    erasedSince i key (trace ++ [⟨i, s, .act (S := Actions) (.index cb key) r⟩]) = false := by
  simp [erasedSince]

/-- Other events leave a reference as it is, unless another worker erases its entry. -/
theorem erasedSince_concat {trace : List (Label Actions ι (Shared ι) Ctl)} {i : ι} {key : Str}
    {l : Label Actions ι (Shared ι) Ctl} (h : erasedSince i key trace = false)
    (hl : l.who ≠ i → erasedKey l.event ≠ some key) : erasedSince i key (trace ++ [l]) = false := by
  unfold erasedSince at h ⊢
  rw [List.foldl_concat, h]
  split
  · rfl
  · rename_i k r hev
    by_cases hwho : l.who = i
    · simp [hwho]
    · have hne : k ≠ key := by
        intro heq
        apply hl hwho
        rw [hev, heq]
        rfl
      simp [hne]
  · rfl

/-- An action of worker `i` that leaves it with a reference has taken it, or the worker had it. -/
theorem Progress.holds_act {srv : Server} {t : Progress} {e : Act} {r : e.Ans} {key : Str}
    (h : (t.act e r).holds srv key = true) :
    (∃ cb, e = .index cb key) ∨ t.holds srv key = true := by
  cases e with
  | index cb k =>
      left
      refine ⟨cb, ?_⟩
      have hk : (srv.isSet cb && decide (k = key)) = true := h
      rw [of_decide_eq_true (Bool.and_eq_true_iff.mp hk).2]
  | callback cb x ptr =>
      cases cb with
      | setup => exact Or.inr h
      | play => cases h
      | teardown => cases h
  | _ => exact Or.inr h

theorem PointersKept.push {srv : Server} {o : SObs ι} {i : ι} {ev : Event Actions Ctl}
    {s : Shared ι} (h : PointersKept srv o.trace)
    (hl : ErasesUnheld srv o.trace ⟨i, o.shared, ev⟩) :
    PointersKept srv (o.push i ev s).trace := by
  intro j key hholds
  by_cases hj : i = j
  · subst hj
    rw [Ghost.of_push_self] at hholds
    cases ev with
    | enter l => cases hholds
    | act e r =>
        rcases Progress.holds_act hholds with ⟨cb, rfl⟩ | hholds
        · exact erasedSince_index _ _ _ _ _ _
        · exact erasedSince_concat (h i key hholds) (fun hne => absurd rfl hne)
  · rw [Ghost.of_push_of_ne _ hj] at hholds
    refine erasedSince_concat (h j key hholds) fun _ herased => ?_
    have hfree := hl key herased j (Ne.symm hj)
    rw [hholds] at hfree
    cases hfree

/-- In every run in which no TEARDOWN erases an entry while another worker has a reference to it for
a callback, the entry for which `playCallback` or `teardownCallback` runs has not been erased by
another worker since it was looked up. -/
theorem pointer_kept (srv : Server) (w : World Actions ι (Shared ι) Ctl)
    (hreach : Reach (system srv) initial w) (herases : Throughout (ErasesUnheld srv) w.obs.trace)
    (i : ι) (cb : Callback) (x : Locals) (ptr : SessionPtr) (k : CallbackReturn → Prog Actions Ctl)
    (hcb : cb ≠ .setup) (hprog : w.prog i = .act (S := Actions) (.callback cb x ptr) k) :
    ∃ key, ptr = .entry key ∧ (progress.of i w.obs.trace).pointer = some (cb, key) ∧
      erasedSince i key w.obs.trace = false := by
  have hkept : PointersKept srv w.obs.trace := by
    refine hreach.throughout_invariant (J := fun o => PointersKept srv o.trace) herases ?_ ?_ ?_
    · intro i key hholds
      cases hholds
    · intro w₁ j e k r s _ _ _ hunheld hkept
      exact hkept.push hunheld
    · intro w₁ j l _ _ hunheld hkept
      exact hkept.push hunheld
  have hpre := pre_reach hreach hprog
  cases ptr with
  | own session => exact absurd hpre.1 hcb
  | entry key =>
      obtain ⟨-, hset, -, -, hptr, -⟩ := hpre
      refine ⟨key, rfl, hptr, hkept i key ?_⟩
      unfold Progress.holds
      rw [hptr]
      simp [hset]

/-! ### A TEARDOWN during a PLAY -/

/-- A server with a play callback. -/
def playServer : Server := { playCallback := true, behaves := fun _ _ _ _ => False }

/-- The second section of PLAY, up to the callback. -/
def playCalls : List (Bool × Choice) := List.replicate 3 (false, { ok := true })

/-- The worker `false` is about to run `playCallback`. -/
def plays (w : World Actions Bool (Shared Bool) Ctl) : Bool :=
  match w.prog false with
  | .act (.callback .play _ (.entry key)) _ => decide (key = str "00")
  | _ => false

/-- A client that sets up another session and tears it down. -/
def setupTeardown : List (Bool × Choice) :=
  List.replicate 21 (true, { conn := .ofString ("SETUP diantp://a/ 0.5\r\nTransport: TCP\r\n\r\n"
    ++ "TEARDOWN diantp://a/ 0.5\r\nSession: 01\r\n\r\n"), draws := [(0, 1)] })

/-- `pointer_kept` at a PLAY during which another session is torn down. -/
theorem pointer_kept_play : ∃ w : World Actions Bool (Shared Bool) Ctl,
    Reach (system playServer) initial w ∧
      (progress.of false w.obs.trace).pointer = some (.play, str "00") ∧
      erasedSince false (str "00") w.obs.trace = false := by
  obtain ⟨w, hreach, hw⟩ := run_map playServer (setupPlay ++ playCalls ++ setupTeardown)
    (fun w => plays w && decide (Throughout (ErasesUnheld playServer) w.obs.trace)) true
    (by decide)
  obtain ⟨hplays, herases⟩ := Bool.and_eq_true_iff.mp hw
  unfold plays at hplays
  split at hplays
  · rename_i x key k hprog
    obtain rfl : key = str "00" := of_decide_eq_true hplays
    obtain ⟨key', heq, hptr, hkept⟩ := pointer_kept playServer w hreach (of_decide_eq_true herases)
      false .play x _ k (by simp) hprog
    cases heq
    exact ⟨w, hreach, hptr, hkept⟩
  · cases hplays

/-- A PLAY whose session is torn down by another worker runs its callback with a reference to an
erased entry. -/
theorem play_dangles : ∃ w : World Actions Bool (Shared Bool) Ctl,
    Reach (system playServer) initial w ∧ ∃ x k,
      w.prog false = .act (S := Actions) (.callback .play x (.entry (str "00"))) k ∧
      erasedSince false (str "00") w.obs.trace = true ∧ str "00" ∉ w.obs.shared.sessions := by
  obtain ⟨w, hreach, hw⟩ := run_map playServer (setupPlay ++ playCalls ++ teardown)
    (fun w => plays w && decide (erasedSince false (str "00") w.obs.trace = true ∧
      str "00" ∉ w.obs.shared.sessions)) true (by decide)
  obtain ⟨hplays, herased⟩ := Bool.and_eq_true_iff.mp hw
  unfold plays at hplays
  split at hplays
  · rename_i x key k hprog
    obtain rfl : key = str "00" := of_decide_eq_true hplays
    exact ⟨w, hreach, x, k, hprog, of_decide_eq_true herased⟩
  · cases hplays

end DianProtocol.Cpp
