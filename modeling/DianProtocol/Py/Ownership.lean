import DianProtocol.Lib.Ghost
import DianProtocol.Py.DispatchSpec

set_option autoImplicit false

/-! # Sessions of different workers

`_sessions` is looked at in several steps without a lock: the id is found, its session is looked up
for the socket check, and looked up again to be used. From the socket check on the session is the
worker's own, and nobody else removes it. Before that it may be a session of another worker, which
may remove it between the first two steps: then the lookup of the socket check raises a `KeyError`.
`sessions_isolated` says that nothing else can go wrong.
-/

namespace DianProtocol.Py

open Concurrent

variable {ι : Type} [DecidableEq ι]

abbrev SWorld (ι : Type) := World Actions ι (Shared ι) Ctl

/-- The key of an access to `_sessions` that raises a `KeyError` when there is no such key. -/
def Act.key : Act → Option UUID
  | .getitem _ id => some id
  | .pop id => some id
  | _ => none

/-- No worker is about to raise a `KeyError`. -/
def Present (w : SWorld ι) : Prop :=
  ∀ i e k id, w.prog i = .act (S := Actions) e k → Act.key e = some id →
    (w.obs.shared.sessions id).isSome

/-- A worker that is about to call `play` or `close` of a session serves the connection on which it
has itself set the session up. -/
def Isolated (srv : Server) (w : SWorld ι) : Prop :=
  ∀ i site id k, site ≠ .socketCheck → w.prog i = .act (S := Actions) (.getitem site id) k →
    ∃ req s, w.obs.shared.sessions id = some s ∧ w.obs.ctl i = some (.dispatch req s.socket) ∧
      SetUp srv w.obs.trace i id s

/-- The step from `w` to `w'` does not remove a session that another worker has found and is about
to look up for its socket check. -/
def Undisturbed (w w' : SWorld ι) : Prop :=
  ∀ l id r, w'.obs.trace = w.obs.trace ++ [l] → l.event = .act (S := Actions) (.pop id) r →
    ∀ j k, w.prog j ≠ .act (S := Actions) (.getitem .socketCheck id) k

/-- What is about to be looked up for a socket check is there. -/
def Checked (w : SWorld ι) : Prop :=
  ∀ i id k, w.prog i = .act (S := Actions) (.getitem .socketCheck id) k →
    (w.obs.shared.sessions id).isSome

section

variable {srv : Server} {w w' : SWorld ι}

theorem isolated (hw : (outline srv).Holds w) : Isolated srv w := by
  intro i site id k hsite hprog
  obtain ⟨s, howned⟩ : ∃ s, Owned i w.obs id s := by
    have hpre := hw.pre hprog
    cases site with
    | socketCheck => exact absurd rfl hsite
    | play => exact hpre
    | close => exact hpre
  obtain ⟨req, hctl⟩ := howned.ctl
  obtain ⟨j, hentry⟩ := hw.1.entries id s howned.mem
  have hj : j = i := hw.1.uuid_owner id j i hentry.uuid howned.uuid
  exact ⟨req, s, howned.mem, hctl, hj ▸ hentry.setUp⟩

/-- All accesses but the lookup in the socket check find their key in any case. -/
theorem present_iff_checked (hw : (outline srv).Holds w) : Present w ↔ Checked w := by
  constructor
  · exact fun h i id k hprog => h i _ k id hprog rfl
  · intro h i e k id hprog hkey
    have howned : (∃ s, Owned i w.obs id s) → (w.obs.shared.sessions id).isSome := by
      rintro ⟨s, hs⟩
      rw [hs.mem]
      rfl
    have hpre := hw.pre hprog
    cases e with
    | getitem site id' =>
        obtain rfl := Option.some.inj hkey
        cases site with
        | socketCheck => exact h i id' k hprog
        | play => exact howned hpre
        | close => exact howned hpre
    | pop id' =>
        obtain rfl := Option.some.inj hkey
        exact howned hpre
    | _ => cases hkey

omit [DecidableEq ι] in
/-- Only `pop` removes a session. -/
theorem performs_isSome {i : ι} {s s' : Shared ι} {e : Act} {r : e.Ans} {id : UUID}
    (h : Performs i s e r s') (hsome : (s.sessions id).isSome) (hne : e ≠ .pop id) :
    (s'.sessions id).isSome := by
  rcases performs_cases h with rfl | ⟨socket, -, -, rfl⟩ | ⟨id', -, -, rfl⟩ | ⟨id', x, -, rfl⟩ |
    ⟨id', rfl, rfl⟩ | ⟨id', -, rfl⟩ | ⟨socket, -, rfl⟩
  case inr.inr.inr.inl =>
      show (Function.update s.sessions id' (some x) id).isSome
      by_cases heq : id = id'
      · rw [heq, Function.update_self]
        rfl
      · rw [Function.update_of_ne heq]
        exact hsome
  case inr.inr.inr.inr.inl =>
      have hid : id ≠ id' := by
        rintro rfl
        exact hne rfl
      show (Function.update s.sessions id' none id).isSome
      rw [Function.update_of_ne hid]
      exact hsome
  all_goals exact hsome

/-- A worker comes to the lookup of its socket check by finding the key. -/
theorem checked_step (hw' : (outline srv).Holds w') (hstep : Step (system srv) w w')
    (hquiet : Undisturbed w w') (h : Checked w) : Checked w' := by
  intro i id k hprog
  have hpre : (w'.obs.acts i).getLast? = some ⟨.contains id, true⟩ := hw'.pre hprog
  cases hstep with
  | @act i₀ e k₀ r s hprog₀ hperf =>
      by_cases hi : i = i₀
      · subst hi
        rw [Obs.acts_push_act_self, List.getLast?_concat] at hpre
        cases Option.some.inj hpre
        obtain ⟨hfound, rfl⟩ : _ ∧ s = _ := hperf
        exact hfound.symm
      · have hprog' : w.prog i = .act (S := Actions) (.getitem .socketCheck id) k := by
          rw [← hprog]
          exact (Function.update_of_ne hi _ _).symm
        refine performs_isSome hperf (h i id k hprog') fun heq => ?_
        subst heq
        exact hquiet _ id r rfl rfl i k hprog'
  | @enter i₀ l p hprog₀ hl =>
      by_cases hi : i = i₀
      · subst hi
        rw [Obs.acts_push_enter_self] at hpre
        cases hpre
      · have hprog' : w.prog i = .act (S := Actions) (.getitem .socketCheck id) k := by
          rw [← hprog]
          exact (Function.update_of_ne hi _ _).symm
        exact h i id k hprog'

/-- A step that removes a session is made by a worker about to do so, and the session is gone. -/
theorem step_pop (hstep : Step (system srv) w w') {l : Label Actions ι (Shared ι) Ctl} {id : UUID}
    {r : Option Session} (htrace : w'.obs.trace = w.obs.trace ++ [l])
    (hevent : l.event = .act (S := Actions) (.pop id) r) :
    ∃ i k, w.prog i = .act (S := Actions) (.pop id) k ∧ (∀ j, j ≠ i → w'.prog j = w.prog j) ∧
      w'.obs.shared.sessions id = none := by
  obtain ⟨k, s, hprog, ⟨-, rfl⟩, rfl⟩ := hstep.last_act htrace hevent
  exact ⟨l.who, k, hprog, fun j hj => Function.update_of_ne hj _ _, Function.update_self _ _ _⟩

/-- A session that is removed is not there. -/
theorem undisturbed_of_present (hstep : Step (system srv) w w') (h : Present w') :
    Undisturbed w w' := by
  intro l id r htrace hevent j k hprog
  obtain ⟨i, k₀, hprog₀, hothers, hnone⟩ := step_pop hstep htrace hevent
  have hj : j ≠ i := by
    rintro rfl
    rw [hprog₀] at hprog
    cases hprog
  have hsome := h j _ k id ((hothers j hj).trans hprog) rfl
  rw [hnone] at hsome
  cases hsome

end

/-- **Sessions are isolated**: along every run of the server, all uses of a session are by the
worker that has set it up, and no access raises a `KeyError`, if and only if no step removes a
session between the two steps in which another worker finds it and looks it up for its socket
check. -/
theorem sessions_isolated (srv : Server) (ws : List (SWorld ι))
    (hrun : List.IsChain (Step (system srv)) (initial :: ws)) :
    (∀ w ∈ initial :: ws, Isolated srv w ∧ Present w) ↔
      List.IsChain Undisturbed (initial :: ws) := by
  have hinit : (outline (ι := ι) srv).Holds initial ∧ Checked (initial (ι := ι)) :=
    ⟨outline_holds .refl, fun _ _ _ hprog => by cases hprog⟩
  refine isChain_iff (K := fun w => (outline srv).Holds w ∧ Checked w)
    (fun w hw => ⟨isolated hw.1, (present_iff_checked hw.1).mpr hw.2⟩)
    (fun w w' hw hstep hquiet => ?_) (fun w w' _ hstep hgood => ?_) hinit hrun
  · have hw' := hw.1.step rounds_safe hstep
    exact ⟨hw', checked_step hw' hstep hquiet hw.2⟩
  · exact undisturbed_of_present hstep hgood.2

/-! ### Two workers and one session -/

/-- A request with the method, a transport and the id 0 as its session. -/
def sessionRequest (method : String) : Request where
  method := text method
  url := text "diantp://a/b"
  version := text "0.5"
  headers := (Dict.set {} (text "Transport") (text "TCP")).set (text "Session") (UUID.str 0)

/-- A client sets a session up and tears it down; the steps are those before the session is removed.
-/
def setupTeardown {ι : Type} (i : ι) : List (ι × Choice) :=
  List.replicate 12 (i, { request := .ok (sessionRequest "SETUP") }) ++
    List.replicate 9 (i, { request := .ok (sessionRequest "TEARDOWN") })

/-- A single worker disturbs nobody. -/
theorem undisturbed_unit {srv : Server} {w w' : SWorld Unit} (hstep : Step (system srv) w w') :
    Undisturbed w w' := by
  intro l id r htrace hevent j k hprog
  obtain ⟨i, k₀, hprog₀, -, -⟩ := step_pop hstep htrace hevent
  cases hprog₀.symm.trans hprog

/-- The worker is about to remove the session 0. -/
def popsSession (w : SWorld Unit) : Bool :=
  match w.prog () with
  | .act (.pop id) _ => decide (id = 0)
  | _ => false

theorem sessions_isolated_teardown : ∃ (ws : List (SWorld Unit)) (w : SWorld Unit),
    List.IsChain (Step (system {})) (initial :: ws) ∧ w ∈ initial :: ws ∧
      (∃ k, w.prog () = .act (S := Actions) (.pop 0) k) ∧ (w.obs.shared.sessions 0).isSome := by
  obtain ⟨w, hreach, hw⟩ := run_map {} (setupTeardown ()) popsSession true (by decide)
  obtain ⟨ws, hchain, hmem⟩ := hreach.exists_chain
  have hquiet : List.IsChain Undisturbed (initial :: ws) :=
    hchain.imp fun _ _ hstep => undisturbed_unit hstep
  unfold popsSession at hw
  split at hw
  · rename_i id k hprog
    obtain rfl : id = 0 := of_decide_eq_true hw
    have hpresent := ((sessions_isolated {} ws hchain).mpr hquiet w hmem).2
    exact ⟨ws, w, hchain, hmem, ⟨k, hprog⟩, hpresent () _ k 0 hprog rfl⟩
  · cases hw

/-- Another client asks to play the session: its worker finds the session before it is removed. -/
def playRemoved : List (Bool × Choice) :=
  setupTeardown false ++
    List.replicate 6 (true, { socket := 1, request := .ok (sessionRequest "PLAY") }) ++
    [(false, { socket := 0 })]

/-- The second worker is about to look up an id that is no longer in `server.sessions`. -/
def looksUpRemoved (w : SWorld Bool) : Bool :=
  match w.prog true with
  | .act (.getitem .socketCheck id) _ => (w.obs.shared.sessions id).isNone
  | _ => false

/-- The worker of the other client is about to raise a `KeyError`. -/
theorem keyError_reached : ∃ w : SWorld Bool, Reach (system {}) initial w ∧ ¬ Present w := by
  obtain ⟨w, hreach, hw⟩ := run_map {} playRemoved looksUpRemoved true (by decide)
  unfold looksUpRemoved at hw
  refine ⟨w, hreach, fun hpresent => ?_⟩
  split at hw
  · rename_i id k hprog
    have hsome := hpresent true _ k id hprog rfl
    rw [Option.isNone_iff_eq_none.mp hw] at hsome
    cases hsome
  · cases hw

end DianProtocol.Py
