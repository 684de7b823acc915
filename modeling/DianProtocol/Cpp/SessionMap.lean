import DianProtocol.Cpp.HandleSpec

set_option autoImplicit false

/-! # The session map over whole runs

PLAY looks a session id up in one critical section and applies `operator[]`, which inserts missing
keys, in a second one. As long as the second finds the key that the first has found, every entry of
`sessions` has been made by a SETUP and has the id under which it is stored (`sessions_sound`). A
TEARDOWN between the two makes PLAY insert a session that no SETUP has made (`play_inserts`).
-/

namespace DianProtocol.Cpp

open Concurrent

variable {ι : Type} [DecidableEq ι]

/-- Callbacks do not change session ids. -/
def KeepsIds (srv : Server) : Prop :=
  ∀ cb x session ret, srv.behaves cb x session ret → ret.session.id = session.id

/-- If `l` is the `operator[]` of a PLAY, its key is in the map. -/
def playFinds (l : Label Actions ι (Shared ι) Ctl) : Bool :=
  match l.event with
  | .act (.index .play key) _ => decide (key ∈ l.pre.sessions)
  | _ => true

/-- Whenever a PLAY applies `operator[]` to a session id, the id is in the map. -/
def PlaysFound (trace : List (Label Actions ι (Shared ι) Ctl)) : Prop :=
  ∀ l ∈ trace, playFinds l = true

instance (trace : List (Label Actions ι (Shared ι) Ctl)) : Decidable (PlaysFound trace) :=
  inferInstanceAs (Decidable (∀ l ∈ trace, playFinds l = true))

/-- A SETUP has stored a session with id `k`, and no TEARDOWN has erased `k` since. -/
def SetUp (trace : List (Label Actions ι (Shared ι) Ctl)) (k : Str) : Prop :=
  ∃ before l since, trace = before ++ l :: since ∧
    (∃ request conn, ctlOf l.who before = some (.dispatch request conn) ∧
      request.method = str "SETUP") ∧
    (∃ session, l.event = .act (S := Actions) (.store session) () ∧ session.id = k) ∧
    ∀ m ∈ since, m.event ≠ .act (S := Actions) (.erase k) ()

/-- The entries of the map are stored under their ids, and each was put there by a SETUP, after
every TEARDOWN that has erased its key. -/
structure Sound (o : SObs ι) : Prop where
  id_eq : ∀ k (session : Session), o.shared.sessions[k]? = some session → session.id = k
  setUp : ∀ k ∈ o.shared.sessions, SetUp o.trace k

/-- A key that a TEARDOWN has erased is in the map only if a SETUP has stored it since. -/
def NotRevived (o : SObs ι) : Prop :=
  ∀ before l since k, o.trace = before ++ l :: since →
    l.event = .act (S := Actions) (.erase k) () → k ∈ o.shared.sessions →
    ∃ m ∈ since, ∃ session, m.event = .act (S := Actions) (.store session) () ∧ session.id = k

theorem Sound.notRevived {o : SObs ι} (h : Sound o) : NotRevived o := by
  intro before l since k htrace hl hk
  obtain ⟨before', l', since', htrace', -, ⟨session, hl', hid⟩, hsince⟩ := h.setUp k hk
  rcases List.append_eq_append_iff.mp (htrace.symm.trans htrace') with
    ⟨between, -, hrest⟩ | ⟨between, -, hrest⟩
  · -- the erase comes first, or is the store itself
    cases between with
    | nil =>
        obtain ⟨rfl, -⟩ := List.cons.inj hrest
        cases hl.symm.trans hl'
    | cons m between =>
        obtain ⟨-, rfl⟩ := List.cons.inj hrest
        exact ⟨l', by simp, session, hl', hid⟩
  · cases between with
    | nil =>
        obtain ⟨rfl, -⟩ := List.cons.inj hrest
        cases hl.symm.trans hl'
    | cons m between =>
        obtain ⟨-, rfl⟩ := List.cons.inj hrest
        exact absurd hl (hsince l (by simp))

omit [DecidableEq ι] in
theorem PlaysFound.of_push {o : SObs ι} {i : ι} {ev : Event Actions Ctl} {s : Shared ι}
    (h : PlaysFound (o.push i ev s).trace) : PlaysFound o.trace :=
  fun l hl => h l (List.mem_append_left _ hl)

theorem SetUp.push {o : SObs ι} {k : Str} (h : SetUp o.trace k) {i : ι}
    {ev : Event Actions Ctl} {s : Shared ι} (hev : ev ≠ .act (S := Actions) (.erase k) ()) :
    SetUp (o.push i ev s).trace k := by
  obtain ⟨before, l, since, htrace, hsetup, hstore, hsince⟩ := h
  refine ⟨before, l, since ++ [⟨i, o.shared, ev⟩], ?_, hsetup, hstore, fun m hm => ?_⟩
  · rw [Obs.push_trace, htrace, List.append_assoc, List.cons_append]
  · rcases List.mem_append.mp hm with hm | hm
    · exact hsince m hm
    · rw [List.mem_singleton.mp hm]
      exact hev

/-- A session is live after an event when the event stores it, or when it was live before and the
event does not erase it. -/
theorem setUp_concat {trace : List (Label Actions ι (Shared ι) Ctl)}
    {l : Label Actions ι (Shared ι) Ctl} {k : Str} (h : SetUp (trace ++ [l]) k) :
    (∃ session, l.event = .act (S := Actions) (.store session) () ∧ session.id = k) ∨
      (SetUp trace k ∧ l.event ≠ .act (S := Actions) (.erase k) ()) := by
  obtain ⟨before, m, since, htrace, hsetup, hstore, hsince⟩ := h
  rcases List.eq_nil_or_concat' since with rfl | ⟨since, last, rfl⟩
  · left
    obtain ⟨-, hm⟩ := List.append_inj' htrace rfl
    rw [List.singleton_inj.mp hm]
    exact hstore
  · right
    rw [← List.cons_append, ← List.append_assoc] at htrace
    obtain ⟨hbefore, hl⟩ := List.append_inj' htrace rfl
    obtain rfl : l = last := List.singleton_inj.mp hl
    refine ⟨⟨before, m, since, hbefore, hsetup, hstore, fun n hn => ?_⟩, ?_⟩
    · exact hsince n (List.mem_append_left _ hn)
    · exact hsince l (List.mem_append_right _ (List.mem_singleton.mpr rfl))

omit [DecidableEq ι] in
/-- Only an erase removes a key. -/
theorem performs_keeps_key {srv : Server} {i : ι} {s s' : Shared ι} {e : Act} {r : e.Ans} {k : Str}
    (h : Performs srv i s e r s') (hk : k ∈ s.sessions) (he : e ≠ .erase k) : k ∈ s'.sessions := by
  cases e with
  | index cb key =>
      obtain rfl : s' = _ := h
      exact Map.mem_insertIfNew.mpr (Or.inr hk)
  | store session =>
      obtain rfl : s' = _ := h
      exact Map.mem_insert.mpr (Or.inr hk)
  | erase key =>
      obtain rfl : s' = _ := h
      have hne : key ≠ k := fun heq => he (by rw [heq])
      exact Map.mem_erase.mpr ⟨hne, hk⟩
  | callback cb x ptr =>
      obtain ⟨-, rfl⟩ : _ ∧ s' = _ := h
      cases ptr with
      | own session => exact hk
      | entry key =>
          simp only [SessionPtr.write]
          split
          · exact Map.mem_insert.mpr (Or.inr hk)
          · exact hk
  | hang => exact h.elim
  | _ => simp_all [Performs]

/-- An action that neither adds keys nor replaces entries by ones with other ids keeps the map
sound. -/
theorem Sound.push {o : SObs ι} (h : Sound o) {i : ι} {ev : Event Actions Ctl} {s : Shared ι}
    (hkeys : ∀ k ∈ s.sessions, k ∈ o.shared.sessions ∧ ev ≠ .act (S := Actions) (.erase k) ())
    (hids : ∀ k (session : Session), s.sessions[k]? = some session → session.id = k) :
    Sound (o.push i ev s) where
  id_eq := hids
  setUp := fun k hk => (h.setUp k (hkeys k hk).1).push (hkeys k hk).2

/-- What a callback leaves at its pointer has the id it had before. -/
theorem write_sound {srv : Server} (hkeep : KeepsIds srv) {sessions : Sessions}
    (h : ∀ k (session : Session), sessions[k]? = some session → session.id = k)
    {cb : Callback} {x : Locals} {ptr : SessionPtr} {pointee : Session} {ret : CallbackReturn}
    (hptr : ∀ session, ptr.pointee sessions = some session → session = pointee)
    (hbeh : srv.behaves cb x pointee ret) {k : Str} {session : Session}
    (hk : (ptr.write sessions ret.session)[k]? = some session) : session.id = k := by
  cases ptr with
  | own own => exact h k session hk
  | entry key =>
      simp only [SessionPtr.write] at hk
      split at hk
      · rename_i hmem
        obtain ⟨old, hold⟩ := Map.mem_iff_getElem?.mp hmem
        obtain rfl : old = pointee := hptr old hold
        rw [Map.getElem?_insert] at hk
        split at hk
        · rename_i heq
          cases hk
          rw [hkeep cb x old ret hbeh, h key old hold, heq]
        · exact h k session hk
      · exact h k session hk

theorem Sound.act {srv : Server} (hkeep : KeepsIds srv) {i : ι} {o : SObs ι} {e : Act} {r : e.Ans}
    {s : Shared ι} (hpre : Pre False i o e) (hperf : Performs srv i o.shared e r s)
    (hplays : PlaysFound (o.push i (.act (S := Actions) e r) s).trace) (h : Sound o) :
    Sound (o.push i (.act (S := Actions) e r) s) := by
  cases e with
  | index cb key =>
      obtain rfl : s = _ := hperf
      -- in PLAY the key is there by assumption, in TEARDOWN by the lock
      have hmem : key ∈ o.shared.sessions := by
        by_cases hcb : cb = .play
        · subst hcb
          exact of_decide_eq_true
            (hplays _ (List.mem_append_right _ (List.mem_singleton.mpr rfl)))
        · exact hpre.2.2.1 hcb
      have hsame : ∀ k : Str,
          (o.shared.sessions.insertIfNew key {})[k]? = o.shared.sessions[k]? := by
        intro k
        rw [Map.getElem?_insertIfNew, if_neg fun hk => hk.2 hmem]
      refine h.push (fun k hk => ⟨?_, fun heq => by cases heq⟩) fun k session hk =>
        h.id_eq k session ?_
      · rcases Map.mem_insertIfNew.mp hk with rfl | hk
        · exact hmem
        · exact hk
      · rw [← hsame k]
        exact hk
  | store session =>
      obtain rfl : s = _ := hperf
      refine ⟨fun k session' hk => ?_, fun k hk => ?_⟩
      · rw [Obs.push_shared, Map.getElem?_insert] at hk
        split at hk
        · rename_i heq
          cases hk
          exact heq
        · exact h.id_eq k session' hk
      · by_cases hk' : session.id = k
        · -- this is the SETUP
          exact ⟨o.trace, _, [], rfl, hpre.2.1, ⟨session, rfl, hk'⟩, by simp⟩
        · rcases Map.mem_insert.mp hk with heq | hmem
          · exact absurd heq hk'
          · exact (h.setUp k hmem).push fun heq => by cases heq
  | erase key =>
      obtain rfl : s = _ := hperf
      refine h.push (fun k hk => ⟨Std.ExtTreeMap.mem_of_mem_erase hk, ?_⟩) fun k session hk => ?_
      · -- the key that is erased is not one of those left
        rintro heq
        cases heq
        obtain ⟨v, hv⟩ := Map.mem_iff_getElem?.mp hk
        rw [Map.getElem?_erase, if_pos rfl] at hv
        cases hv
      · rw [Map.getElem?_erase] at hk
        split at hk
        · cases hk
        · exact h.id_eq k session hk
  | callback cb x ptr =>
      have hkeys : ∀ k ∈ s.sessions, k ∈ o.shared.sessions := by
        intro k hk
        rcases performs_new_key hperf hk with hk | ⟨cb', hcb⟩ | ⟨session, hs, -⟩
        · exact hk
        · cases hcb
        · cases hs
      obtain ⟨⟨pointee, hptr, hbeh⟩, rfl⟩ : _ ∧ s = _ := hperf
      exact h.push (fun k hk => ⟨hkeys k hk, fun heq => by cases heq⟩) fun k session hk =>
        write_sound hkeep h.id_eq hptr hbeh hk
  | hang => exact hperf.elim
  | _ =>
      have hs : s.sessions = o.shared.sessions := by simp_all [Performs]
      exact h.push (fun k hk => ⟨hs ▸ hk, fun heq => by cases heq⟩) (hs ▸ h.id_eq)

theorem reach_sound {srv : Server} (hkeep : KeepsIds srv) {w : World Actions ι (Shared ι) Ctl}
    (hreach : Reach (system srv) initial w) (hplays : PlaysFound w.obs.trace) : Sound w.obs := by
  have hinit : Sound (initial (ι := ι)).obs := ⟨by simp [initial], by simp [initial]⟩
  have hgate : False → Gated srv := False.elim
  refine (outline_holds hgate .refl).reach_obs (rounds_safe hgate)
    (J := fun o => PlaysFound o.trace → Sound o) ?_ ?_ (fun _ => hinit) hreach hplays
  · exact fun i o e r s hpre hperf ih hplays =>
      Sound.act hkeep hpre hperf hplays (ih hplays.of_push)
  · exact fun i o l ih hplays => (ih hplays.of_push).push
      (fun k hk => ⟨hk, fun heq => by cases heq⟩) (ih hplays.of_push).id_eq

/-- In every run in which the `operator[]` of PLAY always finds its key, the map is sound in every
state that is reached, and no key comes back after its TEARDOWN. -/
theorem sessions_sound (srv : Server) (hkeep : KeepsIds srv)
    (w : World Actions ι (Shared ι) Ctl) (hreach : Reach (system srv) initial w)
    (hplays : PlaysFound w.obs.trace) : Sound w.obs ∧ NotRevived w.obs := by
  have hsound := reach_sound hkeep hreach hplays
  exact ⟨hsound, hsound.notRevived⟩

/-! ### A TEARDOWN between the two sections of a PLAY -/

/-- A connection on which `text` arrives. -/
def Conn.ofString (text : String) : Conn := ⟨(str text).map .byte, fun _ => []⟩

/-- A server without callbacks. -/
def plainServer : Server := { behaves := fun _ _ _ _ => False }

theorem plainServer_keepsIds : KeepsIds plainServer := fun _ _ _ _ h => h.elim

/-- A client that sets a session up and plays it, up to the first section of PLAY. -/
def setupPlay : List (Bool × Choice) :=
  List.replicate 16 (false, { conn := .ofString ("SETUP diantp://a/ 0.5\r\nTransport: TCP\r\n\r\n"
    ++ "PLAY diantp://a/ 0.5\r\nCSeq: 1\r\nSession: 00\r\n\r\n") })

/-- A client that tears the same session down. -/
def teardown : List (Bool × Choice) :=
  List.replicate 12 (true, { conn := .ofString "TEARDOWN diantp://a/ 0.5\r\nSession: 00\r\n\r\n" })

/-- The second section of PLAY. -/
def playIndex : List (Bool × Choice) := List.replicate 2 (false, { ok := true })

/-- `sessions_sound` at a PLAY that nobody disturbs. -/
theorem sessions_sound_setupPlay : ∃ w : World Actions Bool (Shared Bool) Ctl,
    Reach (system plainServer) initial w ∧ str "00" ∈ w.obs.shared.sessions ∧
      Sound w.obs ∧ NotRevived w.obs := by
  obtain ⟨w, hreach, hw⟩ := run_map plainServer (setupPlay ++ playIndex)
    (fun w => decide (str "00" ∈ w.obs.shared.sessions ∧ PlaysFound w.obs.trace)) true
    (by decide)
  obtain ⟨hmem, hplays⟩ := of_decide_eq_true hw
  exact ⟨w, hreach, hmem, sessions_sound plainServer plainServer_keepsIds w hreach hplays⟩

/-- A PLAY whose session is torn down between its two sections inserts a session of its own, with
an empty id. -/
theorem play_inserts : ∃ w : World Actions Bool (Shared Bool) Ctl,
    KeepsIds plainServer ∧ Reach (system plainServer) initial w ∧
      w.obs.shared.sessions[str "00"]? = some {} ∧ ¬ Sound w.obs := by
  obtain ⟨w, hreach, hw⟩ := run_map plainServer (setupPlay ++ teardown ++ playIndex)
    (fun w => w.obs.shared.sessions[str "00"]?) (some {}) (by decide)
  refine ⟨w, plainServer_keepsIds, hreach, hw, fun hsound => ?_⟩
  exact absurd (hsound.id_eq _ _ hw) (by decide)

end DianProtocol.Cpp
