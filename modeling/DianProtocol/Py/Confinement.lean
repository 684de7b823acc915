import DianProtocol.Lib.Paths
import DianProtocol.Py.DispatchSpec

set_option autoImplicit false

/-! # Sessions stay in the root directory

`Session.__init__` does not look at dot components and does not normalize the path. What keeps a
session in `root` is the regular expression: the name behind the host has no slash, so it is one
component behind `root`, and a dot component leads to a directory, which cannot be opened.
-/

namespace DianProtocol.Py

open Concurrent Regex Paths

/-- The urls that name a file: `diantp://`, a host, a slash and a name. -/
def NamesFile (url : Text) : Prop :=
  ∃ host file, url = text "diantp://" ++ host ++ '/' :: file ∧ (host ≠ [] ∧ '/' ∉ host) ∧
    file ≠ [] ∧ '/' ∉ file

/-- A file that is opened lies directly in the directory `root`, whatever files there are. -/
def StaysIn (root : Text) : Act → Prop
  | .open_ _ path => ∀ (ι : Type) (fs : Hierarchy ι) (cwd x : ι), fs.opens cwd path = some x →
      ∃ d, fs.directory cwd root = some d ∧ fs.Lists d x
  | _ => True

/-! ## The urls that match -/

theorem not_slash_iff {t : Text} : (∀ c ∈ t, not_slash c = true) ↔ '/' ∉ t := by
  constructor
  · intro h hmem
    exact absurd (h '/' hmem) (by decide)
  · intro h c hc
    exact decide_eq_true fun hslash => h (hslash ▸ hc)

/-- A component `[^/]+` in a group. -/
theorem mem_component {name : String} {s : Text} {x : Way Char} :
    x ∈ results (.group name (.rep true 1 not_slash)) s ↔
      ∃ u v, s = u ++ v ∧ (u ≠ [] ∧ '/' ∉ u) ∧ x = ⟨[(name, u)], u, v⟩ := by
  simp only [mem_group, mem_rep, not_slash_iff]
  constructor
  · rintro ⟨y, ⟨u, v, rfl, hu, hlen, rfl⟩, rfl⟩
    exact ⟨u, v, rfl, ⟨List.ne_nil_of_length_pos hlen, hu⟩, rfl⟩
  · rintro ⟨u, v, rfl, ⟨hne, hu⟩, rfl⟩
    exact ⟨_, ⟨u, v, rfl, hu, List.length_pos_of_ne_nil hne, rfl⟩, rfl⟩

theorem mem_sessionUrl {url : Text} {x : Way Char} (h : x ∈ results SessionUrl_re url) :
    ∃ host file rest, url = text "diantp://" ++ (host ++ '/' :: (file ++ rest)) ∧
      (host ≠ [] ∧ '/' ∉ host) ∧ (file ≠ [] ∧ '/' ∉ file) ∧ (rest = [] ∨ rest = ['\n']) ∧
      x.groups = [("host", host), ("file", file)] := by
  obtain ⟨s, rfl, x₁, hx₁, rfl⟩ := mem_literal.mp h
  obtain ⟨y, hy, x₂, hx₂, rfl⟩ := mem_seq.mp hx₁
  obtain ⟨host, s₂, rfl, hhost, rfl⟩ := mem_component.mp hy
  obtain ⟨z, hz, x₃, hx₃, rfl⟩ := mem_seq.mp hx₂
  obtain ⟨c, s₃, hs, hc, rfl⟩ := mem_one.mp hz
  obtain rfl : c = '/' := of_decide_eq_true hc
  obtain ⟨w, hw, x₄, hx₄, rfl⟩ := mem_seq.mp hx₃
  obtain ⟨file, rest, hs', hfile, rfl⟩ := mem_component.mp hw
  obtain ⟨hrest, rfl⟩ := mem_eol.mp hx₄
  obtain rfl : s₂ = '/' :: s₃ := hs
  obtain rfl : s₃ = file ++ rest := hs'
  exact ⟨host, file, rest, rfl, hhost, hfile, hrest, rfl⟩

/-- The regular expression matches the urls that name a file, and no others. A newline at the end is
part of the name. -/
theorem sessionUrl_isSome {url : Text} : (SessionUrl_re.match? url).isSome ↔ NamesFile url := by
  constructor
  · intro h
    obtain ⟨x, hx⟩ := Option.isSome_iff_exists.mp h
    obtain ⟨host, file, rest, rfl, hhost, hfile, hrest, -⟩ := mem_sessionUrl (List.mem_of_head? hx)
    refine ⟨host, file ++ rest, by rw [List.append_assoc], hhost,
      fun hnil => hfile.1 (List.append_eq_nil_iff.mp hnil).1, fun hmem => ?_⟩
    rcases List.mem_append.mp hmem with hmem | hmem
    · exact hfile.2 hmem
    · rcases hrest with rfl | rfl
      · cases hmem
      · exact absurd hmem (by decide)
  · rintro ⟨host, file, rfl, hhost, hfile⟩
    have hmem : ∃ x, x ∈ results SessionUrl_re (text "diantp://" ++ host ++ '/' :: file) := by
      refine ⟨_, mem_literal.mpr ⟨_, List.append_assoc _ _ _, _, mem_seq.mpr
        ⟨_, mem_component.mpr ⟨host, _, rfl, hhost, rfl⟩, _, mem_seq.mpr
          ⟨_, mem_one.mpr ⟨'/', file, rfl, rfl, rfl⟩, _, mem_seq.mpr
            ⟨_, mem_component.mpr ⟨file, [], (List.append_nil _).symm, hfile, rfl⟩, _,
              mem_eol.mpr ⟨Or.inl rfl, rfl⟩, rfl⟩, rfl⟩, rfl⟩, rfl⟩⟩
    obtain ⟨x, hx⟩ := hmem
    rw [Pat.match?, List.isSome_head?]
    exact List.ne_nil_of_mem hx

/-- The name that `Session.__init__` takes out of a url is one component. -/
theorem sessionUrl_file {url : Text} {m : Way Char} (h : SessionUrl_re.match? url = some m) :
    '/' ∉ (m.group? "file").getD [] := by
  obtain ⟨host, file, rest, -, -, hfile, -, hgroups⟩ := mem_sessionUrl (List.mem_of_head? h)
  have hgroup : m.group? "file" = some file := by
    rw [Way.group?, hgroups]
    rfl
  rw [hgroup]
  exact hfile.2

/-! ## The path -/

/-- A component behind `root` is looked up in `root`. -/
theorem join_opens {root file : Text} (hfile : '/' ∉ file) {ι : Type} {fs : Hierarchy ι}
    {cwd x : ι} (h : fs.opens cwd (join root file) = some x) :
    ∃ d, fs.directory cwd root = some d ∧ fs.Lists d x := by
  rw [join] at h
  split at h
  · rename_i hroot
    rcases hroot with rfl | hlast
    · -- without a root, in the working directory
      exact ⟨cwd, if_pos rfl, Hierarchy.opens_name hfile h⟩
    · obtain ⟨dir, rfl⟩ := List.getLast?_eq_some_iff.mp hlast
      rw [List.append_assoc] at h
      exact Hierarchy.opens_append_name hfile h
  · rename_i hroot
    rw [List.append_assoc] at h
    exact Hierarchy.opens_slash_name (fun hnil => hroot (Or.inl hnil)) hfile h

theorem init_staysIn (root : Text) (request : SockRequest) (socket : Sock) (id : UUID) :
    Exc.Uses (S := Actions) (StaysIn root) (Session.init root request socket id) := by
  have hsend : ∀ (origin : Origin) (socket : Sock) (data : Bytes),
      StaysIn root (.send origin socket data) := fun _ _ _ => trivial
  have hrespond : ∀ r : Response, Exc.Uses (S := Actions) (StaysIn root) (respond request r) :=
    fun r => Exc.Uses.bind (send_uses (hsend _ _ _)) fun _ => send_uses (hsend _ _ _)
  unfold Session.init
  split
  · exact Exc.Uses.bind (hrespond _) fun _ => Exc.Uses.throw _
  · rename_i m hm
    refine Exc.Uses.bind (Exc.Uses.perform (S := Actions) (e := .exists_ _) trivial) fun found => ?_
    cases found with
    | true =>
        have hopen : StaysIn root (.open_ id (join root ((m.group? "file").getD []))) :=
          fun ι fs cwd x hx => join_opens (sessionUrl_file hm) hx
        refine Exc.Uses.bind (Exc.Uses.perform (S := Actions) (e := .open_ id _) hopen) fun r => ?_
        exact Exc.Uses.bind (attempt_uses r) fun _ => Exc.Uses.pure _
    | false => exact Exc.Uses.bind (hrespond _) fun _ => Exc.Uses.throw _

/-- **Confinement of the sessions**: whatever the file system answers, a file that
`Session.__init__` opens lies directly in `root`, and a url that does not name a file is answered
400 without a look at the file system. -/
theorem session_confined (root : Text) (request : SockRequest) (socket : Sock) (id : UUID) :
    Exc.Uses (S := Actions) (StaysIn root) (Session.init root request socket id) ∧
      (¬ NamesFile request.url → Session.init root request socket id = do
        respond request { status := 400, status_text := text "Bad Request" }
        Exc.throw .StopHandler) := by
  refine ⟨init_staysIn root request socket id, fun hurl => ?_⟩
  have hnone : SessionUrl_re.match? request.url = none := by
    rw [← Option.not_isSome_iff_eq_none, sessionUrl_isSome]
    exact hurl
  rw [Session.init, hnone]

/-- A request whose url has a component too many. -/
def upRequest : SockRequest where
  method := text "SETUP"
  url := text "diantp://a/../b"
  version := text "0.5"
  sock := 0

theorem session_confined_up :
    Session.init (text "testfile") upRequest 0 0 = (do
      respond upRequest { status := 400, status_text := text "Bad Request" }
      Exc.throw .StopHandler) := by
  refine (session_confined (text "testfile") upRequest 0 0).2 fun hurl => ?_
  have hsome := sessionUrl_isSome.mpr hurl
  revert hsome
  decide

end DianProtocol.Py
