import DianProtocol.Cpp.Numbers

set_option autoImplicit false

/-! # The urls that `getURI` accepts

A url is `diantp://host:port/path`, where the port may be left out. `getURI` cuts it at the right
places, but it leaves the port to `std::stoi`, which is lenient, and then keeps 16 bits of the
number. `getURI_exact_iff` says that this is the only way in which it departs from the grammar.
-/

namespace DianProtocol.Cpp

/-! ## The grammar -/

/-- `diantp://` -/
def scheme : Str := str "diantp://"

/-- `:port`, if there is a port. -/
def portPart : Option Str → Str
  | none => []
  | some port => 58 :: port

/-- The parts of a url. -/
structure UriText (url host : Str) (port : Option Str) (path : Str) : Prop where
  text : url = scheme ++ (host ++ (portPart port ++ path))
  host_colon : 58 ∉ host
  host_slash : 47 ∉ host
  path : path.head? = some 47
  port : ∀ p, port = some p → Decimal p ∧ digitsVal p ≤ 65535

/-- The number of the port, 554 if there is none. -/
def portNumber : Option Str → Nat
  | none => 554
  | some port => digitsVal port

/-- `getURI` accepts the url if and only if it follows the grammar, and returns its parts. -/
def UriExact (url : Str) : Prop :=
  ∀ uri, getURI url = .ok uri ↔ ∃ host port path, UriText url host port path ∧
    uri = ⟨host, BitVec.ofNat 16 (portNumber port), path⟩

/-- In the place of the port stands a text that is none, but that `stoi` takes an `int` from. -/
def LenientPort (url : Str) : Prop :=
  ∃ host text path n, url = scheme ++ (host ++ 58 :: (text ++ path)) ∧ 58 ∉ host ∧ 47 ∉ host ∧
    47 ∉ text ∧ path.head? = some 47 ∧ Numeral text n ∧ -2 ^ 31 ≤ n ∧ n < 2 ^ 31 ∧
    ¬ (Decimal text ∧ digitsVal text ≤ 65535)

/-! ## What `getURI` does -/

theorem findIdx?_not_mem {s : Str} {c : Byte} (h : c ∉ s) : s.findIdx? (· = c) = none := by
  rw [List.findIdx?_eq_none_iff]
  intro d hd
  simpa using fun heq : d = c => h (heq ▸ hd)

theorem find_not_mem {s : Str} {c : Byte} (h : c ∉ s) : find s c = npos := by
  rw [find, findIdx?_not_mem h]
  rfl

theorem find_append {s t : Str} {c : Byte} (h : c ∉ s) : find (s ++ c :: t) c = s.length := by
  rw [find, List.findIdx?_append, findIdx?_not_mem h, List.findIdx?_cons, decide_eq_true rfl]
  simp

/-- A character that is not in the first part is found behind it, if at all. -/
theorem le_find {s t : Str} {c : Byte} (h : c ∉ s) (hlen : s.length ≤ npos) :
    s.length ≤ find (s ++ t) c := by
  rw [find, List.findIdx?_append, findIdx?_not_mem h]
  cases t.findIdx? (· = c) with
  | none => simpa using hlen
  | some i => simp

theorem getURI_no_scheme {url : Str} (h : ¬ scheme <+: url) (uri : RtspURI) :
    getURI url ≠ .ok uri := by
  intro hok
  unfold getURI at hok
  rw [if_pos (show ¬ str "diantp://" <+: url from h)] at hok
  cases hok

/-- `getURI` behind the scheme. -/
theorem getURI_scheme (rest : Str) :
    getURI (scheme ++ rest) =
      let pos := min (find rest 47) (find rest 58)
      if pos = npos then .error (.exception "invalid url")
      else if rest.getD pos nul = 58 then
        let pathpos := find rest 47
        if pathpos = npos then .error (.exception "invalid url")
        else (stoi ((rest.drop (pos + 1)).take (pathpos - pos - 1))).map fun port =>
          { host := rest.take pos, port := BitVec.ofInt 16 port, path := rest.drop pathpos }
      else .ok { host := rest.take pos, port := 554, path := rest.drop pos } := by
  have hdrop : (scheme ++ rest).drop scheme.length = rest := List.drop_left
  unfold getURI
  dsimp only
  rw [show str "diantp://" = scheme from rfl, if_neg (not_not.mpr (List.prefix_append _ _)), hdrop]

/-- A slash comes first: there is no port. -/
theorem getURI_path {host tail : Str} (hcolon : 58 ∉ host) (hslash : 47 ∉ host)
    (hlen : host.length < npos) :
    getURI (scheme ++ (host ++ 47 :: tail)) = .ok ⟨host, 554, 47 :: tail⟩ := by
  have hpos : min (find (host ++ 47 :: tail) 47) (find (host ++ 47 :: tail) 58) = host.length := by
    have hle := @le_find host (47 :: tail) 58 hcolon (by omega)
    rw [find_append hslash]
    omega
  have hchar : (host ++ 47 :: tail).getD host.length nul = 47 := by simp
  rw [getURI_scheme, hpos]
  dsimp only
  rw [if_neg (by omega), hchar, if_neg (by decide), List.take_left, List.drop_left]

/-- A colon comes first: the port stands between it and the slash. -/
theorem getURI_port {host text tail : Str} (hcolon : 58 ∉ host) (hslash : 47 ∉ host)
    (htext : 47 ∉ text) (hlen : host.length + text.length + 1 < npos) :
    getURI (scheme ++ (host ++ 58 :: (text ++ 47 :: tail))) =
      (stoi text).map fun port => ⟨host, BitVec.ofInt 16 port, 47 :: tail⟩ := by
  have hfront : host ++ 58 :: (text ++ 47 :: tail) = (host ++ 58 :: text) ++ 47 :: tail := by simp
  have hfrontlen : (host ++ 58 :: text).length = host.length + text.length + 1 := by
    simp
    omega
  have hfree : 47 ∉ host ++ 58 :: text := by simp [hslash, htext]
  have hpathpos : find (host ++ 58 :: (text ++ 47 :: tail)) 47 = host.length + text.length + 1 := by
    rw [hfront, find_append hfree, hfrontlen]
  have hpos : find (host ++ 58 :: (text ++ 47 :: tail)) 58 = host.length := find_append hcolon
  have hmin : min (host.length + text.length + 1) host.length = host.length := by omega
  have hchar : (host ++ 58 :: (text ++ 47 :: tail)).getD host.length nul = 58 := by simp
  have hdrop : (host ++ 58 :: (text ++ 47 :: tail)).drop (host.length + 1) =
      text ++ 47 :: tail := by
    rw [List.drop_length_add_append]
    rfl
  have hsub : host.length + text.length + 1 - host.length - 1 = text.length := by omega
  have hpath : (host ++ 58 :: (text ++ 47 :: tail)).drop (host.length + text.length + 1) =
      47 :: tail := by
    rw [hfront, ← hfrontlen, List.drop_left]
  rw [getURI_scheme, hpathpos, hpos, hmin]
  dsimp only
  rw [if_neg (by omega), hchar, if_pos rfl, if_neg (by omega), hdrop, hsub, List.take_left, hpath,
    List.take_left]

theorem getURI_no_slash {rest : Str} (h : 47 ∉ rest) (uri : RtspURI) :
    getURI (scheme ++ rest) ≠ .ok uri := by
  rw [getURI_scheme, find_not_mem h]
  intro hok
  dsimp only at hok
  split at hok
  · cases hok
  · rename_i hpos
    split at hok
    · rw [if_pos rfl] at hok
      cases hok
    · -- the first colon is at the position that has been found
      rename_i hchar
      by_cases hmem : 58 ∈ rest
      · obtain ⟨host, tail, rfl, hhost⟩ := List.eq_append_cons_of_mem hmem
        rw [find_append hhost] at hpos hchar
        have hmin : min npos host.length = host.length := by omega
        rw [hmin] at hchar
        exact hchar (by simp)
      · rw [find_not_mem hmem] at hpos
        exact hpos (Nat.min_self _)

/-! ## The grammar and the shapes of a url -/

/-- A text has a part without slashes and colons in front of the first of them. -/
theorem host_cases (rest : Str) :
    47 ∉ rest ∨ (∃ host tail, rest = host ++ 47 :: tail ∧ 58 ∉ host ∧ 47 ∉ host) ∨
      ∃ host text tail, rest = host ++ 58 :: (text ++ 47 :: tail) ∧ 58 ∉ host ∧ 47 ∉ host ∧
        47 ∉ text := by
  by_cases hslash : 47 ∈ rest
  · obtain ⟨front, tail, rfl, hfront⟩ := List.eq_append_cons_of_mem hslash
    by_cases hcolon : 58 ∈ front
    · obtain ⟨host, text, rfl, hhost⟩ := List.eq_append_cons_of_mem hcolon
      simp only [List.mem_append, List.mem_cons, not_or] at hfront
      exact Or.inr (Or.inr ⟨host, text, tail, by simp, hhost, hfront.1, hfront.2.2⟩)
    · exact Or.inr (Or.inl ⟨front, tail, rfl, hcolon, hfront⟩)
  · exact Or.inl hslash

/-- A part without slashes and colons ends at the first of them. -/
theorem host_unique {host host' s t : Str} {a b : Byte} (hcolon : 58 ∉ host) (hslash : 47 ∉ host)
    (hcolon' : 58 ∉ host') (hslash' : 47 ∉ host') (ha : a = 47 ∨ a = 58) (hb : b = 47 ∨ b = 58)
    (h : host ++ a :: s = host' ++ b :: t) : host = host' ∧ a = b ∧ s = t := by
  let p : Byte → Bool := fun c => decide (c ≠ 47 ∧ c ≠ 58)
  have hfree : ∀ {u : Str}, 58 ∉ u → 47 ∉ u → ∀ c ∈ u, p c = true := by
    intro u hu hu' c hc
    exact decide_eq_true ⟨fun heq => hu' (heq ▸ hc), fun heq => hu (heq ▸ hc)⟩
  have hstop : ∀ {a : Byte} {s : Str}, a = 47 ∨ a = 58 →
      ∀ c, (a :: s).head? = some c → p c = false := by
    intro a s ha c hc
    cases hc
    rcases ha with rfl | rfl
    · decide
    · decide
  obtain ⟨hhost, hrest⟩ := front_unique (hfree hcolon hslash) (hfree hcolon' hslash') (hstop ha)
    (hstop hb) h
  exact ⟨hhost, List.cons.inj hrest⟩

theorem text_unique {text text' s t : Str} (h : 47 ∉ text) (h' : 47 ∉ text')
    (heq : text ++ 47 :: s = text' ++ 47 :: t) : text = text' ∧ s = t := by
  have hfree : ∀ {u : Str}, 47 ∉ u → ∀ c ∈ u, decide (c ≠ 47) = true := by
    intro u hu c hc
    exact decide_eq_true fun heq => hu (heq ▸ hc)
  have hstop : ∀ {u : Str} (c : Byte), (47 :: u).head? = some c → decide (c ≠ 47) = false := by
    intro u c hc
    cases hc
    rfl
  obtain ⟨htext, hrest⟩ := front_unique (hfree h) (hfree h') hstop hstop heq
  exact ⟨htext, (List.cons.inj hrest).2⟩

theorem UriText.split {rest host path : Str} {port : Option Str}
    (h : UriText (scheme ++ rest) host port path) :
    ∃ tail, path = 47 :: tail ∧ rest = host ++ (portPart port ++ 47 :: tail) := by
  obtain ⟨tail, rfl⟩ : ∃ tail, path = 47 :: tail := by
    have hpath := h.path
    cases path with
    | nil => cases hpath
    | cons c tail => exact ⟨tail, by rw [Option.some.inj hpath]⟩
  exact ⟨tail, rfl, List.append_cancel_left h.text⟩

/-- The parts of a url whose first slash comes before any colon. -/
theorem uriText_path {host tail : Str} (hcolon : 58 ∉ host) (hslash : 47 ∉ host)
    {host' path : Str} {port : Option Str} :
    UriText (scheme ++ (host ++ 47 :: tail)) host' port path ↔
      host' = host ∧ port = none ∧ path = 47 :: tail := by
  constructor
  · intro h
    obtain ⟨tail', rfl, hrest⟩ := h.split
    cases port with
    | none =>
        obtain ⟨rfl, -, rfl⟩ := host_unique hcolon hslash h.host_colon h.host_slash (by simp)
          (by simp) hrest
        exact ⟨rfl, rfl, rfl⟩
    | some p =>
        obtain ⟨-, heq, -⟩ := host_unique hcolon hslash h.host_colon h.host_slash (by simp)
          (by simp) hrest
        exact absurd heq (by decide)
  · rintro ⟨rfl, rfl, rfl⟩
    exact ⟨rfl, hcolon, hslash, rfl, fun p hp => by cases hp⟩

/-- The parts of a url with a colon before its first slash. -/
theorem uriText_port {host text tail : Str} (hcolon : 58 ∉ host) (hslash : 47 ∉ host)
    (htext : 47 ∉ text) {host' path : Str} {port : Option Str} :
    UriText (scheme ++ (host ++ 58 :: (text ++ 47 :: tail))) host' port path ↔
      host' = host ∧ port = some text ∧ path = 47 :: tail ∧ Decimal text ∧
        digitsVal text ≤ 65535 := by
  constructor
  · intro h
    obtain ⟨tail', rfl, hrest⟩ := h.split
    cases hport : port with
    | none =>
        rw [hport] at hrest
        obtain ⟨-, heq, -⟩ := host_unique hcolon hslash h.host_colon h.host_slash (by simp)
          (by simp) hrest
        exact absurd heq (by decide)
    | some p =>
        obtain ⟨hdecimal, hle⟩ := h.port p hport
        rw [hport] at hrest
        obtain ⟨rfl, -, hparts⟩ := host_unique hcolon hslash h.host_colon h.host_slash (by simp)
          (by simp) hrest
        have hp : 47 ∉ p := hdecimal.not_mem (by decide)
        obtain ⟨rfl, rfl⟩ := text_unique htext hp hparts
        exact ⟨rfl, rfl, rfl, hdecimal, hle⟩
  · rintro ⟨rfl, rfl, rfl, hdecimal, hle⟩
    refine ⟨rfl, hcolon, hslash, rfl, fun p hp => ?_⟩
    cases hp
    exact ⟨hdecimal, hle⟩

/-! ## Where `getURI` departs from the grammar -/

theorem uriExact_port {host text tail : Str} (hcolon : 58 ∉ host) (hslash : 47 ∉ host)
    (htext : 47 ∉ text) (hlen : host.length + text.length + 1 < npos) :
    UriExact (scheme ++ (host ++ 58 :: (text ++ 47 :: tail))) ↔
      ((∃ port, stoi text = .ok port) → Decimal text ∧ digitsVal text ≤ 65535) := by
  have hbits : (⟨host, BitVec.ofInt 16 (digitsVal text : Int), 47 :: tail⟩ : RtspURI) =
      ⟨host, BitVec.ofNat 16 (portNumber (some text)), 47 :: tail⟩ := by
    rw [BitVec.ofInt_natCast]
    rfl
  unfold UriExact
  rw [getURI_port hcolon hslash htext hlen]
  constructor
  · rintro h ⟨port, hport⟩
    obtain ⟨host', port', path', huri, -⟩ := (h ⟨host, BitVec.ofInt 16 port, 47 :: tail⟩).mp
      (by rw [hport]; rfl)
    exact ((uriText_port hcolon hslash htext).mp huri).2.2.2
  · intro h uri
    constructor
    · intro hok
      cases hport : stoi text with
      | error e =>
          rw [hport] at hok
          cases hok
      | ok port =>
          rw [hport] at hok
          cases hok
          obtain ⟨hdecimal, hle⟩ := h ⟨port, hport⟩
          have hvalue : port = digitsVal text :=
            (stoi_ok_iff.mp hport).1.unique hdecimal.numeral
          refine ⟨host, some text, 47 :: tail,
            (uriText_port hcolon hslash htext).mpr ⟨rfl, rfl, rfl, hdecimal, hle⟩, ?_⟩
          rw [hvalue]
          exact hbits
    · rintro ⟨host', port', path', huri, rfl⟩
      obtain ⟨rfl, rfl, rfl, hdecimal, hle⟩ := (uriText_port hcolon hslash htext).mp huri
      rw [hdecimal.stoi_ok (by omega)]
      exact congrArg Except.ok hbits

/-- **`getURI` accepts its grammar, and ports that `stoi` makes out of other texts.** A string has
fewer than `2 ^ 63` characters. -/
theorem getURI_exact_iff {url : Str} (hsize : url.length < 2 ^ 63) :
    UriExact url ↔ ¬ LenientPort url := by
  by_cases hscheme : scheme <+: url
  · obtain ⟨rest, rfl⟩ := hscheme
    have hmax : npos = 2 ^ 64 - 1 := rfl
    rcases host_cases rest with hslash | ⟨host, tail, rfl, hcolon, hslash⟩ |
      ⟨host, text, tail, rfl, hcolon, hslash, htext⟩
    · -- no path
      refine iff_of_true (fun uri => ?_) ?_
      · refine iff_of_false (getURI_no_slash hslash uri) ?_
        rintro ⟨host, port, path, h, -⟩
        obtain ⟨tail, -, rfl⟩ := h.split
        exact hslash (by simp)
      · rintro ⟨host, text, path, n, heq, -, -, -, hpath, -⟩
        have hrest := List.append_cancel_left heq
        rw [hrest] at hslash
        have hmem := List.mem_of_mem_head? hpath
        exact hslash (by simp [hmem])
    · refine iff_of_true (fun uri => ?_) ?_
      · rw [List.length_append, List.length_append] at hsize
        rw [getURI_path hcolon hslash (by omega)]
        constructor
        · intro hok
          cases hok
          exact ⟨host, none, 47 :: tail, (uriText_path hcolon hslash).mpr ⟨rfl, rfl, rfl⟩, rfl⟩
        · rintro ⟨host', port, path, h, rfl⟩
          obtain ⟨rfl, rfl, rfl⟩ := (uriText_path hcolon hslash).mp h
          rfl
      · rintro ⟨host', text, path, n, heq, hcolon', hslash', -⟩
        obtain ⟨-, hchar, -⟩ := host_unique hcolon hslash hcolon' hslash' (by simp) (by simp)
          (List.append_cancel_left heq)
        exact absurd hchar (by decide)
    · have hlen : host.length + text.length + 1 < npos := by
        simp only [List.length_append, List.length_cons] at hsize
        omega
      rw [uriExact_port hcolon hslash htext hlen]
      constructor
      · rintro h ⟨host', text', path, n, heq, hcolon', hslash', htext', hpath, hn, hlow, hhigh, hno⟩
        obtain ⟨tail', rfl⟩ : ∃ tail', path = 47 :: tail' := by
          cases path with
          | nil => cases hpath
          | cons c tail' => exact ⟨tail', by rw [Option.some.inj hpath]⟩
        obtain ⟨rfl, -, hparts⟩ := host_unique hcolon hslash hcolon' hslash' (by simp) (by simp)
          (List.append_cancel_left heq)
        obtain ⟨rfl, rfl⟩ := text_unique htext htext' hparts
        exact hno (h ⟨n, stoi_ok_iff.mpr ⟨hn, hlow, hhigh⟩⟩)
      · rintro h ⟨port, hport⟩
        by_contra hno
        obtain ⟨hn, hlow, hhigh⟩ := stoi_ok_iff.mp hport
        exact h ⟨host, text, 47 :: tail, port, rfl, hcolon, hslash, htext, rfl, hn, hlow, hhigh, hno⟩
  · -- another scheme
    refine iff_of_true (fun uri => iff_of_false (getURI_no_scheme hscheme uri) ?_) ?_
    · rintro ⟨host, port, path, h, -⟩
      exact hscheme (h.text ▸ List.prefix_append _ _)
    · rintro ⟨host, text, path, n, heq, -⟩
      exact hscheme (heq ▸ List.prefix_append _ _)

theorem getURI_exact_localhost :
    UriExact (str "diantp://localhost:664/testfile") ∧
      ¬ LenientPort (str "diantp://localhost:664/testfile") := by
  have hexact : UriExact (str "diantp://localhost:664/testfile") := by
    have hparts : str "diantp://localhost:664/testfile" =
        scheme ++ (str "localhost" ++ 58 :: (str "664" ++ 47 :: str "testfile")) := by
      decide
    rw [hparts, uriExact_port (by decide) (by decide) (by decide)
      (by decide)]
    exact fun _ => by decide +kernel
  exact ⟨hexact, (getURI_exact_iff (by decide)).mp hexact⟩

/-- A port out of range is accepted, and cut to 16 bits. -/
theorem getURI_port_wraps :
    getURI (str "diantp://localhost:70000/a") = .ok ⟨str "localhost", 4464, str "/a"⟩ ∧
      ¬ UriExact (str "diantp://localhost:70000/a") := by
  have hparts : str "diantp://localhost:70000/a" =
      scheme ++ (str "localhost" ++ 58 :: (str "70000" ++ 47 :: str "a")) := by decide
  refine ⟨by decide, ?_⟩
  rw [hparts, uriExact_port (by decide) (by decide) (by decide)
    (by decide)]
  intro h
  have hstoi : stoi (str "70000") = .ok 70000 := by decide
  exact absurd (h ⟨70000, hstoi⟩).2 (by decide)

end DianProtocol.Cpp
