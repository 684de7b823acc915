import DianProtocol.Cpp.File
import DianProtocol.Cpp.HandleSpec

set_option autoImplicit false

/-! # Sending a response with a file as its body

`Response::send` announces the `maxlen()` of its body and then sends what successive reads of 1024
bytes return, until one returns an empty buffer. The bytes of the body agree with the announced
length when the reader stops where its file or its range ends: `transfers_chunks` is the loop over
the chunks, and `send_reader` puts it together for the two readers of files.
-/

namespace DianProtocol.Cpp

open Concurrent

/-! ## What the client gets -/

/-- The loop of `socket::send(StreamReader&)`, over the buffers that the reader returns: the bytes
that are sent when it ends. -/
inductive Transfers : (Nat → Str) → Str → Prop where
  | stop {reads : Nat → Str} : reads 0 = [] → Transfers reads []
  | chunk {reads : Nat → Str} {rest : Str} : reads 0 ≠ [] →
      Transfers (fun n => reads (n + 1)) rest → Transfers reads (reads 0 ++ rest)

/-- The bytes that a program sends, and its result, when every `::send` transmits its whole
buffer. -/
inductive Sends {α : Type} : Prog Actions α → Str → α → Prop where
  | ret (a : α) : Sends (.ret a) [] a
  | send {site : Site} {x : Locals} {k : Bool → Prog Actions α} {bytes : Str} {a : α} :
      Sends (k true) bytes a →
      Sends (.act (S := Actions) (.send site x) k) (x.response.unparseHead ++ bytes) a
  | sendBody {site : Site} {body : StreamReader} {k : Option Exn → Prog Actions α}
      {content bytes : Str} {a : α} : Transfers body.reads content → Sends (k none) bytes a →
      Sends (.act (S := Actions) (.sendBody site body) k) (content ++ bytes) a

theorem Transfers.unique {reads : Nat → Str} {s t : Str} (hs : Transfers reads s)
    (ht : Transfers reads t) : s = t := by
  induction hs generalizing t with
  | stop hnil =>
      cases ht with
      | stop _ => rfl
      | chunk hne _ => exact absurd hnil hne
  | chunk hne _ ih =>
      cases ht with
      | stop hnil => exact absurd hnil hne
      | chunk _ hrest => rw [ih hrest]

/-- The response with the `Content-Length` that `send` adds. -/
def announced (res : Response) (n : Nat) : Response :=
  { res with headers := res.headers.insert (str "Content-Length") (to_string n) }

/-- `send` transmits the head of the response with the `Content-Length` of its body, and then what
the loop over the body sends. -/
theorem sends_iff (site : Site) {x : Locals} {body : StreamReader} {n : Nat}
    (hfresh : x.response.sended = false) (hbody : x.response.body = some body)
    (hlen : body.maxlen = some n) {bytes : Str} {result : Except Exn Unit × Locals} :
    Sends ((send site).run x) bytes result ↔ ∃ content, Transfers body.reads content ∧
      bytes = (announced x.response n).unparseHead ++ content ∧
        result =
          (.ok (), { x with response := { announced x.response n with sended := true } }) := by
  rw [send_run, if_neg (by simp [hfresh]), hbody]
  dsimp only
  rw [hlen]
  dsimp only
  constructor
  · intro h
    cases h with
    | send h =>
        dsimp only at h
        rw [if_pos rfl] at h
        cases h with
        | @sendBody _ _ _ content _ _ hcontent h =>
            cases h
            exact ⟨content, hcontent, by rw [List.append_nil]; rfl, rfl⟩
  · rintro ⟨content, hcontent, rfl, rfl⟩
    refine Sends.send (x := { x with response := announced x.response n }) ?_
    rw [if_pos rfl, ← List.append_nil content]
    exact Sends.sendBody hcontent (Sends.ret _)

/-! ## The chunks of a file -/

/-- **The chunk loop.** A reader that moves from `p` to `stop` in chunks of a file and then returns
an empty buffer makes the loop send what lies between the two. -/
theorem transfers_chunks {ρ : Type} (read : ρ → Junk → Str × ρ) (at_ : Nat → ρ) {bytes : Str}
    {p stop : Nat} (hp : p ≤ stop) (hle : stop ≤ bytes.length)
    (hstep : ∀ q junk, p ≤ q → q < stop → ∃ k, 0 < k ∧ q + k ≤ stop ∧
      read (at_ q) junk = ((bytes.drop q).take k, at_ (q + k)))
    (hstop : ∀ junk, (read (at_ stop) junk).1 = []) (memory : Nat → Junk) :
    Transfers (readsOf read memory (at_ p)) ((bytes.drop p).take (stop - p)) := by
  -- by induction on the bytes that are left
  obtain ⟨left, hleft⟩ : ∃ left, stop - p = left := ⟨_, rfl⟩
  induction left using Nat.strong_induction_on generalizing p memory with
  | _ left ih =>
      by_cases hend : p = stop
      · subst hend
        rw [Nat.sub_self, List.take_zero]
        exact Transfers.stop (hstop (memory 0))
      · obtain ⟨k, hpos, hk, hread⟩ := hstep p (memory 0) (Nat.le_refl p) (by omega)
        have hchunk : readsOf read memory (at_ p) 0 = (bytes.drop p).take k := by
          rw [readsOf, hread]
        have hrest : (fun n => readsOf read memory (at_ p) (n + 1)) =
            readsOf read (fun i => memory (i + 1)) (at_ (p + k)) := by
          funext n
          rw [readsOf, hread]
        have hne : readsOf read memory (at_ p) 0 ≠ [] := by
          rw [hchunk]
          refine List.ne_nil_of_length_pos ?_
          rw [List.length_take, List.length_drop]
          omega
        have hnext := ih (stop - (p + k)) (by omega) hk
          (fun q junk hq => hstep q junk (by omega)) (fun i => memory (i + 1)) rfl
        have hsplit : (bytes.drop p).take (stop - p) =
            readsOf read memory (at_ p) 0 ++ (bytes.drop (p + k)).take (stop - (p + k)) := by
          have hsum : stop - p = k + (stop - (p + k)) := by omega
          rw [hchunk, hsum, List.take_add, List.drop_drop]
        rw [hsplit]
        exact Transfers.chunk hne (hrest ▸ hnext)

/-- A file reader sends the rest of its file, when text mode alters nothing of it. -/
theorem FileStreamReader.transfers_plain {r : FileStreamReader} {p : Nat} (h : r.At p)
    (hplain : r.file.Plain r.file.file.bytes.length) (memory : Nat → Junk) :
    Transfers (r.body memory).reads (r.file.file.bytes.drop p) := by
  let at_ : Nat → FileStreamReader := fun p => { r with file := { r.file with pos := p } }
  have hself : at_ p = r := by
    rw [← h.pos]
  have hat : ∀ q, q ≤ r.file.file.bytes.length → (at_ q).At q := fun q hq =>
    ⟨h.good, rfl, hq, h.filesize⟩
  have hread : ∀ q junk, p ≤ q → q ≤ r.file.file.bytes.length →
      (at_ q).read 1024 junk =
        ((r.file.file.bytes.drop q).take (min 1024 (r.file.file.bytes.length - q)),
          at_ (q + min 1024 (r.file.file.bytes.length - q))) := fun q junk hpq hq =>
    FileStreamReader.read_plain (hat q hq) rfl
      (fun htext i hlow hhigh => hplain htext i (by rw [h.pos]; exact Nat.le_trans hpq hlow)
        (Nat.lt_of_lt_of_le hhigh (by show q + min _ (r.file.file.bytes.length - q) ≤ _; omega)))
      junk
  have hstep : ∀ q junk, p ≤ q → q < r.file.file.bytes.length → ∃ k, 0 < k ∧
      q + k ≤ r.file.file.bytes.length ∧
        (at_ q).read 1024 junk = ((r.file.file.bytes.drop q).take k, at_ (q + k)) := by
    intro q junk hpq hq
    exact ⟨min 1024 (r.file.file.bytes.length - q), by omega, by omega,
      hread q junk hpq (by omega)⟩
  have hlast : ∀ junk, ((at_ r.file.file.bytes.length).read 1024 junk).1 = [] := by
    intro junk
    rw [hread _ junk h.le (Nat.le_refl _)]
    simp
  have hchunks :=
    transfers_chunks (fun r => r.read 1024) at_ h.le (Nat.le_refl _) hstep hlast memory
  rw [hself, List.take_of_length_le (by rw [List.length_drop])] at hchunks
  exact hchunks

theorem FileStreamReader.transfers {r : FileStreamReader} {p : Nat} (h : r.At p)
    (hraw : r.file.text = false) (memory : Nat → Junk) :
    Transfers (r.body memory).reads (r.file.file.bytes.drop p) :=
  transfers_plain h (fun htext => absurd htext (by simp [hraw])) memory

/-- A range reader sends its range, up to the end of the file. -/
theorem RangeFileStreamReader.transfers {r : RangeFileStreamReader} {p : Nat}
    (h : r.toFileStreamReader.At p) (hend : r.end_ < size_t (-1)) (hp : p ≤ r.end_)
    (hplain : r.file.Plain r.end_) (memory : Nat → Junk) :
    Transfers (r.body memory).reads ((r.file.file.bytes.drop p).take (r.end_ - p)) := by
  let at_ : Nat → RangeFileStreamReader := fun q =>
    { r with file := { r.file with pos := q } }
  have hself : at_ p = r := by
    rw [← h.pos]
  have hat : ∀ q, q ≤ r.file.file.bytes.length → (at_ q).toFileStreamReader.At q := fun q hq =>
    ⟨h.good, rfl, hq, h.filesize⟩
  obtain ⟨stop, hstop⟩ : ∃ stop, stop = min r.end_ r.file.file.bytes.length := ⟨_, rfl⟩
  have hle : p ≤ stop := by
    have hlen := h.le
    omega
  have hread : ∀ q junk, p ≤ q → q < stop → ∃ k, 0 < k ∧ q + k ≤ stop ∧
      (at_ q).read 1024 junk = ((r.file.file.bytes.drop q).take k, at_ (q + k)) := by
    intro q junk hpq hq
    refine ⟨min 1024 (stop - q), by omega, by omega, ?_⟩
    rw [RangeFileStreamReader.read_eq (hat q (by omega)) hend (by show q < r.end_; omega)]
    have hplain' : (at_ q).file.Plain (q + min 1024 (stop - q)) := fun htext i hlow hhigh =>
      hplain htext i (by rw [h.pos]; exact Nat.le_trans hpq hlow) (by omega)
    rw [FileStreamReader.read_plain (k := min 1024 (stop - q)) (hat q (by omega)) ?_ hplain']
    show min 1024 (stop - q) = min (min 1024 (r.end_ - q)) (r.file.file.bytes.length - q)
    omega
  have hlast : ∀ junk, ((at_ stop).read 1024 junk).1 = [] := by
    intro junk
    by_cases hshort : r.end_ ≤ stop
    · rw [RangeFileStreamReader.read_end (hat stop (by omega)) hend hshort]
    · -- the range ends behind the file
      rw [RangeFileStreamReader.read_eq (hat stop (by omega)) hend (by show stop < r.end_; omega)]
      have hplain' : (at_ stop).file.Plain (stop + 0) := fun htext i hlow hhigh =>
        absurd hlow (by show ¬ stop ≤ i; omega)
      rw [FileStreamReader.read_plain (k := 0) (hat stop (by omega)) ?_ hplain']
      · simp
      · show 0 = min (min 1024 (r.end_ - stop)) (r.file.file.bytes.length - stop)
        omega
  have hchunks := transfers_chunks (fun r => r.read 1024) at_ hle (by omega) hread hlast memory
  have htake : (r.file.file.bytes.drop p).take (r.end_ - p) =
      (r.file.file.bytes.drop p).take (stop - p) := by
    rw [List.take_eq_take_iff, List.length_drop]
    omega
  rw [hself] at hchunks
  rw [htake]
  exact hchunks

/-- A byte of the range that text mode alters is not sent, when the buffers held zeros. -/
theorem RangeFileStreamReader.not_transfers {r : RangeFileStreamReader} {p i : Nat}
    (h : r.toFileStreamReader.At p) (hend : r.end_ < size_t (-1)) (htext : r.file.text = true)
    (hlow : p ≤ i) (hhigh : i < r.end_) (hplain : r.file.Plain i)
    (halt : Altered r.file.file.bytes i) {content : Str}
    (hcontent : Transfers (r.body fun _ _ => 0).reads content) :
    content[i - p]? ≠ r.file.file.bytes[i]? := by
  have hin : i < r.file.file.bytes.length := by
    rcases halt with halt | ⟨halt, -⟩
    · exact (List.getElem?_eq_some_iff.mp halt).1
    · exact (List.getElem?_eq_some_iff.mp halt).1
  -- by induction on the bytes in front of `i`
  obtain ⟨left, hleft⟩ : ∃ left, i - p = left := ⟨_, rfl⟩
  induction left using Nat.strong_induction_on generalizing r p content with
  | _ left ih =>
      obtain ⟨k, hk⟩ : ∃ k, k = min (min 1024 (r.end_ - p)) (r.file.file.bytes.length - p) :=
        ⟨_, rfl⟩
      have hread : r.read 1024 (fun _ => 0) = ((r.file.read k fun _ => 0).1,
          { r with file := (r.file.read k fun _ => 0).2 }) := by
        rw [RangeFileStreamReader.read_eq h hend (by omega),
          FileStreamReader.read_eq h hk fun _ => 0]
      have hchunk : (r.body fun _ _ => 0).reads 0 = (r.file.read k fun _ => 0).1 :=
        congrArg Prod.fst hread
      have hlen : (r.file.read k fun _ => 0).1.length = k := IFStream.length_read _ _ _
      cases hcontent with
      | stop hnil =>
          -- the buffer is not empty
          rw [hchunk] at hnil
          rw [hnil] at hlen
          simp only [List.length_nil] at hlen
          omega
      | @chunk _ rest _ hrest =>
          rw [hchunk]
          by_cases hnow : i < p + k
          · rw [List.getElem?_append_left (by omega)]
            have hdiff := IFStream.read_altered h.good htext (h.pos ▸ hlow) (h.pos.symm ▸ hnow)
              hplain halt
            rwa [h.pos] at hdiff
          · rw [List.getElem?_append_right (by omega), hlen]
            have hplain' : r.file.Plain (p + k) := fun htext j hj hj' =>
              hplain htext j hj (by omega)
            have hle : r.file.pos + k ≤ r.file.file.bytes.length := by
              rw [h.pos]
              omega
            have hmove := IFStream.read_plain h.good hle (h.pos.symm ▸ hplain') fun _ => 0
            have hstate : (r.read 1024 fun _ => 0).2 =
                { r with file := { r.file with pos := p + k } } := by
              rw [hread, hmove, h.pos]
            have hrest' : Transfers (RangeFileStreamReader.body
                { r with file := { r.file with pos := p + k } } fun _ _ => 0).reads rest := by
              rw [← hstate]
              exact hrest
            have hplain'' : ({ r with file := { r.file with pos := p + k } } :
                RangeFileStreamReader).file.Plain i := fun htext j hj hj' =>
              hplain htext j (h.pos.symm ▸ Nat.le_trans (Nat.le_add_right p k) hj) hj'
            have hnext := ih (i - (p + k)) (by omega)
              (r := { r with file := { r.file with pos := p + k } }) (h.move (by omega)) hend htext
              (by omega) hhigh hplain'' halt hrest' hin rfl
            have hsub : i - p - k = i - (p + k) := by omega
            rw [hsub]
            exact hnext

/-- A fresh range reader reads from its start. -/
theorem RangeFileStreamReader.of_at {stream : IFStream} {start end_ : Nat}
    (h : stream.failed = false) (hle : start ≤ stream.file.bytes.length) :
    RangeFileStreamReader.of stream start end_ =
      { file := { stream with pos := start }, filesize := stream.file.bytes.length,
        start := start, end_ := end_ } := by
  have hlt := stream.file.size_lt
  rw [RangeFileStreamReader.of, FileStreamReader.of_at h]
  dsimp only
  rw [IFStream.seekg, h, if_neg (by simp), if_pos (by omega)]

theorem knownLength_of_lt {n : Nat} (h : n < 2 ^ 64 - 1) : knownLength n = some n := by
  have hmax : size_t (-1) = 2 ^ 64 - 1 := by decide
  rw [knownLength, if_neg (by omega)]

theorem size_t_sub {m n : Nat} (hle : m ≤ n) (h : n < 2 ^ 64) : size_t (n - m) = n - m := by
  rw [size_t_of_nonneg (by omega) (by omega)]
  omega

/-- `x` with `body` as the body of its response. -/
def Locals.withBody (x : Locals) (body : StreamReader) : Locals :=
  { x with response := { x.response with body := some body } }

/-- `send` transmits the head of the response with `Content-Length` `n`, then `content`, and
stops. -/
def Transmits (site : Site) (x : Locals) (n : Nat) (content : Str) : Prop :=
  ∀ bytes result, Sends ((send site).run x) bytes result ↔
    bytes = (announced x.response n).unparseHead ++ content ∧
      result = (.ok (), { x with response := { announced x.response n with sended := true } })

theorem transmits_body (site : Site) {x : Locals} {body : StreamReader} {n : Nat} {content : Str}
    (hfresh : x.response.sended = false) (hlen : body.maxlen = some n)
    (hcontent : Transfers body.reads content) : Transmits site (x.withBody body) n content := by
  intro bytes result
  rw [sends_iff site (x := x.withBody body) hfresh rfl hlen]
  constructor
  · rintro ⟨content', hcontent', rfl, rfl⟩
    rw [hcontent'.unique hcontent]
    exact ⟨rfl, rfl⟩
  · rintro ⟨rfl, rfl⟩
    exact ⟨content, hcontent, rfl, rfl⟩

/-- **The announced length is the length of the body**: a file is sent with its size and all its
bytes, and a range of it with its length and the bytes from its start to its end. -/
theorem send_reader {stream : IFStream} (hopen : stream.failed = false) (hraw : stream.text = false)
    {x : Locals} (hfresh : x.response.sended = false) (site : Site) (memory : Nat → Junk) :
    Transmits site (x.withBody ((FileStreamReader.of stream).body memory))
        stream.file.bytes.length stream.file.bytes ∧
      ∀ start end_, start ≤ end_ → end_ ≤ stream.file.bytes.length →
        Transmits site (x.withBody ((RangeFileStreamReader.of stream start end_).body memory))
          (end_ - start) ((stream.file.bytes.drop start).take (end_ - start)) := by
  have hlt := stream.file.size_lt
  have hmax : size_t (-1) = 2 ^ 64 - 1 := by decide
  constructor
  · rw [FileStreamReader.of_at hopen]
    let r : FileStreamReader :=
      { file := { stream with pos := 0 }, filesize := stream.file.bytes.length }
    have hat : r.At 0 := ⟨hopen, rfl, Nat.zero_le _, rfl⟩
    exact transmits_body site hfresh
      (knownLength_of_lt (by show stream.file.bytes.length < _; omega))
      (FileStreamReader.transfers hat hraw memory)
  · intro start end_ hstart hend
    rw [RangeFileStreamReader.of_at hopen (by omega)]
    let r : RangeFileStreamReader :=
      { file := { stream with pos := start }, filesize := stream.file.bytes.length,
        start := start, end_ := end_ }
    have hat : r.toFileStreamReader.At start :=
      ⟨hopen, rfl, Nat.le_trans hstart hend, rfl⟩
    have hlen : (r.body memory).maxlen = some (end_ - start) := by
      show knownLength (size_t (end_ - start)) = _
      rw [size_t_sub hstart (by omega)]
      exact knownLength_of_lt (by omega)
    have hplain : r.file.Plain r.end_ := by
      intro htext
      have hfalse : stream.text = true := htext
      rw [hraw] at hfalse
      cases hfalse
    exact transmits_body site hfresh hlen
      (RangeFileStreamReader.transfers hat (by show end_ < _; omega) hstart hplain memory)

/-- A file of three bytes. -/
def threeBytes : IFStream where
  file := ⟨[97, 98, 99], by decide⟩
  text := false

theorem send_reader_threeBytes :
    Transmits .handle (Locals.withBody ⟨{}, {}, ⟨[], fun _ => []⟩⟩
        ((FileStreamReader.of threeBytes).body fun _ _ => 0)) 3 [97, 98, 99] ∧
      Transmits .handle (Locals.withBody ⟨{}, {}, ⟨[], fun _ => []⟩⟩
        ((RangeFileStreamReader.of threeBytes 1 3).body fun _ _ => 0)) 2 [98, 99] := by
  have hsend := @send_reader threeBytes rfl rfl
    ⟨{}, {}, ⟨[], fun _ => []⟩⟩ rfl .handle fun _ _ => 0
  exact ⟨hsend.1, hsend.2 1 3 (by decide) (by decide)⟩

end DianProtocol.Cpp
