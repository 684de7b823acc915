import DianProtocol.Cpp.Buffer
import DianProtocol.Cpp.Transmit

set_option autoImplicit false

/-! # Sending a response with a string as its body

`StringStreamReader::read` allocates a buffer of the size that it is asked for, reads into it from a
`stringstream`, and returns all of it, whatever the read has left there. The loop of `socket::send`
stops at an empty buffer and asks for 1024 bytes each time, so it never ends on a string:
`string_body_endless`.
-/

namespace DianProtocol.Cpp

open Concurrent

/-! ## `StringStreamReader` -/

/-- A `stringstream`: what has not been read of it, and whether a read has failed. -/
structure StringStream where
  left : Str
  failed : Bool := false

/-- `read` of `k` characters into a fresh buffer of that size: the buffer afterwards. -/
def StringStream.read (s : StringStream) (k : Nat) (junk : Junk) : Str × StringStream :=
  let chars := if s.failed then [] else s.left.take k
  (newArray k chars junk,
    { left := s.left.drop chars.length, failed := s.failed || decide (chars.length < k) })

structure StringStreamReader where
  str : Str
  stream : StringStream

namespace StringStreamReader

/-- `StringStreamReader(str)` -/
def of (str : Str) : StringStreamReader := { str := str, stream := { left := str } }

def read (r : StringStreamReader) (size : Nat) (junk : Junk) : Str × StringStreamReader :=
  let (data, stream) := r.stream.read size junk
  (data, { r with stream := stream })

def maxlen (r : StringStreamReader) : Nat := r.str.length

def body (r : StringStreamReader) (memory : Nat → Junk) : StreamReader where
  maxlen := knownLength r.maxlen
  reads := readsOf (fun r => r.read 1024) memory r

/-- A read returns as many bytes as it is asked for. -/
theorem length_read (r : StringStreamReader) (size : Nat) (junk : Junk) :
    (r.read size junk).1.length = size := length_newArray _ _ _

/-- The string is read from where the last read has ended. -/
theorem prefix_read {r : StringStreamReader} (hgood : r.stream.failed = false) (size : Nat)
    (junk : Junk) : r.stream.left.take size <+: (r.read size junk).1 := by
  have hread : (r.read size junk).1 = newArray size (r.stream.left.take size) junk := by
    rw [read, StringStream.read, hgood]
    rfl
  rw [hread]
  apply newArray_prefix
  rw [List.length_take]
  omega

/-! ## The loop over the buffers -/

/-- No buffer that the loop gets is empty. -/
theorem length_reads (r : StringStreamReader) (memory : Nat → Junk) (n : Nat) :
    ((r.body memory).reads n).length = 1024 := by
  show (readsOf (fun r => r.read 1024) memory r n).length = 1024
  induction n generalizing r memory with
  | zero => exact r.length_read 1024 (memory 0)
  | succ n ih => exact ih (r.read 1024 (memory 0)).2 fun i => memory (i + 1)

end StringStreamReader

/-- Without an empty buffer the loop goes on. -/
theorem not_transfers {reads : Nat → Str} (h : ∀ n, reads n ≠ []) (content : Str) :
    ¬ Transfers reads content := by
  intro htransfers
  induction htransfers with
  | stop hnil => exact h 0 hnil
  | chunk _ _ ih => exact ih fun n => h (n + 1)

theorem StringStreamReader.not_transfers (r : StringStreamReader) (memory : Nat → Junk)
    (content : Str) : ¬ Transfers (r.body memory).reads content := by
  apply Cpp.not_transfers
  intro n hnil
  have hlen := r.length_reads memory n
  rw [hnil] at hlen
  cases hlen

/-- A body over which the loop does not end is not sent. -/
theorem not_transmits (site : Site) {x : Locals} {body : StreamReader}
    (h : ∀ content, ¬ Transfers body.reads content) (n : Nat) (content : Str) :
    ¬ Transmits site (x.withBody body) n content := by
  intro htransmits
  have hsends := (htransmits _ _).mpr ⟨rfl, rfl⟩
  by_cases hfresh : (x.withBody body).response.sended = true
  · rw [send_run, if_pos hfresh] at hsends
    cases hsends
  · have hnew : (x.withBody body).response.sended = false := by simpa using hfresh
    cases hlen : body.maxlen with
    | none =>
        have hbody : (x.withBody body).response.body = some body := rfl
        rw [send_run, if_neg (by simp [hnew]), hbody] at hsends
        dsimp only at hsends
        rw [hlen] at hsends
        cases hsends
    | some len =>
        obtain ⟨content', hcontent, -⟩ := (sends_iff site hnew rfl hlen).mp hsends
        exact h content' hcontent

/-- **A string is never sent as a body**: the loop over its buffers does not end, so that `send`
does not transmit the head and the bytes of the string and stop. -/
theorem string_body_endless (site : Site) (x : Locals) (s : Str) (memory : Nat → Junk) :
    (∀ content, ¬ Transfers ((StringStreamReader.of s).body memory).reads content) ∧
      ¬ Transmits site (x.withBody ((StringStreamReader.of s).body memory)) s.length s :=
  ⟨StringStreamReader.not_transfers _ memory,
    not_transmits site (StringStreamReader.not_transfers _ memory) _ s⟩

/-- The string `hi` is followed by 1022 bytes that are not in it, and by more and more buffers. -/
theorem hi_endless :
    (∃ junk, ((StringStreamReader.of (str "hi")).body fun _ _ => 0).reads 0 = str "hi" ++ junk ∧
      junk.length = 1022) ∧
    (∀ n, (((StringStreamReader.of (str "hi")).body fun _ _ => 0).reads n).length = 1024) ∧
    ¬ Transmits .handle (Locals.withBody ⟨{}, {}, ⟨[], fun _ => []⟩⟩
      ((StringStreamReader.of (str "hi")).body fun _ _ => 0)) 2 (str "hi") := by
  have hlen := (StringStreamReader.of (str "hi")).length_reads fun _ _ => 0
  refine ⟨?_, hlen, not_transmits _ (StringStreamReader.not_transfers _ _) _ _⟩
  have htake : (str "hi").take 1024 = str "hi" :=
    List.take_of_length_le (by decide)
  have hfresh : (StringStreamReader.of (str "hi")).stream.failed = false := rfl
  obtain ⟨junk, hjunk⟩ : (str "hi").take 1024 <+:
      ((StringStreamReader.of (str "hi")).body fun _ _ => 0).reads 0 :=
    StringStreamReader.prefix_read hfresh 1024 fun _ => 0
  rw [htake] at hjunk
  refine ⟨junk, hjunk.symm, ?_⟩
  have hsum := hlen 0
  have htwo : (str "hi").length = 2 := by decide
  rw [← hjunk, List.length_append] at hsum
  omega

end DianProtocol.Cpp
