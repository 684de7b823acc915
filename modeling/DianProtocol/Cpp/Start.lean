import DianProtocol.Cpp.Lock

set_option autoImplicit false

/-! # The control flow of `RtspServer::start`

Which exceptions leave the lambda of a worker, and which requests it hands to `_handle`. Both are
questions about the way of one worker through its control states, whatever the actions answer, so
they share one outline (`control`), whose assertions are about control states alone.
-/

namespace DianProtocol.Cpp

open Concurrent

variable {ι : Type} [DecidableEq ι]

/-- The outline of the assertions `head` about the control states that the workers come to. -/
def control (srv : Server) (head : ι → SObs ι → Ctl → Prop) : Outline (system (ι := ι) srv) where
  inv _ := True
  rely i o o' := o.trace <+: o'.trace ∧ o'.ctl i = o.ctl i
  head := head
  pre _ _ _ := True
  rely_refl _ _ := ⟨List.prefix_rfl, rfl⟩
  rely_trans _ _ _ _ h₁ h₂ := ⟨h₁.1.trans h₂.1, h₂.2.trans h₁.2⟩
  act_ok _ o _ _ _ _ _ _ :=
    ⟨trivial, fun _ hj => ⟨List.prefix_append _ _, Obs.ctl_push_of_ne o hj.symm _ _⟩⟩
  enter_ok _ o _ _ _ :=
    ⟨trivial, fun _ hj => ⟨List.prefix_append _ _, Obs.ctl_push_of_ne o hj.symm _ _⟩⟩

section

variable {srv : Server} {head : ι → SObs ι → Ctl → Prop} {i : ι} {o : SObs ι} {α : Type}

omit [DecidableEq ι] in
theorem uses_any {p : Prog Actions α} : p.Uses fun _ => True := by
  induction p with
  | ret a => trivial
  | act e k ih => exact ⟨trivial, ih⟩

/-- Whatever a program does, it ends in the control state in which it was started. -/
theorem control_any {l : Option Ctl} (p : Prog Actions α) (h : o.ctl i = l) :
    (control srv head).Safe i (fun o' _ => o'.ctl i = l) p o := by
  refine Outline.Safe.of_uses (K := fun o => o.ctl i = l) (fun o o' hr hK => ?_)
    (fun _ _ _ _ _ => trivial) (fun o e r s hK _ _ => ?_) uses_any h
  · exact hr.2.trans hK
  · rw [Obs.ctl_push_act]
    exact hK

/-- A round that ends in a control state as `head` asks. -/
theorem control_ret {l : Ctl} (h : ∀ o, head i o l) :
    (control srv head).Safe i ((control srv head).head i) (.ret l) o :=
  fun o' _ _ => h o'

/-- A worker that is blocked for ever comes to no further control state. -/
theorem control_hang {Post : SObs ι → α → Prop} {k : Empty → Prog Actions α} :
    (control srv head).Safe i Post (.act (S := Actions) .hang k) o :=
  fun _ _ _ => ⟨trivial, fun r => nomatch r⟩

/-- A round that ends, whatever its program has returned, in a control state as `head` asks. -/
theorem control_bind {p : Prog Actions α} {k : α → Prog Actions Ctl}
    (h : ∀ r, ∃ l, k r = .ret l ∧ ∀ o, head i o l) :
    (control srv head).Safe i ((control srv head).head i) (p.bind k) o := by
  refine Outline.Safe.bind ((control_any p rfl).mono fun o' r _ _ => ?_)
  obtain ⟨l, hl, hhead⟩ := h r
  rw [hl]
  exact control_ret hhead

/-- After `_handle` the worker goes on with this connection, with the next, or with the reply 500.
-/
theorem afterHandle_ret (r : Except Exn Unit × Locals) : ∃ l, afterHandle r = .ret l ∧
    (∀ request conn, l ≠ .dispatch request conn) ∧ ∀ e, l ≠ .terminate e := by
  rcases r with ⟨e | a, x⟩
  · cases e with
    | SendError errcode =>
        -- the error code decides whether the connection is served on
        refine ⟨_, rfl, ?_⟩
        split
        · simp
        · simp
    | _ => exact ⟨_, rfl, by simp⟩
  · exact ⟨_, rfl, by simp⟩

/-- After a catch handler the worker accepts the next connection, or has left the lambda. -/
theorem afterReply_ret (r : Except Exn Unit × Locals) :
    ∃ l, afterReply r = .ret l ∧ ∀ request conn, l ≠ .dispatch request conn := by
  rcases r with ⟨e | a, x⟩
  · exact ⟨_, rfl, by simp⟩
  · exact ⟨_, rfl, by simp⟩

theorem control_holds (hround : (control (ι := ι) srv head).RoundsSafe)
    (hinit : ∀ i o, head i o .accept) {w : World Actions ι (Shared ι) Ctl}
    (h : Reach (system srv) initial w) : (control srv head).Holds w :=
  Outline.Holds.reach (w := initial) hround ⟨trivial, fun i o' _ _ => hinit i o'⟩ h

end

/-! ## Exceptions that leave the lambda -/

/-- A reply in a catch handler that is not refused: its head and body are sent; and the response
with which the 500 handler is entered has not been sent, and its body has a known length. -/
def replySucceeds (l : Label Actions ι (Shared ι) Ctl) : Bool :=
  match l.event with
  | .act (.send .reply _) sent => sent
  | .act (.sendBody .reply _) thrown => Option.isNone thrown
  | .enter (.serverError x) =>
      !x.response.sended && x.response.body.all fun body => body.maxlen.isSome
  | _ => true

/-- No reply of a catch handler has been refused. -/
def RepliesSucceed (trace : List (Label Actions ι (Shared ι) Ctl)) : Prop :=
  ∀ l ∈ trace, replySucceeds l = true

instance (trace : List (Label Actions ι (Shared ι) Ctl)) : Decidable (RepliesSucceed trace) :=
  inferInstanceAs (Decidable (∀ l ∈ trace, replySucceeds l = true))

omit [DecidableEq ι] in
theorem RepliesSucceed.of_prefix {t t' : List (Label Actions ι (Shared ι) Ctl)}
    (h : RepliesSucceed t') (hp : t <+: t') : RepliesSucceed t :=
  fun l hl => h l (hp.subset hl)

omit [DecidableEq ι] in
theorem RepliesSucceed.last {o : SObs ι} {i : ι} {ev : Event Actions Ctl} {s : Shared ι}
    (h : RepliesSucceed (o.push i ev s).trace) : replySucceeds ⟨i, o.shared, ev⟩ = true :=
  h _ (List.mem_append_right _ (List.mem_singleton.mpr rfl))

/-- The lambda is left by an exception only from `accept`, unless a reply was refused. -/
def EscapeHead (i : ι) (o : SObs ι) (l : Ctl) : Prop :=
  RepliesSucceed o.trace → ∀ e, l = .terminate e → o.ctl i = some .accept

section

variable {srv : Server} {i : ι} {o : SObs ι}

theorem EscapeHead.of_ne {l : Ctl} (h : ∀ e, l ≠ .terminate e) : EscapeHead i o l :=
  fun _ e he => absurd he (h e)

/-- A reply that is not refused does not throw. -/
def ReplyOk {α : Type} (o : SObs ι) (r : Except Exn α × Locals) : Prop :=
  RepliesSucceed o.trace → ∃ a, r.1 = .ok a

theorem send_ok {x : Locals} (hx : RepliesSucceed o.trace → x.response.sended = false ∧
      ∀ body, x.response.body = some body → body.maxlen ≠ none) :
    (control srv EscapeHead).Safe i ReplyOk ((send .reply).run x) o := by
  have hrefused : ∀ (o : SObs ι) e r s (x' : Locals), replySucceeds ⟨i, o.shared, .act e r⟩ ≠ true →
      (control srv EscapeHead).Safe i (ReplyOk (α := Unit)) (.ret (.error (.SendError (-1)), x'))
        (o.push i (.act e r) s) := fun o e r s x' hne o' hr _ hreplies =>
    absurd (hreplies.of_prefix hr.1).last hne
  rw [send_run]
  split
  · rename_i hsended
    intro o' hr _ hreplies
    rw [(hx (hreplies.of_prefix hr.1)).1] at hsended
    cases hsended
  split
  · refine fun o₁ _ _ => ⟨trivial, fun sent s _ => ?_⟩
    cases sent with
    | true => exact fun _ _ _ _ => ⟨(), rfl⟩
    | false => exact hrefused o₁ _ _ s _ nofun
  · rename_i body hbody
    split
    · rename_i hlen
      exact fun o' hr _ hreplies => absurd hlen ((hx (hreplies.of_prefix hr.1)).2 body hbody)
    · refine fun o₁ _ _ => ⟨trivial, fun sent s _ => ?_⟩
      cases sent with
      | true =>
          refine fun o₂ _ _ => ⟨trivial, fun thrown s₂ _ => ?_⟩
          cases thrown with
          | none => exact fun _ _ _ _ => ⟨(), rfl⟩
          | some e => exact fun o' hr _ hreplies => absurd (hreplies.of_prefix hr.1).last nofun
      | false => exact hrefused o₁ _ _ s _ nofun

theorem replyError_run (status : Int) (reason : String) (x : Locals) :
    (replyError status reason).run x = (send .reply >>= fun _ => perform .close).run
      { x with response := { x.response with status := status, reason := str reason } } := rfl

theorem replyError_ok {status : Int} {reason : String} {x : Locals}
    (hx : RepliesSucceed o.trace → x.response.sended = false ∧
      ∀ body, x.response.body = some body → body.maxlen ≠ none) :
    (control srv EscapeHead).Safe i ((control srv EscapeHead).head i)
      (((replyError status reason).run x).bind afterReply) o := by
  rw [replyError_run]
  refine Outline.Safe.bind (Outline.Safe.exc_bind ((send_ok ?_).mono fun o₁ r _ hr => ?_))
  · exact hx
  rcases r with ⟨e | a, x₁⟩
  · intro o₂ hr₂ _ o₃ hr₃ _ hreplies
    obtain ⟨a, ha⟩ := hr (hreplies.of_prefix (hr₂.1.trans hr₃.1))
    cases ha
  · -- the reply is out, the socket is closed
    refine fun o₂ _ _ => ⟨trivial, fun r s _ => ?_⟩
    exact fun o₃ _ _ => control_ret fun o => EscapeHead.of_ne (by simp)

theorem escape_rounds : (control (ι := ι) srv EscapeHead).RoundsSafe := by
  intro i o l p _ _ hround
  have hctl := Obs.ctl_push_enter_self o i l o.shared
  cases l with
  | accept =>
      cases hround
      refine fun o₁ hr₁ _ => ⟨trivial, fun r s _ => ?_⟩
      rcases r with e | conn
      · refine fun o₂ hr₂ _ _ e' _ => ?_
        rw [hr₂.2, Obs.ctl_push_act, hr₁.2]
        exact hctl
      · exact control_ret fun _ => EscapeHead.of_ne (by simp)
  | serve conn =>
      obtain rfl := Option.some.inj hround
      dsimp only
      split
      · exact control_ret fun _ => EscapeHead.of_ne (by simp)
      · refine control_ret fun _ => EscapeHead.of_ne fun e => ?_
        split
        · simp
        · simp
      · exact control_ret fun _ => EscapeHead.of_ne (by simp)
      · exact control_hang
  | dispatch request conn =>
      cases hround
      refine control_bind fun r => ?_
      obtain ⟨l, hl, -, hne⟩ := afterHandle_ret r
      exact ⟨l, hl, fun _ => EscapeHead.of_ne hne⟩
  | badRequest request conn =>
      cases hround
      -- the response is new: it has not been sent and has no body
      exact replyError_ok fun _ => ⟨rfl, nofun⟩
  | serverError x =>
      cases hround
      -- the condition on entering the handler is about the response it gets
      refine replyError_ok fun hreplies => ?_
      have hentered := hreplies.last
      simp only [replySucceeds, Bool.and_eq_true, Bool.not_eq_true', Option.all_eq_true] at hentered
      refine ⟨hentered.1, fun body hbody hlen => ?_⟩
      have hknown := hentered.2 body hbody
      rw [hlen] at hknown
      cases hknown
  | terminate e => cases hround

end

/-- An exception has left the lambda of worker `i`, and it was not one of `accept`. -/
def escaped (w : World Actions ι (Shared ι) Ctl) (i : ι) : Bool :=
  match w.prog i, w.obs.ctl i with
  | .ret (.terminate _), some .accept => false
  | .ret (.terminate _), _ => true
  | _, _ => false

/-- In every run in which the catch handlers can send their replies, no exception leaves the lambda
of a worker that serves a connection. -/
theorem no_escape (srv : Server) (w : World Actions ι (Shared ι) Ctl)
    (hreach : Reach (system srv) initial w) (hreplies : RepliesSucceed w.obs.trace) (i : ι) :
    escaped w i = false := by
  have hw := control_holds escape_rounds (fun _ _ => EscapeHead.of_ne (by simp)) hreach
  unfold escaped
  split
  · rfl
  · rename_i e hprog hctl
    exact absurd (hw.head hprog hreplies e rfl) hctl
  · rfl

/-- A client whose request is not one; the reply 400 is sent or not. -/
def badClient (sent : Bool) : List (Unit × Choice) :=
  [((), {}), ((), { conn := .ofString "GET\r\n" }), ((), {}), ((), {}), ((), { ok := sent })]

theorem no_escape_badClient : ∃ w : World Actions Unit (Shared Unit) Ctl,
    Reach (system plainServer) initial w ∧ escaped w () = false := by
  obtain ⟨w, hreach, hw⟩ := run_map plainServer (badClient true)
    (fun w => decide (RepliesSucceed w.obs.trace)) true (by decide)
  exact ⟨w, hreach, no_escape plainServer w hreach (of_decide_eq_true hw) ()⟩

/-- A client that is gone when the reply 400 is sent ends the process. -/
theorem badClient_escapes : ∃ w : World Actions Unit (Shared Unit) Ctl,
    Reach (system plainServer) initial w ∧ escaped w () = true :=
  run_map plainServer (badClient false) (escaped · ()) true (by decide)

/-! ## Requests that are handled -/

/-- If `l` is the top of the inner loop, and parsing fails because `recv` does, the error code is
the one for which the worker drops the connection. -/
def recvFailsClosed (l : Label Actions ι (Shared ι) Ctl) : Bool :=
  match l.event with
  | .enter (.serve conn) =>
      match parseThis {} conn with
      | .thrown (.RecvError errcode) _ _ => errcode = 10054
      | _ => true
  | _ => true

/-- Whenever parsing fails because `recv` does, the error code is 10054. -/
def RecvsFailClosed (trace : List (Label Actions ι (Shared ι) Ctl)) : Prop :=
  ∀ l ∈ trace, recvFailsClosed l = true

instance (trace : List (Label Actions ι (Shared ι) Ctl)) : Decidable (RecvsFailClosed trace) :=
  inferInstanceAs (Decidable (∀ l ∈ trace, recvFailsClosed l = true))

/-- A worker that is about to call `_handle` has got the request from `parseThis`. -/
def Parsed (i : ι) (o : SObs ι) (l : Ctl) : Prop :=
  ∀ request conn, l = .dispatch request conn →
    ∃ conn₀, o.ctl i = some (.serve conn₀) ∧ parseThis {} conn₀ = .done request conn

theorem Parsed.of_ne {i : ι} {o : SObs ι} {l : Ctl}
    (h : ∀ request conn, l ≠ .dispatch request conn) : Parsed i o l :=
  fun request conn he => absurd he (h request conn)

theorem dispatch_rounds {srv : Server} : (control (ι := ι) srv fun i o l =>
    RecvsFailClosed o.trace → Parsed i o l).RoundsSafe := by
  intro i o l p _ _ hround
  have hctl := Obs.ctl_push_enter_self o i l o.shared
  cases l with
  | accept =>
      cases hround
      refine fun o₁ hr₁ _ => ⟨trivial, fun r s _ => ?_⟩
      rcases r with e | conn
      · exact control_ret fun _ _ => Parsed.of_ne (by simp)
      · exact control_ret fun _ _ => Parsed.of_ne (by simp)
  | serve conn =>
      obtain rfl := Option.some.inj hround
      dsimp only
      split
      · rename_i request conn' hparse
        intro o₁ hr₁ _ _ request' conn'' he
        cases he
        exact ⟨conn, hr₁.2.trans hctl, hparse⟩
      · -- `recv` has failed, so the error code is that of a closed connection
        rename_i errcode request conn' hparse
        intro o₁ hr₁ _ hclosed request' conn'' he
        have hcode :=
          hclosed _ (hr₁.1.subset (List.mem_append_right _ (List.mem_singleton.mpr rfl)))
        dsimp only [recvFailsClosed] at hcode
        rw [hparse] at hcode
        rw [if_pos (of_decide_eq_true hcode)] at he
        cases he
      · exact control_ret fun _ _ => Parsed.of_ne (by simp)
      · exact control_hang
  | dispatch request conn =>
      cases hround
      refine control_bind fun r => ?_
      obtain ⟨l, hl, hne, -⟩ := afterHandle_ret r
      exact ⟨l, hl, fun _ _ => Parsed.of_ne hne⟩
  | badRequest request conn =>
      cases hround
      refine control_bind fun r => ?_
      obtain ⟨l, hl, hne⟩ := afterReply_ret r
      exact ⟨l, hl, fun _ _ => Parsed.of_ne hne⟩
  | serverError x =>
      cases hround
      refine control_bind fun r => ?_
      obtain ⟨l, hl, hne⟩ := afterReply_ret r
      exact ⟨l, hl, fun _ _ => Parsed.of_ne hne⟩
  | terminate e => cases hround

/-- In every run in which parsing fails only with the error code 10054 of `recv`, `_handle` is
called only for requests for which `parseThis` has returned. -/
theorem dispatch_parsed (srv : Server) (w : World Actions ι (Shared ι) Ctl)
    (hreach : Reach (system srv) initial w) (hclosed : RecvsFailClosed w.obs.trace) (i : ι)
    (l : Ctl) (hprog : w.prog i = .ret l) : Parsed i w.obs l :=
  (control_holds dispatch_rounds (fun _ _ _ => Parsed.of_ne (by simp)) hreach).head hprog hclosed

/-- A client whose connection fails with `errcode` after two lines of a TEARDOWN. -/
def cutOff (errcode : Int) : List (Unit × Choice) :=
  let text := str "TEARDOWN diantp://a/ 0.5\r\nSession: 00\r\n"
  [((), {}), ((), { conn := ⟨text.map .byte ++ [.error errcode], fun _ => []⟩ }), ((), {})]

/-- The worker is about to accept, and every failed `recv` has been one of a closed connection. -/
def acceptsAfterClosed (w : World Actions Unit (Shared Unit) Ctl) : Bool :=
  match w.prog () with
  | .ret .accept => decide (RecvsFailClosed w.obs.trace)
  | _ => false

theorem dispatch_parsed_cutOff : ∃ w : World Actions Unit (Shared Unit) Ctl,
    Reach (system plainServer) initial w ∧ ∃ l, w.prog () = .ret l ∧ Parsed () w.obs l := by
  obtain ⟨w, hreach, hw⟩ := run_map plainServer (cutOff 10054)
    acceptsAfterClosed true (by decide)
  unfold acceptsAfterClosed at hw
  split at hw
  · rename_i hret
    exact ⟨w, hreach, _, hret,
      dispatch_parsed plainServer w hreach (of_decide_eq_true hw) () _ hret⟩
  · cases hw

/-- The worker is about to call `_handle` for a TEARDOWN that `parseThis` does not return. -/
def handlesUnparsed (w : World Actions Unit (Shared Unit) Ctl) : Bool :=
  match w.prog (), w.obs.ctl () with
  | .ret (.dispatch request _), some (.serve conn₀) =>
      decide (request.method = str "TEARDOWN") && match parseThis {} conn₀ with
        | .done _ _ => false
        | _ => true
  | _, _ => false

/-- With any other error code the worker is about to call `_handle` for a TEARDOWN whose head was
cut off. -/
theorem cutOff_dispatched : ∃ w : World Actions Unit (Shared Unit) Ctl,
    Reach (system plainServer) initial w ∧
      ∃ request conn, w.prog () = .ret (.dispatch request conn) ∧
        request.method = str "TEARDOWN" ∧ ¬ Parsed () w.obs (.dispatch request conn) := by
  obtain ⟨w, hreach, hw⟩ :=
    run_map plainServer (cutOff 10053) handlesUnparsed true (by decide)
  unfold handlesUnparsed at hw
  split at hw
  · rename_i request conn conn₀ hprog hctl
    obtain ⟨hmethod, hparse⟩ := Bool.and_eq_true_iff.mp hw
    refine ⟨w, hreach, request, conn, hprog, of_decide_eq_true hmethod, fun hparsed => ?_⟩
    obtain ⟨conn₁, hctl₁, hdone⟩ := hparsed request conn rfl
    cases hctl.symm.trans hctl₁
    rw [hdone] at hparse
    cases hparse
  · cases hw

end DianProtocol.Cpp
