import Mathlib.Data.UInt
import MarketDataEngine.AnswerStream

/-!
# The batch sender of the generator

`Sender::send_one` and both branches of `Sender::send_batch`: the one for Linux, which
submits all remaining frames with `sendmmsg`, and the portable one, which calls `send` or
`sendto` frame by frame. The kernel decides call by call how many datagrams it takes or
which error it reports, and reports an interrupted call finitely often.

`sent` and `retry` are signed in the source, where overflow is undefined; here they are
natural numbers. The waiting between two attempts and the messages on `stderr` are left out.
-/

namespace MarketDataEngine.Net

open MarketDataEngine.AnswerStream

set_option autoImplicit false

/-- `data` is the memory behind the pointer, `none` for a null pointer. -/
structure TxFrame where
  data : Option (List UInt8)
  len : UInt64
  deriving DecidableEq

/-- `frame.data == nullptr || frame.len == 0`. -/
def TxFrame.invalid (frame : TxFrame) : Bool := frame.data.isNone || frame.len == 0

structure SocketAddress where
  address : UInt32
  port : UInt16
  deriving DecidableEq

structure SenderStats where
  sentPackets : UInt64
  sentBytes : UInt64
  sentErrors : UInt64
  eagain : UInt64
  deriving DecidableEq

structure Sender where
  fd : Int
  connected : Bool
  remote : SocketAddress
  stats : SenderStats
  deriving DecidableEq

/-- `name` is the destination given with the call, `none` on a connected socket. -/
structure TxDatagram where
  frame : TxFrame
  name : Option SocketAddress
  deriving DecidableEq

inductive SendErrno where
  | eintr
  | eagain
  | ewouldblock
  | enobufs
  | other
  deriving DecidableEq

def kMaxSendRetries : Nat := 200

def isTransientSendError : SendErrno → Bool
  | .eagain | .ewouldblock | .enobufs => true
  | _ => false

namespace Sender

def countPacket (sender : Sender) (frame : TxFrame) : Sender :=
  { sender with stats :=
    { sender.stats with
      sentPackets := sender.stats.sentPackets + 1
      sentBytes := sender.stats.sentBytes + frame.len } }

def countError (sender : Sender) : Sender :=
  { sender with stats :=
    { sender.stats with sentErrors := sender.stats.sentErrors + 1 } }

def countEagain (sender : Sender) : Sender :=
  { sender with stats := { sender.stats with eagain := sender.stats.eagain + 1 } }

def datagram (sender : Sender) (frame : TxFrame) : TxDatagram :=
  ⟨frame, if sender.connected then none else some sender.remote⟩

end Sender

/-! ## The kernel -/

/-- A call takes at most `more + 1` of the messages offered. -/
inductive SendmmsgReply where
  | accept (more : Nat)
  | nothing
  | error (errno : SendErrno)
  deriving DecidableEq

/-- The answer to `send` or `sendto`: the whole datagram, less than that, or an error. -/
inductive SendtoReply where
  | whole
  | short (n : Nat)
  | error (errno : SendErrno)
  deriving DecidableEq

/-- The value a system call returns. -/
inductive Returned where
  | count (n : Nat)
  | error (errno : SendErrno)

/-- `accepted` are the datagrams taken over, in order. -/
structure SendKernel (Reply : Type) (interrupted : Reply) where
  answers : Answers Reply (· = interrupted)
  accepted : List TxDatagram

abbrev BatchKernel := SendKernel SendmmsgReply (.error .eintr)

abbrev DatagramKernel := SendKernel SendtoReply (.error .eintr)

namespace SendKernel

def sendmmsg (kernel : BatchKernel) (msgs : List TxDatagram) : Returned × BatchKernel :=
  let answers := kernel.answers.rest
  match kernel.answers.next with
  | .accept more =>
      let n := min (more + 1) msgs.length
      (.count n, ⟨answers, kernel.accepted ++ msgs.take n⟩)
  | .nothing => (.count 0, ⟨answers, kernel.accepted⟩)
  | .error errno => (.error errno, ⟨answers, kernel.accepted⟩)

def sendto (kernel : DatagramKernel) (msg : TxDatagram) : Returned × DatagramKernel :=
  let answers := kernel.answers.rest
  match kernel.answers.next with
  | .whole => (.count msg.frame.len.toNat, ⟨answers, kernel.accepted ++ [msg]⟩)
  | .short n => (.count (min n (msg.frame.len.toNat - 1)), ⟨answers, kernel.accepted⟩)
  | .error errno => (.error errno, ⟨answers, kernel.accepted⟩)

/-- What a call of `sendmmsg` can do. -/
inductive Submitted (kernel : BatchKernel) (msgs : List TxDatagram) :
    Returned → BatchKernel → Prop where
  | accepted (n : Nat) (some_ : 0 < n) (fits : n ≤ msgs.length) (more : Nat)
      (decided : kernel.answers.next = .accept more) :
      Submitted kernel msgs (.count n) ⟨kernel.answers.rest, kernel.accepted ++ msgs.take n⟩
  | nothing (decided : kernel.answers.next = .nothing) :
      Submitted kernel msgs (.count 0) ⟨kernel.answers.rest, kernel.accepted⟩
  | error (errno : SendErrno) (decided : kernel.answers.next = .error errno) :
      Submitted kernel msgs (.error errno) ⟨kernel.answers.rest, kernel.accepted⟩

theorem submitted_of_sendmmsg {kernel next : BatchKernel} {msgs : List TxDatagram}
    {returned : Returned} (present : msgs ≠ [])
    (answered : kernel.sendmmsg msgs = (returned, next)) :
    Submitted kernel msgs returned next := by
  have offered : 0 < msgs.length := List.length_pos_iff.mpr present
  unfold sendmmsg at answered
  split at answered
  · next more decided =>
      cases answered
      exact .accepted _ (by omega) (Nat.min_le_right _ _) more decided
  · next decided =>
      cases answered
      exact .nothing decided
  · next errno decided =>
      cases answered
      exact .error errno decided

/-- An interrupted call brings the answers nearer to the place where they settle. -/
theorem settled_of_interrupted {kernel next : BatchKernel} {msgs : List TxDatagram}
    (answered : kernel.sendmmsg msgs = (.error .eintr, next)) :
    next.answers.settled < kernel.answers.settled := by
  unfold sendmmsg at answered
  split at answered
  · cases answered
  · cases answered
  · next errno decided =>
      cases answered
      exact Answers.settled_rest_lt decided

theorem settled_of_interrupted_sendto {kernel next : DatagramKernel} {msg : TxDatagram}
    (answered : kernel.sendto msg = (.error .eintr, next)) :
    next.answers.settled < kernel.answers.settled := by
  unfold sendto at answered
  split at answered
  · cases answered
  · cases answered
  · next errno decided =>
      cases answered
      exact Answers.settled_rest_lt decided

end SendKernel

/-! ## The branch for Linux -/

namespace Sender

/-- The loop around `sendmmsg`. It ends with the number of messages taken, or with
`none` where `send_batch` returns. -/
def submit (sender : Sender) (kernel : BatchKernel) (frames : List TxFrame) (retry : Nat) :
    Option Nat × Sender × BatchKernel :=
  match _answered : kernel.sendmmsg (frames.map sender.datagram) with
  | (.count n, next) =>
      if 0 < n then (some n, (frames.take n).foldl countPacket sender, next)
      else (none, sender.countError, next)
  | (.error .eintr, next) => sender.submit next frames retry
  | (.error errno, next) =>
      if isTransientSendError errno then
        let sender := sender.countEagain
        if retry < kMaxSendRetries then sender.submit next frames (retry + 1)
        else (none, sender.countError, next)
      else (none, sender.countError, next)
termination_by (kMaxSendRetries - retry, kernel.answers.settled)
decreasing_by
  · have nearer := SendKernel.settled_of_interrupted _answered
    exact Prod.Lex.right _ nearer
  · exact Prod.Lex.left _ _ (by omega)

theorem submit_pos {sender after : Sender} {kernel next : BatchKernel} {frames : List TxFrame}
    {retry n : Nat} (submitted : sender.submit kernel frames retry = (some n, after, next)) :
    0 < n := by
  fun_induction submit sender kernel frames retry with
  | case1 sender kernel retry n' next' answered some_ =>
      cases submitted
      exact some_
  | case2 => cases submitted
  | case3 sender kernel retry next' answered ih => exact ih submitted
  | case4 sender kernel retry errno next' uninterrupted answered transient again room ih =>
      exact ih submitted
  | case5 => cases submitted
  | case6 => cases submitted

/-- The loop over the frames that remain. A frame without data ends it before anything of
the rest is submitted. -/
def sendRemaining (sender : Sender) (kernel : BatchKernel) (frames : List TxFrame)
    (sent : Nat) : Nat × Sender × BatchKernel :=
  if _more : sent < frames.length then
    if (frames.drop sent).any TxFrame.invalid then (sent, sender.countError, kernel)
    else
      match _submitted : sender.submit kernel (frames.drop sent) 0 with
      | (some n, sender, kernel) => sender.sendRemaining kernel frames (sent + n)
      | (none, sender, kernel) => (sent, sender, kernel)
  else (sent, sender, kernel)
termination_by frames.length - sent
decreasing_by
  have some_ := submit_pos _submitted
  omega

end Sender

/-- The arguments of `send_batch`: a null pointer with a count, or an array. -/
inductive TxFrames where
  | null (count : Nat)
  | array (frames : List TxFrame)

namespace TxFrames

def refused : TxFrames → Bool
  | .null count => count != 0
  | .array _ => false

def toList : TxFrames → List TxFrame
  | .null _ => []
  | .array frames => frames

end TxFrames

namespace Sender

def sendBatch (sender : Sender) (kernel : BatchKernel) (frames : TxFrames) :
    Int × Sender × BatchKernel :=
  if sender.fd < 0 ∨ frames.refused = true then (-1, sender.countError, kernel)
  else
    let (sent, sender, kernel) := sender.sendRemaining kernel frames.toList 0
    (sent, sender, kernel)

/-! ## The portable branch -/

/-- The loop around `send` or `sendto`, as in `send_one`. -/
def sendDatagram (sender : Sender) (kernel : DatagramKernel) (frame : TxFrame) (retry : Nat) :
    Bool × Sender × DatagramKernel :=
  match _answered : kernel.sendto (sender.datagram frame) with
  | (.count n, next) =>
      if n = frame.len.toNat then (true, sender.countPacket frame, next)
      else (false, sender.countError, next)
  | (.error .eintr, next) => sender.sendDatagram next frame retry
  | (.error errno, next) =>
      if isTransientSendError errno then
        let sender := sender.countEagain
        if retry < kMaxSendRetries then sender.sendDatagram next frame (retry + 1)
        else (false, sender.countError, next)
      else (false, sender.countError, next)
termination_by (kMaxSendRetries - retry, kernel.answers.settled)
decreasing_by
  · have nearer := SendKernel.settled_of_interrupted_sendto _answered
    exact Prod.Lex.right _ nearer
  · exact Prod.Lex.left _ _ (by omega)

def sendOne (sender : Sender) (kernel : DatagramKernel) (frame : TxFrame) :
    Bool × Sender × DatagramKernel :=
  if sender.fd < 0 ∨ frame.invalid = true then (false, sender.countError, kernel)
  else sender.sendDatagram kernel frame 0

def sendEach (sender : Sender) (kernel : DatagramKernel) (sent : Nat) :
    List TxFrame → Nat × Sender × DatagramKernel
  | [] => (sent, sender, kernel)
  | frame :: frames =>
      if frame.invalid then (sent, sender.countError, kernel)
      else
        match sender.sendDatagram kernel frame 0 with
        | (true, sender, kernel) => sender.sendEach kernel (sent + 1) frames
        | (false, sender, kernel) => (sent, sender, kernel)

def sendBatchPortable (sender : Sender) (kernel : DatagramKernel) (frames : TxFrames) :
    Int × Sender × DatagramKernel :=
  if sender.fd < 0 ∨ frames.refused = true then (-1, sender.countError, kernel)
  else
    let (sent, sender, kernel) := sender.sendEach kernel 0 frames.toList
    (sent, sender, kernel)

/-! ## An exact prefix is handed over -/

/-- From here to there, the first `sent` of these frames were handed over and counted, and
`errors` errors were counted. -/
structure HandsOver (sender : Sender) (accepted : List TxDatagram) (frames : List TxFrame)
    (sent : Nat) (errors : UInt64) (after : Sender) (acceptedAfter : List TxDatagram) :
    Prop where
  fits : sent ≤ frames.length
  fd : after.fd = sender.fd
  datagram : after.datagram = sender.datagram
  packets : after.stats.sentPackets = sender.stats.sentPackets + UInt64.ofNat sent
  bytes : after.stats.sentBytes =
    sender.stats.sentBytes + ((frames.take sent).map TxFrame.len).sum
  errors : after.stats.sentErrors = sender.stats.sentErrors + errors
  accepted : acceptedAfter = accepted ++ (frames.take sent).map sender.datagram

theorem hands_over_nothing (sender : Sender) (accepted : List TxDatagram)
    (frames : List TxFrame) : HandsOver sender accepted frames 0 0 sender accepted :=
  ⟨Nat.zero_le _, rfl, rfl, by simp, by simp, by simp, by simp⟩

theorem hands_over_eagain (sender : Sender) (accepted : List TxDatagram)
    (frames : List TxFrame) :
    HandsOver sender accepted frames 0 0 sender.countEagain accepted :=
  ⟨Nat.zero_le _, rfl, rfl, by simp [countEagain], by simp [countEagain],
    by simp [countEagain], by simp⟩

theorem hands_over_error (sender : Sender) (accepted : List TxDatagram)
    (frames : List TxFrame) :
    HandsOver sender accepted frames 0 1 sender.countError accepted :=
  ⟨Nat.zero_le _, rfl, rfl, by simp [countError], by simp [countError], rfl, by simp⟩

theorem hands_over_append {sender middle after : Sender}
    {accepted acceptedMiddle acceptedAfter : List TxDatagram} {frames : List TxFrame}
    {sent more : Nat} {errors later : UInt64}
    (first : HandsOver sender accepted frames sent errors middle acceptedMiddle)
    (second : HandsOver middle acceptedMiddle (frames.drop sent) more later after
      acceptedAfter) :
    HandsOver sender accepted frames (sent + more) (errors + later) after acceptedAfter := by
  have fits := second.fits
  have whole := first.fits
  rw [List.length_drop] at fits
  refine ⟨by omega, second.fd.trans first.fd, second.datagram.trans first.datagram, ?_, ?_,
    ?_, ?_⟩
  · rw [second.packets, first.packets, UInt64.ofNat_add, UInt64.add_assoc]
  · rw [second.bytes, first.bytes, List.take_add, List.map_append, List.sum_append,
      UInt64.add_assoc]
  · rw [second.errors, first.errors, UInt64.add_assoc]
  · rw [second.accepted, first.accepted, first.datagram, List.take_add, List.map_append,
      List.append_assoc]

theorem count_packets (sender : Sender) (frames : List TxFrame) :
    (frames.foldl countPacket sender).fd = sender.fd ∧
      (frames.foldl countPacket sender).datagram = sender.datagram ∧
      (frames.foldl countPacket sender).stats =
        { sender.stats with
          sentPackets := sender.stats.sentPackets + UInt64.ofNat frames.length
          sentBytes := sender.stats.sentBytes + (frames.map TxFrame.len).sum } := by
  induction frames generalizing sender with
  | nil => simp
  | cons frame frames ih =>
      obtain ⟨fd, datagram, stats⟩ := ih (sender.countPacket frame)
      rw [List.foldl_cons]
      refine ⟨fd, datagram, ?_⟩
      rw [stats]
      simp only [countPacket, List.length_cons, List.map_cons, List.sum_cons,
        UInt64.ofNat_add, UInt64.add_assoc]
      rw [UInt64.add_comm 1 (UInt64.ofNat frames.length)]
      rfl

theorem hands_over_packets (sender : Sender) (accepted : List TxDatagram)
    {frames : List TxFrame} {sent : Nat} (fits : sent ≤ frames.length) :
    HandsOver sender accepted frames sent 0 ((frames.take sent).foldl countPacket sender)
      (accepted ++ (frames.map sender.datagram).take sent) := by
  obtain ⟨fd, datagram, stats⟩ := count_packets sender (frames.take sent)
  have length : (frames.take sent).length = sent := List.length_take_of_le fits
  refine ⟨fits, fd, datagram, ?_, ?_, ?_, ?_⟩
  · rw [stats, length]
  · rw [stats]
  · rw [stats, UInt64.add_zero]
  · rw [List.map_take]

theorem hands_over_after_eagain {sender after : Sender}
    {accepted acceptedAfter : List TxDatagram} {frames : List TxFrame} {sent : Nat}
    {errors : UInt64}
    (rest : HandsOver sender.countEagain accepted frames sent errors after acceptedAfter) :
    HandsOver sender accepted frames sent errors after acceptedAfter := by
  have whole := hands_over_append (hands_over_eagain sender accepted frames) rest
  rw [Nat.zero_add, UInt64.zero_add] at whole
  exact whole

/-- The retry loop hands over what it reports, or nothing. -/
theorem submit_hands_over (sender : Sender) (kernel : BatchKernel) {frames : List TxFrame}
    (present : frames ≠ []) (retry : Nat) :
    let ended := sender.submit kernel frames retry
    HandsOver sender kernel.accepted frames (ended.1.getD 0)
      (if ended.1.isSome then 0 else 1) ended.2.1 ended.2.2.accepted := by
  have offered : ∀ from_ : Sender, frames.map from_.datagram ≠ [] := by
    intro from_
    simpa using present
  fun_induction submit sender kernel frames retry with
  | case1 sender kernel retry n next answered some_ =>
      cases SendKernel.submitted_of_sendmmsg (offered sender) answered with
      | accepted _ _ fits more decided =>
          rw [List.length_map] at fits
          exact hands_over_packets sender kernel.accepted fits
      | nothing decided => omega
  | case2 sender kernel retry n next answered none_ =>
      cases SendKernel.submitted_of_sendmmsg (offered sender) answered with
      | accepted _ some_ fits more decided => omega
      | nothing decided => exact hands_over_error sender kernel.accepted frames
  | case3 sender kernel retry next answered ih =>
      cases SendKernel.submitted_of_sendmmsg (offered sender) answered with
      | error errno decided => exact ih
  | case4 sender kernel retry errno next uninterrupted answered transient again room ih =>
      cases SendKernel.submitted_of_sendmmsg (offered sender) answered with
      | error errno decided => exact hands_over_after_eagain ih
  | case5 sender kernel retry errno next uninterrupted answered transient again full =>
      cases SendKernel.submitted_of_sendmmsg (offered sender) answered with
      | error errno decided =>
          exact hands_over_after_eagain (hands_over_error again kernel.accepted frames)
  | case6 sender kernel retry errno next uninterrupted answered lasting =>
      cases SendKernel.submitted_of_sendmmsg (offered sender) answered with
      | error errno decided => exact hands_over_error sender kernel.accepted frames

theorem remaining_present {frames : List TxFrame} {sent : Nat} (more : sent < frames.length) :
    frames.drop sent ≠ [] := by
  rw [Ne, List.drop_eq_nil_iff]
  omega

/-- A prefix of the frames is handed over, and a call that ends early counts one error. -/
theorem send_remaining_hands_over (sender : Sender) (kernel : BatchKernel)
    (frames : List TxFrame) (sent : Nat) (below : sent ≤ frames.length) :
    let ended := sender.sendRemaining kernel frames sent
    ∃ more, ended.1 = sent + more ∧
      HandsOver sender kernel.accepted (frames.drop sent) more
        (if ended.1 < frames.length then 1 else 0) ended.2.1 ended.2.2.accepted := by
  fun_induction sendRemaining sender kernel frames sent with
  | case1 sender kernel sent more bad =>
      refine ⟨0, rfl, ?_⟩
      rw [if_pos more]
      exact hands_over_error sender kernel.accepted _
  | case2 sender kernel sent more good n after next submitted ih =>
      have present := remaining_present more
      have first := submit_hands_over sender kernel present 0
      rw [submitted] at first
      have fits := first.fits
      rw [List.length_drop] at fits
      obtain ⟨rest, total, second⟩ := ih (by simp only [Option.getD_some] at fits; omega)
      refine ⟨n + rest, by omega, ?_⟩
      rw [← List.drop_drop] at second
      have whole := hands_over_append first second
      rw [Option.isSome_some, if_pos rfl, UInt64.zero_add] at whole
      exact whole
  | case3 sender kernel sent more good after next submitted =>
      have present := remaining_present more
      have first := submit_hands_over sender kernel present 0
      rw [submitted] at first
      refine ⟨0, rfl, ?_⟩
      rw [if_pos more]
      exact first
  | case4 sender kernel sent done =>
      refine ⟨0, rfl, ?_⟩
      rw [if_neg done]
      exact hands_over_nothing sender kernel.accepted _

/-! ## When a transient error ends the call -/

end Sender

namespace SendmmsgReply

def transient : SendmmsgReply → Bool
  | .error errno => isTransientSendError errno
  | _ => false

def accepting : SendmmsgReply → Bool
  | .accept _ => true
  | _ => false

end SendmmsgReply

/-- Every transient error in these answers is the last of them exactly if it is the first
one too many since the last datagram was accepted. -/
abbrev GivesUp (retry : Nat) (answered : List SendmmsgReply) : Prop :=
  EndsAtLimit SendmmsgReply.transient SendmmsgReply.accepting kMaxSendRetries retry answered

/-- The answers of a retry loop that ended with `taken`, begun after `retry` errors, and what
the rest of the call makes of them. -/
def Answered (kernel : BatchKernel) (retry : Nat) (taken : Option Nat) (next : BatchKernel) :
    Prop :=
  ∃ answered, answered ≠ [] ∧ next.answers.given = kernel.answers.given ++ answered ∧
    ∀ later, (taken = none → later = []) → GivesUp 0 later → GivesUp retry (answered ++ later)

theorem answered_accepted {kernel : BatchKernel} {more : Nat}
    (decided : kernel.answers.next = .accept more) (retry n : Nat) (accepted : List TxDatagram) :
    Answered kernel retry (some n) ⟨kernel.answers.rest, accepted⟩ := by
  refine ⟨[kernel.answers.next], List.cons_ne_nil _ _, rfl, ?_⟩
  intro later _ rest
  rw [decided, List.singleton_append]
  cases later with
  | nil =>
      apply ends_at_limit_singleton
      intro impossible
      cases impossible
  | cons reply later =>
      apply ends_at_limit_cons (List.cons_ne_nil _ _)
      · intro impossible
        cases impossible
      · exact rest

theorem answered_failed {kernel : BatchKernel} {retry : Nat}
    (last : kernel.answers.next.transient = true → retry = kMaxSendRetries)
    (accepted : List TxDatagram) :
    Answered kernel retry none ⟨kernel.answers.rest, accepted⟩ := by
  refine ⟨[kernel.answers.next], List.cons_ne_nil _ _, rfl, ?_⟩
  intro later nothing _
  rw [nothing rfl, List.append_nil]
  apply ends_at_limit_singleton
  intro transient
  refine ⟨?_, last transient⟩
  cases decided : kernel.answers.next with
  | accept more =>
      rw [decided] at transient
      cases transient
  | nothing => rfl
  | error errno => rfl

/-- One more attempt after an error. -/
theorem answered_again {kernel next : BatchKernel} {retry : Nat} {errno : SendErrno}
    {taken : Option Nat} (decided : kernel.answers.next = .error errno)
    (room : isTransientSendError errno = true → retry < kMaxSendRetries)
    {accepted : List TxDatagram}
    (rest : Answered ⟨kernel.answers.rest, accepted⟩
      (if isTransientSendError errno then retry + 1 else retry) taken next) :
    Answered kernel retry taken next := by
  obtain ⟨answered, present, given, follows⟩ := rest
  refine ⟨kernel.answers.next :: answered, List.cons_ne_nil _ _, ?_, ?_⟩
  · rw [given, List.append_cons]
    rfl
  · intro later ending after
    have whole := follows later ending after
    rw [decided, List.cons_append]
    apply ends_at_limit_cons
    · intro empty
      exact present (List.append_eq_nil_iff.mp empty).1
    · intro transient _
      exact room transient
    · exact whole

namespace Sender

theorem submit_answered (sender : Sender) (kernel : BatchKernel) {frames : List TxFrame}
    (present : frames ≠ []) (retry : Nat) (bounded : retry ≤ kMaxSendRetries) :
    let ended := sender.submit kernel frames retry
    Answered kernel retry ended.1 ended.2.2 := by
  have offered : ∀ from_ : Sender, frames.map from_.datagram ≠ [] := by
    intro from_
    simpa using present
  fun_induction submit sender kernel frames retry with
  | case1 sender kernel retry n next answered some_ =>
      cases SendKernel.submitted_of_sendmmsg (offered sender) answered with
      | accepted _ _ fits more decided => exact answered_accepted decided retry n _
      | nothing decided => omega
  | case2 sender kernel retry n next answered none_ =>
      cases SendKernel.submitted_of_sendmmsg (offered sender) answered with
      | accepted _ some_ fits more decided => omega
      | nothing decided =>
          apply answered_failed
          intro transient
          rw [decided] at transient
          cases transient
  | case3 sender kernel retry next answered ih =>
      cases SendKernel.submitted_of_sendmmsg (offered sender) answered with
      | error errno decided =>
          apply answered_again decided
          · intro impossible
            cases impossible
          · exact ih bounded
  | case4 sender kernel retry errno next uninterrupted answered transient again room ih =>
      cases SendKernel.submitted_of_sendmmsg (offered sender) answered with
      | error errno decided =>
          apply answered_again decided
          · intro _
            exact room
          · rw [if_pos transient]
            exact ih (by omega)
  | case5 sender kernel retry errno next uninterrupted answered transient again full =>
      cases SendKernel.submitted_of_sendmmsg (offered sender) answered with
      | error errno decided =>
          apply answered_failed
          intro _
          omega
  | case6 sender kernel retry errno next uninterrupted answered lasting =>
      cases SendKernel.submitted_of_sendmmsg (offered sender) answered with
      | error errno decided =>
          apply answered_failed
          intro transient
          rw [decided] at transient
          exact absurd transient lasting

theorem send_remaining_gives_up (sender : Sender) (kernel : BatchKernel)
    (frames : List TxFrame) (sent : Nat) :
    ∃ answered,
      (sender.sendRemaining kernel frames sent).2.2.answers.given =
          kernel.answers.given ++ answered ∧
        GivesUp 0 answered := by
  fun_induction sendRemaining sender kernel frames sent with
  | case1 sender kernel sent more bad =>
      exact ⟨[], (List.append_nil _).symm, ends_at_limit_nil _ _⟩
  | case2 sender kernel sent more good n after next submitted ih =>
      have present := remaining_present more
      have first := submit_answered sender kernel present 0 (Nat.zero_le _)
      rw [submitted] at first
      obtain ⟨answered, -, given, follows⟩ := first
      obtain ⟨later, givenLater, rest⟩ := ih
      refine ⟨answered ++ later, ?_, follows later (fun impossible => by cases impossible) rest⟩
      rw [givenLater, given, List.append_assoc]
  | case3 sender kernel sent more good after next submitted =>
      have present := remaining_present more
      have first := submit_answered sender kernel present 0 (Nat.zero_le _)
      rw [submitted] at first
      obtain ⟨answered, -, given, follows⟩ := first
      have whole := follows [] (fun _ => rfl) (ends_at_limit_nil _ _)
      rw [List.append_nil] at whole
      exact ⟨answered, given, whole⟩
  | case4 sender kernel sent done =>
      exact ⟨[], (List.append_nil _).symm, ends_at_limit_nil _ _⟩

theorem not_refused {sender : Sender} (opened : 0 ≤ sender.fd) (frames : List TxFrame) :
    ¬ (sender.fd < 0 ∨ (TxFrames.array frames).refused = true) := by
  simpa [TxFrames.refused] using opened

theorem send_batch_opened {sender : Sender} (opened : 0 ≤ sender.fd) (kernel : BatchKernel)
    (frames : List TxFrame) :
    sender.sendBatch kernel (.array frames) =
      (((sender.sendRemaining kernel frames 0).1 : Int),
        (sender.sendRemaining kernel frames 0).2) := by
  rw [sendBatch, if_neg (not_refused opened frames)]
  rfl

theorem send_batch_portable_opened {sender : Sender} (opened : 0 ≤ sender.fd)
    (kernel : DatagramKernel) (frames : List TxFrame) :
    sender.sendBatchPortable kernel (.array frames) =
      (((sender.sendEach kernel 0 frames).1 : Int), (sender.sendEach kernel 0 frames).2) := by
  rw [sendBatchPortable, if_neg (not_refused opened frames)]
  rfl

/-- The kernel takes all of these frames in one call. -/
theorem submit_whole (sender : Sender) {kernel : BatchKernel} {frames : List TxFrame} {more : Nat}
    (decided : kernel.answers.next = .accept more) (fits : frames.length ≤ more + 1)
    (present : frames ≠ []) (retry : Nat) :
    sender.submit kernel frames retry = (some frames.length, frames.foldl countPacket sender,
      ⟨kernel.answers.rest, kernel.accepted ++ frames.map sender.datagram⟩) := by
  have offered : 0 < frames.length := List.length_pos_iff.mpr present
  have answered : kernel.sendmmsg (frames.map sender.datagram) = (.count frames.length,
      ⟨kernel.answers.rest, kernel.accepted ++ frames.map sender.datagram⟩) := by
    simp only [SendKernel.sendmmsg, decided, List.length_map, Nat.min_eq_right fits]
    rw [List.take_of_length_le (by rw [List.length_map])]
  rw [submit]
  split
  · next count after same =>
      rw [answered] at same
      cases same
      rw [if_pos offered, List.take_length]
  · next after same =>
      rw [answered] at same
      cases same
  · next errno after _ same =>
      rw [answered] at same
      cases same

theorem submit_refused (sender : Sender) {kernel : BatchKernel}
    (decided : kernel.answers.next = .error .other) (frames : List TxFrame) (retry : Nat) :
    sender.submit kernel frames retry =
      (none, sender.countError, ⟨kernel.answers.rest, kernel.accepted⟩) := by
  have answered : kernel.sendmmsg (frames.map sender.datagram) = (.error .other,
      ⟨kernel.answers.rest, kernel.accepted⟩) := by
    simp only [SendKernel.sendmmsg, decided]
  rw [submit]
  split
  · next count after same =>
      rw [answered] at same
      cases same
  · next after same =>
      rw [answered] at same
      cases same
  · next errno after _ same =>
      rw [answered] at same
      cases same
      rfl

theorem send_batch_whole {sender : Sender} (opened : 0 ≤ sender.fd) {kernel : BatchKernel}
    {frames : List TxFrame} {more : Nat} (decided : kernel.answers.next = .accept more)
    (fits : frames.length ≤ more + 1) (valid : ∀ frame ∈ frames, frame.invalid = false)
    (present : frames ≠ []) :
    sender.sendBatch kernel (.array frames) = ((frames.length : Int),
      frames.foldl countPacket sender,
      ⟨kernel.answers.rest, kernel.accepted ++ frames.map sender.datagram⟩) := by
  have good : ¬ (frames.drop 0).any TxFrame.invalid = true := by
    rw [List.drop_zero, List.any_eq_true]
    rintro ⟨frame, member, invalid⟩
    rw [valid frame member] at invalid
    cases invalid
  rw [send_batch_opened opened, sendRemaining, dif_pos (List.length_pos_iff.mpr present),
    if_neg good]
  have submitted := submit_whole sender decided fits present 0
  split
  · next n after next same =>
      rw [List.drop_zero, submitted] at same
      cases same
      rw [Nat.zero_add, sendRemaining, dif_neg (Nat.lt_irrefl _)]
  · next after next same =>
      rw [List.drop_zero, submitted] at same
      cases same

theorem send_batch_refused {sender : Sender} (opened : 0 ≤ sender.fd) {kernel : BatchKernel}
    {frames : List TxFrame} (decided : kernel.answers.next = .error .other)
    (valid : ∀ frame ∈ frames, frame.invalid = false) (present : frames ≠ []) :
    sender.sendBatch kernel (.array frames) =
      (0, sender.countError, ⟨kernel.answers.rest, kernel.accepted⟩) := by
  have good : ¬ (frames.drop 0).any TxFrame.invalid = true := by
    rw [List.drop_zero, List.any_eq_true]
    rintro ⟨frame, member, invalid⟩
    rw [valid frame member] at invalid
    cases invalid
  rw [send_batch_opened opened, sendRemaining, dif_pos (List.length_pos_iff.mpr present),
    if_neg good]
  split
  · next n after next same =>
      rw [submit_refused sender decided] at same
      cases same
  · next after next same =>
      rw [submit_refused sender decided] at same
      cases same
      rfl

/-- A batch is handed over as an exact prefix, and a transient error ends the call exactly
when it is the 201st one since the last acceptance. -/
theorem send_batch_exact (sender : Sender) (kernel : BatchKernel) (frames : List TxFrame)
    (opened : 0 ≤ sender.fd) :
    let ended := sender.sendBatch kernel (.array frames)
    ∃ sent : Nat, ended.1 = sent ∧ sent ≤ frames.length ∧
      ended.2.2.accepted = kernel.accepted ++ (frames.take sent).map sender.datagram ∧
      ended.2.1.stats.sentPackets = sender.stats.sentPackets + UInt64.ofNat sent ∧
      ended.2.1.stats.sentBytes =
        sender.stats.sentBytes + ((frames.take sent).map TxFrame.len).sum ∧
      ended.2.1.stats.sentErrors =
        sender.stats.sentErrors + (if sent < frames.length then 1 else 0) ∧
      ∃ answered, ended.2.2.answers.given = kernel.answers.given ++ answered ∧
        ∀ before reply after, answered = before ++ reply :: after → reply.transient = true →
          (after = [] ↔
            streak SendmmsgReply.transient SendmmsgReply.accepting (before ++ [reply]) =
              201) := by
  intro ended
  have looped : ended = _ := send_batch_opened opened kernel frames
  obtain ⟨sent, total, handed⟩ :=
    send_remaining_hands_over sender kernel frames 0 (Nat.zero_le _)
  obtain ⟨answered, given, givesUp⟩ := send_remaining_gives_up sender kernel frames 0
  rw [Nat.zero_add] at total
  rw [List.drop_zero, total] at handed
  rw [looped]
  exact ⟨sent, by rw [total], handed.fits, handed.accepted, handed.packets, handed.bytes,
    handed.errors, answered, given, givesUp⟩

/-- Two frames, taken one by one, with an interrupted call and a full buffer on the way. -/
theorem two_frames_exact :
    let sender : Sender := ⟨3, true, ⟨0, 0⟩, ⟨0, 0, 0, 0⟩⟩
    let frames : List TxFrame := [⟨some [7], 1⟩, ⟨some [8, 9], 2⟩]
    let kernel : BatchKernel := ⟨((((Answers.always (.accept 0) (by decide)).before
      (.error .enobufs)).before (.accept 0)).before (.error .eintr)), []⟩
    0 ≤ sender.fd ∧ ∃ sent : Nat,
      (sender.sendBatch kernel (.array frames)).1 = sent ∧ sent ≤ 2 ∧
        (sender.sendBatch kernel (.array frames)).2.2.accepted =
          (frames.take sent).map sender.datagram := by
  intro sender frames kernel
  have opened : 0 ≤ sender.fd := by decide
  obtain ⟨sent, returned, fits, accepted, -⟩ := send_batch_exact sender kernel frames opened
  exact ⟨opened, sent, returned, fits, accepted⟩

end Sender

end MarketDataEngine.Net
