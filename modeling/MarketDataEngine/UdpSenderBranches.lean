import Mathlib.Data.List.TakeWhile
import MarketDataEngine.UdpSender

/-!
# The two branches of `send_batch` compared

On a kernel that takes every datagram offered, the portable branch sends the frames in
front of the first invalid one. The branch for Linux looks at all remaining frames before it
submits any, so a single invalid frame keeps back the valid ones in front of it.
-/

namespace MarketDataEngine.Net.Sender

open MarketDataEngine.AnswerStream

set_option autoImplicit false

/-- Same result, same counters, same datagrams. -/
def Agree (linux : Int × Sender × BatchKernel) (portable : Int × Sender × DatagramKernel) :
    Prop :=
  linux.1 = portable.1 ∧ linux.2.1 = portable.2.1 ∧
    linux.2.2.accepted = portable.2.2.accepted

/-- A call takes some of the datagrams offered, so that all of them are taken in the end. -/
def TakesBatches (kernel : BatchKernel) : Prop :=
  ∀ index, ∃ more, kernel.answers.answer index = .accept more

def TakesDatagrams (kernel : DatagramKernel) : Prop :=
  ∀ index, kernel.answers.answer index = .whole

theorem submit_taken (sender : Sender) {kernel : BatchKernel} (takes : TakesBatches kernel)
    {frames : List TxFrame} (present : frames ≠ []) (retry : Nat) :
    ∃ (n : Nat) (next : BatchKernel), n ≤ frames.length ∧ TakesBatches next ∧
      next.accepted = kernel.accepted ++ (frames.take n).map sender.datagram ∧
      sender.submit kernel frames retry =
        (some n, (frames.take n).foldl countPacket sender, next) := by
  obtain ⟨more, decided⟩ := takes 0
  have offered : 0 < frames.length := List.length_pos_iff.mpr present
  let n := min (more + 1) frames.length
  let next : BatchKernel := ⟨kernel.answers.rest,
    kernel.accepted ++ (frames.map sender.datagram).take n⟩
  have answered : kernel.sendmmsg (frames.map sender.datagram) = (.count n, next) := by
    simp only [SendKernel.sendmmsg, Answers.next, decided, List.length_map, n, next]
  refine ⟨n, next, Nat.min_le_right _ _, fun index => takes (index + 1), ?_, ?_⟩
  · rw [List.map_take]
  · rw [submit]
    split
    · next count after same =>
        rw [answered] at same
        cases same
        have positive : 0 < n := by omega
        rw [if_pos positive]
    · next after same =>
        rw [answered] at same
        cases same
    · next errno after _ same =>
        rw [answered] at same
        cases same

theorem send_remaining_taken (sender : Sender) {kernel : BatchKernel}
    (takes : TakesBatches kernel) (frames : List TxFrame) (sent : Nat)
    (valid : ∀ frame ∈ frames, frame.invalid = false) (below : sent ≤ frames.length) :
    let ended := sender.sendRemaining kernel frames sent
    ended.1 = frames.length ∧ ended.2.1 = (frames.drop sent).foldl countPacket sender ∧
      ended.2.2.accepted = kernel.accepted ++ (frames.drop sent).map sender.datagram ∧
      TakesBatches ended.2.2 := by
  fun_induction sendRemaining sender kernel frames sent with
  | case1 sender kernel sent more bad =>
      obtain ⟨frame, member, invalid⟩ := List.any_eq_true.mp bad
      have good := valid frame (List.mem_of_mem_drop member)
      rw [good] at invalid
      cases invalid
  | case2 sender kernel sent more good n after next submitted ih =>
      obtain ⟨count, last, fits, goesOn, accepted, same⟩ :=
        submit_taken sender takes (remaining_present more) 0
      rw [submitted] at same
      cases same
      rw [List.length_drop] at fits
      obtain ⟨all, counted, handed, still⟩ := ih goesOn (by omega)
      have split_ : frames.drop sent =
          (frames.drop sent).take n ++ frames.drop (sent + n) := by
        rw [← List.drop_drop, List.take_append_drop]
      have datagram := (count_packets sender ((frames.drop sent).take n)).2.1
      refine ⟨all, ?_, ?_, still⟩
      · rw [counted, ← List.foldl_append, ← split_]
      · rw [handed, accepted, datagram, List.append_assoc, ← List.map_append, ← split_]
  | case3 sender kernel sent more good after next submitted =>
      obtain ⟨count, last, fits, goesOn, accepted, same⟩ :=
        submit_taken sender takes (remaining_present more) 0
      rw [submitted] at same
      cases same
  | case4 sender kernel sent done =>
      have nothing : frames.drop sent = [] := List.drop_eq_nil_iff.mpr (by omega)
      rw [nothing]
      exact ⟨by omega, rfl, (List.append_nil _).symm, takes⟩

theorem send_datagram_taken (sender : Sender) {kernel : DatagramKernel}
    (takes : TakesDatagrams kernel) (frame : TxFrame) (retry : Nat) :
    sender.sendDatagram kernel frame retry = (true, sender.countPacket frame,
      ⟨kernel.answers.rest, kernel.accepted ++ [sender.datagram frame]⟩) := by
  have answered : kernel.sendto (sender.datagram frame) = (.count frame.len.toNat,
      ⟨kernel.answers.rest, kernel.accepted ++ [sender.datagram frame]⟩) := by
    have decided := takes 0
    simp only [SendKernel.sendto, Answers.next, decided]
    rfl
  rw [sendDatagram]
  split
  · next count after same =>
      rw [answered] at same
      cases same
      rw [if_pos rfl]
  · next after same =>
      rw [answered] at same
      cases same
  · next errno after _ same =>
      rw [answered] at same
      cases same

/-- The portable branch sends up to the first invalid frame. -/
theorem send_each_taken (sender : Sender) {kernel : DatagramKernel}
    (takes : TakesDatagrams kernel) (sent : Nat) (frames : List TxFrame) :
    let valid := frames.takeWhile fun frame => !frame.invalid
    let ended := sender.sendEach kernel sent frames
    ended.1 = sent + valid.length ∧
      ended.2.1 = (if valid.length < frames.length then
        (valid.foldl countPacket sender).countError else valid.foldl countPacket sender) ∧
      ended.2.2.accepted = kernel.accepted ++ valid.map sender.datagram := by
  induction frames generalizing sender kernel sent with
  | nil => simp [sendEach]
  | cons frame frames ih =>
      cases bad : frame.invalid with
      | true => simp [sendEach, bad]
      | false =>
          obtain ⟨all, counted, handed⟩ := @ih (sender.countPacket frame)
            ⟨kernel.answers.rest, kernel.accepted ++ [sender.datagram frame]⟩
            (fun index => takes (index + 1)) (sent + 1)
          have datagram : (sender.countPacket frame).datagram = sender.datagram := rfl
          rw [datagram] at handed
          simp only [sendEach, bad, send_datagram_taken sender takes, Bool.false_eq_true,
            ↓reduceIte, Bool.not_false, List.takeWhile_cons_of_pos, List.length_cons,
            List.foldl_cons, List.map_cons, Nat.add_lt_add_iff_right]
          refine ⟨by omega, counted, ?_⟩
          rw [handed, List.append_assoc, List.singleton_append]

theorem send_remaining_invalid (sender : Sender) (kernel : BatchKernel)
    {frames : List TxFrame} (bad : frames.any TxFrame.invalid = true) :
    sender.sendRemaining kernel frames 0 = (0, sender.countError, kernel) := by
  have more : 0 < frames.length := by
    apply List.length_pos_iff.mpr
    intro empty
    rw [empty] at bad
    cases bad
  rw [sendRemaining, dif_pos more, List.drop_zero, if_pos bad]

/-- With a kernel that takes everything the branches part exactly where an invalid frame
stands behind a valid first one: for Linux nothing is sent then. -/
theorem branches_agree_iff (sender : Sender) (linux : BatchKernel) (portable : DatagramKernel)
    (frames : List TxFrame) (opened : 0 ≤ sender.fd) (takesBatches : TakesBatches linux)
    (takesDatagrams : TakesDatagrams portable) (same : linux.accepted = portable.accepted) :
    Agree (sender.sendBatch linux (.array frames))
        (sender.sendBatchPortable portable (.array frames)) ↔
      (∀ frame ∈ frames, frame.invalid = false) ∨
        ∃ frame rest, frames = frame :: rest ∧ frame.invalid = true := by
  obtain ⟨count, counted, handed⟩ := send_each_taken sender takesDatagrams 0 frames
  rw [send_batch_opened opened, send_batch_portable_opened opened]
  cases bad : frames.any TxFrame.invalid with
  | false =>
      have valid : ∀ frame ∈ frames, frame.invalid = false := by
        simpa using bad
      have whole : frames.takeWhile (fun frame => !frame.invalid) = frames := by
        rw [List.takeWhile_eq_self_iff]
        intro frame member
        rw [valid frame member]
        rfl
      rw [whole] at count counted handed
      obtain ⟨all, countedLinux, handedLinux, -⟩ :=
        send_remaining_taken sender takesBatches frames 0 valid (Nat.zero_le _)
      rw [if_neg (Nat.lt_irrefl _)] at counted
      refine ⟨fun _ => .inl valid, fun _ => ⟨?_, ?_, ?_⟩⟩
      · rw [all, count, Nat.zero_add]
      · rw [countedLinux, counted, List.drop_zero]
      · rw [handedLinux, handed, same, List.drop_zero]
  | true =>
      rw [send_remaining_invalid sender linux bad]
      cases frames with
      | nil => cases bad
      | cons frame rest =>
          cases first : frame.invalid with
          | true =>
              have nothing : (frame :: rest).takeWhile (fun frame => !frame.invalid) = [] := by
                simp [first]
              rw [nothing] at count counted handed
              refine ⟨fun _ => .inr ⟨frame, rest, rfl, first⟩, fun _ => ⟨?_, ?_, ?_⟩⟩
              · rw [count]
                rfl
              · have shorter : ([] : List TxFrame).length < (frame :: rest).length :=
                  Nat.succ_pos _
                rw [counted, if_pos shorter]
                rfl
              · rw [handed, same]
                simp
          | false =>
              constructor
              · intro agree
                have returned := agree.1
                simp only [count, List.takeWhile_cons, first, Bool.not_false, ↓reduceIte,
                  List.length_cons] at returned
                omega
              · rintro (valid | ⟨other, others, cons, invalid⟩)
                · obtain ⟨culprit, member, invalid⟩ := List.any_eq_true.mp bad
                  rw [valid culprit member] at invalid
                  cases invalid
                · cases cons
                  rw [first] at invalid
                  cases invalid

/-- Two valid frames. -/
theorem branches_agree_on_two_frames :
    let sender : Sender := ⟨3, true, ⟨0, 0⟩, ⟨0, 0, 0, 0⟩⟩
    let frames : List TxFrame := [⟨some [7], 1⟩, ⟨some [8, 9], 2⟩]
    let linux : BatchKernel := ⟨Answers.always (.accept 0) (by decide), []⟩
    let portable : DatagramKernel := ⟨Answers.always .whole (by decide), []⟩
    0 ≤ sender.fd ∧ TakesBatches linux ∧ TakesDatagrams portable ∧
      linux.accepted = portable.accepted ∧
      Agree (sender.sendBatch linux (.array frames))
        (sender.sendBatchPortable portable (.array frames)) := by
  intro sender frames linux portable
  have opened : 0 ≤ sender.fd := by decide
  have takesBatches : TakesBatches linux := fun _ => ⟨0, rfl⟩
  have takesDatagrams : TakesDatagrams portable := fun _ => rfl
  refine ⟨opened, takesBatches, takesDatagrams, rfl, ?_⟩
  rw [branches_agree_iff sender linux portable frames opened takesBatches takesDatagrams rfl]
  left
  decide

/-- A valid frame in front of a null one: for Linux it is not sent. -/
theorem null_frame_parts_branches :
    let sender : Sender := ⟨3, true, ⟨0, 0⟩, ⟨0, 0, 0, 0⟩⟩
    let frames : List TxFrame := [⟨some [7], 1⟩, ⟨none, 0⟩]
    let linux : BatchKernel := ⟨Answers.always (.accept 0) (by decide), []⟩
    let portable : DatagramKernel := ⟨Answers.always .whole (by decide), []⟩
    0 ≤ sender.fd ∧ TakesBatches linux ∧ TakesDatagrams portable ∧
      (sender.sendBatch linux (.array frames)).1 = 0 ∧
      (sender.sendBatchPortable portable (.array frames)).1 = 1 ∧
      ¬ Agree (sender.sendBatch linux (.array frames))
        (sender.sendBatchPortable portable (.array frames)) := by
  intro sender frames linux portable
  have opened : 0 ≤ sender.fd := by decide
  have takesDatagrams : TakesDatagrams portable := fun _ => rfl
  have linuxReturns : (sender.sendBatch linux (.array frames)).1 = 0 := by
    rw [send_batch_opened opened, send_remaining_invalid sender linux (by decide)]
    rfl
  have portableReturns : (sender.sendBatchPortable portable (.array frames)).1 = 1 := by
    rw [send_batch_portable_opened opened, (send_each_taken sender takesDatagrams 0 frames).1]
    decide
  refine ⟨opened, fun _ => ⟨0, rfl⟩, takesDatagrams, linuxReturns, portableReturns, ?_⟩
  intro agree
  have returned := agree.1
  rw [linuxReturns, portableReturns] at returned
  cases returned

end MarketDataEngine.Net.Sender
