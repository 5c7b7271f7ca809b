import Mathlib.Data.UInt
import MarketDataEngine.FeedAccounting

/-!
# The counters of a consumer, modulo `2 ^ 64`

Whatever the sequence numbers are, the counters of the tracker balance in the wrapping
arithmetic of `uint64_t`: every received message is processed or dropped by its sequence
number, and the processed messages with the gaps reach from the first number to the one
expected next. Once the tracker is initialised, an accepted message moves the expected
number by one and by the gap it closes, and these are what is counted.
-/

namespace MarketDataEngine.Engine

open MarketDataEngine.Protocol

set_option autoImplicit false

/-- An accepted message moves the expected number by what is counted for it. -/
theorem expected_of_accepted {tracker : SequenceTracker}
    (initialized : tracker.seqInitialized = true) {seqNum : UInt64}
    (taken : (tracker.verdict seqNum).accepted = true) :
    seqNum = tracker.expectedSeqNum + (tracker.verdict seqNum).missing := by
  have order := (SequenceTracker.verdict_initialized initialized).mp taken
  simp only [SequenceTracker.verdict, initialized, Bool.not_true, Bool.false_eq_true,
    ↓reduceIte]
  split_ifs with inOrder above
  · have nothing : Verdict.inOrder.missing = 0 := rfl
    rw [nothing, inOrder, UInt64.add_zero]
  · rw [Verdict.missing, UInt64.add_comm, UInt64.sub_add_cancel]
  · have equal : seqNum = tracker.expectedSeqNum :=
      UInt64.le_antisymm (UInt64.not_lt.mp above) order
    exact absurd equal inOrder

/-- The books of a consumer whose first message had the number `first`. -/
structure Balances (session : Session) (first : UInt64) : Prop where
  initialized : session.tracker.seqInitialized = true
  received : session.metrics.received =
    session.metrics.processed + UInt64.ofNat session.sequenceDrops
  span : session.metrics.processed + session.metrics.seqNumGaps =
    session.tracker.expectedSeqNum - first

theorem classify_received (metrics : Metrics) (verdict : Verdict) :
    (metrics.classify verdict).received = metrics.received := by
  cases verdict <;> rfl

theorem sequence_drops_handle (session : Session) (frame : Frame) :
    (session.handle frame).sequenceDrops = session.sequenceDrops +
      if (session.tracker.verdict (messageOf frame.toList).seqNum).accepted then 0
      else 1 := by
  simp only [Session.sequenceDrops, Session.handle, List.countP_append, List.countP_singleton]
  cases (session.tracker.verdict (messageOf frame.toList).seqNum).accepted <;> rfl

theorem received_handle {session : Session}
    (balanced : session.metrics.received =
      session.metrics.processed + UInt64.ofNat session.sequenceDrops) (frame : Frame) :
    (session.handle frame).metrics.received = (session.handle frame).metrics.processed +
      UInt64.ofNat (session.handle frame).sequenceDrops := by
  have received : (session.handle frame).metrics.received = session.metrics.received + 1 :=
    classify_received _ _
  have processed : (session.handle frame).metrics.processed = session.metrics.processed +
      if (session.tracker.verdict (messageOf frame.toList).seqNum).accepted then 1 else 0 :=
    classify_processed _ _
  rw [received, processed, sequence_drops_handle, balanced]
  split_ifs
  · rw [Nat.add_zero]
    ac_rfl
  · rw [UInt64.add_zero, UInt64.ofNat_add, UInt64.add_assoc]
    rfl

theorem balances_first (frame : Frame) :
    Balances (Session.fresh.handle frame) (messageOf frame.toList).seqNum := by
  have nothing : Session.fresh.metrics.received =
      Session.fresh.metrics.processed + UInt64.ofNat Session.fresh.sequenceDrops := rfl
  have expected : (Session.fresh.handle frame).tracker.expectedSeqNum =
      (messageOf frame.toList).seqNum + 1 := rfl
  have counted : (Session.fresh.handle frame).metrics.processed +
      (Session.fresh.handle frame).metrics.seqNumGaps = 1 := rfl
  refine ⟨rfl, received_handle nothing frame, ?_⟩
  rw [counted, expected, UInt64.add_comm, UInt64.add_sub_cancel]

theorem balances_handle {session : Session} {first : UInt64} (balances : Balances session first)
    (frame : Frame) : Balances (session.handle frame) first := by
  have processed : (session.handle frame).metrics.processed = session.metrics.processed +
      if (session.tracker.verdict (messageOf frame.toList).seqNum).accepted then 1 else 0 :=
    classify_processed _ _
  have gaps := seq_num_gaps_handle session frame
  have observed : (session.handle frame).tracker =
      session.tracker.observe (messageOf frame.toList).seqNum := rfl
  have received := received_handle balances.received frame
  by_cases taken :
      (session.tracker.verdict (messageOf frame.toList).seqNum).accepted = true
  · rw [SequenceTracker.observe_accepted taken] at observed
    rw [if_pos taken] at processed
    refine ⟨by rw [observed], received, ?_⟩
    have moved := expected_of_accepted balances.initialized taken
    have span := balances.span
    rw [observed, processed, gaps]
    calc
      session.metrics.processed + 1 + (session.metrics.seqNumGaps + _) =
          session.metrics.processed + session.metrics.seqNumGaps +
            (session.tracker.verdict (messageOf frame.toList).seqNum).missing + 1 := by ac_rfl
      _ = session.tracker.expectedSeqNum +
            (session.tracker.verdict (messageOf frame.toList).seqNum).missing + 1 - first := by
        rw [span]
        grind
      _ = (messageOf frame.toList).seqNum + 1 - first := by rw [← moved]
  · rw [SequenceTracker.observe_rejected taken] at observed
    rw [if_neg taken, UInt64.add_zero] at processed
    rw [missing_of_rejected taken, UInt64.add_zero] at gaps
    refine ⟨by rw [observed, balances.initialized], received, ?_⟩
    rw [observed, processed, gaps]
    exact balances.span

theorem balances_replay (frame : Frame) (frames : List Frame) :
    Balances (replay (frame :: frames)) (messageOf frame.toList).seqNum := by
  induction frames using List.reverseRecOn with
  | nil => exact balances_first frame
  | append_singleton frames later ih =>
      rw [← List.cons_append, replay_snoc]
      exact balances_handle ih later

theorem balances_besides_drops (session : Session) (first : UInt64) :
    Balances session.besidesDrops first ↔ Balances session first :=
  ⟨fun ⟨initialized, received, span⟩ => ⟨initialized, received, span⟩,
    fun ⟨initialized, received, span⟩ => ⟨initialized, received, span⟩⟩

/-- Alone, a consumer drops by the sequence number only. -/
theorem drops_replay (frames : List Frame) :
    (replay frames).metrics.drops = UInt64.ofNat (replay frames).sequenceDrops := by
  induction frames using List.reverseRecOn with
  | nil => rfl
  | append_singleton frames frame ih =>
      have drops : ((replay frames).handle frame).metrics.drops =
          (replay frames).metrics.drops +
            if ((replay frames).tracker.verdict (messageOf frame.toList).seqNum).accepted
            then 0 else 1 := by
        simp only [Session.handle]
        cases (replay frames).tracker.verdict (messageOf frame.toList).seqNum <;>
          simp [Metrics.classify, Metrics.incReceived, Metrics.incProcessed, Metrics.incDrops,
            Metrics.incSeqNumGaps, Verdict.accepted]
      rw [replay_snoc, sequence_drops_handle, drops, ih]
      split_ifs
      · rw [UInt64.add_zero, Nat.add_zero]
      · rw [UInt64.ofNat_add]
        rfl

/-- After any non-empty list of messages the counters balance, on its own or between two
frames of a running engine. -/
theorem sequence_accounting_balances {order : ByteOrder} {frames : List Frame}
    {session : Session} {first : MarketDataMsg} {rest : List MarketDataMsg}
    (handled : Handled order frames session) (messages : messagesOf frames = first :: rest) :
    session.metrics.received =
        session.metrics.processed + UInt64.ofNat session.sequenceDrops ∧
      session.metrics.processed + session.metrics.seqNumGaps =
        session.tracker.expectedSeqNum - first.seqNum ∧
      (consume order frames = some session →
        session.metrics.drops = UInt64.ofNat session.sequenceDrops) := by
  cases frames with
  | nil => cases messages
  | cons frame frames =>
      obtain ⟨isFirst, -⟩ := List.cons.inj messages
      have balances : Balances session first.seqNum := by
        rw [← isFirst, ← balances_besides_drops, handled_besides_drops handled,
          balances_besides_drops]
        exact balances_replay frame frames
      refine ⟨balances.received, balances.span, ?_⟩
      intro alone
      rw [consume_eq] at alone
      cases alone
      exact drops_replay (frame :: frames)

/-- Three messages over the top of the range: the second closes a gap of three numbers and
makes the expected number wrap, the third closes a gap behind the wrap. -/
theorem accounting_across_wrap :
    let numbered (seqNum : UInt64) : MarketDataMsg := ⟨seqNum, 0, 0, 0, 0, 0, 0⟩
    let messages := [numbered (2 ^ 64 - 5), numbered (2 ^ 64 - 1), numbered 7]
    ∃ session, consume .little
        (messages.map (encode .little (Vector.replicate kWireSize 0))) = some session ∧
      session.metrics.received =
        session.metrics.processed + UInt64.ofNat session.sequenceDrops ∧
      session.metrics.processed + session.metrics.seqNumGaps =
        session.tracker.expectedSeqNum - (2 ^ 64 - 5) := by
  intro numbered messages
  have handled := Handled.alone (consume_eq .little
    (messages.map (encode .little (Vector.replicate kWireSize 0))))
  obtain ⟨received, span, -⟩ :=
    sequence_accounting_balances handled (messages_of_encoded _ _ messages)
  exact ⟨_, consume_eq .little _, received, span⟩

end MarketDataEngine.Engine
