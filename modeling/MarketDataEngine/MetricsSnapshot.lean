import MarketDataEngine.SequenceAccounting

/-!
# The counters while a consumer runs

What one step of an engine does to the counters, as numbers. As long as fewer than `2 ^ 64`
messages were handled, every counter but `seq_num_gaps` is the number of the things it
counts, and only grows. The gaps of a run may add up to more: the counter for them grows
as long as no message follows one with the largest sequence number, which makes the
expected number wrap.
-/

namespace MarketDataEngine.Engine

open MarketDataEngine.Protocol SequenceTracker

set_option autoImplicit false

inductive Field where
  | processed
  | received
  | decodeErrors
  | drops
  | seqNumGaps
  deriving DecidableEq

def Metrics.load (metrics : Metrics) : Field → UInt64
  | .processed => metrics.processed
  | .received => metrics.received
  | .decodeErrors => metrics.decodeErrors
  | .drops => metrics.drops
  | .seqNumGaps => metrics.seqNumGaps

/-- Decoded and not yet counted as received. -/
def toReceive : Option StagePoint → Nat
  | some .countReceived => 1
  | _ => 0

/-- Received and not yet processed or dropped. -/
def toClassify : Option StagePoint → Nat
  | some .classify => 1
  | some (.closeGap _) => 1
  | _ => 0

/-- The counters as numbers. `ioDrops` are the drops counted by the I/O thread. -/
structure Counted (session : Session) (point : Option StagePoint) (ioDrops : Nat) : Prop where
  ready : StageReady session point
  received : session.metrics.received.toNat + toReceive point = session.decoded.length
  balanced : session.metrics.processed.toNat + session.sequenceDrops + toClassify point =
    session.metrics.received.toNat
  drops : session.metrics.drops.toNat = ioDrops + session.sequenceDrops
  no_decode_errors : session.metrics.decodeErrors = 0

/-- No counter but that for the gaps went down. -/
def Grows (before after : Metrics) : Prop :=
  ∀ field, field ≠ .seqNumGaps → before.load field ≤ after.load field

theorem grows_refl (metrics : Metrics) : Grows metrics metrics :=
  fun _ _ => UInt64.le_refl _

theorem grows_of_field {before after : Metrics} (changed : Field)
    (others : ∀ field, field ≠ changed → before.load field = after.load field)
    (grown : before.load changed ≤ after.load changed) : Grows before after := by
  intro field _
  by_cases same : field = changed
  · rw [same]
    exact grown
  · rw [others field same]
    exact UInt64.le_refl _

theorem to_nat_add_one {value : UInt64} {bound : Nat} (room : value.toNat < bound)
    (below : bound < 2 ^ 64) : (value + 1).toNat = value.toNat + 1 := by
  rw [UInt64.toNat_add, UInt64.toNat_one, Nat.mod_eq_of_lt]
  omega

theorem le_add_one {value : UInt64} (next : (value + 1).toNat = value.toNat + 1) :
    value ≤ value + 1 := by
  rw [UInt64.le_iff_toNat_le, next]
  exact Nat.le_succ _

theorem grows_inc_drops {metrics : Metrics}
    (next : (metrics.drops + 1).toNat = metrics.drops.toNat + 1) :
    Grows metrics (metrics.incDrops 1) := by
  apply grows_of_field .drops
  · intro field apart
    cases field <;> first | rfl | exact absurd rfl apart
  · exact le_add_one next

theorem grows_inc_received {metrics : Metrics}
    (next : (metrics.received + 1).toNat = metrics.received.toNat + 1) :
    Grows metrics (metrics.incReceived 1) := by
  apply grows_of_field .received
  · intro field apart
    cases field <;> first | rfl | exact absurd rfl apart
  · exact le_add_one next

theorem grows_inc_processed {metrics : Metrics}
    (next : (metrics.processed + 1).toNat = metrics.processed.toNat + 1) :
    Grows metrics (metrics.incProcessed 1) := by
  apply grows_of_field .processed
  · intro field apart
    cases field <;> first | rfl | exact absurd rfl apart
  · exact le_add_one next

section Steps

variable {session : Session} {ioDrops : Nat}

/-- A drop of the I/O thread. -/
theorem counted_drop_one {point : Option StagePoint} (counted : Counted session point ioDrops)
    (few : ioDrops + 1 + session.decoded.length < 2 ^ 64) :
    Counted session.dropOne point (ioDrops + 1) ∧
      Grows session.metrics session.dropOne.metrics := by
  have balanced := counted.balanced
  have received := counted.received
  have drops := counted.drops
  have next : (session.metrics.drops + 1).toNat = session.metrics.drops.toNat + 1 :=
    to_nat_add_one (Nat.lt_succ_self _) (by omega)
  refine ⟨⟨?_, received, balanced, ?_, counted.no_decode_errors⟩, ?_⟩
  · have ready := counted.ready
    match point, ready with
    | none, _ => trivial
    | some (.closeGap missing), ready => exact ready
    | some .decode, _ => trivial
    | some .countReceived, _ => trivial
    | some .classify, _ => trivial
  · change (session.metrics.drops + 1).toNat = ioDrops + 1 + session.sequenceDrops
    omega
  · exact grows_inc_drops next

theorem counted_decode {order : ByteOrder} (frame : Frame)
    (counted : Counted session (some .decode) ioDrops) :
    Counted (stageStep order frame session .decode).1
        (stageStep order frame session .decode).2 ioDrops ∧
      Grows session.metrics (stageStep order frame session .decode).1.metrics := by
  rw [stage_step_decode]
  refine ⟨⟨trivial, ?_, counted.balanced, counted.drops, counted.no_decode_errors⟩,
    grows_refl _⟩
  have received := counted.received
  simp only [toReceive, List.length_append, List.length_singleton] at received ⊢
  omega

theorem counted_receive {order : ByteOrder} (frame : Frame)
    (counted : Counted session (some .countReceived) ioDrops)
    (few : ioDrops + session.decoded.length < 2 ^ 64) :
    Counted (stageStep order frame session .countReceived).1
        (stageStep order frame session .countReceived).2 ioDrops ∧
      Grows session.metrics (stageStep order frame session .countReceived).1.metrics := by
  have received := counted.received
  have balanced := counted.balanced
  simp only [toReceive, toClassify] at received balanced
  have next : (session.metrics.received + 1).toNat = session.metrics.received.toNat + 1 :=
    to_nat_add_one (Nat.lt_succ_self _) (by omega)
  refine ⟨⟨trivial, ?_, ?_, counted.drops, counted.no_decode_errors⟩, ?_⟩
  · change (session.metrics.received + 1).toNat + 0 = session.decoded.length
    omega
  · change session.metrics.processed.toNat + session.sequenceDrops + 1 =
      (session.metrics.received + 1).toNat
    omega
  · exact grows_inc_received next

/-- The end of every branch of the tracker. -/
theorem counted_finish {point : StagePoint} (counted : Counted session (some point) ioDrops)
    (opened : toClassify (some point) = 1) (settled : toReceive (some point) = 0)
    (few : ioDrops + session.decoded.length < 2 ^ 64) (verdict : Verdict) :
    Counted (session.finish verdict) none ioDrops ∧
      Grows session.metrics (session.finish verdict).metrics := by
  have received := counted.received
  have balanced := counted.balanced
  have drops := counted.drops
  have sequenceDrops := sequence_drops_finish session verdict
  rw [opened] at balanced
  rw [settled] at received
  cases taken : verdict.accepted with
  | true =>
      have next : (session.metrics.processed + 1).toNat =
          session.metrics.processed.toNat + 1 :=
        to_nat_add_one (Nat.lt_succ_self _) (by omega)
      have metrics : (session.finish verdict).metrics = session.metrics.incProcessed 1 := by
        simp only [Session.finish, taken, ↓reduceIte]
      rw [taken, if_pos rfl, Nat.add_zero] at sequenceDrops
      refine ⟨⟨trivial, ?_, ?_, ?_, ?_⟩, ?_⟩
      · rw [metrics]
        exact received
      · rw [metrics, sequenceDrops]
        change (session.metrics.processed + 1).toNat + session.sequenceDrops + 0 =
          session.metrics.received.toNat
        omega
      · rw [metrics, sequenceDrops]
        exact drops
      · rw [metrics]
        exact counted.no_decode_errors
      · rw [metrics]
        exact grows_inc_processed next
  | false =>
      have next : (session.metrics.drops + 1).toNat = session.metrics.drops.toNat + 1 :=
        to_nat_add_one (Nat.lt_succ_self _) (by omega)
      have metrics : (session.finish verdict).metrics = session.metrics.incDrops 1 := by
        simp only [Session.finish, taken, Bool.false_eq_true, ↓reduceIte]
      rw [taken, if_neg Bool.false_ne_true] at sequenceDrops
      refine ⟨⟨trivial, ?_, ?_, ?_, ?_⟩, ?_⟩
      · rw [metrics]
        exact received
      · rw [metrics, sequenceDrops]
        change session.metrics.processed.toNat + (session.sequenceDrops + 1) + 0 =
          session.metrics.received.toNat
        omega
      · rw [metrics, sequenceDrops]
        change (session.metrics.drops + 1).toNat = ioDrops + (session.sequenceDrops + 1)
        omega
      · rw [metrics]
        exact counted.no_decode_errors
      · rw [metrics]
        exact grows_inc_drops next

theorem counted_classify {order : ByteOrder} (frame : Frame)
    (counted : Counted session (some .classify) ioDrops)
    (few : ioDrops + session.decoded.length < 2 ^ 64) :
    Counted (stageStep order frame session .classify).1
        (stageStep order frame session .classify).2 ioDrops ∧
      Grows session.metrics (stageStep order frame session .classify).1.metrics := by
  obtain ⟨missing, seen, step⟩ | step := stage_step_classify order frame session
  · rw [step]
    refine ⟨⟨seen, counted.received, counted.balanced, counted.drops,
      counted.no_decode_errors⟩, ?_⟩
    intro field apart
    cases field <;> first | exact UInt64.le_refl _ | exact absurd rfl apart
  · rw [step]
    exact counted_finish counted rfl rfl few _

theorem counted_stage {order : ByteOrder} (frame : Frame) {point : StagePoint}
    (counted : Counted session (some point) ioDrops)
    (few : ioDrops + session.decoded.length < 2 ^ 64) :
    Counted (stageStep order frame session point).1 (stageStep order frame session point).2
        ioDrops ∧
      Grows session.metrics (stageStep order frame session point).1.metrics := by
  cases point with
  | decode => exact counted_decode frame counted
  | countReceived => exact counted_receive frame counted few
  | classify => exact counted_classify frame counted few
  | closeGap missing => exact counted_finish counted rfl rfl few (.gap missing)
  | countDecodeError => exact counted.ready.elim

end Steps

/-! ## Any step of an engine -/

/-- The I/O thread counts a drop without classifying a message. -/
def ioDropsBy (session next : Session) : Nat :=
  if next.metrics.drops ≠ session.metrics.drops ∧
      next.classified.length = session.classified.length then 1 else 0

theorem io_drops_by_self (session : Session) : ioDropsBy session session = 0 := by
  simp [ioDropsBy]

theorem io_drops_by_drop_one (session : Session) : ioDropsBy session session.dropOne = 1 := by
  have changed : session.dropOne.metrics.drops ≠ session.metrics.drops := by
    change session.metrics.drops + 1 ≠ session.metrics.drops
    intro same
    have := congrArg UInt64.toNat same
    rw [UInt64.toNat_add, UInt64.toNat_one] at this
    have := session.metrics.drops.toNat_lt
    omega
  rw [ioDropsBy, if_pos ⟨changed, rfl⟩]

theorem io_drops_by_finish (session : Session) (verdict : Verdict) :
    ioDropsBy session (session.finish verdict) = 0 := by
  apply if_neg
  intro quiet
  have length := quiet.2
  simp only [Session.finish, List.length_append, List.length_singleton] at length
  omega

theorem io_drops_by_stage (order : ByteOrder) (frame : Frame) (session : Session)
    (point : StagePoint) : ioDropsBy session (stageStep order frame session point).1 = 0 := by
  cases point with
  | decode =>
      rw [stage_step_decode]
      exact if_neg (fun changed => changed.1 rfl)
  | countReceived => exact if_neg (fun changed => changed.1 rfl)
  | classify =>
      obtain ⟨missing, -, step⟩ | step := stage_step_classify order frame session
      · rw [step]
        exact if_neg (fun changed => changed.1 rfl)
      · rw [step]
        exact io_drops_by_finish session _
  | closeGap missing => exact io_drops_by_finish session _
  | countDecodeError => exact if_neg (fun changed => changed.1 rfl)

theorem decoded_step {order : ByteOrder} {session next : Session}
    {point later : Option StagePoint} (step : SessionStep order session next point later) :
    session.decoded <+: next.decoded := by
  cases step with
  | outside same before after =>
      rw [same]
  | elsewhere same stays =>
      rcases same with rfl | rfl
      · exact List.prefix_rfl
      · exact List.prefix_rfl
  | stage frame current at_ step =>
      have decoded := stage_step_decoded order frame session current
      rw [step] at decoded
      rw [decoded]
      exact List.prefix_append _ _

theorem counted_step {order : ByteOrder} {session next : Session}
    {point later : Option StagePoint} {ioDrops : Nat} (counted : Counted session point ioDrops)
    (step : SessionStep order session next point later)
    (few : ioDrops + ioDropsBy session next + next.decoded.length < 2 ^ 64) :
    Counted next later (ioDrops + ioDropsBy session next) ∧
      Grows session.metrics next.metrics := by
  have longer := (decoded_step step).length_le
  cases step with
  | outside same before after =>
      subst same before
      rw [io_drops_by_self, Nat.add_zero]
      refine ⟨?_, grows_refl _⟩
      rcases after with rfl | rfl
      · exact counted
      · exact ⟨trivial, counted.received, counted.balanced, counted.drops,
          counted.no_decode_errors⟩
  | elsewhere same stays =>
      subst stays
      rcases same with rfl | rfl
      · rw [io_drops_by_self, Nat.add_zero]
        exact ⟨counted, grows_refl _⟩
      · rw [io_drops_by_drop_one] at few ⊢
        exact counted_drop_one counted (by omega)
  | stage frame current at_ step =>
      subst at_
      have quiet := io_drops_by_stage order frame session current
      have stage := @counted_stage _ _ order frame _ counted (by omega)
      rw [step] at quiet stage
      rw [quiet, Nat.add_zero]
      exact stage

/-! ## The gaps -/

/-- No message of these but the last has the largest sequence number. -/
def NoTopBefore (frames : List Frame) : Prop :=
  topSeqNum ∉ (messagesOf frames.dropLast).map MarketDataMsg.seqNum

theorem no_top_before_mono {earlier later : List Frame} (extended : earlier <+: later)
    (noTop : NoTopBefore later) : NoTopBefore earlier := by
  obtain ⟨more, rfl⟩ := extended
  intro member
  apply noTop
  have sublist : earlier.dropLast.Sublist (earlier ++ more).dropLast := by
    cases more with
    | nil =>
        rw [List.append_nil]
    | cons frame more =>
        rw [List.dropLast_append_of_ne_nil (List.cons_ne_nil _ _)]
        exact (List.dropLast_sublist earlier).trans (List.sublist_append_left _ _)
  exact ((sublist.map _).map _).subset member

/-- Counting the gap in front of a message does not wrap. -/
theorem gaps_handle {frames : List Frame}
    (noTop : topSeqNum ∉ (messagesOf frames).map MarketDataMsg.seqNum) (frame : Frame) :
    (replay frames).metrics.seqNumGaps ≤
      ((replay frames).handle frame).metrics.seqNumGaps := by
  have tally := tally_replay frames
  have spans := spans_replay frames noTop
  obtain ⟨follows, absent⟩ := follows_processed tally noTop
  rw [seq_num_gaps_handle, UInt64.le_iff_toNat_le]
  by_cases taken :
      ((replay frames).tracker.verdict (messageOf frame.toList).seqNum).accepted = true
  · cases isLast : (replay frames).processedMessages.getLast? with
    | none =>
        rw [spans.empty (List.getLast?_eq_none_iff.mp isLast)]
        exact Nat.zero_le _
    | some last =>
        have member : last.seqNum ∈
            (replay frames).processedMessages.map MarketDataMsg.seqNum :=
          List.mem_map_of_mem (List.mem_of_getLast? isLast)
        have jump := missing_of_follows follows (by rw [List.getLast?_map, isLast]; rfl)
          (fun top => absent (top ▸ member)) taken
        have bound := (messageOf frame.toList).seqNum.toNat_lt
        obtain ⟨first, isFirst⟩ : ∃ first,
            (replay frames).processedMessages.head? = some first := by
          cases processed : (replay frames).processedMessages with
          | nil =>
              rw [processed] at isLast
              cases isLast
          | cons first rest => exact ⟨first, rfl⟩
        have filled := spans.filled first last isFirst isLast
        rw [UInt64.toNat_add, Nat.mod_eq_of_lt]
        · exact Nat.le_add_right _ _
        · omega
  · rw [missing_of_rejected taken, UInt64.add_zero]

/-- Before the gap in front of the current message is counted, the counter stands where the
earlier messages left it. -/
def Awaiting (session : Session) : Option StagePoint → Prop
  | some .countReceived | some .classify => ∃ frames frame,
      session.decoded = frames ++ [frame] ∧
        session.metrics.seqNumGaps = (replay frames).metrics.seqNumGaps
  | _ => True

theorem gaps_of_replays {session : Session} {point : Option StagePoint}
    (replays : Replays session point) :
    (session.complete point).metrics.seqNumGaps =
      (replay session.decoded).metrics.seqNumGaps :=
  congrArg (fun whole => whole.metrics.seqNumGaps) replays

theorem awaiting_step {order : ByteOrder} {session next : Session}
    {point later : Option StagePoint} (replays : Replays session point)
    (awaiting : Awaiting session point)
    (step : SessionStep order session next point later) : Awaiting next later := by
  cases step with
  | outside same before after =>
      rcases after with rfl | rfl
      · trivial
      · trivial
  | elsewhere same stays =>
      subst stays
      rcases same with rfl | rfl
      · exact awaiting
      · exact awaiting
  | stage frame current at_ step =>
      subst at_
      cases current with
      | decode =>
          have gaps := gaps_of_replays replays
          rw [stage_step_decode] at step
          cases step
          exact ⟨session.decoded, frame, rfl, gaps⟩
      | countReceived =>
          cases step
          exact awaiting
      | classify =>
          obtain ⟨missing, -, classified⟩ | classified := stage_step_classify order frame session
          · rw [classified] at step
            cases step
            trivial
          · rw [classified] at step
            cases step
            trivial
      | closeGap missing =>
          cases step
          trivial
      | countDecodeError =>
          cases step
          trivial

/-- The counter for the gaps grows as long as no message came after the largest sequence
number. -/
theorem gaps_step {order : ByteOrder} {session next : Session}
    {point later : Option StagePoint} (replays : Replays session point)
    (awaiting : Awaiting session point) (step : SessionStep order session next point later)
    (noTop : NoTopBefore next.decoded) :
    session.metrics.seqNumGaps ≤ next.metrics.seqNumGaps := by
  have after := replays_step replays step
  cases step with
  | outside same before after =>
      rw [same]
      exact UInt64.le_refl _
  | elsewhere same stays =>
      rcases same with rfl | rfl
      · exact UInt64.le_refl _
      · exact UInt64.le_refl _
  | stage frame current at_ step =>
      subst at_
      have finished : ∀ verdict, session.metrics.seqNumGaps ≤
          (session.finish verdict).metrics.seqNumGaps := by
        intro verdict
        cases verdict <;> exact UInt64.le_refl _
      cases current with
      | decode =>
          rw [stage_step_decode] at step
          cases step
          exact UInt64.le_refl _
      | countReceived =>
          cases step
          exact UInt64.le_refl _
      | classify =>
          obtain ⟨missing, -, classified⟩ | classified := stage_step_classify order frame session
          · rw [classified] at step
            cases step
            obtain ⟨frames, last, decoded, gaps⟩ := awaiting
            have counted : session.metrics.seqNumGaps + missing =
                (replay session.decoded).metrics.seqNumGaps := gaps_of_replays after
            have earlier : topSeqNum ∉ (messagesOf frames).map MarketDataMsg.seqNum := by
              have all : NoTopBefore (frames ++ [last]) := decoded ▸ noTop
              rw [NoTopBefore, List.dropLast_concat] at all
              exact all
            change session.metrics.seqNumGaps ≤ session.metrics.seqNumGaps + missing
            rw [counted, decoded, replay_snoc, gaps]
            exact gaps_handle earlier last
          · rw [classified] at step
            cases step
            exact finished _
      | closeGap missing =>
          cases step
          exact finished _
      | countDecodeError =>
          cases step
          exact UInt64.le_refl _

end MarketDataEngine.Engine
