import MarketDataEngine.SequenceTracker

/-!
# What a consumer does with one frame

The body that `process_loop` of engine v1 and `process` of engine v2 share:
decode the slot, count the message, classify it by its sequence number. It is
cut at every counter increment, because the counters are shared with the I/O
thread. The sequence tracker and `msg` belong to the consumer alone, so an
assignment to them is done in the step of the increment next to it.

`decoded` and `classified` are histories: no code reads them.
-/

namespace MarketDataEngine.Engine

open MarketDataEngine.Protocol

set_option autoImplicit false

structure Metrics where
  processed : UInt64
  received : UInt64
  decodeErrors : UInt64
  drops : UInt64
  seqNumGaps : UInt64
  deriving DecidableEq

namespace Metrics

def zero : Metrics := ⟨0, 0, 0, 0, 0⟩

variable (metrics : Metrics) (n : UInt64)

def incProcessed : Metrics := { metrics with processed := metrics.processed + n }

def incReceived : Metrics := { metrics with received := metrics.received + n }

def incDecodeError : Metrics :=
  { metrics with decodeErrors := metrics.decodeErrors + n }

def incDrops : Metrics := { metrics with drops := metrics.drops + n }

def incSeqNumGaps : Metrics := { metrics with seqNumGaps := metrics.seqNumGaps + n }

/-- The datagrams whose fate is counted. -/
def settled : UInt64 := metrics.processed + metrics.drops + metrics.decodeErrors

theorem settled_inc_drops : (metrics.incDrops n).settled = metrics.settled + n := by
  simp only [settled, incDrops]
  ac_rfl

theorem settled_inc_processed :
    (metrics.incProcessed n).settled = metrics.settled + n := by
  simp only [settled, incProcessed]
  ac_rfl

theorem settled_inc_decode_error :
    (metrics.incDecodeError n).settled = metrics.settled + n := by
  simp only [settled, incDecodeError]
  ac_rfl

/-- Counting a datagram takes it out of flight: `left` of the one datagram stays
in flight. -/
theorem settled_takes_off {settled counted : UInt64} {before after : Nat}
    (others left : Nat) (counts : counted + UInt64.ofNat left = settled + 1)
    (flightBefore : before = others + 1) (flightAfter : after = others + left) :
    settled + UInt64.ofNat before = counted + UInt64.ofNat after := by
  rw [flightBefore, flightAfter, UInt64.ofNat_add, UInt64.ofNat_add]
  calc
    settled + (UInt64.ofNat others + 1) = (settled + 1) + UInt64.ofNat others := by
      ac_rfl
    _ = (counted + UInt64.ofNat left) + UInt64.ofNat others := by rw [counts]
    _ = counted + (UInt64.ofNat others + UInt64.ofNat left) := by ac_rfl

/-- What classifying one message adds up to. -/
def classify (verdict : Verdict) : Metrics :=
  match verdict with
  | .first => metrics.incProcessed 1
  | .inOrder => metrics.incProcessed 1
  | .gap missing => (metrics.incSeqNumGaps missing).incProcessed 1
  | .old => metrics.incDrops 1

end Metrics

structure Session where
  msg : MarketDataMsg
  tracker : SequenceTracker
  metrics : Metrics
  decoded : List Frame
  classified : List (MarketDataMsg × Verdict)

inductive StagePoint where
  | decode
  | countReceived
  | classify
  | closeGap (missing : UInt64)
  | countDecodeError
  deriving DecidableEq

namespace Session

def fresh : Session := ⟨⟨0, 0, 0, 0, 0, 0, 0⟩, .fresh, .zero, [], []⟩

def dropOne (session : Session) : Session :=
  { session with metrics := session.metrics.incDrops 1 }

/-- The end of a branch of the tracker: its assignment to `expected_seq_num_`
and its count of the message. -/
def finish (session : Session) (verdict : Verdict) : Session :=
  { session with
    tracker := session.tracker.advance session.msg.seqNum verdict
    metrics := if verdict.accepted then session.metrics.incProcessed 1
      else session.metrics.incDrops 1
    classified := session.classified ++ [(session.msg, verdict)] }

/-- The messages counted in `drops` by their sequence number. -/
def sequenceDrops (session : Session) : Nat :=
  session.classified.countP fun entry => !entry.2.accepted

end Session

/-- One step of the stage on the frame in the slot; `none` is its end. -/
def stageStep (order : ByteOrder) (frame : Frame) (session : Session) :
    StagePoint → Session × Option StagePoint
  | .decode =>
      let result := decode order frame.toList kWireSize session.msg
      if result.1 then
        ({ session with msg := result.2, decoded := session.decoded ++ [frame] },
          some .countReceived)
      else ({ session with msg := result.2 }, some .countDecodeError)
  | .countReceived =>
      ({ session with metrics := session.metrics.incReceived 1 }, some .classify)
  | .classify =>
      match session.tracker.verdict session.msg.seqNum with
      | .gap missing =>
          ({ session with metrics := session.metrics.incSeqNumGaps missing },
            some (.closeGap missing))
      | verdict => (session.finish verdict, none)
  | .closeGap missing => (session.finish (.gap missing), none)
  | .countDecodeError =>
      ({ session with metrics := session.metrics.incDecodeError 1 }, none)

/-- The steps of the stage from a point on, at most. -/
def StagePoint.steps : StagePoint → Nat
  | .decode => 4
  | .countReceived => 3
  | .classify => 2
  | .closeGap _ => 1
  | .countDecodeError => 1

theorem stage_steps_bounds (point : StagePoint) : 0 < point.steps ∧ point.steps ≤ 4 := by
  cases point with
  | closeGap missing => exact ⟨Nat.zero_lt_one, Nat.succ_le_succ (Nat.zero_le 3)⟩
  | _ => decide

theorem stage_step_fewer {order : ByteOrder} {frame : Frame} {session : Session}
    {point later : StagePoint} (more : (stageStep order frame session point).2 = some later) :
    later.steps < point.steps := by
  cases point with
  | decode =>
      simp only [stageStep] at more
      split_ifs at more
      · cases more
        exact Nat.lt_succ_self 3
      · cases more
        exact Nat.lt_of_succ_lt (Nat.lt_of_succ_lt (Nat.lt_succ_self 3))
  | countReceived =>
      cases more
      exact Nat.lt_succ_self 2
  | classify =>
      simp only [stageStep] at more
      split at more
      · cases more
        exact Nat.lt_succ_self 1
      · cases more
  | closeGap missing => cases more
  | countDecodeError => cases more

/-- A full slot always decodes: it has the length that `decode` asks for. -/
theorem decode_full_slot (order : ByteOrder) (frame : Frame) (msg : MarketDataMsg) :
    decode order frame.toList kWireSize msg = (true, messageOf frame.toList) :=
  decode_eq order msg (Nat.le_refl _) (by simp)

theorem stage_step_decode (order : ByteOrder) (frame : Frame) (session : Session) :
    stageStep order frame session .decode =
      ({ session with
          msg := messageOf frame.toList
          decoded := session.decoded ++ [frame] }, some .countReceived) := by
  simp only [stageStep, decode_full_slot, ↓reduceIte]

/-! ## What every step keeps -/

/-- A gap is closed only behind the gap branch, with the tracker unmoved since;
a decode error is never counted. -/
def StageReady (session : Session) : Option StagePoint → Prop
  | some (.closeGap missing) =>
      session.tracker.verdict session.msg.seqNum = .gap missing
  | some .countDecodeError => False
  | _ => True

def stageOpen : Option StagePoint → UInt64
  | some .classify => 1
  | some (.closeGap _) => 1
  | _ => 0

/-- A received message is processed or dropped by its sequence number, or it
is the one being classified. -/
def Balanced (session : Session) (point : Option StagePoint) : Prop :=
  session.metrics.received =
    session.metrics.processed + UInt64.ofNat session.sequenceDrops + stageOpen point

/-- The branches of the classifying step: a gap is counted and still open, any
other verdict ends the stage. -/
theorem stage_step_classify (order : ByteOrder) (frame : Frame) (session : Session) :
    (∃ missing, session.tracker.verdict session.msg.seqNum = .gap missing ∧
      stageStep order frame session .classify =
        ({ session with metrics := session.metrics.incSeqNumGaps missing },
          some (.closeGap missing))) ∨
      stageStep order frame session .classify =
        (session.finish (session.tracker.verdict session.msg.seqNum), none) := by
  cases seen : session.tracker.verdict session.msg.seqNum with
  | gap missing => exact .inl ⟨missing, rfl, by simp only [stageStep, seen]⟩
  | first => exact .inr (by simp only [stageStep, seen])
  | inOrder => exact .inr (by simp only [stageStep, seen])
  | old => exact .inr (by simp only [stageStep, seen])

theorem settled_finish (session : Session) (verdict : Verdict) :
    (session.finish verdict).metrics.settled = session.metrics.settled + 1 := by
  simp only [Session.finish]
  split_ifs
  · exact Metrics.settled_inc_processed _ _
  · exact Metrics.settled_inc_drops _ _

theorem decode_errors_finish (session : Session) (verdict : Verdict) :
    (session.finish verdict).metrics.decodeErrors =
      session.metrics.decodeErrors := by
  simp only [Session.finish]
  split_ifs <;> rfl

theorem sequence_drops_finish (session : Session) (verdict : Verdict) :
    (session.finish verdict).sequenceDrops =
      session.sequenceDrops + if verdict.accepted then 0 else 1 := by
  cases verdict <;> simp [Session.finish, Session.sequenceDrops, Verdict.accepted]

theorem balanced_finish {session : Session} {point : StagePoint}
    (balanced : Balanced session (some point)) (opened : stageOpen (some point) = 1)
    (verdict : Verdict) : Balanced (session.finish verdict) none := by
  unfold Balanced at balanced ⊢
  rw [opened] at balanced
  rw [sequence_drops_finish]
  simp only [Session.finish, stageOpen]
  split_ifs
  · show session.metrics.received = session.metrics.processed + 1 + _ + 0
    rw [balanced]
    simp only [Nat.add_zero, UInt64.add_zero]
    ac_rfl
  · show session.metrics.received = session.metrics.processed + _ + 0
    rw [balanced, UInt64.ofNat_add]
    simp only [UInt64.add_zero, UInt64.reduceOfNat]
    ac_rfl

theorem stage_step_ready {order : ByteOrder} {frame : Frame} {session : Session}
    {point : StagePoint} (ready : StageReady session (some point)) :
    StageReady (stageStep order frame session point).1
      (stageStep order frame session point).2 := by
  cases point with
  | decode =>
      rw [stage_step_decode]
      trivial
  | countReceived => trivial
  | classify =>
      obtain ⟨missing, seen, step⟩ | step := stage_step_classify order frame session
      · rw [step]
        exact seen
      · rw [step]
        trivial
  | closeGap missing => trivial
  | countDecodeError => exact ready.elim

/-- Each step either keeps the datagram in hand or counts it, once. -/
theorem stage_step_settles (order : ByteOrder) (frame : Frame) (session : Session)
    (point : StagePoint) :
    (stageStep order frame session point).1.metrics.settled +
        UInt64.ofNat (stageStep order frame session point).2.toList.length =
      session.metrics.settled + 1 := by
  cases point with
  | decode =>
      rw [stage_step_decode]
      rfl
  | countReceived => rfl
  | classify =>
      obtain ⟨missing, -, step⟩ | step := stage_step_classify order frame session
      · rw [step]
        rfl
      · rw [step, settled_finish]
        simp
  | closeGap missing =>
      show (session.finish _).metrics.settled + 0 = _
      rw [settled_finish, UInt64.add_zero]
  | countDecodeError =>
      show (session.metrics.incDecodeError 1).settled + 0 = _
      rw [Metrics.settled_inc_decode_error, UInt64.add_zero]

theorem stage_step_decode_errors {order : ByteOrder} {frame : Frame}
    {session : Session} {point : StagePoint}
    (ready : StageReady session (some point)) :
    (stageStep order frame session point).1.metrics.decodeErrors =
      session.metrics.decodeErrors := by
  cases point with
  | decode => rw [stage_step_decode]
  | countReceived => rfl
  | classify =>
      obtain ⟨missing, -, step⟩ | step := stage_step_classify order frame session
      · rw [step]
        rfl
      · rw [step]
        exact decode_errors_finish session _
  | closeGap missing => exact decode_errors_finish session _
  | countDecodeError => exact ready.elim

theorem stage_step_decoded (order : ByteOrder) (frame : Frame) (session : Session)
    (point : StagePoint) :
    (stageStep order frame session point).1.decoded =
      session.decoded ++ if point = .decode then [frame] else [] := by
  cases point with
  | decode =>
      rw [stage_step_decode]
      rfl
  | countReceived => exact (List.append_nil _).symm
  | classify =>
      obtain ⟨missing, -, step⟩ | step := stage_step_classify order frame session
      · rw [step]
        exact (List.append_nil _).symm
      · rw [step]
        exact (List.append_nil _).symm
  | closeGap missing => exact (List.append_nil _).symm
  | countDecodeError => exact (List.append_nil _).symm

theorem stage_step_leaves_decode (order : ByteOrder) (frame : Frame)
    (session : Session) (point : StagePoint) :
    (stageStep order frame session point).2 ≠ some .decode := by
  cases point with
  | decode =>
      rw [stage_step_decode]
      simp
  | countReceived => simp [stageStep]
  | classify =>
      obtain ⟨missing, -, step⟩ | step := stage_step_classify order frame session
      · simp [step]
      · simp [step]
  | closeGap missing => simp [stageStep]
  | countDecodeError => simp [stageStep]

theorem stage_step_balanced {order : ByteOrder} {frame : Frame} {session : Session}
    {point : StagePoint} (ready : StageReady session (some point))
    (balanced : Balanced session (some point)) :
    Balanced (stageStep order frame session point).1
      (stageStep order frame session point).2 := by
  cases point with
  | decode =>
      rw [stage_step_decode]
      exact balanced
  | countReceived =>
      show session.metrics.received + 1 = _ + _ + 1
      rw [show session.metrics.received = _ + _ + 0 from balanced, UInt64.add_zero]
      rfl
  | classify =>
      obtain ⟨missing, -, step⟩ | step := stage_step_classify order frame session
      · rw [step]
        exact balanced
      · rw [step]
        exact balanced_finish balanced rfl _
  | closeGap missing => exact balanced_finish balanced rfl _
  | countDecodeError => exact ready.elim

/-! ## The whole stage -/

def runStage (order : ByteOrder) (frame : Frame) :
    Nat → Session → StagePoint → Option Session
  | 0, _, _ => none
  | fuel + 1, session, point =>
      match stageStep order frame session point with
      | (next, some later) => runStage order frame fuel next later
      | (next, none) => some next

/-- The stage on one frame, run to its end. -/
def Session.handle (session : Session) (frame : Frame) : Session :=
  let msg := messageOf frame.toList
  let verdict := session.tracker.verdict msg.seqNum
  { msg := msg
    tracker := session.tracker.advance msg.seqNum verdict
    metrics := (session.metrics.incReceived 1).classify verdict
    decoded := session.decoded ++ [frame]
    classified := session.classified ++ [(msg, verdict)] }

theorem run_stage_decode (order : ByteOrder) (frame : Frame) (session : Session) :
    runStage order frame 4 session .decode = some (session.handle frame) := by
  simp only [runStage, stage_step_decode]
  cases seen : session.tracker.verdict (messageOf frame.toList).seqNum with
  | first => simp only [stageStep, Session.handle, seen]; rfl
  | inOrder => simp only [stageStep, Session.handle, seen]; rfl
  | gap missing => simp only [stageStep, Session.handle, seen]; rfl
  | old => simp only [stageStep, Session.handle, seen]; rfl

end MarketDataEngine.Engine
