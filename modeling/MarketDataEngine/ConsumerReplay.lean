import MarketDataEngine.EngineV1Model
import MarketDataEngine.EngineV2Model

/-!
# A consumer is its frames handled in turn

In both engines, whatever the other threads do, the consumer's session between
two frames is what handling the decoded frames one after the other gives. Only
`drops` differs: the I/O thread adds to it. Inside the stage the session is on
its way there, and `complete` takes the steps still to come.
-/

namespace MarketDataEngine.Engine

open MarketDataEngine.Protocol

set_option autoImplicit false

namespace Session

/-- What the I/O thread does not touch. -/
def besidesDrops (session : Session) : Session :=
  { session with metrics := { session.metrics with drops := 0 } }

/-- The branches of the tracker as one. -/
def classifyMsg (session : Session) : Session :=
  match session.tracker.verdict session.msg.seqNum with
  | .gap missing =>
      { session with metrics := session.metrics.incSeqNumGaps missing }.finish (.gap missing)
  | verdict => session.finish verdict

/-- The session at the end of a stage that has passed `decode`. -/
def complete (session : Session) : Option StagePoint → Session
  | none => session
  | some .decode => session
  | some .countReceived =>
      { session with metrics := session.metrics.incReceived 1 }.classifyMsg
  | some .classify => session.classifyMsg
  | some (.closeGap missing) => session.finish (.gap missing)
  | some .countDecodeError => { session with metrics := session.metrics.incDecodeError 1 }

end Session

/-- The consumer's work on these frames alone. -/
def replay (frames : List Frame) : Session := frames.foldl Session.handle .fresh

theorem replay_snoc (frames : List Frame) (frame : Frame) :
    replay (frames ++ [frame]) = (replay frames).handle frame := by
  simp [replay]

def Replays (session : Session) (point : Option StagePoint) : Prop :=
  (session.complete point).besidesDrops = (replay session.decoded).besidesDrops

/-- What a step of an engine can do to the session. -/
inductive SessionStep (order : ByteOrder) (session next : Session)
    (point later : Option StagePoint) : Prop where
  | outside (same : next = session) (before : point = none)
      (after : later = none ∨ later = some .decode)
  | elsewhere (same : next = session ∨ next = session.dropOne) (stays : later = point)
  | stage (frame : Frame) (current : StagePoint) (at_ : point = some current)
      (step : stageStep order frame session current = (next, later))

theorem classify_besides_drops (metrics : Metrics) (drops : UInt64) (verdict : Verdict) :
    { ({ metrics with drops := drops }.classify verdict) with drops := 0 } =
      { metrics.classify verdict with drops := 0 } := by
  cases verdict <;> rfl

theorem handle_besides_drops {left right : Session} (frame : Frame)
    (agree : left.besidesDrops = right.besidesDrops) :
    (left.handle frame).besidesDrops = (right.handle frame).besidesDrops := by
  obtain ⟨leftMsg, leftTracker, leftMetrics, leftDecoded, leftClassified⟩ := left
  obtain ⟨rightMsg, rightTracker, rightMetrics, rightDecoded, rightClassified⟩ := right
  simp only [Session.besidesDrops, Session.mk.injEq] at agree
  obtain ⟨rfl, rfl, metrics, rfl, rfl⟩ := agree
  have same : leftMetrics = { rightMetrics with drops := leftMetrics.drops } := by
    cases leftMetrics
    cases rightMetrics
    simp_all
  rw [same]
  simp only [Session.handle, Session.besidesDrops, Session.mk.injEq, true_and, and_true]
  exact classify_besides_drops (rightMetrics.incReceived 1) leftMetrics.drops _

theorem finish_drop_one (session : Session) (verdict : Verdict) :
    (session.dropOne.finish verdict).besidesDrops =
      (session.finish verdict).besidesDrops := by
  cases verdict <;> rfl

theorem classify_msg_drop_one (session : Session) :
    session.dropOne.classifyMsg.besidesDrops = session.classifyMsg.besidesDrops := by
  have same : session.dropOne.tracker.verdict session.dropOne.msg.seqNum =
      session.tracker.verdict session.msg.seqNum := rfl
  unfold Session.classifyMsg
  rw [same]
  cases session.tracker.verdict session.msg.seqNum <;> rfl

theorem complete_drop_one (session : Session) (point : Option StagePoint) :
    (session.dropOne.complete point).besidesDrops =
      (session.complete point).besidesDrops := by
  match point with
  | none => rfl
  | some .decode => rfl
  | some .countReceived =>
      exact classify_msg_drop_one { session with metrics := session.metrics.incReceived 1 }
  | some .classify => exact classify_msg_drop_one session
  | some (.closeGap missing) => exact finish_drop_one session (.gap missing)
  | some .countDecodeError => rfl

theorem complete_stage_step {order : ByteOrder} {frame : Frame} {session next : Session}
    {point : StagePoint} {later : Option StagePoint} (started : point ≠ .decode)
    (step : stageStep order frame session point = (next, later)) :
    next.complete later = session.complete (some point) ∧
      next.decoded = session.decoded := by
  cases point with
  | decode => exact absurd rfl started
  | countReceived =>
      cases step
      exact ⟨rfl, rfl⟩
  | classify =>
      simp only [stageStep] at step
      simp only [Session.complete, Session.classifyMsg]
      cases seen : session.tracker.verdict session.msg.seqNum <;> rw [seen] at step <;>
        cases step <;> exact ⟨rfl, rfl⟩
  | closeGap missing =>
      cases step
      exact ⟨rfl, rfl⟩
  | countDecodeError =>
      cases step
      exact ⟨rfl, rfl⟩

theorem complete_decode {order : ByteOrder} {frame : Frame} {session next : Session}
    {later : Option StagePoint}
    (step : stageStep order frame session .decode = (next, later)) :
    next.complete later = session.handle frame ∧
      next.decoded = session.decoded ++ [frame] := by
  rw [stage_step_decode] at step
  cases step
  refine ⟨?_, rfl⟩
  simp only [Session.complete, Session.classifyMsg, Session.handle]
  cases session.tracker.verdict (messageOf frame.toList).seqNum <;> rfl

theorem replays_step {order : ByteOrder} {session next : Session}
    {point later : Option StagePoint} (replays : Replays session point)
    (step : SessionStep order session next point later) : Replays next later := by
  cases step with
  | outside same before after =>
      subst same before
      rcases after with rfl | rfl
      · exact replays
      · exact replays
  | elsewhere same stays =>
      subst stays
      rcases same with rfl | rfl
      · exact replays
      · exact (complete_drop_one session later).trans replays
  | stage frame current at_ step =>
      subst at_
      by_cases first : current = .decode
      · subst first
        obtain ⟨whole, decoded⟩ := complete_decode step
        unfold Replays
        rw [whole, decoded, replay_snoc]
        exact handle_besides_drops frame replays
      · obtain ⟨whole, decoded⟩ := complete_stage_step first step
        unfold Replays
        rw [whole, decoded]
        exact replays

/-! ## Inside a program -/

section Programs

open MarketDataEngine.TransitionSystem MarketDataEngine.SteppedObject

variable {Thread Memory Input : Type} [DecidableEq Thread]
variable {Call : Type} {Ret : Call → Type} {object : MicroObject Call Ret}

/-- A program one of whose threads is a consumer, with the session in its memory. -/
structure ConsumerView (order : ByteOrder)
    (program : Program Thread Call Ret Memory Input) where
  session : Memory → Session
  consumer : Thread
  point : program.Location consumer → Option StagePoint
  others_drop : ∀ thread, thread ≠ consumer → ∀ location effect,
    program.action thread location = .memory effect →
    ∀ memory input after next, effect memory input = some (after, next) →
      session after = session memory ∨ session after = (session memory).dropOne
  own_step : ∀ location effect, program.action consumer location = .memory effect →
    ∀ memory input after next, effect memory input = some (after, next) →
      SessionStep order (session memory) (session after) (point location) (point next)
  calls_outside : ∀ location call next, program.action consumer location = .call call next →
    ∀ result, point location = none ∧
      (point (next result) = none ∨ point (next result) = some .decode)

namespace ConsumerView

variable {order : ByteOrder} {program : Program Thread Call Ret Memory Input}
variable (view : ConsumerView order program)

theorem fine_step_session {state next : FineState object program}
    {label : Thread × Input} (taken : fineStep program state label = some next) :
    SessionStep order (view.session state.memory) (view.session next.memory)
      (view.point (state.location view.consumer))
      (view.point (next.location view.consumer)) := by
  obtain ⟨thread, input⟩ := label
  unfold fineStep at taken
  cases action : program.action thread (state.location thread) with
  | halt => simp [action] at taken
  | call call after =>
      simp only [action, Option.some.injEq] at taken
      subst taken
      by_cases own : thread = view.consumer
      · subst own
        simp only [callStep, Function.update_self]
        cases (object.step state.shared call (state.pc view.consumer)).2 with
        | inl pc => exact .elsewhere (.inl rfl) rfl
        | inr result =>
            obtain ⟨before, later⟩ := view.calls_outside _ call after action result
            exact .outside rfl before later
      · simp only [callStep, Function.update_of_ne (Ne.symm own)]
        exact .elsewhere (.inl rfl) rfl
  | memory effect =>
      simp only [action, Option.map_eq_some_iff] at taken
      obtain ⟨⟨memory, location⟩, result, rfl⟩ := taken
      by_cases own : thread = view.consumer
      · subst own
        simp only [memoryStep, Function.update_self]
        exact view.own_step _ effect action _ _ _ _ result
      · simp only [memoryStep, Function.update_of_ne (Ne.symm own)]
        exact .elsewhere (view.others_drop thread own _ effect action _ _ _ _ result) rfl

def Replayed (state : FineState object program) : Prop :=
  Replays (view.session state.memory) (view.point (state.location view.consumer))

theorem replayed_of_reaches {Start : FineState object program → Prop}
    (fresh : ∀ state, Start state → view.session state.memory = .fresh ∧
      view.point (state.location view.consumer) = none)
    {state : FineState object program}
    (reached : Reaches (fineSystem program Start) state) :
    view.Replayed state := by
  refine invariant_of_step ?_ ?_ reached
  · intro state start
    obtain ⟨session, point⟩ := fresh state start
    unfold Replayed
    rw [session, point]
    rfl
  · intro state label next _ replays _ taken
    exact replays_step replays (view.fine_step_session taken)

/-- Between two frames the consumer has done exactly the decoded frames. -/
theorem session_between_frames {Start : FineState object program → Prop}
    (fresh : ∀ state, Start state → view.session state.memory = .fresh ∧
      view.point (state.location view.consumer) = none)
    {state : FineState object program}
    (reached : Reaches (fineSystem program Start) state)
    (between : view.point (state.location view.consumer) = none) :
    (view.session state.memory).besidesDrops =
      (replay (view.session state.memory).decoded).besidesDrops := by
  have replayed := view.replayed_of_reaches fresh reached
  unfold Replayed at replayed
  rw [between] at replayed
  exact replayed

theorem atomic_step_session {spec : AtomicObject Call Ret}
    {state next : AtomicState spec program} {label : Thread × Input}
    (taken : atomicStep program state label = some next) :
    SessionStep order (view.session state.memory) (view.session next.memory)
      (view.point (state.location view.consumer))
      (view.point (next.location view.consumer)) := by
  obtain ⟨thread, input⟩ := label
  obtain ⟨location, step, moved⟩ := atomic_step_eq_some _ taken
  rw [moved]
  cases action : program.action thread (state.location thread) with
  | halt =>
      rw [action] at step
      cases step
  | call call after =>
      rw [action] at step
      obtain ⟨-, memory, rfl⟩ : _ ∧ state.memory = next.memory ∧ after _ = location := by
        simpa [actionStep] using step
      rw [← memory]
      by_cases own : thread = view.consumer
      · subst own
        rw [Function.update_self]
        obtain ⟨before, later⟩ := view.calls_outside _ call after action _
        exact .outside rfl before later
      · rw [Function.update_of_ne (Ne.symm own)]
        exact .elsewhere (.inl rfl) rfl
  | memory effect =>
      rw [action] at step
      obtain ⟨⟨memory, reached⟩, result, same⟩ := Option.map_eq_some_iff.mp step
      obtain ⟨-, rfl, rfl⟩ : _ ∧ memory = next.memory ∧ reached = location := by
        simpa only [Prod.mk.injEq] using same
      by_cases own : thread = view.consumer
      · subst own
        rw [Function.update_self]
        exact view.own_step _ effect action _ _ _ _ result
      · rw [Function.update_of_ne (Ne.symm own)]
        exact .elsewhere (view.others_drop thread own _ effect action _ _ _ _ result) rfl

def AtomicReplayed {spec : AtomicObject Call Ret} (state : AtomicState spec program) : Prop :=
  Replays (view.session state.memory) (view.point (state.location view.consumer))

/-- The same between two frames of a run over atomic objects. -/
theorem session_between_frames_atomic {spec : AtomicObject Call Ret}
    {Start : AtomicState spec program → Prop}
    (fresh : ∀ state, Start state → view.session state.memory = .fresh ∧
      view.point (state.location view.consumer) = none)
    {state : AtomicState spec program}
    (reached : Reaches (atomicSystem program Start) state)
    (between : view.point (state.location view.consumer) = none) :
    (view.session state.memory).besidesDrops =
      (replay (view.session state.memory).decoded).besidesDrops := by
  have replayed : view.AtomicReplayed state := by
    refine invariant_of_step ?_ ?_ reached
    · intro state start
      obtain ⟨session, point⟩ := fresh state start
      unfold AtomicReplayed
      rw [session, point]
      rfl
    · intro state label next _ replays _ taken
      exact replays_step replays (view.atomic_step_session taken)
  unfold AtomicReplayed at replayed
  rw [between] at replayed
  exact replayed

end ConsumerView

end Programs

end MarketDataEngine.Engine

namespace MarketDataEngine.EngineV1

open MarketDataEngine.Protocol MarketDataEngine.Containers MarketDataEngine.Engine
open MarketDataEngine.TransitionSystem MarketDataEngine.SteppedObject

set_option autoImplicit false

variable {order : ByteOrder} {capacity : Capacity}

theorem server_effect_session {server next : ServerLocation} {memory after : Memory}
    {input : Input} {effect : Memory → Input → Option (Memory × ServerLocation)}
    (action : serverAction server = .memory effect)
    (result : effect memory input = some (after, next)) :
    after.session = memory.session ∨ after.session = memory.session.dropOne := by
  obtain ⟨-, session⟩ | rfl | ⟨_, _, _, _, -, rfl⟩ := server_effect_cases action result
  · exact .inl session
  · exact .inr rfl
  · exact .inl rfl

theorem consumer_effect_session {consumer next : ConsumerLocation}
    {memory after : Memory} {input : Input}
    {effect : Memory → Input → Option (Memory × ConsumerLocation)}
    (action : consumerAction order consumer = .memory effect)
    (result : effect memory input = some (after, next)) :
    SessionStep order memory.session after.session consumer.point next.point := by
  cases consumer with
  | loopTest =>
      cases action
      cases result
      refine .outside rfl rfl (.inl ?_)
      cases memory.running <;> rfl
  | stage idx point =>
      cases action
      cases result
      refine .stage (memory.slots idx) point rfl ?_
      refine Prod.ext rfl ?_
      simp only
      cases (stageStep order (memory.slots idx) memory.session point).2 <;> rfl
  | emptyTest => cases action
  | take => cases action
  | recycle idx => cases action
  | recycled ok =>
      cases action
      cases result
      exact .outside rfl rfl (.inl rfl)
  | leave =>
      cases action
      cases result
      exact .outside rfl rfl (.inl rfl)
  | finished => cases action

/-- A call of the consumer that returns leads to the stage or away from it. -/
theorem consumer_call_point {consumer : ConsumerLocation} {call : PoolCall}
    {next : RingRet call → ConsumerLocation}
    (action : consumerAction order consumer = .call call next) (result : RingRet call) :
    consumer.point = none ∧
      ((next result).point = none ∨ (next result).point = some .decode) := by
  cases consumer with
  | emptyTest =>
      cases action
      cases result <;> exact ⟨rfl, .inl rfl⟩
  | take =>
      cases action
      cases result with
      | none => exact ⟨rfl, .inl rfl⟩
      | some idx => exact ⟨rfl, .inr rfl⟩
  | recycle idx =>
      cases action
      exact ⟨rfl, .inl rfl⟩
  | loopTest => cases action
  | stage idx point => cases action
  | recycled ok => cases action
  | leave => cases action
  | finished => cases action

def consumerView (order : ByteOrder) : ConsumerView order (program order) where
  session := Memory.session
  consumer := .consumer
  point := ConsumerLocation.point
  others_drop thread other location effect action memory input after next result := by
    cases thread with
    | server => exact server_effect_session action result
    | consumer => exact absurd rfl other
    | control => exact .inl (control_effect_frame action result).2
  own_step _ _ action _ _ _ _ result := consumer_effect_session action result
  calls_outside _ _ _ action result := consumer_call_point action result

theorem session_between_frames {state : State order capacity}
    (reached : Reaches (system order capacity) state)
    (between : state.consumer.point = none) :
    state.memory.session.besidesDrops =
      (replay state.memory.session.decoded).besidesDrops := by
  refine (consumerView order).session_between_frames ?_ reached between
  rintro state ⟨-, ⟨slots, memory⟩, -, consumer, -⟩
  constructor
  · exact congrArg Memory.session memory
  · exact congrArg ConsumerLocation.point consumer

theorem queue_session_between_frames {state : QueueState order capacity}
    (reached : Reaches (queueSystem order capacity) state)
    (between : state.consumer.point = none) :
    state.memory.session.besidesDrops =
      (replay state.memory.session.decoded).besidesDrops := by
  refine (consumerView order).session_between_frames_atomic ?_ reached between
  rintro state ⟨-, -, ⟨slots, memory⟩, -, consumer, -⟩
  constructor
  · exact congrArg Memory.session memory
  · exact congrArg ConsumerLocation.point consumer

end MarketDataEngine.EngineV1

namespace MarketDataEngine.EngineV2

open MarketDataEngine.Protocol MarketDataEngine.Containers MarketDataEngine.Engine
open MarketDataEngine.Net
open MarketDataEngine.TransitionSystem MarketDataEngine.SteppedObject

set_option autoImplicit false

variable {order : ByteOrder} {capacity : Capacity}

theorem receive_returned_session (memory : Memory) (site : Site) (indices : List Nat)
    (returned : Receiver × RxResult) :
    (receiveReturned memory site indices returned).1.session = memory.session := by
  obtain ⟨receiver, result⟩ := returned
  cases result <;> rfl

theorem io_effect_session {io next : IoLocation} {memory after : Memory}
    {input : Input} {effect : Memory → Input → Option (Memory × IoLocation)}
    (action : ioAction io = .memory effect)
    (result : effect memory input = some (after, next)) :
    after.session = memory.session ∨ after.session = memory.session.dropOne := by
  cases io with
  | reserve site indices =>
      simp only [ioAction] at action
      split_ifs at action
      cases action
      cases result
      exact .inl rfl
  | receive site indices =>
      cases site with
      | outer =>
          cases action
          simp only at result
          split at result
          · obtain ⟨returned, -, moved⟩ := Option.map_eq_some_iff.mp result
            have session := receive_returned_session memory .outer indices returned
            rw [moved] at session
            exact .inl session
          · cases result
      | drain =>
          cases action
          simp only at result
          split at result
          · obtain ⟨returned, -, moved⟩ := Option.map_eq_some_iff.mp result
            have session := receive_returned_session memory .drain indices returned
            rw [moved] at session
            exact .inl session
          · cases result
  | batchTest frames unused =>
      cases action
      simp only at result
      split_ifs at result <;> cases result <;> exact .inl rfl
  | clock frames unused =>
      cases action
      simp only at result
      split at result <;> cases result
      exact .inl rfl
  | dropCount refused idx batch =>
      cases action
      cases result
      exact .inr rfl
  | release afterRelease indices =>
      cases indices with
      | nil =>
          cases action
          cases result
          exact .inl rfl
      | cons idx rest => cases action
  | readyPush idx batch => cases action
  | dropReturn refused idx batch => cases action
  | finished => cases action
  | _ =>
      cases action
      cases result
      exact .inl rfl

theorem control_effect_session {control next : ControlLocation}
    {memory after : Memory} {input : Input}
    {effect : Memory → Input → Option (Memory × ControlLocation)}
    (action : controlAction control = .memory effect)
    (result : effect memory input = some (after, next)) :
    after.session = memory.session := by
  cases control with
  | joinIo =>
      cases action
      simp only at result
      split_ifs at result
      cases result
      rfl
  | joinConsumer =>
      cases action
      simp only at result
      split_ifs at result
      cases result
      rfl
  | returned => cases action
  | _ =>
      cases action
      cases result
      rfl

theorem collected_next_point (indices : List Nat) :
    (collectedNext indices).point = none ∨
      (collectedNext indices).point = some .decode := by
  cases indices with
  | nil => exact .inl rfl
  | cons idx rest => exact .inr rfl

theorem work_next_point (work : Working) :
    (workNext work).point = none ∨ (workNext work).point = some .decode := by
  unfold workNext
  split
  · exact .inl rfl
  · exact .inr rfl

theorem record_latency_session (memory : Memory) (idx : Nat) (startNs endNs : UInt64) :
    (recordLatency memory idx startNs endNs).session = memory.session := by
  unfold recordLatency
  split_ifs <;> rfl

theorem consumer_effect_session {consumer next : ConsumerLocation}
    {memory after : Memory} {input : Input}
    {effect : Memory → Input → Option (Memory × ConsumerLocation)}
    (action : consumerAction order consumer = .memory effect)
    (result : effect memory input = some (after, next)) :
    SessionStep order memory.session after.session consumer.point next.point := by
  cases consumer with
  | loopTest =>
      cases action
      cases result
      refine .outside rfl rfl (.inl ?_)
      cases memory.running <;> rfl
  | collect indices =>
      simp only [consumerAction] at action
      split_ifs at action
      cases action
      cases result
      exact .outside rfl rfl (.inl rfl)
  | collected indices =>
      cases action
      cases result
      exact .outside rfl rfl (collected_next_point indices)
  | stage work point =>
      cases action
      cases result
      refine .stage (memory.slots work.idx) point rfl (Prod.ext rfl ?_)
      simp only
      cases (stageStep order (memory.slots work.idx) memory.session point).2 <;> rfl
  | exchange work =>
      cases action
      cases result
      exact .outside rfl rfl (.inl rfl)
  | clock startNs work =>
      cases action
      simp only at result
      split at result <;> cases result
      exact .outside (record_latency_session _ _ _ _) rfl (work_next_point work)
  | recycle indices =>
      cases indices with
      | nil =>
          cases action
          cases result
          exact .outside rfl rfl (.inl rfl)
      | cons idx rest => cases action
  | recycled ok indices =>
      cases action
      cases result
      exact .outside rfl rfl (.inl rfl)
  | leave =>
      cases action
      cases result
      exact .outside rfl rfl (.inl rfl)
  | emptyTest => cases action
  | finished => cases action

theorem consumer_call_point {consumer : ConsumerLocation} {call : PoolCall}
    {next : RingRet call → ConsumerLocation}
    (action : consumerAction order consumer = .call call next) (result : RingRet call) :
    consumer.point = none ∧
      ((next result).point = none ∨ (next result).point = some .decode) := by
  cases consumer with
  | emptyTest =>
      cases action
      cases result <;> exact ⟨rfl, .inl rfl⟩
  | collect indices =>
      simp only [consumerAction] at action
      split_ifs at action
      cases action
      cases result <;> exact ⟨rfl, .inl rfl⟩
  | recycle indices =>
      cases indices with
      | nil => cases action
      | cons idx rest =>
          cases action
          exact ⟨rfl, .inl rfl⟩
  | loopTest => cases action
  | collected indices => cases action
  | stage work point => cases action
  | exchange work => cases action
  | clock startNs work => cases action
  | recycled ok indices => cases action
  | leave => cases action
  | finished => cases action

def consumerView (order : ByteOrder) : ConsumerView order (program order) where
  session := Memory.session
  consumer := .consumer
  point := ConsumerLocation.point
  others_drop thread other location effect action memory input after next result := by
    cases thread with
    | io => exact io_effect_session action result
    | consumer => exact absurd rfl other
    | control => exact .inl (control_effect_session action result)
  own_step _ _ action _ _ _ _ result := consumer_effect_session action result
  calls_outside _ _ _ action result := consumer_call_point action result

theorem session_between_frames {state : State order capacity}
    (reached : Reaches (system order capacity) state)
    (between : state.consumer.point = none) :
    state.memory.session.besidesDrops =
      (replay state.memory.session.decoded).besidesDrops := by
  refine (consumerView order).session_between_frames ?_ reached between
  rintro state ⟨-, ⟨slots, memory⟩, -, consumer, -⟩
  constructor
  · exact congrArg Memory.session memory
  · exact congrArg ConsumerLocation.point consumer

theorem queue_session_between_frames {state : QueueState order capacity}
    (reached : Reaches (queueSystem order capacity) state)
    (between : state.consumer.point = none) :
    state.memory.session.besidesDrops =
      (replay state.memory.session.decoded).besidesDrops := by
  refine (consumerView order).session_between_frames_atomic ?_ reached between
  rintro state ⟨-, -, ⟨slots, memory⟩, -, consumer, -⟩
  constructor
  · exact congrArg Memory.session memory
  · exact congrArg ConsumerLocation.point consumer

end MarketDataEngine.EngineV2
