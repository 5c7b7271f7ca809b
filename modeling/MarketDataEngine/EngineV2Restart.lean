import MarketDataEngine.EngineV2Lifecycle

/-!
# The next session of engine v2

The counters go on through a restart, so a session is measured by what it adds to them.
Engine v2 resets everything else: whatever its sessions before were, its next session is that
of a new engine with other counters, step by step and access by access.
-/

namespace MarketDataEngine.Engine

open MarketDataEngine.Protocol

set_option autoImplicit false

namespace Metrics

def add (base metrics : Metrics) : Metrics where
  processed := base.processed + metrics.processed
  received := base.received + metrics.received
  decodeErrors := base.decodeErrors + metrics.decodeErrors
  drops := base.drops + metrics.drops
  seqNumGaps := base.seqNumGaps + metrics.seqNumGaps

/-- What has been added to each counter. -/
def since (metrics base : Metrics) : Metrics where
  processed := metrics.processed - base.processed
  received := metrics.received - base.received
  decodeErrors := metrics.decodeErrors - base.decodeErrors
  drops := metrics.drops - base.drops
  seqNumGaps := metrics.seqNumGaps - base.seqNumGaps

theorem add_since (base metrics : Metrics) : (base.add metrics).since base = metrics := by
  have cancel : ∀ first second : UInt64, first + second - first = second := by
    intro first second
    rw [UInt64.add_comm, UInt64.add_sub_cancel]
  simp only [add, since, cancel]

theorem add_zero (base : Metrics) : base.add .zero = base := by
  simp [add, zero]

end Metrics

namespace Session

/-- The session with other counters to start from. -/
def shift (base : Metrics) (session : Session) : Session :=
  { session with metrics := base.add session.metrics }

theorem shift_drop_one (base : Metrics) (session : Session) :
    (session.shift base).dropOne = session.dropOne.shift base := by
  simp [shift, dropOne, Metrics.add, Metrics.incDrops, UInt64.add_assoc]

theorem shift_finish (base : Metrics) (session : Session) (verdict : Verdict) :
    (session.shift base).finish verdict = (session.finish verdict).shift base := by
  cases verdict <;>
    simp [shift, finish, Verdict.accepted, Metrics.add, Metrics.incProcessed, Metrics.incDrops,
      UInt64.add_assoc]

end Session

theorem stage_step_shift (order : ByteOrder) (base : Metrics) (frame : Frame) (session : Session)
    (point : StagePoint) :
    stageStep order frame (session.shift base) point =
      ((stageStep order frame session point).1.shift base,
        (stageStep order frame session point).2) := by
  cases point with
  | decode =>
      rw [stage_step_decode, stage_step_decode]
      rfl
  | countReceived =>
      simp [stageStep, Session.shift, Metrics.add, Metrics.incReceived, UInt64.add_assoc]
  | classify =>
      have same : (session.shift base).tracker.verdict (session.shift base).msg.seqNum =
          session.tracker.verdict session.msg.seqNum := rfl
      simp only [stageStep, same]
      cases session.tracker.verdict session.msg.seqNum with
      | gap missing =>
          simp [Session.shift, Metrics.add, Metrics.incSeqNumGaps, UInt64.add_assoc]
      | first => simp only [Session.shift_finish]
      | inOrder => simp only [Session.shift_finish]
      | old => simp only [Session.shift_finish]
  | closeGap missing => simp only [stageStep, Session.shift_finish]
  | countDecodeError =>
      simp [stageStep, Session.shift, Metrics.add, Metrics.incDecodeError, UInt64.add_assoc]

end MarketDataEngine.Engine

namespace MarketDataEngine.Net

set_option autoImplicit false

def ReceiverStats.add (base stats : ReceiverStats) : ReceiverStats where
  receivedPackets := base.receivedPackets + stats.receivedPackets
  receivedBytes := base.receivedBytes + stats.receivedBytes
  receivedErrors := base.receivedErrors + stats.receivedErrors
  eagain := base.eagain + stats.eagain

namespace Receiver

/-- The receiver with other statistics to start from. -/
def shift (base : ReceiverStats) (receiver : Receiver) : Receiver :=
  { receiver with stats := base.add receiver.stats }

def shiftOutcome (base : ReceiverStats) (outcome : Receiver × RxResult) : Receiver × RxResult :=
  (outcome.1.shift base, outcome.2)

variable (base : ReceiverStats) (receiver : Receiver) (count : Nat)

theorem shift_count_error : (receiver.shift base).countError = receiver.countError.shift base := by
  simp [shift, countError, ReceiverStats.add, UInt64.add_assoc]

theorem shift_count_frames (frames : List RxFrame) :
    frames.foldl countFrame (receiver.shift base) =
      (frames.foldl countFrame receiver).shift base := by
  induction frames generalizing receiver with
  | nil => rfl
  | cons frame rest ih =>
      have first : (receiver.shift base).countFrame frame =
          (receiver.countFrame frame).shift base := by
        simp [shift, countFrame, ReceiverStats.add, UInt64.add_assoc]
      rw [List.foldl_cons, List.foldl_cons, first]
      exact ih (receiver.countFrame frame)

theorem shift_recvmmsg_loop (replies : List RecvmmsgReply) :
    (receiver.shift base).recvmmsgLoop count replies =
      (receiver.recvmmsgLoop count replies).map (shiftOutcome base) := by
  induction replies with
  | nil => rfl
  | cons reply replies ih =>
      cases reply with
      | frames first rest =>
          simp only [recvmmsgLoop, shift_count_frames]
          split_ifs <;> rfl
      | interrupted => exact ih
      | again =>
          simp [recvmmsgLoop, shiftOutcome, shift, countEagain, ReceiverStats.add, UInt64.add_assoc]
      | failed => simp [recvmmsgLoop, shiftOutcome, shift_count_error]
      | nothing => rfl

theorem shift_receive_batch (replies : List RecvmmsgReply) :
    (receiver.shift base).receiveBatch count replies =
      (receiver.receiveBatch count replies).map (shiftOutcome base) := by
  unfold receiveBatch
  rw [show (receiver.shift base).fdOpen = receiver.fdOpen from rfl]
  split_ifs
  · rfl
  · exact shift_recvmmsg_loop base receiver count replies

theorem shift_epoll_loop (replies : List RecvmmsgReply) (waits : List EpollWaitReply) :
    (receiver.shift base).epollLoop count replies waits =
      (receiver.epollLoop count replies waits).map (shiftOutcome base) := by
  induction waits with
  | nil => rfl
  | cons wait waits ih =>
      cases wait with
      | ready error =>
          simp only [epollLoop]
          split_ifs
          · simp [shiftOutcome, shift_count_error]
          · exact shift_receive_batch base receiver count replies
      | timeout => rfl
      | interrupted => exact ih
      | failed => simp [epollLoop, shiftOutcome, shift_count_error]

theorem shift_ensure_epoll (created : Bool) :
    (receiver.shift base).ensureEpoll created =
      ((receiver.ensureEpoll created).1.shift base, (receiver.ensureEpoll created).2) := by
  unfold ensureEpoll
  rw [show (receiver.shift base).fdOpen = receiver.fdOpen from rfl,
    show (receiver.shift base).epfdOpen = receiver.epfdOpen from rfl]
  split_ifs <;> rfl

theorem shift_epoll_receive (created : Bool) (waits : List EpollWaitReply)
    (replies : List RecvmmsgReply) :
    (receiver.shift base).epollReceive count created waits replies =
      (receiver.epollReceive count created waits replies).map (shiftOutcome base) := by
  unfold epollReceive
  rw [shift_ensure_epoll]
  simp only
  split_ifs
  · exact shift_epoll_loop base _ count replies waits
  · simp [shiftOutcome, shift_count_error]

end Receiver

end MarketDataEngine.Net

namespace MarketDataEngine.EngineV2

open MarketDataEngine.Protocol MarketDataEngine.Containers MarketDataEngine.Engine
open MarketDataEngine.Net MarketDataEngine.TransitionSystem MarketDataEngine.SteppedObject

set_option autoImplicit false

variable {order : ByteOrder} {capacity : Capacity}

/-- The memory with other counters and statistics to start from. -/
def Memory.shift (base : Metrics) (stats : ReceiverStats) (memory : Memory) : Memory :=
  { memory with
    session := memory.session.shift base
    receiver := memory.receiver.shift stats }

section Effects

variable (base : Metrics) (stats : ReceiverStats)

/-- An effect that neither reads nor forgets the counters. -/
def Shifts {Location : Type} (effect : Memory → Input → Option (Memory × Location)) : Prop :=
  ∀ memory input, effect (memory.shift base stats) input =
    (effect memory input).map fun result => (result.1.shift base stats, result.2)

theorem shift_receive_returned (memory : Memory) (site : Site) (indices : List Nat)
    (outcome : Receiver × RxResult) :
    receiveReturned (memory.shift base stats) site indices (Receiver.shiftOutcome stats outcome) =
      ((receiveReturned memory site indices outcome).1.shift base stats,
        (receiveReturned memory site indices outcome).2) := by
  obtain ⟨receiver, result⟩ := outcome
  cases result <;> rfl

theorem io_effect_shifts {io : IoLocation}
    {effect : Memory → Input → Option (Memory × IoLocation)}
    (action : ioAction io = .memory effect) : Shifts base stats effect := by
  cases io with
  | reserve site indices =>
      simp only [ioAction] at action
      split_ifs at action
      cases action
      exact fun _ _ => rfl
  | receive site indices =>
      cases site with
      | outer =>
          cases action
          intro memory input
          cases input with
          | epoll created waits replies =>
              show ((memory.receiver.shift stats).epollReceive _ _ _ _).map _ =
                ((memory.receiver.epollReceive _ _ _ _).map _).map _
              rw [Receiver.shift_epoll_receive]
              cases memory.receiver.epollReceive indices.length created waits replies with
              | none => rfl
              | some outcome =>
                  exact congrArg some (shift_receive_returned base stats memory .outer indices outcome)
          | _ => rfl
      | drain =>
          cases action
          intro memory input
          cases input with
          | recv replies =>
              show ((memory.receiver.shift stats).receiveBatch _ _).map _ =
                ((memory.receiver.receiveBatch _ _).map _).map _
              rw [Receiver.shift_receive_batch]
              cases memory.receiver.receiveBatch indices.length replies with
              | none => rfl
              | some outcome =>
                  exact congrArg some (shift_receive_returned base stats memory .drain indices outcome)
          | _ => rfl
  | batchTest frames unused =>
      cases action
      intro memory input
      show (if memory.running then _ else _) = (if memory.running then _ else _ : Option _).map _
      split_ifs <;> rfl
  | clock frames unused =>
      cases action
      intro memory input
      cases input <;> rfl
  | dropCount refused idx batch =>
      cases action
      intro memory input
      show some (Memory.dropOne _, _) = _
      unfold Memory.dropOne
      rw [show (memory.shift base stats).session.dropOne = memory.session.dropOne.shift base from
        Session.shift_drop_one base memory.session]
      rfl
  | release after indices =>
      cases indices with
      | nil =>
          cases action
          exact fun _ _ => rfl
      | cons idx rest => cases action
  | readyPush idx batch => cases action
  | dropReturn refused idx batch => cases action
  | finished => cases action
  | _ =>
      cases action
      exact fun _ _ => rfl

theorem consumer_effect_shifts {consumer : ConsumerLocation}
    {effect : Memory → Input → Option (Memory × ConsumerLocation)}
    (action : consumerAction order consumer = .memory effect) : Shifts base stats effect := by
  cases consumer with
  | collect indices =>
      simp only [consumerAction] at action
      split_ifs at action
      cases action
      exact fun _ _ => rfl
  | stage work point =>
      cases action
      intro memory input
      have shifted := stage_step_shift order base (memory.slots work.idx) memory.session point
      show some (stageNext order work point (memory.shift base stats)) =
        some ((stageNext order work point memory).1.shift base stats,
          (stageNext order work point memory).2)
      unfold stageNext
      rw [show (memory.shift base stats).session = memory.session.shift base from rfl,
        show (memory.shift base stats).slots = memory.slots from rfl, shifted]
      rfl
  | clock startNs work =>
      cases action
      intro memory input
      cases input with
      | clock now =>
          show some (recordLatency _ _ _ _, _) = some (Memory.shift _ _ (recordLatency _ _ _ _), _)
          unfold recordLatency
          split_ifs <;> rfl
      | _ => rfl
  | recycle indices =>
      cases indices with
      | nil =>
          cases action
          exact fun _ _ => rfl
      | cons idx rest => cases action
  | emptyTest => cases action
  | finished => cases action
  | _ =>
      cases action
      exact fun _ _ => rfl

theorem control_effect_shifts {control : ControlLocation}
    {effect : Memory → Input → Option (Memory × ControlLocation)}
    (action : controlAction control = .memory effect) : Shifts base stats effect := by
  cases control with
  | joinIo =>
      cases action
      intro memory input
      show (if memory.ioDone then _ else _) = (if memory.ioDone then _ else _ : Option _).map _
      split_ifs <;> rfl
  | joinConsumer =>
      cases action
      intro memory input
      show (if memory.consumerDone then _ else _) =
        (if memory.consumerDone then _ else _ : Option _).map _
      split_ifs <;> rfl
  | returned => cases action
  | _ =>
      cases action
      exact fun _ _ => rfl

/-- No thread sees what the counters and the statistics started from. -/
theorem shift_step (state : State order capacity) (label : Thread × Input) :
    fineStep (program order) (state.mapMemory (Memory.shift base stats)) label =
      (fineStep (program order) state label).map
        (FineState.mapMemory (Memory.shift base stats)) := by
  refine fine_step_map_memory (program order) ?_ state label
  intro thread location effect action memory input
  cases thread with
  | io => exact io_effect_shifts base stats action memory input
  | consumer => exact consumer_effect_shifts base stats action memory input
  | control => exact control_effect_shifts base stats action memory input

end Effects

/-- The engine when the threads of a successful `receive()` start, over a pool just allocated. -/
def restartedState (order : ByteOrder) (before : Memory) (contents : PoolContents capacity) :
    State order capacity where
  shared := FramePool.initRings contents.rings
  memory := before.restarted contents.slots
  location := fun
    | .io => IoLocation.loopTest
    | .consumer => ConsumerLocation.loopTest
    | .control => ControlLocation.clearRunning
  pc := fun _ => none

/-- A `receive()` in which everything succeeds takes every stopped engine there. -/
theorem receive_restarts {life : Life order capacity} (contents : PoolContents capacity)
    (idle : life.point = .idle) (stopped : life.running = false)
    (joined : life.ioJoinable = false ∧ life.consumerJoinable = false ∧
      life.reporterJoinable = false) :
    ∃ after, runLabels (lives order capacity) life (receiveCalls contents) = some after ∧
      after.engine.shared = (restartedState order life.engine.memory contents).shared ∧
      after.engine.memory = (restartedState order life.engine.memory contents).memory ∧
      after.engine.io = .loopTest ∧ after.engine.consumer = .loopTest := by
  obtain ⟨point, engine, pool, nextPool, released, io, consumer, reporter, done, failed⟩ := life
  obtain rfl : point = .idle := idle
  obtain ⟨rfl, rfl, rfl⟩ : io = false ∧ consumer = false ∧ reporter = false := joined
  obtain ⟨shared, memory, location, pc⟩ := engine
  have flag : memory.running = false := stopped
  cases memory
  cases flag
  exact ⟨_, rfl, rfl, rfl, rfl, rfl⟩

/-- The same of a new engine. -/
def startedState (order : ByteOrder) (contents : PoolContents capacity) : State order capacity :=
  { restartedState order (startMemory contents.slots) contents with
    memory := startMemory contents.slots }

theorem started_state_start (contents : PoolContents capacity) :
    Start (startedState order contents) :=
  ⟨⟨contents.rings, rfl⟩, ⟨contents.slots, rfl⟩, rfl, rfl, rfl, fun _ => rfl⟩

theorem restarted_state_eq (before : Memory) (contents : PoolContents capacity) :
    restartedState order before contents = (startedState order contents).mapMemory
      (Memory.shift before.session.metrics before.receiver.stats) := by
  have memory : before.restarted contents.slots = (startMemory contents.slots).shift
      before.session.metrics before.receiver.stats := by
    simp [Memory.restarted, Memory.clearStamps, Memory.newPool, Memory.resetTracker,
      Memory.openReceiver, Memory.start, Memory.startIo, Memory.startConsumer, startMemory,
      Memory.shift, Session.shift, Session.fresh, Metrics.add_zero, Receiver.shift,
      Receiver.close, ReceiverStats.add]
  unfold restartedState
  rw [memory]
  rfl

/-- The second session of engine v2 is that of a new engine, access by access, with the same
increments of the counters. -/
theorem restarted_runs_alike (before : Memory) (contents : PoolContents capacity)
    (labels : List (Thread × Input)) :
    (runLabels (system order capacity) (restartedState order before contents) labels).map
        (fun state => (state.memory.session.metrics.since before.session.metrics, state.shared,
          state.location)) =
      (runLabels (system order capacity) (startedState order contents) labels).map
        (fun state => (state.memory.session.metrics, state.shared, state.location)) := by
  rw [restarted_state_eq, run_labels_map (shift_step _ _), Option.map_map]
  congr 1
  funext state
  show ((before.session.metrics.add state.memory.session.metrics).since _, _, _) = _
  rw [Metrics.add_since]
  rfl

end MarketDataEngine.EngineV2
