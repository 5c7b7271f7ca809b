import MarketDataEngine.EngineV1Accounting
import MarketDataEngine.EngineV2Accounting

/-!
# What `stop()` leaves behind

Both engines clear `running_` first and join the I/O thread after it. The
consumer leaves its loop once the flag is down and the ready ring is empty, which
may be before the I/O thread has published its last batch; the inner loop of
engine v2 tests the flag once more between receiving a batch and publishing it.
Where neither happens, every datagram is accounted for when the threads are done.
-/

namespace MarketDataEngine.EngineV1

open MarketDataEngine.Protocol MarketDataEngine.Containers MarketDataEngine.Engine
open MarketDataEngine.TransitionSystem MarketDataEngine.SteppedObject

set_option autoImplicit false

variable {order : ByteOrder} {capacity : Capacity}

namespace ConsumerLocation

/-- The consumer is out of its loop. -/
def left : ConsumerLocation → Bool
  | .leave => true
  | .finished => true
  | _ => false

def done : ConsumerLocation → Bool
  | .finished => true
  | _ => false

theorem eq_finished {consumer : ConsumerLocation} (isDone : consumer.done = true) :
    consumer = .finished := by
  cases consumer <;> first | rfl | cases isDone

end ConsumerLocation

namespace ServerLocation

def publishing : ServerLocation → Bool
  | .publish _ _ _ => true
  | _ => false

def done : ServerLocation → Bool
  | .finished => true
  | _ => false

theorem eq_finished {server : ServerLocation} (isDone : server.done = true) :
    server = .finished := by
  cases server <;> first | rfl | cases isDone

end ServerLocation

/-- The server publishes only while the consumer is in its loop. -/
def PublishesInTime (state : QueueState order capacity) (label : Thread × Input) :
    Prop :=
  label.1 = .server → state.server.publishing = true → state.consumer.left = false

/-- `stop()` has returned and every thread is done. -/
def Stopped (state : QueueState order capacity) : Prop :=
  state.control = .returned ∧ state.server.done = true ∧ state.consumer.done = true

/-- Nothing is lost: each datagram obtained is counted and none is queued. -/
def NothingLost (state : QueueState order capacity) : Prop :=
  state.memory.session.metrics.processed + state.memory.session.metrics.drops +
      state.memory.session.metrics.decodeErrors =
        UInt64.ofNat state.memory.obtained.length ∧
    state.queue .ready = []

/-- Only publishing changes the ready ring on the server's side. -/
theorem server_step_ready {queues nextQueues : PoolRing → List Nat}
    {memory after : Memory} {server next : ServerLocation} {input : Input}
    (quiet : server.publishing = false)
    (step : queueStep capacity (serverAction server) queues memory input =
      some (nextQueues, after, next)) :
    nextQueues .ready = queues .ready := by
  cases server with
  | wait =>
      obtain ⟨result, -, same⟩ := Option.map_eq_some_iff.mp step
      cases same
      rfl
  | receive events =>
      obtain ⟨result, -, same⟩ := Option.map_eq_some_iff.mp step
      cases same
      rfl
  | publish events idx batch => exact absurd quiet Bool.true_eq_false.mp
  | finished => cases step
  | _ =>
      cases step
      rfl

/-- The consumer leaves only when the ready ring is empty. -/
theorem consumer_step_left {queues nextQueues : PoolRing → List Nat}
    {memory after : Memory} {consumer next : ConsumerLocation} {input : Input}
    (empty : consumer.left = true → queues .ready = [])
    (step : queueStep capacity (consumerAction order consumer) queues memory input =
      some (nextQueues, after, next)) :
    next.left = true → nextQueues .ready = [] := by
  intro leaves
  cases consumer with
  | loopTest =>
      cases step
      cases flag : memory.running <;> simp [flag, ConsumerLocation.left] at leaves
  | emptyTest =>
      cases step
      change (emptyReturned (queues .ready).isEmpty).left = true at leaves
      show queues .ready = []
      cases isEmpty : (queues .ready).isEmpty with
      | true => exact List.isEmpty_iff.mp isEmpty
      | false => simp [isEmpty, emptyReturned, ConsumerLocation.left] at leaves
  | take =>
      cases step
      change (popReturned (fifoPop (queues .ready)).2).left = true at leaves
      cases ready : queues .ready <;>
        simp [ready, fifoPop, popReturned, ConsumerLocation.left] at leaves
  | stage idx point =>
      cases step
      simp only [stageNext] at leaves
      cases later : (stageStep order (memory.slots idx) memory.session point).2 <;>
        simp [later, ConsumerLocation.left] at leaves
  | recycle idx =>
      cases step
      cases leaves
  | recycled ok =>
      cases step
      cases leaves
  | leave =>
      cases step
      exact empty rfl
  | finished => cases step

/-- A consumer out of its loop has left the ready ring empty behind. -/
def LeftEmpty (state : QueueState order capacity) : Prop :=
  state.consumer.left = true → state.queue .ready = []

theorem left_empty_step {state next : QueueState order capacity}
    {label : Thread × Input} (empty : LeftEmpty state)
    (inTime : PublishesInTime state label)
    (taken : atomicStep (program order) state label = some next) : LeftEmpty next := by
  unfold LeftEmpty at empty ⊢
  cases moves_of_step taken with
  | server step consumer _ =>
      rw [consumer]
      intro leaves
      have quiet : state.server.publishing = false := by
        by_contra publishing
        have inLoop := inTime rfl (Bool.eq_true_of_not_eq_false publishing)
        rw [leaves] at inLoop
        cases inLoop
      rw [server_step_ready quiet step]
      exact empty leaves
  | consumer step _ _ => exact consumer_step_left empty step
  | control step _ consumer =>
      rw [(control_step_frame step).1, consumer]
      exact empty

theorem nothing_lost_of_in_time {state : QueueState order capacity}
    (reached : ReachesUnder (queueSystem order capacity) PublishesInTime state)
    (stopped : Stopped state) : NothingLost state := by
  have server := ServerLocation.eq_finished stopped.2.1
  have consumer := ConsumerLocation.eq_finished stopped.2.2
  have empty : LeftEmpty state := by
    refine invariant_of_step ?_ ?_ reached
    · exact fun _ start _ => start.2.1
    · intro state label next _ empty inTime taken
      exact left_empty_step empty inTime taken
  have ready : state.queue .ready = [] := empty (by rw [consumer]; rfl)
  have accounted := accounted_of_reaches (reaches_of_reaches_under reached)
  unfold StateAccounted Accounted inFlight at accounted
  rw [ready, server, consumer] at accounted
  exact ⟨(accounted.trans (UInt64.add_zero _)).symm, ready⟩

/-- The engine over atomic queues right after `init`; the first index is spelled
out. -/
def freshQueues : QueueState .little kPoolCapacity where
  shared
    | .free => 0 :: (List.range 4095).map Nat.succ
    | .ready => ([] : List Nat)
  memory := startMemory fun _ => Vector.replicate kWireSize 0
  location
    | .server => ServerLocation.loopTest
    | .consumer => ConsumerLocation.loopTest
    | .control => ControlLocation.clearRunning

theorem fresh_queues_start : QueueStart freshQueues := by
  refine ⟨?_, rfl, ⟨_, rfl⟩, rfl, rfl, rfl⟩
  exact List.range_succ_eq_map.symm

/-- One datagram arrives and is copied into slot 0, ready to be published. -/
def serverCopies : List (Thread × Input) :=
  ticks .server 1 ++ epollReply (.events (.socket false) []) ++ ticks .server 1 ++
    recvReply (.batch (List.replicate 44 7) []) ++ ticks .server 3

/-- The server drains its socket, sees the stop and ends; `stop()` returns. -/
def serverEnds : List (Thread × Input) :=
  ticks .server 1 ++ recvReply .again ++ ticks .server 1 ++ ticks .control 2 ++
    ticks .server 2 ++ ticks .control 2

def inTime (state : QueueState order capacity) (label : Thread × Input) : Bool :=
  !(label.1 == .server && state.server.publishing && state.consumer.left)

theorem publishes_in_time_of_check (state : QueueState order capacity)
    (label : Thread × Input) (checked : inTime state label = true) :
    PublishesInTime state label := by
  intro server publishing
  simpa [inTime, server, publishing] using checked

/-- The datagram is published and classified before the flag goes down. -/
def orderlyRun : Option (QueueState .little kPoolCapacity) :=
  runChecked (queueSystem .little kPoolCapacity) inTime freshQueues
    (serverCopies ++ ticks .server 1 ++ ticks .consumer 7 ++ ticks .control 1 ++
      ticks .consumer 3 ++ serverEnds)

/-- The flag goes down and the consumer leaves before the datagram is published. -/
def lateRun : Option (QueueState .little kPoolCapacity) :=
  runLabels (queueSystem .little kPoolCapacity) freshQueues
    (serverCopies ++ ticks .control 1 ++ ticks .consumer 3 ++ ticks .server 1 ++
      serverEnds)

/-- What the runs above are looked at for. -/
def summary (state : QueueState order capacity) : Bool × Nat × UInt64 :=
  (decide (state.control = .returned) && state.server.done && state.consumer.done,
    (state.queue .ready).length, state.memory.session.metrics.settled)

theorem stopped_of_summary {state : QueueState order capacity} {rest : Nat × UInt64}
    (seen : summary state = (true, rest)) : Stopped state := by
  have stopped := congrArg Prod.fst seen
  simpa [summary, Stopped, and_assoc] using stopped

end MarketDataEngine.EngineV1

namespace MarketDataEngine.EngineV2

open MarketDataEngine.Protocol MarketDataEngine.Containers MarketDataEngine.Engine
open MarketDataEngine.Net MarketDataEngine.TransitionSystem
open MarketDataEngine.SteppedObject

set_option autoImplicit false

variable {order : ByteOrder} {capacity : Capacity}

namespace ConsumerLocation

def left : ConsumerLocation → Bool
  | .leave => true
  | .finished => true
  | _ => false

def done : ConsumerLocation → Bool
  | .finished => true
  | _ => false

theorem eq_finished {consumer : ConsumerLocation} (isDone : consumer.done = true) :
    consumer = .finished := by
  cases consumer <;> first | rfl | cases isDone

end ConsumerLocation

namespace IoLocation

def publishing : IoLocation → Bool
  | .readyPush _ _ => true
  | _ => false

def done : IoLocation → Bool
  | .finished => true
  | _ => false

theorem eq_finished {io : IoLocation} (isDone : io.done = true) : io = .finished := by
  cases io <;> first | rfl | cases isDone

/-- The test of `running_` with a received batch in hand. -/
def testing : IoLocation → Bool
  | .batchTest _ _ => true
  | _ => false

end IoLocation

/-- The I/O thread publishes only while the consumer is in its loop, and finds
`running_` set whenever it tests it with a batch in hand. -/
def PublishesInTime (state : QueueState order capacity) (label : Thread × Input) :
    Prop :=
  label.1 = .io →
    (state.io.publishing = true → state.consumer.left = false) ∧
      (state.io.testing = true → state.memory.running = true)

def Stopped (state : QueueState order capacity) : Prop :=
  state.control = .returned ∧ state.io.done = true ∧ state.consumer.done = true

def NothingLost (state : QueueState order capacity) : Prop :=
  state.memory.session.metrics.processed + state.memory.session.metrics.drops +
      state.memory.session.metrics.decodeErrors =
        UInt64.ofNat state.memory.obtained.length ∧
    state.queue .ready = []

theorem io_step_ready {queues nextQueues : PoolRing → List Nat}
    {memory after : Memory} {io next : IoLocation} {input : Input}
    (quiet : io.publishing = false)
    (step : queueStep capacity (ioAction io) queues memory input =
      some (nextQueues, after, next)) :
    nextQueues .ready = queues .ready := by
  cases io with
  | reserve site indices =>
      simp only [ioAction] at step
      split_ifs at step <;> cases step <;> rfl
  | receive site indices => rw [(receive_step_cases step).1]
  | batchTest frames unused =>
      obtain ⟨result, -, same⟩ := Option.map_eq_some_iff.mp step
      cases same
      rfl
  | clock frames unused =>
      obtain ⟨result, -, same⟩ := Option.map_eq_some_iff.mp step
      cases same
      rfl
  | readyPush idx batch => exact absurd quiet Bool.true_eq_false.mp
  | release destination indices =>
      cases indices <;> cases step <;> rfl
  | finished => cases step
  | _ =>
      cases step
      rfl

theorem io_step_abandons {queues nextQueues : PoolRing → List Nat}
    {memory after : Memory} {io next : IoLocation} {input : Input}
    (kept : io.testing = true → memory.running = true)
    (step : queueStep capacity (ioAction io) queues memory input =
      some (nextQueues, after, next)) :
    after.abandonedFrames = memory.abandonedFrames := by
  cases io with
  | reserve site indices =>
      simp only [ioAction] at step
      split_ifs at step <;> cases step <;> rfl
  | receive site indices =>
      obtain ⟨-, ⟨receiver, result⟩, -, returned⟩ := receive_step_cases step
      cases result <;> cases returned <;> rfl
  | batchTest frames unused =>
      simp only [queueStep, actionStep, ioAction, kept rfl, ↓reduceIte] at step
      cases step
      rfl
  | clock frames unused =>
      cases input <;> cases step
      rfl
  | release destination indices =>
      cases indices <;> cases step <;> rfl
  | finished => cases step
  | _ =>
      cases step
      rfl

theorem consumer_step_left {queues nextQueues : PoolRing → List Nat}
    {memory after : Memory} {consumer next : ConsumerLocation} {input : Input}
    (empty : consumer.left = true → queues .ready = [])
    (step : queueStep capacity (consumerAction order consumer) queues memory input =
      some (nextQueues, after, next)) :
    (next.left = true → nextQueues .ready = []) ∧
      after.abandonedFrames = memory.abandonedFrames := by
  cases consumer with
  | loopTest =>
      cases step
      refine ⟨fun leaves => ?_, rfl⟩
      cases flag : memory.running <;> simp [flag, ConsumerLocation.left] at leaves
  | emptyTest =>
      cases step
      refine ⟨fun leaves => ?_, rfl⟩
      change (emptyReturned (queues .ready).isEmpty).left = true at leaves
      show queues .ready = []
      cases isEmpty : (queues .ready).isEmpty with
      | true => exact List.isEmpty_iff.mp isEmpty
      | false => simp [isEmpty, emptyReturned, ConsumerLocation.left] at leaves
  | collect indices =>
      simp only [consumerAction] at step
      split_ifs at step
      · cases step
        refine ⟨fun leaves => ?_, rfl⟩
        change (collectReturned indices (fifoPop (queues .ready)).2).left = true at leaves
        cases ready : queues .ready <;>
          simp [ready, fifoPop, collectReturned, ConsumerLocation.left] at leaves
      · cases step
        exact ⟨fun leaves => (Bool.false_ne_true leaves).elim, rfl⟩
  | collected indices =>
      cases step
      refine ⟨fun leaves => ?_, rfl⟩
      cases indices <;> simp [collectedNext, ConsumerLocation.left] at leaves
  | stage work point =>
      cases step
      refine ⟨fun leaves => ?_, rfl⟩
      simp only [stageNext] at leaves
      cases later : (stageStep order (memory.slots work.idx) memory.session point).2 <;>
        simp [later, ConsumerLocation.left] at leaves
  | exchange work =>
      cases step
      exact ⟨fun leaves => (Bool.false_ne_true leaves).elim, rfl⟩
  | clock startNs work =>
      cases input with
      | clock now =>
          cases step
          obtain ⟨latencies, recorded⟩ := record_latency_eq memory work.idx startNs now
          rw [recorded]
          refine ⟨fun leaves => ?_, rfl⟩
          obtain ⟨done, idx, rest⟩ := work
          cases rest <;> simp [workNext, ConsumerLocation.left] at leaves
      | _ => cases step
  | recycle indices =>
      cases indices <;> cases step <;>
        exact ⟨fun leaves => (Bool.false_ne_true leaves).elim, rfl⟩
  | recycled ok indices =>
      cases step
      exact ⟨fun leaves => (Bool.false_ne_true leaves).elim, rfl⟩
  | leave =>
      cases step
      exact ⟨fun _ => empty rfl, rfl⟩
  | finished => cases step

/-- A consumer out of its loop has left the ready ring empty behind, and no batch
has been abandoned. -/
def LeftEmpty (state : QueueState order capacity) : Prop :=
  (state.consumer.left = true → state.queue .ready = []) ∧
    state.memory.abandonedFrames = []

theorem left_empty_step {state next : QueueState order capacity}
    {label : Thread × Input} (empty : LeftEmpty state)
    (inTime : PublishesInTime state label)
    (taken : atomicStep (program order) state label = some next) : LeftEmpty next := by
  unfold LeftEmpty at empty ⊢
  cases moves_of_step taken with
  | io step consumer _ =>
      obtain ⟨published, tested⟩ := inTime rfl
      refine ⟨?_, (io_step_abandons tested step).trans empty.2⟩
      rw [consumer]
      intro leaves
      have quiet : state.io.publishing = false := by
        by_contra publishing
        have inLoop := published (Bool.eq_true_of_not_eq_false publishing)
        rw [leaves] at inLoop
        cases inLoop
      rw [io_step_ready quiet step]
      exact empty.1 leaves
  | consumer step _ _ =>
      obtain ⟨leaves, frames⟩ := consumer_step_left empty.1 step
      exact ⟨leaves, frames.trans empty.2⟩
  | control step _ consumer =>
      obtain ⟨queues, -, -, -, -, frames, -⟩ := control_step_frame step
      rw [queues, consumer, frames]
      exact empty

theorem nothing_lost_of_in_time {state : QueueState order capacity}
    (reached : ReachesUnder (queueSystem order capacity) PublishesInTime state)
    (stopped : Stopped state) : NothingLost state := by
  have io := IoLocation.eq_finished stopped.2.1
  have consumer := ConsumerLocation.eq_finished stopped.2.2
  have empty : LeftEmpty state := by
    refine invariant_of_step ?_ ?_ reached
    · rintro state ⟨-, ready, ⟨slots, memory⟩, -⟩
      exact ⟨fun _ => ready, by rw [memory]; rfl⟩
    · intro state label next _ empty inTime taken
      exact left_empty_step empty inTime taken
  have ready : state.queue .ready = [] := empty.1 (by rw [consumer]; rfl)
  have accounted := accounted_of_reaches (reaches_of_reaches_under reached)
  have counted := accounted.counted
  unfold inFlight at counted
  rw [ready, io, consumer, empty.2, accounted.obtained] at counted
  exact ⟨(counted.trans (UInt64.add_zero _)).symm, ready⟩

def inTime (state : QueueState order capacity) (label : Thread × Input) : Bool :=
  !(label.1 == .io && (state.io.publishing && state.consumer.left ||
    state.io.testing && !state.memory.running))

theorem publishes_in_time_of_check (state : QueueState order capacity)
    (label : Thread × Input) (checked : inTime state label = true) :
    PublishesInTime state label := by
  intro io
  refine ⟨fun publishing => ?_, fun testing => ?_⟩
  · simp [inTime, io, publishing] at checked
    exact checked.1
  · simp [inTime, io, testing] at checked
    exact checked.2

/-- The state with this free ring and the I/O thread at this point. -/
def QueueState.freed (state : QueueState order capacity) (free : List Nat)
    (io : IoLocation) : QueueState order capacity :=
  { state with
    shared := Function.update state.shared .free free
    location := Function.update state.location .io io }

/-- The I/O thread gives back every index that it has in hand. -/
def releaseAll (state : QueueState order capacity) : Option (QueueState order capacity) :=
  match state.io with
  | .release after indices =>
      if (state.queue .free).length + indices.length ≤ capacity.val then
        some (state.freed (state.queue .free ++ indices) (.release after []))
      else none
  | _ => none

theorem freed_free (state : QueueState order capacity) (free : List Nat) (io : IoLocation) :
    (state.freed free io).queue .free = free := by
  show Function.update state.queue .free free .free = free
  exact Function.update_self ..

/-- A step that leaves the rings alone. -/
theorem freed_same (state : QueueState order capacity) (io : IoLocation) :
    { state with location := Function.update state.location .io io } =
      state.freed (state.queue .free) io := by
  unfold QueueState.freed
  congr 1
  exact (Function.update_eq_self ..).symm

theorem freed_self (state : QueueState order capacity) :
    state.freed (state.queue .free) state.io = state := by
  rw [← freed_same]
  congr 1
  exact Function.update_eq_self ..

theorem freed_freed (state : QueueState order capacity) (free later : List Nat)
    (io next : IoLocation) : (state.freed free io).freed later next = state.freed later next := by
  unfold QueueState.freed
  congr 1
  · exact Function.update_idem ..
  · exact Function.update_idem ..

theorem in_time_of_releasing {state : QueueState order capacity} {input : Input}
    (quiet : state.io.publishing = false) (untested : state.io.testing = false) :
    PublishesInTime state (.io, input) := by
  intro _
  rw [quiet, untested]
  exact ⟨nofun, nofun⟩

/-- A push with room, and the step behind it. -/
theorem reaches_release_one {state : QueueState order capacity} {after : AfterRelease}
    {idx : Nat} {rest : List Nat} (releasing : state.io = .release after (idx :: rest))
    (room : (state.queue .free).length < capacity.val)
    (reached : ReachesUnder (queueSystem order capacity) PublishesInTime state) :
    ReachesUnder (queueSystem order capacity) PublishesInTime
      (state.freed (state.queue .free ++ [idx]) (.release after rest)) := by
  have pushed : fifoPush capacity (state.queue .free) idx = (state.queue .free ++ [idx], true) :=
    if_neg (Nat.ne_of_lt room)
  have push : atomicStep (program order) state (.io, .tick) =
      some (state.freed (state.queue .free ++ [idx]) (.released true after rest)) := by
    have action : (program order).action .io (state.location .io) =
        .call (.push .free idx) fun ok => IoLocation.released ok after rest :=
      congrArg ioAction releasing
    unfold atomicStep
    rw [action]
    show some (state.freed (fifoPush capacity (state.queue .free) idx).1
      (.released (fifoPush capacity (state.queue .free) idx).2 after rest)) = _
    rw [pushed]
  have begun : PublishesInTime state (.io, .tick) := by
    apply in_time_of_releasing <;> rw [releasing] <;> rfl
  have back : atomicStep (program order)
      (state.freed (state.queue .free ++ [idx]) (.released true after rest)) (.io, .tick) =
        some (state.freed (state.queue .free ++ [idx]) (.release after rest)) := by
    refine congrArg some ((freed_same _ _).trans ?_)
    rw [freed_free, freed_freed]
  have behind : PublishesInTime
      (state.freed (state.queue .free ++ [idx]) (.released true after rest)) (.io, .tick) :=
    in_time_of_releasing rfl rfl
  exact .step (.step reached begun push) behind back

theorem reaches_release_all {state next : QueueState order capacity}
    (released : releaseAll state = some next)
    (reached : ReachesUnder (queueSystem order capacity) PublishesInTime state) :
    ReachesUnder (queueSystem order capacity) PublishesInTime next := by
  unfold releaseAll at released
  split at released
  next after indices releasing =>
    split_ifs at released with room
    cases released
    induction indices generalizing state with
    | nil =>
        rw [List.append_nil, ← releasing, freed_self]
        exact reached
    | cons idx rest ih =>
        have one := reaches_release_one releasing (by simp at room; omega) reached
        have all := ih one rfl (by simp [freed_free] at room ⊢; omega)
        rw [freed_freed, freed_free] at all
        simpa using all
  · cases released

/-- A frame is published before the flag goes down. The I/O thread drains the
socket and leaves, and the consumer handles the frame. -/
def orderlyRun (start : QueueState order capacity) : Option (QueueState order capacity) :=
  (runChecked (queueSystem order capacity) inTime start
    (ticks .io 35 ++ oneFrame ++ ticks .io 1 ++ clockRead .io 5 ++ ticks .io 4)).bind
  fun published => (releaseAll published).bind
  fun released => (runChecked (queueSystem order capacity) inTime released
    (ticks .control 1 ++ ticks .io 35 ++ [(Thread.io, Input.recv [.again])])).bind
  fun drained => (releaseAll drained).bind
  fun left => runChecked (queueSystem order capacity) inTime left
    (ticks .io 3 ++ ticks .consumer 9 ++ clockRead .consumer 5 ++ ticks .consumer 6 ++
      ticks .control 3)

/-- The flag goes down between the receive and the test of the inner loop. -/
def abandonRun : Option (QueueState .little kPoolCapacity) :=
  runLabels (queueSystem .little kPoolCapacity) freshQueues
    (ticks .io 35 ++ oneFrame ++ ticks .control 1 ++ ticks .io 3 ++ ticks .control 2 ++
      ticks .consumer 3 ++ ticks .control 1)

def summary (state : QueueState order capacity) : Bool × Nat × UInt64 :=
  (decide (state.control = .returned) && state.io.done && state.consumer.done,
    (state.queue .ready).length, state.memory.session.metrics.settled)

theorem stopped_of_summary {state : QueueState order capacity} {rest : Nat × UInt64}
    (seen : summary state = (true, rest)) : Stopped state := by
  have stopped := congrArg Prod.fst seen
  simpa [summary, Stopped, and_assoc] using stopped

theorem orderly_run_reached {start state : QueueState order capacity}
    (initial : QueueStart start) (run : orderlyRun start = some state) :
    ReachesUnder (queueSystem order capacity) PublishesInTime state := by
  unfold orderlyRun at run
  obtain ⟨published, publishing, run⟩ := Option.bind_eq_some_iff.mp run
  obtain ⟨released, releasing, run⟩ := Option.bind_eq_some_iff.mp run
  obtain ⟨drained, draining, run⟩ := Option.bind_eq_some_iff.mp run
  obtain ⟨left, leaving, run⟩ := Option.bind_eq_some_iff.mp run
  have begun := reaches_under_run publishes_in_time_of_check (.start initial) publishing
  have again := reaches_under_run publishes_in_time_of_check
    (reaches_release_all releasing begun) draining
  exact reaches_under_run publishes_in_time_of_check (reaches_release_all leaving again) run

end MarketDataEngine.EngineV2

namespace MarketDataEngine.Engine

open MarketDataEngine.Protocol MarketDataEngine.TransitionSystem

set_option autoImplicit false

/-- For both engines: in every run whose publications come in time, `stop()`
leaves every obtained datagram counted and the ready ring empty. -/
theorem stop_loses_nothing_in_time (order : ByteOrder) :
    (∀ state : EngineV1.QueueState order EngineV1.kPoolCapacity,
      ReachesUnder (EngineV1.queueSystem order EngineV1.kPoolCapacity)
        EngineV1.PublishesInTime state →
      EngineV1.Stopped state → EngineV1.NothingLost state) ∧
    (∀ state : EngineV2.QueueState order EngineV2.kPoolCapacity,
      ReachesUnder (EngineV2.queueSystem order EngineV2.kPoolCapacity)
        EngineV2.PublishesInTime state →
      EngineV2.Stopped state → EngineV2.NothingLost state) := by
  refine ⟨?_, ?_⟩
  · intro state reached stopped
    exact EngineV1.nothing_lost_of_in_time reached stopped
  · intro state reached stopped
    exact EngineV2.nothing_lost_of_in_time reached stopped

theorem orderly_stop_loses_nothing :
    (∃ state, EngineV1.orderlyRun = some state ∧ EngineV1.NothingLost state ∧
      state.memory.session.metrics.settled = 1) ∧
    (∃ state, EngineV2.orderlyRun EngineV2.freshQueues = some state ∧
      EngineV2.NothingLost state ∧ state.memory.session.metrics.settled = 1) := by
  have law := stop_loses_nothing_in_time .little
  refine ⟨?_, ?_⟩
  · have outcome : EngineV1.orderlyRun.map EngineV1.summary = some (true, 0, 1) := by
      decide +kernel
    obtain ⟨state, run, seen⟩ := Option.map_eq_some_iff.mp outcome
    have reached : ReachesUnder (EngineV1.queueSystem .little EngineV1.kPoolCapacity)
        EngineV1.PublishesInTime state := by
      unfold EngineV1.orderlyRun at run
      exact reaches_under_run EngineV1.publishes_in_time_of_check
        (.start EngineV1.fresh_queues_start) run
    exact ⟨state, run, law.1 state reached (EngineV1.stopped_of_summary seen),
      congrArg (fun summary => summary.2.2) seen⟩
  · have outcome : (EngineV2.orderlyRun EngineV2.freshQueues).map EngineV2.summary =
        some (true, 0, 1) := by
      decide +kernel
    obtain ⟨state, run, seen⟩ := Option.map_eq_some_iff.mp outcome
    exact ⟨state, run, law.2 state (EngineV2.orderly_run_reached EngineV2.fresh_queues_start run)
      (EngineV2.stopped_of_summary seen), congrArg (fun summary => summary.2.2) seen⟩

/-- Engine v1 loses a datagram that is published after the consumer has left;
engine v2 loses one that was received before the flag went down. -/
theorem stop_can_lose_a_datagram :
    (∃ state, Reaches (EngineV1.queueSystem .little EngineV1.kPoolCapacity) state ∧
      EngineV1.Stopped state ∧ ¬ EngineV1.NothingLost state) ∧
    (∃ state, Reaches (EngineV2.queueSystem .little EngineV2.kPoolCapacity) state ∧
      EngineV2.Stopped state ∧ ¬ EngineV2.NothingLost state) := by
  refine ⟨?_, ?_⟩
  · have outcome : EngineV1.lateRun.map EngineV1.summary = some (true, 1, 0) := by
      decide +kernel
    obtain ⟨state, run, seen⟩ := Option.map_eq_some_iff.mp outcome
    refine ⟨state, reaches_run (reaches_start EngineV1.fresh_queues_start) run,
      EngineV1.stopped_of_summary seen, ?_⟩
    intro kept
    have queued : (state.queue .ready).length = 1 :=
      congrArg (fun summary => summary.2.1) seen
    rw [kept.2] at queued
    cases queued
  · have outcome : EngineV2.abandonRun.map (fun state =>
        (EngineV2.summary state, state.memory.obtained.length)) =
          some ((true, 0, 0), 1) := by
      decide +kernel
    obtain ⟨state, run, seen⟩ := Option.map_eq_some_iff.mp outcome
    obtain ⟨summary, obtained⟩ := Prod.mk.inj seen
    refine ⟨state, reaches_run (reaches_start EngineV2.fresh_queues_start) run,
      EngineV2.stopped_of_summary summary, ?_⟩
    intro kept
    have settled : state.memory.session.metrics.settled = 0 :=
      congrArg (fun summary => summary.2.2) summary
    have counted : state.memory.session.metrics.settled =
        UInt64.ofNat state.memory.obtained.length := kept.1
    rw [settled, obtained] at counted
    exact absurd counted (by decide)

end MarketDataEngine.Engine
