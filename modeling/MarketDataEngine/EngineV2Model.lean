import MarketDataEngine.FramePool
import MarketDataEngine.MessageStage
import MarketDataEngine.UdpReceiver

/-!
# Engine v2: `io_loop`, `process` and `stop()`

The I/O thread reserves slots from the free ring, lets the receiver fill them,
publishes the filled ones and gives the unused ones back. The consumer takes
batches from the ready ring and recycles their slots. Both threads push to the
free ring.

A location is a point of the source between two accesses to something shared,
with the locals that are still needed there. A push whose result the source
ignores has a location of its own behind it that remembers the result. One call
of the receiver is one step. The reporter thread is left out, and a call of
`record_latency` is kept as an entry of a list.
-/

namespace MarketDataEngine.EngineV2

open MarketDataEngine.Protocol MarketDataEngine.Containers MarketDataEngine.Engine
open MarketDataEngine.Net MarketDataEngine.TransitionSystem
open MarketDataEngine.SteppedObject

set_option autoImplicit false

def kBatch : Nat := 32

inductive Input where
  | tick
  | epoll (created : Bool) (waits : List EpollWaitReply)
      (replies : List RecvmmsgReply)
  | recv (replies : List RecvmmsgReply)
  | clock (now : UInt64)

inductive Thread where
  | io
  | consumer
  | control
  deriving DecidableEq

/-- The two places that reserve and receive: at the top of the outer loop and
while draining the socket. -/
inductive Site where
  | outer
  | drain
  deriving DecidableEq

/-- The locals of `publish_batch`: the frames still to be published, each with
its index, and the reserved indices that no frame was received into. -/
structure Publishing where
  receivedNs : UInt64
  frames : List (Nat × RxFrame)
  unused : List Nat

/-- What follows a `release_reserved`. -/
inductive AfterRelease where
  | resume
  | epollFailed
  | published
  | drainFailed
  deriving DecidableEq

inductive IoLocation where
  | loopTest
  | reserve (site : Site) (indices : List Nat)
  | reserved (site : Site) (indices : List Nat)
  | receive (site : Site) (indices : List Nat)
  | batchTest (frames : List (Nat × RxFrame)) (unused : List Nat)
  | clock (frames : List (Nat × RxFrame)) (unused : List Nat)
  | publish (batch : Publishing)
  | stamp (idx : Nat) (batch : Publishing)
  | readyPush (idx : Nat) (batch : Publishing)
  | dropCount (refused : Bool) (idx : Nat) (batch : Publishing)
  | dropClear (refused : Bool) (idx : Nat) (batch : Publishing)
  | dropReturn (refused : Bool) (idx : Nat) (batch : Publishing)
  | dropReturned (ok : Bool) (batch : Publishing)
  | release (after : AfterRelease) (indices : List Nat)
  | released (ok : Bool) (after : AfterRelease) (indices : List Nat)
  | epollErrorTest
  | drainErrorTest
  | lateErrorTest
  | errorStore
  | leave
  | finished

/-- The locals of the consumer inside a batch: the indices done with, the current
one and those still to be looked at. -/
structure Working where
  done : List Nat
  idx : Nat
  rest : List Nat

inductive ConsumerLocation where
  | loopTest
  | emptyTest
  | collect (indices : List Nat)
  | collected (indices : List Nat)
  | stage (work : Working) (point : StagePoint)
  | exchange (work : Working)
  | clock (startNs : UInt64) (work : Working)
  | recycle (indices : List Nat)
  | recycled (ok : Bool) (indices : List Nat)
  | leave
  | finished

/-- The point of the stage the consumer has reached, inside one. -/
def ConsumerLocation.point : ConsumerLocation → Option StagePoint
  | .stage _ point => some point
  | _ => none

inductive ControlLocation where
  | clearRunning
  | closeReceiver
  | joinIo
  | joinConsumer
  | returned
  deriving DecidableEq

/-- What the threads share besides the two rings. `obtained` lists the frames
`recvmmsg` returned; `abandonedFrames` and `abandonedIndices` list what the I/O
thread forgot when it left the inner loop with a batch in its hands. These three
and `latencies` are histories. -/
structure Memory where
  running : Bool
  receiver : Receiver
  slots : Nat → Frame
  recvReadyNs : Nat → UInt64
  session : Session
  ioDone : Bool
  consumerDone : Bool
  latencies : List (Nat × UInt64)
  obtained : List RxFrame
  abandonedFrames : List RxFrame
  abandonedIndices : List Nat

/-- The kernel writes a received datagram into the slot its frame points at. -/
def fillSlots (slots : Nat → Frame) (frames : List (Nat × RxFrame)) : Nat → Frame :=
  frames.foldl (fun current entry => Function.update current entry.1 entry.2.slot)
    slots

namespace Memory

def dropOne (memory : Memory) : Memory :=
  { memory with session := memory.session.dropOne }

def stamp (memory : Memory) (idx : Nat) (ns : UInt64) : Memory :=
  { memory with recvReadyNs := Function.update memory.recvReadyNs idx ns }

def received (memory : Memory) (receiver : Receiver)
    (frames : List (Nat × RxFrame)) : Memory :=
  { memory with
    receiver := receiver
    slots := fillSlots memory.slots frames
    obtained := memory.obtained ++ frames.map Prod.snd }

def abandon (memory : Memory) (frames : List (Nat × RxFrame)) (unused : List Nat) :
    Memory :=
  { memory with
    abandonedFrames := memory.abandonedFrames ++ frames.map Prod.snd
    abandonedIndices := memory.abandonedIndices ++ frames.map Prod.fst ++ unused }

def stop (memory : Memory) : Memory := { memory with running := false }

end Memory

abbrev EngineAction (Location : Type) :=
  Action PoolCall RingRet Memory Input Location

/-! ## The I/O thread -/

def reserveReturned (site : Site) (indices : List Nat) (result : Option Nat) :
    IoLocation :=
  match result with
  | some idx => .reserve site (indices ++ [idx])
  | none => .reserved site indices

/-- `if (reserved == 0)`. In the inner loop its `break` passes both error tests,
which see neither `receive_error` nor a negative `n`. -/
def reservedNext (site : Site) (indices : List Nat) : IoLocation :=
  if indices.isEmpty then .loopTest else .receive site indices

/-- The three outcomes of a receive; frame `i` was received into `indices[i]`. -/
def receiveReturned (memory : Memory) (site : Site) (indices : List Nat) :
    Receiver × RxResult → Memory × IoLocation
  | (receiver, .nothing) =>
      ({ memory with receiver := receiver }, .release .resume indices)
  | (receiver, .failed) =>
      ({ memory with receiver := receiver },
        .release (match site with
          | .outer => .epollFailed
          | .drain => .drainFailed) indices)
  | (receiver, .frames first rest) =>
      let frames := indices.zip (first :: rest)
      (memory.received receiver frames,
        .batchTest frames (indices.drop (first :: rest).length))

def publishNext (batch : Publishing) : IoLocation :=
  match batch.frames with
  | [] => .release .published batch.unused
  | (idx, frame) :: rest =>
      if frame.truncated || frame.len != kWireSize then
        .dropCount false idx { batch with frames := rest }
      else .stamp idx { batch with frames := rest }

def readyReturned (idx : Nat) (batch : Publishing) (ok : Bool) : IoLocation :=
  if ok then .publish batch else .dropCount true idx batch

def releaseNext (after : AfterRelease) : IoLocation :=
  match after with
  | .resume => .loopTest
  | .epollFailed => .epollErrorTest
  | .published => .reserve .drain []
  | .drainFailed => .drainErrorTest

def ioAction : IoLocation → EngineAction IoLocation
  | .loopTest => .memory fun memory _ =>
      some (memory, if memory.running then .reserve .outer [] else .leave)
  | .reserve site indices =>
      if indices.length < kBatch then
        .call (.pop .free) (reserveReturned site indices)
      else .memory fun memory _ => some (memory, .reserved site indices)
  | .reserved site indices => .memory fun memory _ =>
      some (memory, reservedNext site indices)
  | .receive .outer indices => .memory fun memory input =>
      match input with
      | .epoll created waits replies =>
          (memory.receiver.epollReceive indices.length created waits replies).map
            (receiveReturned memory .outer indices)
      | _ => none
  | .receive .drain indices => .memory fun memory input =>
      match input with
      | .recv replies =>
          (memory.receiver.receiveBatch indices.length replies).map
            (receiveReturned memory .drain indices)
      | _ => none
  | .batchTest frames unused => .memory fun memory _ =>
      -- `n > 0` holds here on both ways in.
      if memory.running then some (memory, .clock frames unused)
      else some (memory.abandon frames unused, .loopTest)
  | .clock frames unused => .memory fun memory input =>
      match input with
      | .clock now => some (memory, .publish ⟨now, frames, unused⟩)
      | _ => none
  | .publish batch => .memory fun memory _ => some (memory, publishNext batch)
  | .stamp idx batch => .memory fun memory _ =>
      some (memory.stamp idx batch.receivedNs, .readyPush idx batch)
  | .readyPush idx batch => .call (.push .ready idx) (readyReturned idx batch)
  | .dropCount refused idx batch => .memory fun memory _ =>
      some (memory.dropOne, .dropClear refused idx batch)
  | .dropClear refused idx batch => .memory fun memory _ =>
      some (memory.stamp idx 0, .dropReturn refused idx batch)
  | .dropReturn _ idx batch => .call (.push .free idx) fun ok => .dropReturned ok batch
  | .dropReturned _ batch => .memory fun memory _ => some (memory, .publish batch)
  | .release after [] => .memory fun memory _ => some (memory, releaseNext after)
  | .release after (idx :: rest) => .call (.push .free idx) fun ok =>
      .released ok after rest
  | .released _ after indices => .memory fun memory _ =>
      some (memory, .release after indices)
  | .epollErrorTest => .memory fun memory _ =>
      some (memory, if memory.running then .errorStore else .leave)
  | .drainErrorTest => .memory fun memory _ =>
      some (memory, if memory.running then .errorStore else .lateErrorTest)
  | .lateErrorTest => .memory fun memory _ =>
      -- `n < 0` still holds, so `running_` is read a second time.
      some (memory, if memory.running then .errorStore else .loopTest)
  | .errorStore => .memory fun memory _ => some (memory.stop, .leave)
  | .leave => .memory fun memory _ => some ({ memory with ioDone := true }, .finished)
  | .finished => .halt

/-! ## The consumer thread -/

def collectReturned (indices : List Nat) (result : Option Nat) : ConsumerLocation :=
  match result with
  | some idx => .collect (indices ++ [idx])
  | none => .collected indices

def collectedNext (indices : List Nat) : ConsumerLocation :=
  match indices with
  | [] => .loopTest
  | idx :: rest => .stage ⟨[], idx, rest⟩ .decode

def stageNext (order : ByteOrder) (work : Working) (point : StagePoint)
    (memory : Memory) : Memory × ConsumerLocation :=
  let result := stageStep order (memory.slots work.idx) memory.session point
  ({ memory with session := result.1 },
    match result.2 with
    | some later => .stage work later
    | none => .exchange work)

def workNext (work : Working) : ConsumerLocation :=
  match work.rest with
  | [] => .recycle (work.done ++ [work.idx])
  | idx :: rest => .stage ⟨work.done ++ [work.idx], idx, rest⟩ .decode

def recordLatency (memory : Memory) (idx : Nat) (startNs endNs : UInt64) : Memory :=
  if startNs ≠ 0 ∧ startNs ≤ endNs then
    { memory with latencies := memory.latencies ++ [(idx, endNs - startNs)] }
  else memory

def emptyReturned (isEmpty : Bool) : ConsumerLocation :=
  if isEmpty then .leave else .collect []

def consumerAction (order : ByteOrder) :
    ConsumerLocation → EngineAction ConsumerLocation
  | .loopTest => .memory fun memory _ =>
      some (memory, if memory.running then .collect [] else .emptyTest)
  | .emptyTest => .call (.empty .ready) emptyReturned
  | .collect indices =>
      if indices.length < kBatch then
        .call (.pop .ready) (collectReturned indices)
      else .memory fun memory _ => some (memory, .collected indices)
  | .collected indices => .memory fun memory _ => some (memory, collectedNext indices)
  | .stage work point => .memory fun memory _ => some (stageNext order work point memory)
  | .exchange work => .memory fun memory _ =>
      some (memory.stamp work.idx 0, .clock (memory.recvReadyNs work.idx) work)
  | .clock startNs work => .memory fun memory input =>
      match input with
      | .clock now => some (recordLatency memory work.idx startNs now, workNext work)
      | _ => none
  | .recycle [] => .memory fun memory _ => some (memory, .loopTest)
  | .recycle (idx :: rest) => .call (.push .free idx) fun ok => .recycled ok rest
  | .recycled _ indices => .memory fun memory _ => some (memory, .recycle indices)
  | .leave => .memory fun memory _ =>
      some ({ memory with consumerDone := true }, .finished)
  | .finished => .halt

/-- `stop()` up to the join of the reporter and the release of the pool. -/
def controlAction : ControlLocation → EngineAction ControlLocation
  | .clearRunning => .memory fun memory _ => some (memory.stop, .closeReceiver)
  | .closeReceiver => .memory fun memory _ =>
      some ({ memory with receiver := memory.receiver.close }, .joinIo)
  | .joinIo => .memory fun memory _ =>
      if memory.ioDone then some (memory, .joinConsumer) else none
  | .joinConsumer => .memory fun memory _ =>
      if memory.consumerDone then some (memory, .returned) else none
  | .returned => .halt

/-! ## The engine -/

def Location : Thread → Type
  | .io => IoLocation
  | .consumer => ConsumerLocation
  | .control => ControlLocation

def program (order : ByteOrder) : Program Thread PoolCall RingRet Memory Input where
  Location := Location
  action
    | .io, location => ioAction location
    | .consumer, location => consumerAction order location
    | .control, location => controlAction location

def kPoolCapacity : Capacity := ⟨16384, by decide, by decide, by decide⟩

/-- The state with every access to the rings a step of its own. -/
abbrev State (order : ByteOrder) (capacity : Capacity) :=
  FineState (ringObject PoolRing Nat capacity) (program order)

/-- The state with every ring operation one step. -/
abbrev QueueState (order : ByteOrder) (capacity : Capacity) :=
  AtomicState (fifoObject PoolRing Nat capacity) (program order)

variable {order : ByteOrder} {capacity : Capacity}

namespace State

variable (state : State order capacity)

def io : IoLocation := state.location .io

def consumer : ConsumerLocation := state.location .consumer

def control : ControlLocation := state.location .control

def ring (name : PoolRing) : RingBuffer Nat capacity := state.shared name

end State

namespace QueueState

variable (state : QueueState order capacity)

def io : IoLocation := state.location .io

def consumer : ConsumerLocation := state.location .consumer

def control : ControlLocation := state.location .control

def queue (name : PoolRing) : List Nat := state.shared name

end QueueState

/-- The memory right after `receive()` has started its threads: the slots may
hold anything. -/
def startMemory (slots : Nat → Frame) : Memory where
  running := true
  receiver := ⟨true, false, ⟨0, 0, 0, 0⟩⟩
  slots := slots
  recvReadyNs := fun _ => 0
  session := .fresh
  ioDone := false
  consumerDone := false
  latencies := []
  obtained := []
  abandonedFrames := []
  abandonedIndices := []

/-- The threads start after `FramePool::init`, on a pool that held anything. -/
def Start (state : State order capacity) : Prop :=
  (∃ rings, state.ring = FramePool.initRings rings) ∧
    (∃ slots, state.memory = startMemory slots) ∧
    state.io = .loopTest ∧ state.consumer = .loopTest ∧
    state.control = .clearRunning ∧ ∀ thread, state.pc thread = none

def QueueStart (state : QueueState order capacity) : Prop :=
  state.queue .free = List.range capacity.val ∧ state.queue .ready = [] ∧
    (∃ slots, state.memory = startMemory slots) ∧
    state.io = .loopTest ∧ state.consumer = .loopTest ∧
    state.control = .clearRunning

def system (order : ByteOrder) (capacity : Capacity) :
    System (State order capacity) (Thread × Input) :=
  fineSystem (program order) Start

def queueSystem (order : ByteOrder) (capacity : Capacity) :
    System (QueueState order capacity) (Thread × Input) :=
  atomicSystem (program order) QueueStart

/-- Steps of one thread in a row that the environment has no say in. -/
def ticks (thread : Thread) (count : Nat) : List (Thread × Input) :=
  List.replicate count (thread, .tick)

/-- `epoll_receive` returns one full frame. -/
def oneFrame : List (Thread × Input) :=
  [(.io, .epoll true [.ready false]
    [.frames ⟨kWireSize, false, Vector.replicate kWireSize 7⟩ []])]

def clockRead (thread : Thread) (now : UInt64) : List (Thread × Input) :=
  [(thread, .clock now)]

/-- A step over the queues moves exactly one thread, by its own action. -/
inductive Moves (state next : QueueState order capacity) :
    Thread × Input → Prop where
  | io {input : Input}
      (step : queueStep capacity (ioAction state.io) state.queue state.memory input =
        some (next.queue, next.memory, next.io))
      (consumer : next.consumer = state.consumer)
      (control : next.control = state.control) : Moves state next (.io, input)
  | consumer {input : Input}
      (step : queueStep capacity (consumerAction order state.consumer) state.queue
        state.memory input = some (next.queue, next.memory, next.consumer))
      (io : next.io = state.io)
      (control : next.control = state.control) : Moves state next (.consumer, input)
  | control {input : Input}
      (step : queueStep capacity (controlAction state.control) state.queue
        state.memory input = some (next.queue, next.memory, next.control))
      (io : next.io = state.io)
      (consumer : next.consumer = state.consumer) : Moves state next (.control, input)

/-- Whatever the kernel answers, a receive accounts for its frames. -/
theorem receive_step_cases {site : Site} {indices : List Nat}
    {queues nextQueues : PoolRing → List Nat} {memory after : Memory} {input : Input}
    {next : IoLocation}
    (step : queueStep capacity (ioAction (.receive site indices)) queues memory input =
      some (nextQueues, after, next)) :
    nextQueues = queues ∧ ∃ outcome,
      Receiver.Accounts indices.length memory.receiver outcome ∧
        receiveReturned memory site indices outcome = (after, next) := by
  cases site with
  | outer =>
      cases input with
      | epoll created waits replies =>
          obtain ⟨moved, called, same⟩ := Option.map_eq_some_iff.mp step
          obtain ⟨outcome, returned, rfl⟩ := Option.map_eq_some_iff.mp called
          cases same
          exact ⟨rfl, outcome, Receiver.epoll_receive_accounts returned, rfl⟩
      | _ => cases step
  | drain =>
      cases input with
      | recv replies =>
          obtain ⟨moved, called, same⟩ := Option.map_eq_some_iff.mp step
          obtain ⟨outcome, returned, rfl⟩ := Option.map_eq_some_iff.mp called
          cases same
          exact ⟨rfl, outcome, Receiver.receive_batch_accounts returned, rfl⟩
      | _ => cases step

theorem moves_of_step {state next : QueueState order capacity}
    {label : Thread × Input}
    (taken : atomicStep (program order) state label = some next) :
    Moves state next label := by
  obtain ⟨thread, input⟩ := label
  obtain ⟨location, step, moved⟩ := atomic_step_eq_some _ taken
  have at_ : ∀ other, next.location other =
      Function.update state.location thread location other := fun other =>
    congrFun moved other
  cases thread with
  | io =>
      refine .io ?_ (at_ .consumer) (at_ .control)
      rw [show next.io = location from at_ .io]
      exact step
  | consumer =>
      refine .consumer ?_ (at_ .io) (at_ .control)
      rw [show next.consumer = location from at_ .consumer]
      exact step
  | control =>
      refine .control ?_ (at_ .io) (at_ .consumer)
      rw [show next.control = location from at_ .control]
      exact step

end MarketDataEngine.EngineV2
