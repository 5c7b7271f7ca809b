import MarketDataEngine.FramePool
import MarketDataEngine.MessageStage

/-!
# Engine v1: the UDP server loop, the consumer loop and `stop()`

Three threads over one frame pool. The server thread is the loop of
`net::udp::run_server_loop` from its first test of `handle.running`; the
consumer thread is `process_loop`; the control thread is one call of `stop()`.
The reporter thread only reads and is left out.

A location is a point of the source between two accesses to something shared,
together with the locals that are still needed there. The environment chooses
what `epoll_wait` and `recvmmsg` answer; the answers are the input of a step.
-/

namespace MarketDataEngine.EngineV1

open MarketDataEngine.Protocol MarketDataEngine.Containers MarketDataEngine.Engine
open MarketDataEngine.TransitionSystem MarketDataEngine.SteppedObject

set_option autoImplicit false

/-- The payload of one UDP datagram. -/
abbrev Datagram := List UInt8

def kBufSize : Nat := 2048

def kBatch : Nat := 32

def kMaxEvents : Nat := 32

/-- `recvmmsg` reports the bytes it stored and flags a datagram that was longer
than its buffer. -/
def msgLen (datagram : Datagram) : Nat := min datagram.length kBufSize

def truncated (datagram : Datagram) : Bool := decide (kBufSize < datagram.length)

/-- The first 44 bytes of the receive buffer; bytes the datagram did not reach
are never copied, because only full-length datagrams are. -/
def bufferFrame (datagram : Datagram) : Frame :=
  Vector.ofFn fun position => datagram.getD position.val 0

inductive SocketEvent where
  | wake
  | socket (failed : Bool)
  | other
  deriving DecidableEq

inductive EpollReply where
  | failed
  | interrupted
  | timeout
  | events (first : SocketEvent) (rest : List SocketEvent)

inductive RecvReply where
  | failed
  | interrupted
  | again
  | nothing
  | batch (first : Datagram) (rest : List Datagram)

inductive Input where
  | tick
  | epoll (reply : EpollReply)
  | recv (reply : RecvReply)

inductive Thread where
  | server
  | consumer
  | control
  deriving DecidableEq

/-- Points of the server thread. `events` are those of the current
`epoll_wait` still to be handled, `batch` the datagrams of the current
`recvmmsg` still to be handled. -/
inductive ServerLocation where
  | loopTest
  | wait
  | dispatch (events : List SocketEvent)
  | receive (events : List SocketEvent)
  | inspect (events : List SocketEvent) (batch : List Datagram)
  | dropInvalid (events : List SocketEvent) (batch : List Datagram)
  | takeSlot (events : List SocketEvent) (datagram : Datagram)
      (batch : List Datagram)
  | dropNoSlot (events : List SocketEvent) (batch : List Datagram)
  | copySlot (events : List SocketEvent) (idx : Nat) (datagram : Datagram)
      (batch : List Datagram)
  | publish (events : List SocketEvent) (idx : Nat) (batch : List Datagram)
  | dropRefused (events : List SocketEvent) (idx : Nat) (batch : List Datagram)
  | giveBack (events : List SocketEvent) (idx : Nat) (batch : List Datagram)
  | leave
  | finished

/-- Points of the consumer thread. `recycled` remembers the result of
`free.push`, which the source ignores. -/
inductive ConsumerLocation where
  | loopTest
  | emptyTest
  | take
  | stage (idx : Nat) (point : StagePoint)
  | recycle (idx : Nat)
  | recycled (ok : Bool)
  | leave
  | finished

/-- The point of the stage the consumer has reached, inside one. -/
def ConsumerLocation.point : ConsumerLocation → Option StagePoint
  | .stage _ point => some point
  | _ => none

inductive ControlLocation where
  | clearRunning
  | exchange
  | wake
  | joinServer
  | joinConsumer
  | returned
  deriving DecidableEq

/-- What the threads share besides the two rings. `obtained` lists the datagrams
`recvmmsg` returned and `accepted` those copied into a slot; both are histories. -/
structure Memory where
  running : Bool
  handleRunning : Bool
  wakePending : Bool
  slots : Nat → Frame
  session : Session
  serverDone : Bool
  consumerDone : Bool
  obtained : List Datagram
  accepted : List Datagram

namespace Memory

def dropOne (memory : Memory) : Memory :=
  { memory with session := memory.session.dropOne }

def copy (memory : Memory) (idx : Nat) (datagram : Datagram) : Memory :=
  { memory with
    slots := Function.update memory.slots idx (bufferFrame datagram)
    accepted := memory.accepted ++ [datagram] }

end Memory

abbrev EngineAction (Location : Type) :=
  Action PoolCall RingRet Memory Input Location

/-- Entering the body of `for (i < nfd)` for the next event. -/
def dispatchNext (memory : Memory) : List SocketEvent → Memory × ServerLocation
  | [] => (memory, .loopTest)
  | .wake :: rest =>
      ({ memory with wakePending := false, handleRunning := false }, .dispatch rest)
  | .other :: rest => (memory, .dispatch rest)
  | .socket true :: _ => ({ memory with handleRunning := false }, .loopTest)
  | .socket false :: rest => (memory, .receive rest)

/-- `epoll_wait` returns at most `MAXEV` events, and the eventfd is readable only
after `stop_server` has written it. -/
def eventsPossible (memory : Memory) (events : List SocketEvent) : Bool :=
  decide (events.length ≤ kMaxEvents) &&
    (memory.wakePending || !decide (.wake ∈ events))

def receiveReply (memory : Memory) (events : List SocketEvent) :
    RecvReply → Option (Memory × ServerLocation)
  | .batch first rest =>
      if (first :: rest).length ≤ kBatch then
        some ({ memory with obtained := memory.obtained ++ first :: rest },
          .inspect events (first :: rest))
      else none
  | .interrupted => some (memory, .receive events)
  | .again => some (memory, .dispatch events)
  | .failed => some (memory, .dispatch events)
  | .nothing => some (memory, .dispatch events)

/-- Entering the body of `for (j < n)` for the next datagram; after the last one
`recvmmsg` is called again. -/
def inspectNext (events : List SocketEvent) : List Datagram → ServerLocation
  | [] => .receive events
  | datagram :: batch =>
      if truncated datagram || msgLen datagram != kWireSize then
        .dropInvalid events batch
      else .takeSlot events datagram batch

def takeReturned (events : List SocketEvent) (datagram : Datagram)
    (batch : List Datagram) (result : Option Nat) : ServerLocation :=
  match result with
  | some idx => .copySlot events idx datagram batch
  | none => .dropNoSlot events batch

def publishReturned (events : List SocketEvent) (idx : Nat) (batch : List Datagram)
    (ok : Bool) : ServerLocation :=
  if ok then .inspect events batch else .dropRefused events idx batch

def serverAction : ServerLocation → EngineAction ServerLocation
  | .loopTest => .memory fun memory _ =>
      some (memory, if memory.handleRunning then .wait else .leave)
  | .wait => .memory fun memory input =>
      match input with
      | .epoll .failed => some (memory, .leave)
      | .epoll .interrupted => some (memory, .loopTest)
      | .epoll .timeout => some (memory, .loopTest)
      | .epoll (.events first rest) =>
          if eventsPossible memory (first :: rest) then
            some (memory, .dispatch (first :: rest))
          else none
      | _ => none
  | .dispatch events => .memory fun memory _ =>
      some (dispatchNext memory events)
  | .receive events => .memory fun memory input =>
      match input with
      | .recv reply => receiveReply memory events reply
      | _ => none
  | .inspect events batch => .memory fun memory _ =>
      some (memory, inspectNext events batch)
  | .dropInvalid events batch => .memory fun memory _ =>
      some (memory.dropOne, .inspect events batch)
  | .takeSlot events datagram batch =>
      .call (.pop .free) (takeReturned events datagram batch)
  | .dropNoSlot events batch => .memory fun memory _ =>
      some (memory.dropOne, .inspect events batch)
  | .copySlot events idx datagram batch => .memory fun memory _ =>
      some (memory.copy idx datagram, .publish events idx batch)
  | .publish events idx batch =>
      .call (.push .ready idx) (publishReturned events idx batch)
  | .dropRefused events idx batch => .memory fun memory _ =>
      some (memory.dropOne, .giveBack events idx batch)
  | .giveBack events idx batch =>
      .call (.push .free idx) fun _ => .inspect events batch
  | .leave => .memory fun memory _ =>
      some ({ memory with serverDone := true }, .finished)
  | .finished => .halt

/-- The step of the stage on the slot the consumer holds. -/
def stageNext (order : ByteOrder) (idx : Nat) (point : StagePoint)
    (memory : Memory) : Memory × ConsumerLocation :=
  let result := stageStep order (memory.slots idx) memory.session point
  ({ memory with session := result.1 },
    match result.2 with
    | some later => .stage idx later
    | none => .recycle idx)

def popReturned (result : Option Nat) : ConsumerLocation :=
  match result with
  | some idx => .stage idx .decode
  | none => .loopTest

def emptyReturned (isEmpty : Bool) : ConsumerLocation :=
  if isEmpty then .leave else .take

def consumerAction (order : ByteOrder) :
    ConsumerLocation → EngineAction ConsumerLocation
  | .loopTest => .memory fun memory _ =>
      some (memory, if memory.running then .take else .emptyTest)
  | .emptyTest => .call (.empty .ready) emptyReturned
  | .take => .call (.pop .ready) popReturned
  | .stage idx point => .memory fun memory _ => some (stageNext order idx point memory)
  | .recycle idx => .call (.push .free idx) fun ok => .recycled ok
  | .recycled _ => .memory fun memory _ => some (memory, .loopTest)
  | .leave => .memory fun memory _ =>
      some ({ memory with consumerDone := true }, .finished)
  | .finished => .halt

/-- `stop()` with `stop_server` inlined, up to the join of the reporter. A join waits until its
thread is done; `stop_server` returns early if the handle was already stopped. -/
def controlAction : ControlLocation → EngineAction ControlLocation
  | .clearRunning => .memory fun memory _ =>
      some ({ memory with running := false }, .exchange)
  | .exchange => .memory fun memory _ =>
      some ({ memory with handleRunning := false },
        if memory.handleRunning then .wake else .joinConsumer)
  | .wake => .memory fun memory _ =>
      some ({ memory with wakePending := true }, .joinServer)
  | .joinServer => .memory fun memory _ =>
      if memory.serverDone then some (memory, .joinConsumer) else none
  | .joinConsumer => .memory fun memory _ =>
      if memory.consumerDone then some (memory, .returned) else none
  | .returned => .halt

def Location : Thread → Type
  | .server => ServerLocation
  | .consumer => ConsumerLocation
  | .control => ControlLocation

def program (order : ByteOrder) : Program Thread PoolCall RingRet Memory Input where
  Location := Location
  action
    | .server, location => serverAction location
    | .consumer, location => consumerAction order location
    | .control, location => controlAction location

def kPoolCapacity : Capacity := ⟨4096, by decide, by decide, by decide⟩

/-- The state with every access to the rings a step of its own. -/
abbrev State (order : ByteOrder) (capacity : Capacity) :=
  FineState (ringObject PoolRing Nat capacity) (program order)

/-- The state with every ring operation one step. -/
abbrev QueueState (order : ByteOrder) (capacity : Capacity) :=
  AtomicState (fifoObject PoolRing Nat capacity) (program order)

variable {order : ByteOrder} {capacity : Capacity}

namespace State

variable (state : State order capacity)

def server : ServerLocation := state.location .server

def consumer : ConsumerLocation := state.location .consumer

def control : ControlLocation := state.location .control

def ring (name : PoolRing) : RingBuffer Nat capacity := state.shared name

end State

namespace QueueState

variable (state : QueueState order capacity)

def server : ServerLocation := state.location .server

def consumer : ConsumerLocation := state.location .consumer

def control : ControlLocation := state.location .control

def queue (name : PoolRing) : List Nat := state.shared name

end QueueState

/-- The memory right after `run()`: the slots may hold anything. -/
def startMemory (slots : Nat → Frame) : Memory where
  running := true
  handleRunning := true
  wakePending := false
  slots := slots
  session := .fresh
  serverDone := false
  consumerDone := false
  obtained := []
  accepted := []

/-- The threads start after `pool_.init()`, on a pool that held anything. -/
def Start (state : State order capacity) : Prop :=
  (∃ rings, state.ring = FramePool.initRings rings) ∧
    (∃ slots, state.memory = startMemory slots) ∧
    state.server = .loopTest ∧ state.consumer = .loopTest ∧
    state.control = .clearRunning ∧ ∀ thread, state.pc thread = none

def QueueStart (state : QueueState order capacity) : Prop :=
  state.queue .free = List.range capacity.val ∧ state.queue .ready = [] ∧
    (∃ slots, state.memory = startMemory slots) ∧
    state.server = .loopTest ∧ state.consumer = .loopTest ∧
    state.control = .clearRunning

def system (order : ByteOrder) (capacity : Capacity) :
    System (State order capacity) (Thread × Input) :=
  fineSystem (program order) Start

def queueSystem (order : ByteOrder) (capacity : Capacity) :
    System (QueueState order capacity) (Thread × Input) :=
  atomicSystem (program order) QueueStart

/-- Steps of one thread in a row that the environment has no say in. -/
def ticks (thread : Thread) (count : Nat) : List (Thread × Input) :=
  List.replicate count (thread, .tick)

def epollReply (reply : EpollReply) : List (Thread × Input) := [(.server, .epoll reply)]

def recvReply (reply : RecvReply) : List (Thread × Input) := [(.server, .recv reply)]

/-! ## One thread at a time -/

/-- A step over the queues moves exactly one thread, by its own action. -/
inductive Moves (state next : QueueState order capacity) :
    Thread × Input → Prop where
  | server {input : Input}
      (step : queueStep capacity (serverAction state.server) state.queue
        state.memory input = some (next.queue, next.memory, next.server))
      (consumer : next.consumer = state.consumer)
      (control : next.control = state.control) : Moves state next (.server, input)
  | consumer {input : Input}
      (step : queueStep capacity (consumerAction order state.consumer) state.queue
        state.memory input = some (next.queue, next.memory, next.consumer))
      (server : next.server = state.server)
      (control : next.control = state.control) : Moves state next (.consumer, input)
  | control {input : Input}
      (step : queueStep capacity (controlAction state.control) state.queue
        state.memory input = some (next.queue, next.memory, next.control))
      (server : next.server = state.server)
      (consumer : next.consumer = state.consumer) : Moves state next (.control, input)

theorem moves_of_step {state next : QueueState order capacity}
    {label : Thread × Input}
    (taken : atomicStep (program order) state label = some next) :
    Moves state next label := by
  obtain ⟨thread, input⟩ := label
  obtain ⟨location, step, moved⟩ := atomic_step_eq_some _ taken
  have at_ : ∀ other, next.location other =
      Function.update state.location thread location other := fun other =>
    congrFun moved other
  cases thread with
  | server =>
      refine .server ?_ (at_ .consumer) (at_ .control)
      rw [show next.server = location from at_ .server]
      exact step
  | consumer =>
      refine .consumer ?_ (at_ .server) (at_ .control)
      rw [show next.consumer = location from at_ .consumer]
      exact step
  | control =>
      refine .control ?_ (at_ .server) (at_ .consumer)
      rw [show next.control = location from at_ .control]
      exact step

/-- The server copies a datagram into a slot, counts a drop or leaves slots and
session alone. -/
theorem server_effect_cases {server next : ServerLocation} {memory after : Memory}
    {input : Input} {effect : Memory → Input → Option (Memory × ServerLocation)}
    (action : serverAction server = .memory effect)
    (result : effect memory input = some (after, next)) :
    (after.slots = memory.slots ∧ after.session = memory.session) ∨
      after = memory.dropOne ∨
      ∃ events idx datagram batch, server = .copySlot events idx datagram batch ∧
        after = memory.copy idx datagram := by
  cases server with
  | loopTest =>
      cases action
      cases result
      exact .inl ⟨rfl, rfl⟩
  | wait =>
      cases action
      simp only at result
      split at result
      · cases result
        exact .inl ⟨rfl, rfl⟩
      · cases result
        exact .inl ⟨rfl, rfl⟩
      · cases result
        exact .inl ⟨rfl, rfl⟩
      · split_ifs at result
        cases result
        exact .inl ⟨rfl, rfl⟩
      · cases result
  | dispatch events =>
      cases action
      have moved : dispatchNext memory events = (after, next) := Option.some.inj result
      unfold dispatchNext at moved
      split at moved <;> cases moved <;> exact .inl ⟨rfl, rfl⟩
  | receive events =>
      cases action
      simp only at result
      split at result
      · unfold receiveReply at result
        split at result
        · split_ifs at result
          cases result
          exact .inl ⟨rfl, rfl⟩
        all_goals
          cases result
          exact .inl ⟨rfl, rfl⟩
      · cases result
  | inspect events batch =>
      cases action
      cases result
      exact .inl ⟨rfl, rfl⟩
  | dropInvalid events batch =>
      cases action
      cases result
      exact .inr (.inl rfl)
  | takeSlot events datagram batch => cases action
  | dropNoSlot events batch =>
      cases action
      cases result
      exact .inr (.inl rfl)
  | copySlot events idx datagram batch =>
      cases action
      cases result
      exact .inr (.inr ⟨events, idx, datagram, batch, rfl, rfl⟩)
  | publish events idx batch => cases action
  | dropRefused events idx batch =>
      cases action
      cases result
      exact .inr (.inl rfl)
  | giveBack events idx batch => cases action
  | leave =>
      cases action
      cases result
      exact .inl ⟨rfl, rfl⟩
  | finished => cases action

theorem control_effect_frame {control next : ControlLocation}
    {memory after : Memory} {input : Input}
    {effect : Memory → Input → Option (Memory × ControlLocation)}
    (action : controlAction control = .memory effect)
    (result : effect memory input = some (after, next)) :
    after.slots = memory.slots ∧ after.session = memory.session := by
  cases control with
  | joinServer =>
      cases action
      simp only at result
      split_ifs at result
      cases result
      exact ⟨rfl, rfl⟩
  | joinConsumer =>
      cases action
      simp only at result
      split_ifs at result
      cases result
      exact ⟨rfl, rfl⟩
  | returned => cases action
  | _ =>
      cases action
      cases result
      exact ⟨rfl, rfl⟩

end MarketDataEngine.EngineV1
