import MarketDataEngine.EngineV1Accounting
import MarketDataEngine.EngineShutdown

/-!
# Engine v1 on its socket

The socket is registered with `EPOLLET`: `epoll_wait` announces it once for what has arrived since
the last time, and never again for what is left behind. The server thread therefore reads until
`recvmmsg` would block. Here the answers of `epoll_wait` and `recvmmsg` come from a socket with a
queue of datagrams, while datagrams keep arriving.

`recvmmsg` may still be interrupted or fail. Behind a failure the source leaves the inner loop as
if the socket were empty; such runs are kept apart by a guard.
-/

namespace MarketDataEngine.EngineV1

open MarketDataEngine.Protocol MarketDataEngine.Containers MarketDataEngine.Engine
open MarketDataEngine.TransitionSystem MarketDataEngine.SteppedObject

set_option autoImplicit false

variable {order : ByteOrder} {capacity : Capacity}

/-! ## The socket -/

def SocketEvent.ofSocket : SocketEvent → Bool
  | .socket _ => true
  | _ => false

/-- `edge` is set while there is something to announce. -/
structure Socket where
  queue : List Datagram
  edge : Bool
  deriving DecidableEq

namespace Socket

variable (socket : Socket)

def arrive (datagram : Datagram) : Socket := ⟨socket.queue ++ [datagram], true⟩

/-- A timeout means that there was nothing to report; the socket is reported readable only for an
edge, which the report takes away. Errors are reported at any time. -/
def epollWait (wakePending : Bool) : EpollReply → Option Socket
  | .timeout => if socket.edge || wakePending then none else some socket
  | .events first rest =>
      if (first :: rest).any SocketEvent.ofSocket then
        if .socket false ∈ first :: rest ∧ socket.edge = false then none
        else some { socket with edge := false }
      else some socket
  | .failed => some socket
  | .interrupted => some socket

/-- The oldest datagrams, as many as the kernel likes to give. It never returns 0. -/
def recvmmsg : RecvReply → Option Socket
  | .batch first rest =>
      if (first :: rest) <+: socket.queue then
        some { socket with queue := socket.queue.drop (first :: rest).length }
      else none
  | .again => if socket.queue = [] then some socket else none
  | .nothing => none
  | .failed => some socket
  | .interrupted => some socket

/-- What the server thread's next step asks of the socket. -/
def answer (wakePending : Bool) : ServerLocation → Input → Option Socket
  | .wait, .epoll reply => socket.epollWait wakePending reply
  | .receive _, .recv reply => socket.recvmmsg reply
  | _, _ => some socket

end Socket

/-- The engine, its socket, and a history of what has arrived there. -/
structure Served (order : ByteOrder) (capacity : Capacity) where
  engine : QueueState order capacity
  socket : Socket
  arrived : List Datagram

inductive ServedLabel where
  | arrive (datagram : Datagram)
  | engine (thread : Thread) (input : Input)

namespace Served

variable (served : Served order capacity)

def socketStep (thread : Thread) (input : Input) : Option Socket :=
  match thread with
  | .server => served.socket.answer served.engine.memory.wakePending served.engine.server input
  | _ => some served.socket

def step : ServedLabel → Option (Served order capacity)
  | .arrive datagram =>
      some { served with
        socket := served.socket.arrive datagram
        arrived := served.arrived ++ [datagram] }
  | .engine thread input =>
      (served.socketStep thread input).bind fun socket =>
        ((queueSystem order capacity).step served.engine (thread, input)).map fun engine =>
          { served with engine := engine, socket := socket }

def Initial : Prop :=
  QueueStart served.engine ∧ served.socket = ⟨[], false⟩ ∧ served.arrived = []

end Served

def servedSystem (order : ByteOrder) (capacity : Capacity) :
    System (Served order capacity) ServedLabel where
  start := Served.Initial
  step := Served.step

def ServedLabel.receiveFails : ServedLabel → Bool
  | .engine .server (.recv .failed) => true
  | _ => false

/-- `recvmmsg` does not fail. -/
def NoReceiveError (_ : Served order capacity) (label : ServedLabel) : Prop :=
  label.receiveFails = false

/-! ## Nothing is left behind -/

/-- The server thread will read the socket before it waits again, or will not wait again. -/
def ServerLocation.willDrain : ServerLocation → Bool
  | .dispatch events => events.any SocketEvent.ofSocket
  | .receive _ => true
  | .inspect _ _ => true
  | .dropInvalid _ _ => true
  | .takeSlot _ _ _ => true
  | .dropNoSlot _ _ => true
  | .copySlot _ _ _ _ => true
  | .publish _ _ _ => true
  | .dropRefused _ _ _ => true
  | .giveBack _ _ _ => true
  | _ => false

/-- What waits in the socket is announced, will be read, or the server is told to stop. -/
def Announced (socket : Socket) (memory : Memory) (server : ServerLocation) : Prop :=
  socket.queue ≠ [] →
    socket.edge = true ∨ server.willDrain = true ∨ memory.handleRunning = false

structure ServedKept (served : Served order capacity) : Prop where
  reached : Reaches (queueSystem order capacity) served.engine
  received : served.arrived = served.engine.memory.obtained ++ served.socket.queue
  announced : Announced served.socket served.engine.memory served.engine.server

section Steps

variable {queues nextQueues : PoolRing → List Nat} {memory after : Memory} {input : Input}
variable {socket later : Socket} {server next : ServerLocation}

/-- What a step of the server thread has to show. -/
structure SocketKept (memory after : Memory) (socket later : Socket) (server next : ServerLocation) :
    Prop where
  received : after.obtained ++ later.queue = memory.obtained ++ socket.queue
  announced : Announced socket memory server → Announced later after next

theorem socket_kept_quiet (obtained : after.obtained = memory.obtained)
    (drains : server.willDrain = true →
      next.willDrain = true ∨ after.handleRunning = false)
    (stops : memory.handleRunning = false → after.handleRunning = false) :
    SocketKept memory after socket socket server next := by
  constructor
  · rw [obtained]
  · intro announced waiting
    rcases announced waiting with edge | drain | stopped
    · exact .inl edge
    · exact .inr (drains drain)
    · exact .inr (.inr (stops stopped))

theorem dispatch_socket_kept (events : List SocketEvent) :
    SocketKept memory (dispatchNext memory events).1 socket socket (.dispatch events)
      (dispatchNext memory events).2 := by
  cases events with
  | nil => exact socket_kept_quiet rfl (fun drains => absurd drains (by decide)) id
  | cons event rest =>
      cases event with
      | wake => exact socket_kept_quiet rfl (fun _ => .inr rfl) (fun _ => rfl)
      | other =>
          exact socket_kept_quiet rfl .inl id
      | socket failed =>
          cases failed with
          | true => exact socket_kept_quiet rfl (fun _ => .inr rfl) (fun _ => rfl)
          | false => exact socket_kept_quiet rfl (fun _ => .inl rfl) id

/-- An announcement that is taken away is followed by a drain, or by the end of the loop. -/
theorem wait_socket_kept {reply : EpollReply} {wakePending : Bool}
    (answered : socket.epollWait wakePending reply = some later)
    (step : queueStep capacity (serverAction .wait) queues memory (.epoll reply) =
      some (nextQueues, after, next)) :
    SocketKept memory after socket later .wait next := by
  cases reply with
  | failed =>
      cases answered
      cases step
      exact socket_kept_quiet rfl (fun drains => absurd drains Bool.false_ne_true) id
  | interrupted =>
      cases answered
      cases step
      exact socket_kept_quiet rfl (fun drains => absurd drains Bool.false_ne_true) id
  | timeout =>
      simp only [Socket.epollWait] at answered
      split_ifs at answered
      cases answered
      cases step
      exact socket_kept_quiet rfl (fun drains => absurd drains Bool.false_ne_true) id
  | events first rest =>
      simp only [queueStep, actionStep, serverAction] at step
      split_ifs at step with possible
      · cases step
        simp only [Socket.epollWait] at answered
        split_ifs at answered with reported
        · cases answered
          exact ⟨rfl, fun _ _ => .inr (.inl reported)⟩
        · cases answered
          exact socket_kept_quiet rfl (fun drains => absurd drains Bool.false_ne_true) id
      · cases step

/-- The inner loop ends on an empty socket. -/
theorem receive_socket_kept {events : List SocketEvent} {reply : RecvReply}
    (unfailing : reply ≠ .failed) (answered : socket.recvmmsg reply = some later)
    (returned : receiveReply memory events reply = some (after, next)) :
    SocketKept memory after socket later (.receive events) next := by
  cases reply with
  | failed => exact absurd rfl unfailing
  | nothing => cases answered
  | interrupted =>
      cases answered
      cases returned
      exact socket_kept_quiet rfl .inl id
  | again =>
      simp only [Socket.recvmmsg] at answered
      split_ifs at answered with empty
      cases answered
      cases returned
      exact ⟨rfl, fun _ waiting => absurd empty waiting⟩
  | batch first rest =>
      simp only [Socket.recvmmsg] at answered
      split_ifs at answered with taken
      cases answered
      simp only [receiveReply] at returned
      split_ifs at returned
      cases returned
      constructor
      · obtain ⟨left_, queue⟩ := taken
        show memory.obtained ++ first :: rest ++ socket.queue.drop _ =
          memory.obtained ++ socket.queue
        rw [← queue, List.drop_left, List.append_assoc]
      · exact fun _ _ => .inr (.inl rfl)

theorem server_socket_kept {wakePending : Bool}
    (unfailing : input ≠ .recv .failed)
    (answered : socket.answer wakePending server input = some later)
    (step : queueStep capacity (serverAction server) queues memory input =
      some (nextQueues, after, next)) :
    SocketKept memory after socket later server next := by
  cases server with
  | wait =>
      cases input with
      | epoll reply => exact wait_socket_kept answered step
      | _ => cases step
  | receive events =>
      cases input with
      | recv reply =>
          obtain ⟨⟨reached, location⟩, returned, same⟩ := Option.map_eq_some_iff.mp step
          cases same
          exact receive_socket_kept (fun failed => unfailing (congrArg _ failed)) answered returned
      | _ => cases step
  | dispatch events =>
      cases answered
      cases step
      exact dispatch_socket_kept events
  | loopTest =>
      cases answered
      cases step
      exact socket_kept_quiet rfl (fun drains => absurd drains Bool.false_ne_true) id
  | inspect events batch =>
      cases answered
      cases step
      refine socket_kept_quiet rfl (fun _ => .inl ?_) id
      cases batch with
      | nil => rfl
      | cons datagram rest =>
          simp only [inspectNext]
          split_ifs <;> rfl
  | takeSlot events datagram batch =>
      cases answered
      cases step
      refine socket_kept_quiet rfl (fun _ => .inl ?_) id
      show (takeReturned events datagram batch (fifoPop (queues .free)).2).willDrain = true
      cases (fifoPop (queues .free)).2 with
      | _ => rfl
  | publish events idx batch =>
      cases answered
      cases step
      refine socket_kept_quiet rfl (fun _ => .inl ?_) id
      simp only [publishReturned]
      split_ifs <;> rfl
  | dropInvalid events batch
  | dropNoSlot events batch
  | copySlot events idx datagram batch
  | dropRefused events idx batch
  | giveBack events idx batch =>
      cases answered
      cases step
      exact socket_kept_quiet rfl (fun _ => .inl rfl) id
  | leave =>
      cases answered
      cases step
      exact socket_kept_quiet rfl (fun drains => absurd drains Bool.false_ne_true) id
  | finished => cases step

/-- The other threads receive nothing and start no server. -/
theorem consumer_leaves_socket {consumer after_ : ConsumerLocation}
    (step : queueStep capacity (consumerAction order consumer) queues memory input =
      some (nextQueues, after, after_)) :
    after.obtained = memory.obtained ∧ after.handleRunning = memory.handleRunning := by
  cases consumer with
  | finished => cases step
  | _ =>
      cases step
      exact ⟨rfl, rfl⟩

theorem control_leaves_socket {control after_ : ControlLocation}
    (step : queueStep capacity (controlAction control) queues memory input =
      some (nextQueues, after, after_)) :
    memory.handleRunning = false → after.handleRunning = false := by
  cases control with
  | returned => cases step
  | joinServer =>
      simp only [queueStep, actionStep, controlAction] at step
      split_ifs at step
      · cases step
        exact id
      · cases step
  | joinConsumer =>
      simp only [queueStep, actionStep, controlAction] at step
      split_ifs at step
      · cases step
        exact id
      · cases step
  | exchange =>
      cases step
      exact fun _ => rfl
  | clearRunning | wake =>
      cases step
      exact id

end Steps

theorem served_kept_step {served next : Served order capacity} {label : ServedLabel}
    (kept : ServedKept served) (allowed : NoReceiveError served label)
    (taken : served.step label = some next) : ServedKept next := by
  cases label with
  | arrive datagram =>
      cases taken
      constructor
      · exact kept.reached
      · show served.arrived ++ [datagram] =
          served.engine.memory.obtained ++ (served.socket.queue ++ [datagram])
        rw [kept.received, List.append_assoc]
      · exact fun _ => .inl rfl
  | engine thread input =>
      obtain ⟨socket, answered, moved⟩ := Option.bind_eq_some_iff.mp taken
      obtain ⟨engine, stepped, rfl⟩ := Option.map_eq_some_iff.mp moved
      have quiet : ∀ {memory : Memory}, memory.obtained = served.engine.memory.obtained →
          (served.engine.memory.handleRunning = false → memory.handleRunning = false) →
          SocketKept served.engine.memory memory served.socket served.socket
            served.engine.server served.engine.server :=
        fun obtained stops => socket_kept_quiet obtained .inl stops
      have moves : SocketKept served.engine.memory engine.memory served.socket socket
          served.engine.server engine.server := by
        cases moves_of_step stepped with
        | server step consumer control =>
            refine server_socket_kept ?_ answered step
            rintro rfl
            exact absurd allowed Bool.noConfusion
        | consumer step server control =>
            obtain ⟨obtained, handle⟩ := consumer_leaves_socket step
            cases answered
            rw [server]
            exact quiet obtained handle.trans
        | control step server consumer =>
            obtain ⟨-, -, -, -, obtained⟩ := control_step_frame step
            cases answered
            rw [server]
            exact quiet obtained (control_leaves_socket step)
      constructor
      · exact reaches_step kept.reached stepped
      · exact kept.received.trans moves.received.symm
      · exact moves.announced kept.announced

theorem served_kept_of_reaches {served : Served order capacity}
    (reached : ReachesUnder (servedSystem order capacity) NoReceiveError served) :
    ServedKept served := by
  apply invariant_of_step _ _ reached
  · rintro served ⟨start, socket, arrived⟩
    have begun := start
    obtain ⟨-, -, ⟨slots, memory⟩, -⟩ := begun
    constructor
    · exact reaches_start start
    · rw [arrived, socket, memory]
      rfl
    · rw [socket]
      exact fun waiting => absurd rfl waiting
  · intro served label next prior kept allowed taken
    exact served_kept_step kept allowed taken

/-- In every run in which `recvmmsg` does not fail, whatever arrives when: the datagrams that have
arrived are those that were received, in order, and those still in the socket; and when the running
server waits with nothing announced, the socket is empty and every datagram that has arrived is
counted, in the ready ring, or with the consumer. -/
theorem nothing_waits_unannounced (order : ByteOrder) (capacity : Capacity)
    (served : Served order capacity)
    (reached : ReachesUnder (servedSystem order capacity) NoReceiveError served) :
    served.arrived = served.engine.memory.obtained ++ served.socket.queue ∧
      (served.engine.server = .wait → served.engine.memory.handleRunning = true →
        served.socket.edge = false →
        served.socket.queue = [] ∧
          UInt64.ofNat served.arrived.length = served.engine.memory.session.metrics.settled +
            UInt64.ofNat ((served.engine.queue .ready).length +
              served.engine.consumer.unclassified)) := by
  obtain ⟨engine, received, announced⟩ := served_kept_of_reaches reached
  refine ⟨received, ?_⟩
  intro waits running silent
  have empty : served.socket.queue = [] := by
    by_contra waiting
    rcases announced waiting with edge | drain | stopped
    · rw [silent] at edge
      cases edge
    · rw [waits] at drain
      cases drain
    · rw [running] at stopped
      cases stopped
  refine ⟨empty, ?_⟩
  have accounted := accounted_of_reaches engine
  unfold StateAccounted Accounted inFlight at accounted
  rw [waits] at accounted
  rw [received, empty, List.append_nil]
  exact accounted

def servedFresh : Served .little kPoolCapacity := ⟨freshQueues, ⟨[], false⟩, []⟩

theorem served_fresh_initial : servedFresh.Initial := ⟨fresh_queues_start, rfl, rfl⟩

/-- A datagram that is too short, and a second one that arrives while the first is handled: it is
read at once and announced for nothing. -/
def secondWhileDraining : List ServedLabel :=
  [.arrive [1], .engine .server .tick, .engine .server (.epoll (.events (.socket false) [])),
    .engine .server .tick, .engine .server (.recv (.batch [1] [])), .arrive [2],
    .engine .server .tick, .engine .server .tick, .engine .server .tick,
    .engine .server (.recv (.batch [2] [])), .engine .server .tick, .engine .server .tick,
    .engine .server .tick, .engine .server (.recv .again), .engine .server .tick,
    .engine .server .tick, .engine .server (.epoll (.events (.socket false) [])),
    .engine .server .tick, .engine .server (.recv .again), .engine .server .tick,
    .engine .server .tick]

theorem second_while_draining_counted :
    ∃ served, ReachesUnder (servedSystem .little kPoolCapacity) NoReceiveError served ∧
      served.engine.server = .wait ∧ served.arrived = [[1], [2]] ∧ served.socket.queue = [] := by
  have begun : ReachesUnder (servedSystem .little kPoolCapacity) NoReceiveError servedFresh :=
    .start served_fresh_initial
  obtain ⟨served, ran, waits, running, silent, arrived⟩ :
      ∃ served, runChecked (servedSystem .little kPoolCapacity)
          (fun _ label => !label.receiveFails) servedFresh secondWhileDraining = some served ∧
        served.engine.server = .wait ∧ served.engine.memory.handleRunning = true ∧
        served.socket.edge = false ∧ served.arrived = [[1], [2]] :=
    ⟨_, rfl, rfl, rfl, rfl, rfl⟩
  have reached := reaches_under_run
    (fun (_ : Served .little kPoolCapacity) (label : ServedLabel) checked =>
      (Bool.not_eq_true' label.receiveFails).mp checked) begun ran
  exact ⟨served, reached, waits, arrived,
    ((nothing_waits_unannounced .little kPoolCapacity served reached).2 waits running silent).1⟩

/-- Behind a failure of `recvmmsg` a datagram may wait unannounced. -/
example : ∃ served, runLabels (servedSystem .little kPoolCapacity) servedFresh
    [.arrive [1], .engine .server .tick, .engine .server (.epoll (.events (.socket false) [])),
      .engine .server .tick, .engine .server (.recv .failed), .engine .server .tick,
      .engine .server .tick] = some served ∧
    served.engine.server = .wait ∧ served.socket = ⟨[[1]], false⟩ :=
  ⟨_, rfl, rfl, rfl⟩

end MarketDataEngine.EngineV1
