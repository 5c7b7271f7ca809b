import MarketDataEngine.FrameReassembly

/-!
# The epoll TCP server

`run_server_loop` as a step function: the point says where the loop is, the label
what the kernel answers there. The table `conns` is static, so it outlives the
connections and a restart of the server; the loop closes a client's descriptor but
leaves the clients of a stopped server open. One server runs at a time.

The kernel is its open client descriptors, each with the connection behind it, and
those of them that the epoll instance watches. It reports an event only for a
descriptor that is watched, at most one for each in a batch, and `accept4` returns
a number that is not in use. The timeout of `epoll_wait`, the sizes of the receive
buffers and the diagnostics are left out.
-/

namespace MarketDataEngine.Net

open MarketDataEngine.Protocol MarketDataEngine.Containers MarketDataEngine.Engine
open MarketDataEngine.StreamBlocks MarketDataEngine.TransitionSystem

set_option autoImplicit false

def maxFd : Nat := 65536

/-- `hangUp` is any of `EPOLLERR`, `EPOLLHUP` and `EPOLLRDHUP`. -/
structure EpollEvent where
  fd : Nat
  hangUp : Bool

/-- The place in the loop, with the rest of the batch. While a received batch of
messages is consumed, `owner` is the connection they came from. -/
inductive LoopPoint where
  | stopped
  | waiting
  | handling (rest : List EpollEvent)
  | accepting (rest : List EpollEvent)
  | receiving (fd : Nat) (rest : List EpollEvent)
  | consuming (fd owner : Nat) (messages : List (List UInt8)) (rest : List EpollEvent)

/-- `received` is the byte stream of each connection. -/
structure Kernel where
  clients : Nat → Option Nat
  watched : List Nat
  nextConnection : Nat
  received : Nat → List UInt8

namespace Kernel

variable (kernel : Kernel)

def openClient (cfd : Nat) : Kernel :=
  { kernel with
    clients := Function.update kernel.clients cfd (some kernel.nextConnection)
    nextConnection := kernel.nextConnection + 1 }

def watch (cfd : Nat) : Kernel := { kernel with watched := cfd :: kernel.watched }

/-- Closing a descriptor also takes it out of the epoll instance. -/
def close (fd : Nat) : Kernel :=
  { kernel with
    clients := Function.update kernel.clients fd none
    watched := kernel.watched.filter (· ≠ fd) }

def arrive (owner : Nat) (bytes : List UInt8) : Kernel :=
  { kernel with
    received := Function.update kernel.received owner (kernel.received owner ++ bytes) }

end Kernel

/-- `consumed`, `log` and `drained` are histories: what `consume_frames` has been given of
each connection, the frames it assembled with the connection they came from, and the
frames that left the ready ring. -/
structure Server (capacity : Capacity) where
  listenFd : Nat
  wakeFd : Nat
  running : Bool
  conns : Nat → ConnState
  pool : FramePool capacity
  metrics : Metrics
  point : LoopPoint
  kernel : Kernel
  held : List Nat
  consumed : Nat → List UInt8
  log : List (Nat × Assembled)
  drained : List Frame

def initConn (conns : Nat → ConnState) (fd : Nat) : (Nat → ConnState) × Bool :=
  if fd ≥ maxFd then (conns, false)
  else (Function.update conns fd { conns fd with fd := fd, have_ := noBytes }, true)

def resetConn (conns : Nat → ConnState) (fd : Nat) : Nat → ConnState :=
  if fd < maxFd then
    Function.update conns fd { conns fd with fd := -1, have_ := noBytes }
  else conns

inductive WaitReply where
  | events (batch : List EpollEvent)
  | timeout
  | interrupted
  | failed

/-- `added` is whether `epoll_ctl` takes the new descriptor. -/
inductive AcceptReply where
  | connection (cfd : Nat) (added : Bool)
  | again
  | interrupted
  | failed

inductive StreamReply where
  | messages (first : List UInt8) (more : List (List UInt8))
  | closed
  | again
  | interrupted
  | failed

inductive ServerLabel where
  | start (listenFd wakeFd : Nat)
  | stop
  | wait (reply : WaitReply)
  | dispatch
  | accept (reply : AcceptReply)
  | recv (reply : StreamReply)
  | consume
  | drain
  | recycle (idx : Nat)

variable {capacity : Capacity}

namespace Server

variable (server : Server capacity)

/-- `close(fd); reset_conn(fd);` -/
def closeClient (fd : Nat) : Server capacity :=
  { server with
    conns := resetConn server.conns fd
    kernel := server.kernel.close fd }

def goto (point : LoopPoint) : Server capacity := { server with point := point }

/-- Behind the loop: the epoll instance is closed, the clients are not. -/
def exit : Server capacity :=
  { server with
    point := .stopped
    kernel := { server.kernel with watched := [] } }

def sink : Sink capacity := ⟨server.pool, server.metrics, []⟩

def waitStep : WaitReply → Option (Server capacity)
  | .events batch =>
      if (batch.map EpollEvent.fd).Nodup ∧ (∀ event ∈ batch, event.fd = server.wakeFd ∨
          event.fd = server.listenFd ∨ event.fd ∈ server.kernel.watched) then
        some (server.goto (.handling batch))
      else none
  | .timeout => some server
  | .interrupted => some server
  | .failed => some server.exit

def dispatchStep (event : EpollEvent) (rest : List EpollEvent) : Server capacity :=
  if event.fd = server.wakeFd then { server.goto (.handling rest) with running := false }
  else if event.fd = server.listenFd then server.goto (.accepting rest)
  else if event.hangUp then (server.closeClient event.fd).goto (.handling rest)
  else server.goto (.receiving event.fd rest)

def acceptStep (rest : List EpollEvent) : AcceptReply → Option (Server capacity)
  | .connection cfd added =>
      if server.kernel.clients cfd = none ∧ cfd ≠ server.listenFd ∧ cfd ≠ server.wakeFd then
        match initConn server.conns cfd with
        | (_, false) =>
            some { server with kernel := (server.kernel.openClient cfd).close cfd }
        | (conns, true) =>
            if added then
              some { server with
                conns := conns
                kernel := (server.kernel.openClient cfd).watch cfd }
            else
              some ({ server with
                conns := conns
                kernel := server.kernel.openClient cfd }.closeClient cfd)
      else none
  | .again => some (server.goto (.handling rest))
  | .interrupted => some server
  | .failed => some (server.goto (.handling rest))

def recvStep (fd : Nat) (rest : List EpollEvent) : StreamReply → Option (Server capacity)
  | .messages first more =>
      match server.kernel.clients fd with
      | some owner =>
          some { server.goto (.consuming fd owner (first :: more) rest) with
            kernel := server.kernel.arrive owner (first :: more).flatten }
      | none => none
  | .closed => some ((server.closeClient fd).goto (.handling rest))
  | .again => some (server.goto (.handling rest))
  | .interrupted => some server
  | .failed => some ((server.closeClient fd).goto (.handling rest))

def consumeMessage (fd owner : Nat) (message : List UInt8) : Server capacity :=
  if 0 < message.length ∧ fd < maxFd ∧ (server.conns fd).fd = fd then
    let consumed := consumeFrames (server.conns fd) message server.sink
    { server with
      conns := Function.update server.conns fd consumed.1
      pool := consumed.2.pool
      metrics := consumed.2.metrics
      consumed := Function.update server.consumed owner (server.consumed owner ++ message)
      log := server.log ++ consumed.2.assembled.map fun entry => (owner, entry) }
  else server

/-- A reader of the ready ring takes an index out. -/
def drainStep : Server capacity :=
  match (server.pool.rings .ready).pop with
  | (_, none) => server
  | (ready, some idx) =>
      { server with
        pool := (server.sink.setRing .ready ready).pool
        held := idx :: server.held
        drained := server.drained ++ [server.pool.slots idx] }

def recycleStep (idx : Nat) : Option (Server capacity) :=
  if idx ∈ server.held then
    some { server with
      pool := (server.sink.setRing .free ((server.pool.rings .free).push idx).1).pool
      held := server.held.erase idx }
  else none

def step : ServerLabel → Option (Server capacity)
  | .start listenFd wakeFd =>
      match server.point with
      | .stopped =>
          if server.kernel.clients listenFd = none ∧ server.kernel.clients wakeFd = none ∧
              listenFd ≠ wakeFd then
            some { server with
              listenFd := listenFd
              wakeFd := wakeFd
              running := true
              point := .waiting }
          else none
      | _ => none
  | .stop => some { server with running := false }
  | .wait reply =>
      match server.point with
      | .waiting => if server.running then server.waitStep reply else some server.exit
      | _ => none
  | .dispatch =>
      match server.point with
      | .handling [] => some (server.goto .waiting)
      | .handling (event :: rest) => some (server.dispatchStep event rest)
      | _ => none
  | .accept reply =>
      match server.point with
      | .accepting rest => server.acceptStep rest reply
      | _ => none
  | .recv reply =>
      match server.point with
      | .receiving fd rest => server.recvStep fd rest reply
      | _ => none
  | .consume =>
      match server.point with
      | .consuming fd _ [] rest => some (server.goto (.receiving fd rest))
      | .consuming fd owner (message :: more) rest =>
          some ((server.consumeMessage fd owner message).goto (.consuming fd owner more rest))
      | _ => none
  | .drain => some server.drainStep
  | .recycle idx => server.recycleStep idx

/-- Nothing has run yet: every entry of the table is as its initialiser leaves it. -/
structure Initial (server : Server capacity) : Prop where
  point : server.point = .stopped
  clients : ∀ fd, server.kernel.clients fd = none
  watched : server.kernel.watched = []
  received : ∀ connection, server.kernel.received connection = []
  conns : ∀ fd, (server.conns fd).fd = -1 ∧ ((server.conns fd).have_ : Nat) = 0
  consumed : ∀ connection, server.consumed connection = []
  log : server.log = []
  drained : server.drained = []
  sound : PoolSound server.pool server.held

end Server

def serverFrom (first : Server capacity) : System (Server capacity) ServerLabel where
  start := fun server => server = first
  step := Server.step

end MarketDataEngine.Net
