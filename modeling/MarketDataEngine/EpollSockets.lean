import MarketDataEngine.EpollConnections

/-!
# The sockets behind the epoll server

What a client has sent and the server has not read lies in the receive queue of its
connection, with a mark behind it once the client has shut down its side. The answers of
the kernel follow from the queues: `epoll_wait` reports a hang-up together with whatever
is left to read, and `recvmmsg` reads up to a batch of times. A read at the end of the
stream gives no bytes and is counted like any other, so the call never returns 0; it fails
with `EAGAIN` when its first read would block, and it does not sleep, so no signal
interrupts it.

A connection that breaks may fail and be reported at any time.
-/

namespace MarketDataEngine.Net

open MarketDataEngine.Protocol MarketDataEngine.Containers MarketDataEngine.Engine
open MarketDataEngine.StreamBlocks MarketDataEngine.TransitionSystem

set_option autoImplicit false

variable {capacity : Capacity}

/-! ## What a step of the loop does -/

/-- The events still to be handled. -/
def LoopPoint.rest : LoopPoint → List EpollEvent
  | .stopped => []
  | .waiting => []
  | .handling rest => rest
  | .accepting rest => rest
  | .receiving _ rest => rest
  | .consuming _ _ _ rest => rest

/-- The descriptor that is being drained. -/
def LoopPoint.draining : LoopPoint → Option Nat
  | .receiving fd _ => some fd
  | .consuming fd _ _ _ => some fd
  | _ => none

/-- The loop goes on or stands still, and nothing is opened, closed, received or
consumed. -/
structure Server.Idles (server next : Server capacity) : Prop where
  clients : next.kernel.clients = server.kernel.clients
  connections : next.kernel.nextConnection = server.kernel.nextConnection
  received : next.kernel.received = server.kernel.received
  conns : next.conns = server.conns
  log : next.log = server.log
  metrics : next.metrics = server.metrics
  rest : ∀ event ∈ next.point.rest, event ∈ server.point.rest
  draining : next.point.draining = none ∨ next.point = server.point ∨
    ∃ fd owner rest, server.point = .consuming fd owner [] rest ∧
      next.point = .receiving fd rest

/-- The labels of steps without an effect on the descriptors and the streams. -/
def Server.Quiet (server : Server capacity) : ServerLabel → Prop
  | .accept (.connection _ _) => False
  | .dispatch => ∀ event rest, server.point = .handling (event :: rest) →
      event.fd = server.wakeFd ∨ event.fd = server.listenFd
  | .recv reply => reply = .interrupted
  | _ => True

inductive Server.Effect (server : Server capacity) : ServerLabel → Server capacity → Prop where
  | idles {label : ServerLabel} {next : Server capacity} (idles : server.Idles next)
      (quiet : server.Quiet label) : Effect server label next
  | reported {batch : List EpollEvent} (waiting : server.point = .waiting) :
      Effect server (.wait (.events batch)) (server.goto (.handling batch))
  | hungUp {event : EpollEvent} {rest : List EpollEvent}
      (handling : server.point = .handling (event :: rest)) (hangUp : event.hangUp = true)
      (client : event.fd ≠ server.wakeFd ∧ event.fd ≠ server.listenFd) :
      Effect server .dispatch ((server.closeClient event.fd).goto (.handling rest))
  | drains {event : EpollEvent} {rest : List EpollEvent}
      (handling : server.point = .handling (event :: rest)) (readable : event.hangUp = false)
      (client : event.fd ≠ server.wakeFd ∧ event.fd ≠ server.listenFd) :
      Effect server .dispatch (server.goto (.receiving event.fd rest))
  | accepted {rest : List EpollEvent} {cfd : Nat} {conns : Nat → ConnState}
      (accepting : server.point = .accepting rest) (fresh : server.kernel.clients cfd = none)
      (apart : cfd ≠ server.listenFd ∧ cfd ≠ server.wakeFd)
      (initialised : initConn server.conns cfd = (conns, true)) :
      Effect server (.accept (.connection cfd true))
        { server with conns := conns, kernel := (server.kernel.openClient cfd).watch cfd }
  | turnedAway {rest : List EpollEvent} {cfd : Nat} {added : Bool} {conns : Nat → ConnState}
      (accepting : server.point = .accepting rest) (fresh : server.kernel.clients cfd = none)
      (apart : cfd ≠ server.listenFd ∧ cfd ≠ server.wakeFd)
      (refused : maxFd ≤ cfd ∨ added = false) :
      Effect server (.accept (.connection cfd added))
        { server with conns := conns, kernel := (server.kernel.openClient cfd).close cfd }
  | received {fd owner : Nat} {rest : List EpollEvent} {first : List UInt8}
      {more : List (List UInt8)} (receiving : server.point = .receiving fd rest)
      (client : server.kernel.clients fd = some owner) :
      Effect server (.recv (.messages first more))
        { server.goto (.consuming fd owner (first :: more) rest) with
          kernel := server.kernel.arrive owner (first :: more).flatten }
  | again {fd : Nat} {rest : List EpollEvent} (receiving : server.point = .receiving fd rest) :
      Effect server (.recv .again) (server.goto (.handling rest))
  | broke {fd : Nat} {rest : List EpollEvent} {reply : StreamReply}
      (receiving : server.point = .receiving fd rest)
      (ended : reply = .closed ∨ reply = .failed) :
      Effect server (.recv reply) ((server.closeClient fd).goto (.handling rest))
  | consumed {fd owner : Nat} {message : List UInt8} {more : List (List UInt8)}
      {rest : List EpollEvent}
      (consuming : server.point = .consuming fd owner (message :: more) rest) :
      Effect server .consume
        ((server.consumeMessage fd owner message).goto (.consuming fd owner more rest))

section Effects

variable {server next : Server capacity}

theorem idles_goto (server : Server capacity) (point : LoopPoint) (running : Bool)
    (rest : ∀ event ∈ point.rest, event ∈ server.point.rest) (still : point.draining = none) :
    server.Idles { server.goto point with running := running } :=
  ⟨rfl, rfl, rfl, rfl, rfl, rfl, rest, .inl still⟩

theorem idles_refl (server : Server capacity) : server.Idles server :=
  ⟨rfl, rfl, rfl, rfl, rfl, rfl, fun _ member => member, .inr (.inl rfl)⟩

theorem dispatch_effect {event : EpollEvent} {rest : List EpollEvent}
    (handling : server.point = .handling (event :: rest)) :
    server.Effect .dispatch (server.dispatchStep event rest) := by
  have later : ∀ other ∈ rest, other ∈ server.point.rest := by
    intro other member
    rw [handling]
    exact List.mem_cons_of_mem _ member
  unfold Server.dispatchStep
  split_ifs with wake listen hangUp
  · refine .idles (idles_goto server (.handling rest) false later rfl) ?_
    intro front _ again
    rw [handling] at again
    cases again
    exact .inl wake
  · refine .idles (idles_goto server (.accepting rest) server.running later rfl) ?_
    intro front _ again
    rw [handling] at again
    cases again
    exact .inr listen
  · exact .hungUp handling hangUp ⟨wake, listen⟩
  · exact .drains handling (Bool.eq_false_iff.mpr hangUp) ⟨wake, listen⟩

theorem connection_effect {rest : List EpollEvent} {cfd : Nat} {added : Bool}
    (accepting : server.point = .accepting rest)
    (taken : server.acceptStep rest (.connection cfd added) = some next) :
    server.Effect (.accept (.connection cfd added)) next := by
  simp only [Server.acceptStep] at taken
  by_cases fresh : server.kernel.clients cfd = none ∧ cfd ≠ server.listenFd ∧
      cfd ≠ server.wakeFd
  · rw [if_pos fresh] at taken
    cases initialised : initConn server.conns cfd with
    | mk conns ok =>
        rw [initialised] at taken
        cases ok with
        | false =>
            cases taken
            refine .turnedAway accepting fresh.1 fresh.2 (.inl ?_)
            unfold initConn at initialised
            split_ifs at initialised with large
            · exact large
            · cases initialised
        | true =>
            cases added with
            | true =>
                cases taken
                exact .accepted accepting fresh.1 fresh.2 initialised
            | false =>
                cases taken
                exact .turnedAway accepting fresh.1 fresh.2 (.inr rfl)
  · rw [if_neg fresh] at taken
    cases taken

theorem accept_effect {rest : List EpollEvent} {reply : AcceptReply}
    (accepting : server.point = .accepting rest)
    (taken : server.acceptStep rest reply = some next) :
    server.Effect (.accept reply) next := by
  have same : ∀ event ∈ rest, event ∈ server.point.rest := by
    rw [accepting]
    exact fun _ member => member
  cases reply with
  | connection cfd added => exact connection_effect accepting taken
  | again =>
      cases taken
      exact .idles (idles_goto server (.handling rest) server.running same rfl) trivial
  | interrupted =>
      cases taken
      exact .idles (idles_refl server) trivial
  | failed =>
      cases taken
      exact .idles (idles_goto server (.handling rest) server.running same rfl) trivial

theorem recv_effect {fd : Nat} {rest : List EpollEvent} {reply : StreamReply}
    (receiving : server.point = .receiving fd rest)
    (taken : server.recvStep fd rest reply = some next) :
    server.Effect (.recv reply) next := by
  cases reply with
  | messages first more =>
      simp only [Server.recvStep] at taken
      split at taken
      · next owner client =>
          cases taken
          exact .received receiving client
      · cases taken
  | closed =>
      cases taken
      exact .broke receiving (.inl rfl)
  | again =>
      cases taken
      exact .again receiving
  | interrupted =>
      cases taken
      exact .idles (idles_refl server) rfl
  | failed =>
      cases taken
      exact .broke receiving (.inr rfl)

theorem wait_effect {reply : WaitReply} (waiting : server.point = .waiting)
    (taken : server.waitStep reply = some next) : server.Effect (.wait reply) next := by
  cases reply with
  | events batch =>
      simp only [Server.waitStep] at taken
      split_ifs at taken
      cases taken
      exact .reported waiting
  | timeout =>
      cases taken
      exact .idles (idles_refl server) trivial
  | interrupted =>
      cases taken
      exact .idles (idles_refl server) trivial
  | failed =>
      cases taken
      exact .idles ⟨rfl, rfl, rfl, rfl, rfl, rfl, List.forall_mem_nil _, .inl rfl⟩ trivial

theorem server_step_effect {label : ServerLabel} (taken : server.step label = some next) :
    server.Effect label next := by
  cases label with
  | start listenFd wakeFd =>
      simp only [Server.step] at taken
      split at taken
      · split_ifs at taken
        cases taken
        exact .idles ⟨rfl, rfl, rfl, rfl, rfl, rfl, List.forall_mem_nil _, .inl rfl⟩ trivial
      · cases taken
  | stop =>
      cases taken
      exact .idles ⟨rfl, rfl, rfl, rfl, rfl, rfl, fun _ member => member, .inr (.inl rfl)⟩ trivial
  | wait reply =>
      simp only [Server.step] at taken
      split at taken
      · next waiting =>
          split_ifs at taken
          · exact wait_effect waiting taken
          · cases taken
            exact .idles ⟨rfl, rfl, rfl, rfl, rfl, rfl, List.forall_mem_nil _, .inl rfl⟩ trivial
      · cases taken
  | dispatch =>
      simp only [Server.step] at taken
      split at taken
      · next nothing =>
          cases taken
          refine .idles (idles_goto server .waiting server.running (List.forall_mem_nil _) rfl) ?_
          intro event rest again
          rw [nothing] at again
          cases again
      · next event rest handling =>
          cases taken
          exact dispatch_effect handling
      · cases taken
  | accept reply =>
      simp only [Server.step] at taken
      split at taken
      · next rest accepting => exact accept_effect accepting taken
      · cases taken
  | recv reply =>
      simp only [Server.step] at taken
      split at taken
      · next fd rest receiving => exact recv_effect receiving taken
      · cases taken
  | consume =>
      simp only [Server.step] at taken
      split at taken
      · next fd owner rest consuming =>
          cases taken
          refine .idles ⟨rfl, rfl, rfl, rfl, rfl, rfl, ?_,
            .inr (.inr ⟨fd, owner, rest, consuming, rfl⟩)⟩ trivial
          rw [consuming]
          exact fun _ member => member
      · next fd owner message more rest consuming =>
          cases taken
          exact .consumed consuming
      · cases taken
  | drain =>
      cases taken
      unfold Server.drainStep
      split
      · exact .idles (idles_refl server) trivial
      · exact .idles ⟨rfl, rfl, rfl, rfl, rfl, rfl, fun _ member => member, .inr (.inl rfl)⟩ trivial
  | recycle idx =>
      simp only [Server.step, Server.recycleStep] at taken
      split_ifs at taken
      cases taken
      exact .idles ⟨rfl, rfl, rfl, rfl, rfl, rfl, fun _ member => member, .inr (.inl rfl)⟩ trivial

end Effects

/-! ## Sockets -/

def kRecvBatch : Nat := 16

def kRecvBufSize : Nat := 4096

/-- The receive queue of a connection. `sent` is the history of what its client wrote. -/
structure TcpSocket where
  unread : List UInt8
  finished : Bool
  broken : Bool
  sent : List UInt8

namespace TcpSocket

variable (socket : TcpSocket)

def fresh : TcpSocket := ⟨[], false, false, []⟩

def write (bytes : List UInt8) : TcpSocket :=
  { socket with unread := socket.unread ++ bytes, sent := socket.sent ++ bytes }

/-- Successive reads with these results. A read takes at least one byte and at most a
buffer, or none at the end of the stream. -/
def reads : List (List UInt8) → TcpSocket → Option TcpSocket
  | [], socket => some socket
  | [] :: more, socket =>
      if socket.unread = [] ∧ socket.finished = true then reads more socket else none
  | (byte :: bytes) :: more, socket =>
      if (byte :: bytes).length ≤ kRecvBufSize ∧ (byte :: bytes) <+: socket.unread then
        reads more { socket with unread := socket.unread.drop (byte :: bytes).length }
      else none

/-- The answers of `recvmmsg`, with the queue behind them. -/
def answer : StreamReply → Option TcpSocket
  | .messages first more =>
      if (first :: more).length ≤ kRecvBatch then reads (first :: more) socket else none
  | .closed => none
  | .again =>
      if socket.unread = [] ∧ socket.finished = false then some socket else none
  | .interrupted => none
  | .failed => if socket.broken then some socket else none

/-- A shut-down side is reported as a hang-up, and so may a broken connection be. -/
def reports (hangUp : Bool) : Bool :=
  if hangUp then socket.finished || socket.broken else !socket.finished

end TcpSocket

def StreamReply.readsEnd : StreamReply → Bool
  | .messages first more => (first :: more).any List.isEmpty
  | _ => false

/-- The drain of a descriptor that runs or was the last to run: the calls of `recvmmsg` it
has made and whether one of them read the end of the stream. -/
structure Drain where
  fd : Nat
  owner : Nat
  calls : Nat
  sawEnd : Bool

structure WiredServer (capacity : Capacity) where
  server : Server capacity
  sockets : Nat → TcpSocket
  drain : Drain

inductive WireLabel where
  | write (connection : Nat) (bytes : List UInt8)
  | shutDown (connection : Nat)
  | fail (connection : Nat)
  | server (label : ServerLabel)

namespace WiredServer

variable (wired : WiredServer capacity)

def setSocket (connection : Nat) (socket : TcpSocket) : WiredServer capacity :=
  { wired with sockets := Function.update wired.sockets connection socket }

def reports (event : EpollEvent) : Bool :=
  match wired.server.kernel.clients event.fd with
  | some owner => (wired.sockets owner).reports event.hangUp
  | none => true

def recvCall (reply : StreamReply) : Option (WiredServer capacity) :=
  match wired.server.point with
  | .receiving fd _ =>
      match wired.server.kernel.clients fd with
      | some owner =>
          ((wired.sockets owner).answer reply).map fun socket =>
            { wired.setSocket owner socket with
              drain := { wired.drain with
                calls := wired.drain.calls + 1
                sawEnd := wired.drain.sawEnd || reply.readsEnd } }
      | none => none
  | _ => none

/-- The kernel's side of a step of the server. -/
def kernelSide : ServerLabel → Option (WiredServer capacity)
  | .wait (.events batch) => if batch.all wired.reports then some wired else none
  | .dispatch =>
      match wired.server.point with
      | .handling (event :: _) =>
          match wired.server.kernel.clients event.fd with
          | some owner =>
              if event.hangUp then some wired
              else some { wired with drain := ⟨event.fd, owner, 0, false⟩ }
          | none => some wired
      | _ => some wired
  | .recv reply => wired.recvCall reply
  | _ => some wired

def step : WireLabel → Option (WiredServer capacity)
  | .write connection bytes =>
      if (wired.sockets connection).finished then none
      else some (wired.setSocket connection ((wired.sockets connection).write bytes))
  | .shutDown connection =>
      some (wired.setSocket connection { wired.sockets connection with finished := true })
  | .fail connection =>
      some (wired.setSocket connection { wired.sockets connection with broken := true })
  | .server label =>
      (wired.kernelSide label).bind fun answered =>
        (wired.server.step label).map fun server => { answered with server := server }

structure Initial (wired : WiredServer capacity) : Prop where
  server : wired.server.Initial
  connections : wired.server.kernel.nextConnection = 0
  drain : wired.drain = ⟨0, 0, 0, false⟩
  sockets : ∀ connection, wired.sockets connection = .fresh

/-- An accepted connection that no descriptor stands for any more. -/
def Closed (connection : Nat) : Prop :=
  connection < wired.server.kernel.nextConnection ∧
    ∀ fd, wired.server.kernel.clients fd ≠ some connection

end WiredServer

def wiredFrom (first : WiredServer capacity) : System (WiredServer capacity) WireLabel where
  start := fun wired => wired = first
  step := WiredServer.step

/-! ## What a step over the sockets does -/

/-- A client writes behind its queue, shuts down its side or breaks its connection. -/
structure TcpSocket.Grows (socket after : TcpSocket) : Prop where
  written : ∃ bytes, after.unread = socket.unread ++ bytes ∧ after.sent = socket.sent ++ bytes
  finished : socket.finished = true → after.finished = true ∧ after.sent = socket.sent
  broken : socket.broken = true → after.broken = true

inductive WiredServer.Moves (wired next : WiredServer capacity) (label : WireLabel) : Prop where
  | client (connection : Nat) (socket : TcpSocket)
      (grows : (wired.sockets connection).Grows socket)
      (finishes : socket.finished = (wired.sockets connection).finished ∨
        label = .shutDown connection)
      (moved : next = wired.setSocket connection socket)
  | serves (of : ServerLabel) (labelled : label = .server of)
      (taken : wired.server.step of = some next.server)
      (other : ∀ reply, of ≠ .recv reply) (sockets : next.sockets = wired.sockets)
      (side : ∃ answered, wired.kernelSide of = some answered ∧ next.drain = answered.drain)
  | receives (reply : StreamReply) (fd : Nat) (rest : List EpollEvent) (owner : Nat)
      (socket : TcpSocket) (labelled : label = .server (.recv reply))
      (receiving : wired.server.point = .receiving fd rest)
      (client : wired.server.kernel.clients fd = some owner)
      (answered : (wired.sockets owner).answer reply = some socket)
      (taken : wired.server.recvStep fd rest reply = some next.server)
      (sockets : next.sockets = Function.update wired.sockets owner socket)
      (drain : next.drain = { wired.drain with
        calls := wired.drain.calls + 1
        sawEnd := wired.drain.sawEnd || reply.readsEnd })

section Moves

variable {wired next answered : WiredServer capacity}

theorem kernel_side_sockets {label : ServerLabel} (other : ∀ reply, label ≠ .recv reply)
    (side : wired.kernelSide label = some answered) :
    answered.sockets = wired.sockets ∧ answered.server = wired.server := by
  unfold WiredServer.kernelSide at side
  split at side
  · split_ifs at side
    cases side
    exact ⟨rfl, rfl⟩
  · split at side
    · split at side
      · split_ifs at side <;> cases side <;> exact ⟨rfl, rfl⟩
      · cases side
        exact ⟨rfl, rfl⟩
    · cases side
      exact ⟨rfl, rfl⟩
  · next reply => exact absurd rfl (other reply)
  · cases side
    exact ⟨rfl, rfl⟩

/-- Handling a readable client begins a drain; no other step but a read touches it. -/
theorem kernel_side_drain {label : ServerLabel} (other : ∀ reply, label ≠ .recv reply)
    (side : wired.kernelSide label = some answered) :
    (answered.drain = wired.drain ∧ ∀ event rest owner, label = .dispatch →
        wired.server.point = .handling (event :: rest) →
        wired.server.kernel.clients event.fd = some owner → event.hangUp = true) ∨
      ∃ event rest owner, wired.server.point = .handling (event :: rest) ∧
        wired.server.kernel.clients event.fd = some owner ∧
        answered.drain = ⟨event.fd, owner, 0, false⟩ := by
  cases label with
  | dispatch =>
      simp only [WiredServer.kernelSide] at side
      split at side
      · next event rest handling =>
          split at side
          · next owner client =>
              split_ifs at side with hangUp
              · cases side
                refine .inl ⟨rfl, ?_⟩
                intro same _ _ _ again _
                rw [handling] at again
                cases again
                exact hangUp
              · cases side
                exact .inr ⟨event, rest, owner, handling, client, rfl⟩
          · next unknown =>
              cases side
              refine .inl ⟨rfl, ?_⟩
              intro same _ _ _ again client
              rw [handling] at again
              cases again
              rw [unknown] at client
              cases client
      · next elsewhere =>
          cases side
          exact .inl ⟨rfl, fun event rest _ _ handling _ => absurd handling (elsewhere event rest)⟩
  | recv reply => exact absurd rfl (other reply)
  | wait reply =>
      cases reply with
      | events batch =>
          simp only [WiredServer.kernelSide] at side
          split_ifs at side
          cases side
          exact .inl ⟨rfl, fun _ _ _ impossible => nomatch impossible⟩
      | _ =>
          cases side
          exact .inl ⟨rfl, fun _ _ _ impossible => nomatch impossible⟩
  | _ =>
      cases side
      exact .inl ⟨rfl, fun _ _ _ impossible => nomatch impossible⟩

theorem moves_of_recv {reply : StreamReply}
    (taken : wired.step (.server (.recv reply)) = some next) :
    wired.Moves next (.server (.recv reply)) := by
  obtain ⟨answered, side, served⟩ := Option.bind_eq_some_iff.mp taken
  obtain ⟨server, step, rfl⟩ := Option.map_eq_some_iff.mp served
  simp only [WiredServer.kernelSide, WiredServer.recvCall] at side
  split at side
  · next fd rest receiving =>
      split at side
      · next owner client =>
          obtain ⟨socket, found, rfl⟩ := Option.map_eq_some_iff.mp side
          simp only [Server.step, receiving] at step
          exact .receives reply fd rest owner socket rfl receiving client found step rfl rfl
      · cases side
  · cases side

theorem wired_moves {label : WireLabel} (taken : wired.step label = some next) :
    wired.Moves next label := by
  cases label with
  | write connection bytes =>
      simp only [WiredServer.step] at taken
      split_ifs at taken with finished
      cases taken
      refine .client connection ((wired.sockets connection).write bytes) ?_ (.inl rfl) rfl
      exact ⟨⟨bytes, rfl, rfl⟩, fun done => absurd done finished, id⟩
  | shutDown connection =>
      cases taken
      refine .client connection _ ?_ (.inr rfl) rfl
      exact ⟨⟨[], (List.append_nil _).symm, (List.append_nil _).symm⟩, fun _ => ⟨rfl, rfl⟩, id⟩
  | fail connection =>
      cases taken
      refine .client connection { wired.sockets connection with broken := true } ?_ (.inl rfl) rfl
      exact ⟨⟨[], (List.append_nil _).symm, (List.append_nil _).symm⟩, fun done => ⟨done, rfl⟩,
        fun _ => rfl⟩
  | server label =>
      by_cases receives : ∃ reply, label = .recv reply
      · obtain ⟨reply, rfl⟩ := receives
        exact moves_of_recv taken
      · have other : ∀ reply, label ≠ .recv reply := fun reply same => receives ⟨reply, same⟩
        obtain ⟨answered, side, served⟩ := Option.bind_eq_some_iff.mp taken
        obtain ⟨server, step, rfl⟩ := Option.map_eq_some_iff.mp served
        exact .serves label rfl step other (kernel_side_sockets other side).1 ⟨answered, side, rfl⟩

/-- Under the sockets runs the server of before. -/
theorem server_of_wired {first : WiredServer capacity} (reached : Reaches (wiredFrom first) wired) :
    Reaches (serverFrom first.server) wired.server := by
  induction reached with
  | start same =>
      rw [show _ = first from same]
      exact reaches_start rfl
  | @step state next label prior allowed taken ih =>
      cases wired_moves taken with
      | client connection socket grows finishes moved =>
          rw [moved]
          exact ih
      | serves of labelled step other sockets side => exact reaches_step ih step
      | receives reply fd rest owner socket labelled receiving client found step sockets drain =>
          have received : (serverFrom first.server).step state.server (.recv reply) =
              some next.server := by
            simp only [serverFrom, Server.step, receiving]
            exact step
          exact reaches_step ih received

end Moves

/-- The results of reads are the front of the queue. -/
theorem reads_front {messages : List (List UInt8)} {socket after : TcpSocket}
    (read : TcpSocket.reads messages socket = some after) :
    socket.unread = messages.flatten ++ after.unread ∧ after.finished = socket.finished ∧
      after.broken = socket.broken ∧ after.sent = socket.sent := by
  induction messages generalizing socket with
  | nil =>
      cases read
      exact ⟨rfl, rfl, rfl, rfl⟩
  | cons message more ih =>
      cases message with
      | nil =>
          simp only [TcpSocket.reads] at read
          split_ifs at read
          exact ih read
      | cons byte bytes =>
          simp only [TcpSocket.reads] at read
          split_ifs at read with inside
          obtain ⟨front, finished, broken, sent⟩ := ih read
          refine ⟨?_, finished, broken, sent⟩
          obtain ⟨behind, whole⟩ := inside.2
          have left_ : behind = more.flatten ++ after.unread := by
            rw [← front, ← whole, List.drop_left]
          rw [← whole, left_, List.flatten_cons, List.append_assoc]

def StreamReply.bytes : StreamReply → List UInt8
  | .messages first more => (first :: more).flatten
  | _ => []

theorem answer_front {socket after : TcpSocket} {reply : StreamReply}
    (answered : socket.answer reply = some after) :
    socket.unread = reply.bytes ++ after.unread ∧ after.finished = socket.finished ∧
      after.broken = socket.broken ∧ after.sent = socket.sent := by
  cases reply with
  | messages first more =>
      simp only [TcpSocket.answer] at answered
      split_ifs at answered
      exact reads_front answered
  | closed => cases answered
  | again =>
      simp only [TcpSocket.answer] at answered
      split_ifs at answered
      cases answered
      exact ⟨rfl, rfl, rfl, rfl⟩
  | interrupted => cases answered
  | failed =>
      simp only [TcpSocket.answer] at answered
      split_ifs at answered
      cases answered
      exact ⟨rfl, rfl, rfl, rfl⟩

end MarketDataEngine.Net
