import MarketDataEngine.EpollSockets

/-!
# What a hang-up costs

`run_server_loop` looks at the hang-up flags of an event before it reads. A client that
shuts down its side before the loop has read all of it is closed with the rest unread. The
rest is lost if it completes a frame; where it never does, every frame that was sent is
published or counted when the connection is closed.
-/

namespace MarketDataEngine.Net

open MarketDataEngine.Protocol MarketDataEngine.Containers MarketDataEngine.Engine
open MarketDataEngine.StreamBlocks MarketDataEngine.TransitionSystem

set_option autoImplicit false

variable {capacity : Capacity}

/-- No hang-up is handled while unread bytes would complete a frame, and every connection
is taken into the table and the epoll instance. -/
def TailConsumed (wired : WiredServer capacity) : WireLabel → Prop
  | .server .dispatch => ∀ event rest owner, wired.server.point = .handling (event :: rest) →
      wired.server.kernel.clients event.fd = some owner → event.hangUp = true →
        (wired.sockets owner).broken = false →
          ((wired.server.conns event.fd).have_ : Nat) + (wired.sockets owner).unread.length <
            kWireSize
  | .server (.accept (.connection cfd added)) =>
      (wired.sockets wired.server.kernel.nextConnection).broken = false →
        cfd < maxFd ∧ added = true
  | _ => True

def droppedFrames (log : List (Nat × Assembled)) : Nat :=
  log.countP fun entry => entry.2.isDropped

/-! ## Consuming a message -/

section Consuming

variable {server : Server capacity}

theorem consume_message_kernel (server : Server capacity) (fd owner : Nat)
    (message : List UInt8) : (server.consumeMessage fd owner message).kernel = server.kernel := by
  unfold Server.consumeMessage
  split_ifs <;> rfl

theorem consume_message_frames (server : Server capacity) {fd owner connection : Nat}
    (message : List UInt8) (other : owner ≠ connection) :
    framesOf (server.consumeMessage fd owner message).log connection =
      framesOf server.log connection := by
  unfold Server.consumeMessage
  split_ifs
  · exact (frames_of_append _ _ _ _).trans (by rw [if_neg other, List.append_nil])
  · rfl

/-- What the new frames add to the drops is what they add to the counter. -/
theorem consume_message_drops {fd owner : Nat} {message : List UInt8}
    (sound : PoolSound server.pool server.held)
    (holds : Holds (server.conns fd) (server.consumed owner)) (start : UInt64)
    (counted : server.metrics.drops = start + UInt64.ofNat (droppedFrames server.log)) :
    (server.consumeMessage fd owner message).metrics.drops =
      start + UInt64.ofNat (droppedFrames (server.consumeMessage fd owner message).log) := by
  unfold Server.consumeMessage
  split_ifs
  · have run := @consume_frames_consumed _ _ server.sink _ _ holds sound message
    obtain ⟨added, adds, -⟩ := run.added
    have assembled : (consumeFrames (server.conns fd) message server.sink).2.assembled = added :=
      adds.assembled
    simp only [assembled, adds.metrics, droppedFrames, List.countP_append, List.countP_map]
    rw [UInt64.ofNat_add, ← UInt64.add_assoc, ← droppedFrames, ← counted]
    rfl
  · exact counted

end Consuming

/-! ## Streams and hang-ups -/

/-- What a client sent is what the server received and what is left in the queue; an event
that reports a hang-up has a reason. -/
structure Streams (first wired : WiredServer capacity) : Prop where
  sent : ∀ connection, (wired.sockets connection).sent =
    wired.server.kernel.received connection ++ (wired.sockets connection).unread
  hangUps : ∀ event ∈ wired.server.point.rest, event.hangUp = true →
    ∀ owner, wired.server.kernel.clients event.fd = some owner →
      (wired.sockets owner).finished = true ∨ (wired.sockets owner).broken = true
  drops : wired.server.metrics.drops =
    first.server.metrics.drops + UInt64.ofNat (droppedFrames wired.server.log)

section Streams

variable {first wired next : WiredServer capacity}

/-- The events that a step leaves for later: reported just now, or left before and about
the same connection. -/
theorem rest_step {server after : Server capacity} {opening : Server capacity}
    (apart : Apart opening server) {label : ServerLabel} (effect : server.Effect label after)
    {event : EpollEvent} (later : event ∈ after.point.rest) {owner : Nat}
    (client : after.kernel.clients event.fd = some owner) :
    (∃ batch, label = .wait (.events batch) ∧ event ∈ batch ∧
        server.kernel.clients event.fd = some owner) ∨
      event ∈ server.point.rest ∧ server.kernel.clients event.fd = some owner := by
  cases effect with
  | idles idles quiet =>
      rw [idles.clients] at client
      exact .inr ⟨idles.rest event later, client⟩
  | reported waiting => exact .inl ⟨_, rfl, later, client⟩
  | hungUp handling hangUp other =>
      rw [handling]
      exact .inr ⟨List.mem_cons_of_mem _ later, (client_of_close client).2⟩
  | drains handling readable other =>
      rw [handling]
      exact .inr ⟨List.mem_cons_of_mem _ later, client⟩
  | @accepted rest cfd conns accepting fresh different initialised =>
      have at_ := apart.at_point
      rw [accepting] at at_
      have now : event ∈ rest := by
        simp only [accepting] at later
        exact later
      rcases client_of_open client with ⟨same, -⟩ | ⟨-, before⟩
      · exfalso
        rcases at_.reported event now with wake | listen | watched
        · exact different.2 (same.symm.trans wake)
        · exact different.1 (same.symm.trans listen)
        · exact not_watched apart.connected fresh (same ▸ watched)
      · exact .inr ⟨later, before⟩
  | turnedAway accepting fresh different refused =>
      obtain ⟨apart_, opened⟩ := client_of_close client
      rcases client_of_open opened with ⟨same, -⟩ | ⟨-, before⟩
      · exact absurd same apart_
      · exact .inr ⟨later, before⟩
  | received receiving its =>
      rw [receiving]
      exact .inr ⟨later, client⟩
  | again receiving =>
      rw [receiving]
      exact .inr ⟨later, client⟩
  | broke receiving ended =>
      rw [receiving]
      exact .inr ⟨later, (client_of_close client).2⟩
  | consumed consuming =>
      rw [consuming]
      have same := consume_message_kernel server _ _ _ ▸ client
      exact .inr ⟨later, same⟩

/-- Reading is the only step that adds to a received stream. -/
theorem received_step {server after : Server capacity} {label : ServerLabel}
    (effect : server.Effect label after) (other : ∀ reply, label ≠ .recv reply) :
    after.kernel.received = server.kernel.received := by
  cases effect with
  | idles idles quiet => exact idles.received
  | received receiving its => exact absurd rfl (other _)
  | again receiving => exact absurd rfl (other _)
  | broke receiving ended => exact absurd rfl (other _)
  | consumed consuming => exact congrArg Kernel.received (consume_message_kernel server _ _ _)
  | _ => rfl

theorem drops_step {server after opening : Server capacity} (apart : Apart opening server)
    {label : ServerLabel} (effect : server.Effect label after) (start : UInt64)
    (counted : server.metrics.drops = start + UInt64.ofNat (droppedFrames server.log)) :
    after.metrics.drops = start + UInt64.ofNat (droppedFrames after.log) := by
  cases effect with
  | idles idles quiet =>
      rw [idles.metrics, idles.log]
      exact counted
  | consumed consuming =>
      have at_ := apart.at_point
      rw [consuming] at at_
      obtain ⟨connection, owns⟩ := apart.connected.owns _ at_.1.mine
      obtain rfl := Option.some.inj (owns.client.symm.trans at_.2)
      exact consume_message_drops apart.recorded.sound owns.holds start counted
  | _ => exact counted

theorem recv_step_received {server after : Server capacity} {fd owner : Nat}
    {rest : List EpollEvent} {reply : StreamReply}
    (client : server.kernel.clients fd = some owner)
    (taken : server.recvStep fd rest reply = some after) :
    after.kernel.received = Function.update server.kernel.received owner
      (server.kernel.received owner ++ reply.bytes) := by
  cases reply with
  | messages first more =>
      simp only [Server.recvStep, client] at taken
      cases taken
      rfl
  | _ =>
      cases taken
      exact ((congrArg (Function.update _ owner) (List.append_nil _)).trans
        (Function.update_eq_self owner _)).symm

theorem streams_start (initial : first.Initial) : Streams first first := by
  refine ⟨?_, ?_, ?_⟩
  · intro connection
    rw [initial.sockets, initial.server.received]
    rfl
  · rw [initial.server.point]
    exact List.forall_mem_nil _
  · rw [initial.server.log]
    exact (UInt64.add_zero _).symm

/-- A client adds to its queue and to the history alike. -/
theorem streams_client (streams : Streams first wired) {connection : Nat} {socket : TcpSocket}
    (grows : (wired.sockets connection).Grows socket) :
    Streams first (wired.setSocket connection socket) := by
  refine ⟨?_, ?_, streams.drops⟩
  · intro other
    simp only [WiredServer.setSocket, Function.update_apply]
    split_ifs with same
    · obtain ⟨bytes, unread, sent⟩ := grows.written
      rw [unread, sent, same, streams.sent connection, List.append_assoc]
    · exact streams.sent other
  · intro event later hangUp owner client
    simp only [WiredServer.setSocket, Function.update_apply]
    have before := streams.hangUps event later hangUp owner client
    split_ifs with same
    · rw [same] at before
      exact before.imp (fun finished => (grows.finished finished).1) grows.broken
    · exact before

theorem streams_serve (apart : Apart first.server wired.server) (streams : Streams first wired)
    {of : ServerLabel} (taken : wired.server.step of = some next.server)
    (other : ∀ reply, of ≠ .recv reply) (sockets : next.sockets = wired.sockets)
    {answered : WiredServer capacity} (side : wired.kernelSide of = some answered) :
    Streams first next := by
  have effect := server_step_effect taken
  refine ⟨?_, ?_, drops_step apart effect _ streams.drops⟩
  · intro connection
    rw [sockets, received_step effect other]
    exact streams.sent connection
  · intro event later hangUp owner client
    rw [sockets]
    rcases rest_step apart effect later client with ⟨batch, rfl, member, its⟩ | ⟨before, its⟩
    · simp only [WiredServer.kernelSide] at side
      split_ifs at side with reported
      have reason := List.all_eq_true.mp reported event member
      simp only [WiredServer.reports, its, TcpSocket.reports, hangUp, ↓reduceIte,
        Bool.or_eq_true] at reason
      exact reason
    · exact streams.hangUps event before hangUp owner its

theorem streams_receive (apart : Apart first.server wired.server) (streams : Streams first wired)
    {reply : StreamReply} {fd owner : Nat} {rest : List EpollEvent} {socket : TcpSocket}
    (receiving : wired.server.point = .receiving fd rest)
    (client : wired.server.kernel.clients fd = some owner)
    (answered : (wired.sockets owner).answer reply = some socket)
    (taken : wired.server.recvStep fd rest reply = some next.server)
    (sockets : next.sockets = Function.update wired.sockets owner socket) :
    Streams first next := by
  have effect := recv_effect receiving taken
  obtain ⟨front, finished, broken, sent⟩ := answer_front answered
  refine ⟨?_, ?_, drops_step apart effect _ streams.drops⟩
  · intro connection
    rw [sockets, recv_step_received client taken, Function.update_apply, Function.update_apply]
    split_ifs with same
    · rw [sent, streams.sent owner, front, List.append_assoc]
    · exact streams.sent connection
  · intro event later hangUp its client'
    rw [sockets, Function.update_apply]
    rcases rest_step apart effect later client' with ⟨batch, impossible, -⟩ | ⟨before, same⟩
    · cases impossible
    · have reason := streams.hangUps event before hangUp its same
      split_ifs with mine
      · rw [finished, broken, ← mine]
        exact reason
      · exact reason

theorem streams_step (apart : Apart first.server wired.server) (streams : Streams first wired)
    {label : WireLabel} (taken : wired.step label = some next) : Streams first next := by
  cases wired_moves taken with
  | client connection socket grows finishes moved =>
      rw [moved]
      exact streams_client streams grows
  | serves of labelled step other sockets side =>
      obtain ⟨answered, side, -⟩ := side
      exact streams_serve apart streams step other sockets side
  | receives reply fd rest owner socket labelled receiving client answered step sockets drain =>
      exact streams_receive apart streams receiving client answered step sockets

theorem apart_of_wired (initial : first.Initial) (reached : Reaches (wiredFrom first) wired) :
    Apart first.server wired.server :=
  apart_of_reaches initial.server (server_of_wired reached)

theorem streams_of_reaches (initial : first.Initial) (reached : Reaches (wiredFrom first) wired) :
    Streams first wired := by
  refine invariant_of_step ?_ ?_ reached
  · intro start same
    rw [show start = first from same]
    exact streams_start initial
  · intro state label next run before _ taken
    exact streams_step (apart_of_wired initial run) before taken

end Streams

/-! ## Closed connections -/

/-- The client of a closed connection had shut down its side, and all its frames were
assembled. -/
def AllAssembled (wired : WiredServer capacity) : Prop :=
  ∀ connection, wired.Closed connection → (wired.sockets connection).broken = false →
    (wired.sockets connection).finished = true ∧
      framesOf wired.server.log connection =
        blocks kWireSize (wired.sockets connection).sent

section Closed

variable {first wired next : WiredServer capacity}

/-- Descriptors of other connections come and go without changing what is closed. -/
theorem closed_of_step {server after : Server capacity} {connection : Nat}
    (closed : connection < after.kernel.nextConnection ∧
      ∀ fd, after.kernel.clients fd ≠ some connection)
    (born : connection < server.kernel.nextConnection)
    (kept : ∀ fd, server.kernel.clients fd = some connection →
      after.kernel.clients fd = some connection) :
    connection < server.kernel.nextConnection ∧
      ∀ fd, server.kernel.clients fd ≠ some connection :=
  ⟨born, fun fd client => closed.2 fd (kept fd client)⟩

/-- A close leaves the other connections their descriptors. -/
theorem client_behind_close {kernel : Kernel} {fd other connection : Nat}
    (apart : kernel.clients fd ≠ some connection) (client : kernel.clients other = some connection) :
    (kernel.close fd).clients other = some connection := by
  have different : other ≠ fd := by
    rintro rfl
    exact apart client
  exact (Function.update_of_ne different _ _).trans client

theorem client_behind_open {kernel : Kernel} {fd other connection : Nat}
    (fresh : kernel.clients fd = none) (client : kernel.clients other = some connection) :
    (kernel.openClient fd).clients other = some connection := by
  have different : other ≠ fd := by
    rintro rfl
    rw [fresh] at client
    cases client
  exact (Function.update_of_ne different _ _).trans client

/-- A step closes a connection at a hang-up, behind a failed read, or as soon as it is
accepted; any other connection that is closed behind the step was closed before it. -/
theorem closed_step {server after : Server capacity} {label : ServerLabel}
    (effect : server.Effect label after) {connection : Nat}
    (closed : connection < after.kernel.nextConnection ∧
      ∀ fd, after.kernel.clients fd ≠ some connection) :
    (connection < server.kernel.nextConnection ∧
        ∀ fd, server.kernel.clients fd ≠ some connection) ∨
      (∃ event rest, label = .dispatch ∧ server.point = .handling (event :: rest) ∧
        event.hangUp = true ∧ event.fd ≠ server.wakeFd ∧ event.fd ≠ server.listenFd ∧
        server.kernel.clients event.fd = some connection) ∨
      (∃ fd rest reply, label = .recv reply ∧ (reply = .closed ∨ reply = .failed) ∧
        server.point = .receiving fd rest ∧ server.kernel.clients fd = some connection) ∨
      (∃ cfd added, label = .accept (.connection cfd added) ∧
        (maxFd ≤ cfd ∨ added = false) ∧ connection = server.kernel.nextConnection) := by
  cases effect with
  | idles idles quiet =>
      rw [idles.clients, idles.connections] at closed
      exact .inl closed
  | reported waiting => exact .inl closed
  | @hungUp event rest handling hangUp other =>
      by_cases mine : server.kernel.clients event.fd = some connection
      · exact .inr (.inl ⟨event, rest, rfl, handling, hangUp, other.1, other.2, mine⟩)
      · exact .inl (closed_of_step closed closed.1 fun _ client => client_behind_close mine client)
  | drains handling readable other => exact .inl closed
  | @accepted rest cfd conns accepting fresh different initialised =>
      have born : connection ≠ server.kernel.nextConnection := by
        rintro rfl
        exact closed.2 cfd (Function.update_self _ _ _)
      have early : connection < server.kernel.nextConnection + 1 := closed.1
      exact .inl (closed_of_step closed (by omega) fun _ client => client_behind_open fresh client)
  | @turnedAway rest cfd added conns accepting fresh different refused =>
      have early : connection < server.kernel.nextConnection + 1 := closed.1
      by_cases new : connection = server.kernel.nextConnection
      · exact .inr (.inr (.inr ⟨cfd, added, rfl, refused, new⟩))
      · refine .inl (closed_of_step closed (by omega) ?_)
        intro fd client
        apply client_behind_close
        · intro mine
          have its : (server.kernel.openClient cfd).clients cfd =
              some server.kernel.nextConnection := Function.update_self _ _ _
          exact new (Option.some.inj (mine.symm.trans its))
        · exact client_behind_open fresh client
  | received receiving its => exact .inl closed
  | again receiving => exact .inl closed
  | @broke fd rest reply receiving ended =>
      by_cases mine : server.kernel.clients fd = some connection
      · exact .inr (.inr (.inl ⟨fd, rest, reply, rfl, ended, receiving, mine⟩))
      · exact .inl (closed_of_step closed closed.1 fun _ client => client_behind_close mine client)
  | consumed consuming =>
      have same := consume_message_kernel server _ _ _ ▸ closed
      exact .inl same

/-- Nobody assembles frames of a closed connection. -/
theorem frames_step {opening server after : Server capacity} (apart : Apart opening server)
    {label : ServerLabel} (effect : server.Effect label after) {connection : Nat}
    (closed : ∀ fd, server.kernel.clients fd ≠ some connection) :
    framesOf after.log connection = framesOf server.log connection := by
  cases effect with
  | idles idles quiet => rw [idles.log]
  | @consumed fd owner message more rest consuming =>
      have at_ := apart.at_point
      rw [consuming] at at_
      have other : owner ≠ connection := by
        rintro rfl
        exact closed fd at_.2
      exact consume_message_frames server message other
  | _ => rfl

theorem dispatch_log {server after : Server capacity} (effect : server.Effect .dispatch after) :
    after.log = server.log := by
  cases effect with
  | idles idles quiet => exact idles.log
  | hungUp handling hangUp other => rfl
  | drains handling readable other => rfl

/-- A hang-up with nothing left that would complete a frame. -/
theorem assembled_at_hang_up (apart : Apart first.server wired.server)
    (streams : Streams first wired) {event : EpollEvent} {rest : List EpollEvent}
    (handling : wired.server.point = .handling (event :: rest))
    (client : event.fd ≠ wired.server.wakeFd ∧ event.fd ≠ wired.server.listenFd)
    {connection : Nat} (its : wired.server.kernel.clients event.fd = some connection)
    (short : ((wired.server.conns event.fd).have_ : Nat) +
      (wired.sockets connection).unread.length < kWireSize) :
    framesOf wired.server.log connection = blocks kWireSize (wired.sockets connection).sent := by
  have at_ := apart.at_point
  rw [handling] at at_
  have watched : event.fd ∈ wired.server.kernel.watched :=
    ((at_.reported event List.mem_cons_self).resolve_left client.1).resolve_left client.2
  obtain ⟨owner, owns⟩ := apart.connected.owns event.fd watched
  obtain rfl := Option.some.inj (owns.client.symm.trans its)
  have received := received_idle apart (idle_at handling fun _ => rfl) owner
  rw [List.append_nil] at received
  have positive : 0 < kWireSize := by decide
  have few : (leftover kWireSize (wired.server.consumed owner) ++
      (wired.sockets owner).unread).length < kWireSize := by
    rw [List.length_append, leftover_length, ← owns.holds.have_eq]
    exact short
  rw [apart.recorded.frames owner, streams.sent owner, received,
    (blocks_append positive _ _).1, (blocks_of_short few).1, List.append_nil]

theorem all_assembled_client (assembled : AllAssembled wired) {connection : Nat}
    {socket : TcpSocket} (grows : (wired.sockets connection).Grows socket) :
    AllAssembled (wired.setSocket connection socket) := by
  intro other closed clean
  simp only [WiredServer.setSocket, Function.update_apply] at clean ⊢
  split_ifs at clean ⊢ with same
  · have before : (wired.sockets other).broken = false := by
      rw [same]
      by_contra broken
      have after := grows.broken (Bool.eq_true_of_not_eq_false broken)
      rw [clean] at after
      cases after
    obtain ⟨finished, frames⟩ := assembled other closed before
    rw [same] at finished frames ⊢
    obtain ⟨still, sent⟩ := grows.finished finished
    rw [sent]
    exact ⟨still, frames⟩
  · exact assembled other closed clean

theorem all_assembled_serve (apart : Apart first.server wired.server)
    (streams : Streams first wired) (assembled : AllAssembled wired) {of : ServerLabel}
    (consumed : TailConsumed wired (.server of))
    (taken : wired.server.step of = some next.server) (sockets : next.sockets = wired.sockets)
    (other : ∀ reply, of ≠ .recv reply) : AllAssembled next := by
  have effect := server_step_effect taken
  intro connection closed clean
  rw [sockets] at clean ⊢
  rcases closed_step effect closed with before | hangUp | failed | refused
  · rw [frames_step apart effect before.2]
    exact assembled connection before clean
  · obtain ⟨event, rest, rfl, handling, hangUp, wake, listen, its⟩ := hangUp
    have short := consumed event rest connection handling its hangUp clean
    have member : event ∈ wired.server.point.rest := by
      rw [handling]
      exact List.mem_cons_self
    have finished := (streams.hangUps event member hangUp connection its).resolve_right
      (by rw [clean]; exact Bool.false_ne_true)
    refine ⟨finished, ?_⟩
    rw [dispatch_log effect]
    exact assembled_at_hang_up apart streams handling ⟨wake, listen⟩ its short
  · obtain ⟨fd, rest, reply, rfl, -⟩ := failed
    exact absurd rfl (other reply)
  · obtain ⟨cfd, added, rfl, away, rfl⟩ := refused
    obtain ⟨inside, taken_⟩ := consumed clean
    rcases away with large | unwatched
    · exact absurd inside (Nat.not_lt.mpr large)
    · rw [taken_] at unwatched
      cases unwatched

theorem all_assembled_receive (apart : Apart first.server wired.server)
    (assembled : AllAssembled wired) {reply : StreamReply} {fd owner : Nat}
    {rest : List EpollEvent} {socket : TcpSocket}
    (receiving : wired.server.point = .receiving fd rest)
    (client : wired.server.kernel.clients fd = some owner)
    (answered : (wired.sockets owner).answer reply = some socket)
    (taken : wired.server.recvStep fd rest reply = some next.server)
    (sockets : next.sockets = Function.update wired.sockets owner socket) :
    AllAssembled next := by
  have effect := recv_effect receiving taken
  obtain ⟨-, finished, broken, sent⟩ := answer_front answered
  intro connection closed clean
  rw [sockets, Function.update_apply] at clean ⊢
  rcases closed_step effect closed with before | ⟨_, _, impossible, -⟩ | failed |
      ⟨_, _, impossible, -⟩
  · have other : connection ≠ owner := by
      rintro rfl
      exact before.2 fd client
    rw [if_neg other] at clean ⊢
    rw [frames_step apart effect before.2]
    exact assembled connection before clean
  · cases impossible
  · obtain ⟨fd', rest', reply', same, ended, receiving', its⟩ := failed
    rw [receiving] at receiving'
    cases receiving'
    cases same
    obtain rfl : owner = connection := Option.some.inj (client.symm.trans its)
    rw [if_pos rfl, broken] at clean
    rcases ended with rfl | rfl
    · cases answered
    · simp [TcpSocket.answer, clean] at answered
  · cases impossible

theorem all_assembled_step (apart : Apart first.server wired.server)
    (streams : Streams first wired) (assembled : AllAssembled wired) {label : WireLabel}
    (consumed : TailConsumed wired label) (taken : wired.step label = some next) :
    AllAssembled next := by
  cases wired_moves taken with
  | client connection socket grows finishes moved =>
      rw [moved]
      exact all_assembled_client assembled grows
  | serves of labelled step other sockets side =>
      rw [labelled] at consumed
      exact all_assembled_serve apart streams assembled consumed step sockets other
  | receives reply fd rest owner socket labelled receiving client answered step sockets drain =>
      exact all_assembled_receive apart assembled receiving client answered step sockets

end Closed

/-- Every whole frame that the client sent was assembled, in order; what is assembled goes
through the ready ring or is counted in `drops`. -/
structure FramesKept (first wired : WiredServer capacity) (connection : Nat) : Prop where
  finished : (wired.sockets connection).finished = true
  count : (framesOf wired.server.log connection).length =
    (wired.sockets connection).sent.length / kWireSize
  frames : framesOf wired.server.log connection =
    blocks kWireSize (wired.sockets connection).sent
  ready : first.server.sink.readyFrames ++
      wired.server.log.filterMap (fun entry => entry.2.publishedFrame) =
    wired.server.drained ++ wired.server.sink.readyFrames
  drops : wired.server.metrics.drops =
    first.server.metrics.drops + UInt64.ofNat (droppedFrames wired.server.log)

/-- Whatever the clients and the kernel do, as long as no hang-up comes before the end of a
frame has been read. -/
theorem closed_clients_consumed {first wired : WiredServer capacity} (initial : first.Initial)
    (reached : ReachesUnder (wiredFrom first) TailConsumed wired) {connection : Nat}
    (closed : wired.Closed connection)
    (clean : (wired.sockets connection).broken = false) : FramesKept first wired connection := by
  have assembled : AllAssembled wired := by
    refine invariant_of_step ?_ ?_ reached
    · intro start same
      rw [show start = first from same]
      intro other impossible
      have none_ := impossible.1
      rw [initial.connections] at none_
      exact absurd none_ (Nat.not_lt_zero other)
    · intro state label next run before consumed taken
      have run := reaches_of_reaches_under run
      exact all_assembled_step (apart_of_wired initial run) (streams_of_reaches initial run) before
        consumed taken
  have run := reaches_of_reaches_under reached
  obtain ⟨finished, frames⟩ := assembled connection closed clean
  refine ⟨finished, ?_, frames, (apart_of_wired initial run).recorded.ready,
    (streams_of_reaches initial run).drops⟩
  rw [frames, blocks, List.length_map, List.length_range]

/-- The guard as a test. -/
def tailConsumed (wired : WiredServer capacity) : WireLabel → Bool
  | .server .dispatch =>
      match wired.server.point with
      | .handling (event :: _) =>
          match wired.server.kernel.clients event.fd with
          | some owner =>
              !event.hangUp || (wired.sockets owner).broken ||
                decide (((wired.server.conns event.fd).have_ : Nat) +
                  (wired.sockets owner).unread.length < kWireSize)
          | none => true
      | _ => true
  | .server (.accept (.connection cfd added)) => decide (cfd < maxFd) && added
  | _ => true

theorem tail_consumed_of_check (wired : WiredServer capacity) (label : WireLabel)
    (checked : tailConsumed wired label = true) : TailConsumed wired label := by
  unfold TailConsumed
  split
  · intro event rest owner handling client hangUp clean
    simpa [tailConsumed, handling, client, hangUp, clean] using checked
  · intro _
    simpa [tailConsumed] using checked
  · trivial

def newWired : WiredServer fourSlots := ⟨newServer, fun _ => .fresh, ⟨0, 0, 0, false⟩⟩

theorem new_wired_initial : newWired.Initial where
  server := ⟨rfl, fun _ => rfl, rfl, fun _ => rfl, fun _ => ⟨rfl, rfl⟩, fun _ => rfl, rfl, rfl,
    pool_sound_init _⟩
  connections := rfl
  drain := rfl
  sockets := fun _ => rfl

/-- The server starts and accepts a client as descriptor 5. -/
def clientAccepted : List WireLabel :=
  [.start 3 4, .wait (.events [⟨3, false⟩]), .dispatch, .accept (.connection 5 true),
    .accept .again, .dispatch].map .server

/-- A frame is read before the client shuts down its side; then the hang-up is reported. -/
def frameThenHangUp : List WireLabel :=
  clientAccepted ++ [WireLabel.write 0 (List.replicate 44 7)] ++
    [ServerLabel.wait (.events [⟨5, false⟩]), .dispatch,
      .recv (.messages (List.replicate 44 7) []), .consume, .consume, .recv .again,
      .dispatch].map WireLabel.server ++
    [WireLabel.shutDown 0, .server (.wait (.events [⟨5, true⟩]))]

theorem clients_behind_five (connection fd : Nat) :
    Function.update (Function.update (fun _ => none) 5 (some connection)) 5 none fd ≠
      some connection := by
  rw [Function.update_idem, Function.update_apply]
  split_ifs <;> exact nofun

theorem frame_kept_before_hang_up :
    ∃ wired, ReachesUnder (wiredFrom newWired) TailConsumed wired ∧ wired.Closed 0 ∧
      (framesOf wired.server.log 0).length = 1 ∧ FramesKept newWired wired 0 := by
  have begun : ReachesUnder (wiredFrom newWired) TailConsumed newWired := .start rfl
  obtain ⟨wired, run, point, clients, wake, listen, received, sockets, connections⟩ :
      ∃ wired, runChecked (wiredFrom newWired) tailConsumed newWired frameThenHangUp =
          some wired ∧
        wired.server.point = .handling [⟨5, true⟩] ∧
        wired.server.kernel.clients = Function.update (fun _ => none) 5 (some 0) ∧
        wired.server.wakeFd = 4 ∧ wired.server.listenFd = 3 ∧
        wired.server.kernel.received 0 = List.replicate 44 7 ∧
        wired.sockets 0 = ⟨[], true, false, List.replicate 44 7⟩ ∧
        wired.server.kernel.nextConnection = 1 :=
    ⟨_, rfl, rfl, rfl, rfl, rfl, rfl, rfl, rfl⟩
  have reached := reaches_under_run tail_consumed_of_check begun run
  have apart := apart_of_wired new_wired_initial (reaches_of_reaches_under reached)
  have client : wired.server.kernel.clients 5 = some 0 := by rw [clients, Function.update_self]
  have consumed : wired.server.consumed 0 = List.replicate 44 7 := by
    have all := received_idle apart (idle_at point fun _ => rfl) 0
    rw [List.append_nil, received] at all
    exact all.symm
  have nothing : ((wired.server.conns 5).have_ : Nat) = 0 := by
    have at_ := apart.at_point
    rw [point] at at_
    have watched := ((at_.reported ⟨5, true⟩ List.mem_cons_self).resolve_left
      (by rw [wake]; decide)).resolve_left (by rw [listen]; decide)
    obtain ⟨owner, owns⟩ := apart.connected.owns 5 watched
    obtain rfl := Option.some.inj (owns.client.symm.trans client)
    rw [owns.holds.have_eq, consumed]
    rfl
  have guarded : TailConsumed wired (.server .dispatch) := by
    intro event rest owner handling its hangUp clean
    rw [point] at handling
    cases handling
    obtain rfl := Option.some.inj (client.symm.trans its)
    rw [nothing, sockets]
    decide
  have taken : (wiredFrom newWired).step wired (.server .dispatch) = some { wired with
      server := (wired.server.closeClient 5).goto (.handling []) } := by
    simp [wiredFrom, WiredServer.step, WiredServer.kernelSide, Server.step, point, client,
      Server.dispatchStep, wake, listen]
  have closes := ReachesUnder.step reached guarded taken
  have closed : WiredServer.Closed { wired with
      server := (wired.server.closeClient 5).goto (.handling []) } 0 := by
    have born : 0 < wired.server.kernel.nextConnection := by rw [connections]; decide
    refine ⟨born, ?_⟩
    intro fd
    show Function.update wired.server.kernel.clients 5 none fd ≠ some 0
    rw [clients]
    exact clients_behind_five 0 fd
  have kept := closed_clients_consumed new_wired_initial closes closed (by rw [sockets])
  refine ⟨_, closes, closed, ?_, kept⟩
  rw [kept.count, sockets]
  rfl

/-- The client sends a frame and shuts down its side before the loop comes to wait. -/
def frameWithHangUp : List WireLabel :=
  [WireLabel.write 0 (List.replicate 44 7), .shutDown 0] ++ clientAccepted ++
    [ServerLabel.wait (.events [⟨5, true⟩]), .dispatch].map WireLabel.server

theorem frame_lost_at_hang_up :
    ¬ ∀ wired, Reaches (wiredFrom newWired) wired → ∀ connection, wired.Closed connection →
      (wired.sockets connection).broken = false →
        (framesOf wired.server.log connection).length =
          (wired.sockets connection).sent.length / kWireSize := by
  intro consumed
  obtain ⟨wired, run, clients, connections, log, sockets⟩ :
      ∃ wired, runLabels (wiredFrom newWired) newWired frameWithHangUp = some wired ∧
        wired.server.kernel.clients =
          Function.update (Function.update (fun _ => none) 5 (some 0)) 5 none ∧
        wired.server.kernel.nextConnection = 1 ∧ wired.server.log = [] ∧
        wired.sockets 0 = ⟨List.replicate 44 7, true, false, List.replicate 44 7⟩ :=
    ⟨_, rfl, rfl, rfl, rfl, rfl⟩
  have begun : Reaches (wiredFrom newWired) newWired := reaches_start rfl
  have closed : wired.Closed 0 := by
    refine ⟨by rw [connections]; decide, ?_⟩
    intro fd
    rw [clients]
    exact clients_behind_five 0 fd
  have one := consumed wired (reaches_run begun run) 0 closed (by rw [sockets])
  rw [log, sockets] at one
  revert one
  decide

end MarketDataEngine.Net
