import MarketDataEngine.EpollHangUps

/-!
# The drain loop and the end of the stream

The loop around `recvmmsg` ends when a call would block, fails or returns 0. At the end of
the stream it does none of these: every read gives zero bytes and counts. While the client
keeps its side open each call but the last takes a byte at least, so a drain makes at most
one call more than there are bytes; once the client has shut down its side the loop is never
left.
-/

namespace MarketDataEngine.Net

open MarketDataEngine.Protocol MarketDataEngine.Containers MarketDataEngine.Engine
open MarketDataEngine.StreamBlocks MarketDataEngine.TransitionSystem

set_option autoImplicit false

variable {capacity : Capacity}

/-- The descriptor is being drained, or reported readable and will be. -/
def LoopPoint.AwaitsDrain (point : LoopPoint) (fd : Nat) : Prop :=
  point.draining = some fd ∨ ∃ event ∈ point.rest, event.hangUp = false ∧ event.fd = fd

/-- No client's shut-down becomes visible between the report that its connection is readable
and the end of the drain. -/
def OpenWhileDrained (wired : WiredServer capacity) : WireLabel → Prop
  | .shutDown connection => ∀ fd, wired.server.kernel.clients fd = some connection →
      ¬ wired.server.point.AwaitsDrain fd
  | _ => True

/-! ## One step -/

section Steps

variable {first wired next : WiredServer capacity}

/-- A drain goes on over the same connection, or begins with the event in front. -/
theorem draining_step {server after : Server capacity} {label : ServerLabel}
    (effect : server.Effect label after) {fd : Nat} (draining : after.point.draining = some fd) :
    (server.point.draining = some fd ∧ after.kernel.clients = server.kernel.clients) ∨
      ∃ event rest, label = .dispatch ∧ server.point = .handling (event :: rest) ∧
        event.hangUp = false ∧ event.fd = fd ∧ event.fd ≠ server.wakeFd ∧
        event.fd ≠ server.listenFd ∧ after.kernel = server.kernel := by
  cases effect with
  | idles idles quiet =>
      rcases idles.draining with none_ | same | ⟨other, owner, rest, consuming, receiving⟩
      · rw [none_] at draining
        cases draining
      · rw [same] at draining
        exact .inl ⟨draining, idles.clients⟩
      · rw [receiving] at draining
        rw [consuming]
        exact .inl ⟨draining, idles.clients⟩
  | reported waiting => cases draining
  | hungUp handling hangUp other => cases draining
  | @drains event rest handling readable other =>
      exact .inr ⟨event, rest, rfl, handling, readable, Option.some.inj draining, other.1,
        other.2, rfl⟩
  | accepted accepting fresh different initialised =>
      have still : server.point.draining = some fd := draining
      rw [accepting] at still
      cases still
  | turnedAway accepting fresh different refused =>
      have still : server.point.draining = some fd := draining
      rw [accepting] at still
      cases still
  | received receiving its =>
      rw [receiving]
      exact .inl ⟨draining, rfl⟩
  | again receiving => cases draining
  | broke receiving ended => cases draining
  | consumed consuming =>
      rw [consuming]
      exact .inl ⟨draining, congrArg Kernel.clients (consume_message_kernel server _ _ _)⟩

/-- What awaits a drain behind a step awaited it before or was reported just now. -/
theorem awaits_step {opening server after : Server capacity} (apart : Apart opening server)
    {label : ServerLabel} (effect : server.Effect label after) {fd owner : Nat}
    (awaits : after.point.AwaitsDrain fd) (client : after.kernel.clients fd = some owner) :
    (server.point.AwaitsDrain fd ∧ server.kernel.clients fd = some owner) ∨
      ∃ batch event, label = .wait (.events batch) ∧ event ∈ batch ∧ event.hangUp = false ∧
        event.fd = fd ∧ server.kernel.clients fd = some owner := by
  rcases awaits with draining | ⟨event, later, readable, rfl⟩
  · rcases draining_step effect draining with ⟨before, clients⟩ |
      ⟨event, rest, -, handling, readable, same, -, -, kernel⟩
    · rw [clients] at client
      exact .inl ⟨.inl before, client⟩
    · rw [kernel] at client
      refine .inl ⟨.inr ⟨event, ?_, readable, same⟩, client⟩
      rw [handling]
      exact List.mem_cons_self
  · rcases rest_step apart effect later client with ⟨batch, rfl, member, its⟩ | ⟨before, its⟩
    · exact .inr ⟨batch, event, rfl, member, readable, rfl, its⟩
    · exact .inl ⟨.inr ⟨event, before, readable, rfl⟩, its⟩

end Steps

/-! ## The calls of a drain -/

/-- What waits to be drained has not ended. -/
def StillOpen (wired : WiredServer capacity) : Prop :=
  ∀ fd owner, wired.server.point.AwaitsDrain fd →
    wired.server.kernel.clients fd = some owner → (wired.sockets owner).finished = false

/-- Each call of the running drain has taken a byte; the last one of a drain may have been
in vain. -/
structure DrainCounted (wired : WiredServer capacity) : Prop where
  running : ∀ fd, wired.server.point.draining = some fd →
    wired.server.kernel.clients fd = some wired.drain.owner ∧
      wired.drain.calls ≤ (wired.server.kernel.received wired.drain.owner).length
  bounded : wired.drain.calls ≤ (wired.sockets wired.drain.owner).sent.length + 1
  unseen : wired.drain.sawEnd = false

section Calls

variable {first wired next : WiredServer capacity}

theorem still_open_client (opened : StillOpen wired) {label : WireLabel}
    (guarded : OpenWhileDrained wired label) {connection : Nat} {socket : TcpSocket}
    (finishes : socket.finished = (wired.sockets connection).finished ∨
      label = .shutDown connection) : StillOpen (wired.setSocket connection socket) := by
  intro fd owner awaits client
  simp only [WiredServer.setSocket, Function.update_apply]
  have before := opened fd owner awaits client
  split_ifs with same
  · rcases finishes with unchanged | rfl
    · rw [unchanged, ← same]
      exact before
    · rw [same] at client
      exact absurd awaits (guarded fd client)
  · exact before

theorem still_open_serve (apart : Apart first.server wired.server) (opened : StillOpen wired)
    {of : ServerLabel} (taken : wired.server.step of = some next.server)
    (sockets : next.sockets = wired.sockets) {answered : WiredServer capacity}
    (side : wired.kernelSide of = some answered) : StillOpen next := by
  have effect := server_step_effect taken
  intro fd owner awaits client
  rw [sockets]
  rcases awaits_step apart effect awaits client with
    ⟨before, its⟩ | ⟨batch, event, rfl, member, readable, rfl, its⟩
  · exact opened fd owner before its
  · simp only [WiredServer.kernelSide] at side
    split_ifs at side with reported
    have reason := List.all_eq_true.mp reported event member
    simpa [WiredServer.reports, its, TcpSocket.reports, readable] using reason

theorem still_open_receive (apart : Apart first.server wired.server) (opened : StillOpen wired)
    {reply : StreamReply} {fd owner : Nat} {rest : List EpollEvent} {socket : TcpSocket}
    (receiving : wired.server.point = .receiving fd rest)
    (answered : (wired.sockets owner).answer reply = some socket)
    (taken : wired.server.recvStep fd rest reply = some next.server)
    (sockets : next.sockets = Function.update wired.sockets owner socket) : StillOpen next := by
  have effect := recv_effect receiving taken
  obtain ⟨-, finished, -, -⟩ := answer_front answered
  intro other its awaits client
  rw [sockets, Function.update_apply]
  rcases awaits_step apart effect awaits client with ⟨before, same⟩ | ⟨_, _, impossible, -⟩
  · have still := opened other its before same
    split_ifs with mine
    · rw [finished, ← mine]
      exact still
    · exact still
  · cases impossible

/-- Reads of a connection that has not ended take a byte at least. -/
theorem reads_open {messages : List (List UInt8)} {socket after : TcpSocket}
    (read : TcpSocket.reads messages socket = some after) (opened : socket.finished = false) :
    ∀ message ∈ messages, message ≠ [] := by
  induction messages generalizing socket with
  | nil => exact List.forall_mem_nil _
  | cons message more ih =>
      cases message with
      | nil =>
          simp [TcpSocket.reads, opened] at read
      | cons byte bytes =>
          simp only [TcpSocket.reads] at read
          split_ifs at read
          intro other member
          rcases List.mem_cons.mp member with rfl | later
          · exact List.cons_ne_nil _ _
          · exact ih read opened other later

theorem answer_open {socket after : TcpSocket} {first : List UInt8} {more : List (List UInt8)}
    (answered : socket.answer (.messages first more) = some after)
    (opened : socket.finished = false) :
    (StreamReply.messages first more).readsEnd = false ∧
      1 ≤ (StreamReply.messages first more).bytes.length := by
  simp only [TcpSocket.answer] at answered
  split_ifs at answered
  have some_ := reads_open answered opened
  constructor
  · apply Bool.eq_false_iff.mpr
    intro ended
    obtain ⟨message, member, empty⟩ := List.any_eq_true.mp ended
    exact some_ message member (List.isEmpty_iff.mp empty)
  · have front : 0 < first.length := List.length_pos_iff.mpr (some_ first List.mem_cons_self)
    simp only [StreamReply.bytes, List.flatten_cons, List.length_append]
    omega

theorem received_le_sent (streams : Streams first wired) (connection : Nat) :
    (wired.server.kernel.received connection).length ≤
      (wired.sockets connection).sent.length := by
  rw [streams.sent connection, List.length_append]
  exact Nat.le_add_right _ _

theorem drain_counted_client (counted : DrainCounted wired) {connection : Nat}
    {socket : TcpSocket} (grows : (wired.sockets connection).Grows socket) :
    DrainCounted (wired.setSocket connection socket) := by
  refine ⟨counted.running, ?_, counted.unseen⟩
  have before := counted.bounded
  simp only [WiredServer.setSocket, Function.update_apply]
  split_ifs with same
  · obtain ⟨bytes, -, sent⟩ := grows.written
    rw [sent, List.length_append, ← same]
    omega
  · exact before

/-- A drain that begins has made no call. -/
theorem drain_counted_begin {event : EpollEvent} {owner : Nat}
    (drain : next.drain = ⟨event.fd, owner, 0, false⟩)
    (running : ∀ fd, next.server.point.draining = some fd →
      next.server.kernel.clients fd = some owner) : DrainCounted next := by
  refine ⟨?_, ?_, ?_⟩
  · intro fd draining
    rw [drain]
    exact ⟨running fd draining, Nat.zero_le _⟩
  · rw [drain]
    exact Nat.zero_le _
  · rw [drain]

theorem drain_counted_serve (apart : Apart first.server wired.server)
    (counted : DrainCounted wired) {of : ServerLabel}
    (taken : wired.server.step of = some next.server) (other : ∀ reply, of ≠ .recv reply)
    (sockets : next.sockets = wired.sockets) {answered : WiredServer capacity}
    (side : wired.kernelSide of = some answered) (drain : next.drain = answered.drain) :
    DrainCounted next := by
  have effect := server_step_effect taken
  rcases kernel_side_drain other side with
    ⟨same, hangUps⟩ | ⟨event, rest, owner, handling, client, begun⟩
  · rw [same] at drain
    refine ⟨?_, ?_, ?_⟩
    · intro fd draining
      rcases draining_step effect draining with ⟨before, clients⟩ |
        ⟨event, rest, dispatch, handling, readable, -, wake, listen, -⟩
      · rw [drain, clients, received_step effect other]
        exact counted.running fd before
      · have at_ := apart.at_point
        rw [handling] at at_
        have watched := ((at_.reported event List.mem_cons_self).resolve_left wake).resolve_left
          listen
        obtain ⟨owner, owns⟩ := apart.connected.owns event.fd watched
        have hangUp := hangUps event rest owner dispatch handling owns.client
        rw [readable] at hangUp
        cases hangUp
    · rw [drain, sockets]
      exact counted.bounded
    · rw [drain]
      exact counted.unseen
  · refine drain_counted_begin (drain.trans begun) ?_
    intro fd draining
    rcases draining_step effect draining with ⟨before, -⟩ |
      ⟨front, _, -, again, -, same, -, -, kernel⟩
    · rw [handling] at before
      cases before
    · rw [handling] at again
      cases again
      rw [kernel, ← same]
      exact client

/-- Only a call that gave something keeps the loop going. -/
theorem recv_goes_on {server after : Server capacity} {reply : StreamReply} {fd other : Nat}
    {rest : List EpollEvent} {socket left_ : TcpSocket}
    (answered : socket.answer reply = some left_)
    (taken : server.recvStep fd rest reply = some after)
    (draining : after.point.draining = some other) :
    ∃ message more, reply = .messages message more := by
  cases reply with
  | messages message more => exact ⟨message, more, rfl⟩
  | interrupted => cases answered
  | _ =>
      cases taken
      cases draining

theorem drain_counted_receive (streams : Streams first wired) (opened : StillOpen wired)
    (counted : DrainCounted wired) {reply : StreamReply} {fd owner : Nat}
    {rest : List EpollEvent} {socket : TcpSocket}
    (receiving : wired.server.point = .receiving fd rest)
    (client : wired.server.kernel.clients fd = some owner)
    (answered : (wired.sockets owner).answer reply = some socket)
    (taken : wired.server.recvStep fd rest reply = some next.server)
    (sockets : next.sockets = Function.update wired.sockets owner socket)
    (drain : next.drain = { wired.drain with
      calls := wired.drain.calls + 1
      sawEnd := wired.drain.sawEnd || reply.readsEnd }) : DrainCounted next := by
  have running : wired.server.point.draining = some fd := by
    rw [receiving]
    rfl
  have stillOpen : (wired.sockets owner).finished = false :=
    opened fd owner (.inl running) client
  obtain ⟨its, calls⟩ := counted.running fd running
  obtain rfl : owner = wired.drain.owner := Option.some.inj (client.symm.trans its)
  have inside := received_le_sent streams wired.drain.owner
  obtain ⟨-, -, -, sent⟩ := answer_front answered
  have noEnd : reply.readsEnd = false := by
    cases reply with
    | messages message more => exact (answer_open answered stillOpen).1
    | _ => rfl
  refine ⟨?_, ?_, ?_⟩
  · intro other draining
    rw [drain]
    obtain ⟨message, more, rfl⟩ := recv_goes_on answered taken draining
    rcases draining_step (recv_effect receiving taken) draining with ⟨before, clients⟩ |
      ⟨_, _, impossible, -⟩
    · obtain ⟨mine, -⟩ := counted.running other before
      have taken_ := (answer_open answered stillOpen).2
      rw [clients, recv_step_received client taken, Function.update_self, List.length_append]
      refine ⟨mine, ?_⟩
      show wired.drain.calls + 1 ≤ _
      omega
    · cases impossible
  · rw [drain, sockets, Function.update_self, sent]
    show wired.drain.calls + 1 ≤ _
    omega
  · rw [drain]
    show (wired.drain.sawEnd || reply.readsEnd) = false
    rw [counted.unseen, noEnd]
    rfl

theorem still_open_of_reaches (initial : first.Initial)
    (reached : ReachesUnder (wiredFrom first) OpenWhileDrained wired) : StillOpen wired := by
  refine invariant_of_step ?_ ?_ reached
  · intro start same
    rw [show start = first from same]
    intro fd owner _ client
    rw [initial.server.clients] at client
    cases client
  · intro state label next run before guarded taken
    have apart := apart_of_wired initial (reaches_of_reaches_under run)
    cases wired_moves taken with
    | client connection socket grows finishes moved =>
        rw [moved]
        exact still_open_client before guarded finishes
    | serves of labelled step other sockets side =>
        obtain ⟨answered, side, -⟩ := side
        exact still_open_serve apart before step sockets side
    | receives reply fd rest owner socket labelled receiving client answered step sockets drain =>
        exact still_open_receive apart before receiving answered step sockets

theorem drain_counted_of_reaches (initial : first.Initial)
    (reached : ReachesUnder (wiredFrom first) OpenWhileDrained wired) : DrainCounted wired := by
  refine invariant_of_step ?_ ?_ reached
  · intro start same
    rw [show start = first from same]
    refine ⟨?_, ?_, ?_⟩
    · intro fd draining
      rw [initial.server.point] at draining
      cases draining
    · rw [initial.drain]
      exact Nat.zero_le _
    · rw [initial.drain]
  · intro state label next run before guarded taken
    have plain := reaches_of_reaches_under run
    cases wired_moves taken with
    | client connection socket grows finishes moved =>
        rw [moved]
        exact drain_counted_client before grows
    | serves of labelled step other sockets side =>
        obtain ⟨answered, side, drain⟩ := side
        exact drain_counted_serve (apart_of_wired initial plain) before step other sockets side
          drain
    | receives reply fd rest owner socket labelled receiving client answered step sockets drain =>
        exact drain_counted_receive (streams_of_reaches initial plain)
          (still_open_of_reaches initial run) before receiving client answered step sockets drain

end Calls

/-- The drain makes finitely many calls, and if it has read the end of the stream the
descriptor is closed and its entry reset. -/
structure DrainEnds (wired : WiredServer capacity) : Prop where
  bounded : wired.drain.calls ≤ (wired.sockets wired.drain.owner).sent.length + 1
  closed : wired.drain.sawEnd = true →
    wired.server.kernel.clients wired.drain.fd ≠ some wired.drain.owner ∧
      (wired.server.conns wired.drain.fd).fd = -1 ∧
      ((wired.server.conns wired.drain.fd).have_ : Nat) = 0

/-- Whatever is sent, in whatever segments, as long as no client shuts down its side while
it is drained. -/
theorem drain_ends_while_open {first wired : WiredServer capacity} (initial : first.Initial)
    (reached : ReachesUnder (wiredFrom first) OpenWhileDrained wired) : DrainEnds wired := by
  have counted := drain_counted_of_reaches initial reached
  refine ⟨counted.bounded, ?_⟩
  intro ended
  rw [counted.unseen] at ended
  cases ended

/-- A client sends fifty bytes, which the drain reads with two calls. -/
def fiftyBytesDrained : List WireLabel :=
  clientAccepted ++ [WireLabel.write 0 (List.replicate 50 7)] ++
    [ServerLabel.wait (.events [⟨5, false⟩]), .dispatch,
      .recv (.messages (List.replicate 50 7) []), .consume, .consume, .recv .again].map
        WireLabel.server

def neverShutDown (_ : WiredServer capacity) : WireLabel → Bool
  | .shutDown _ => false
  | _ => true

theorem fifty_bytes_drained :
    ∃ wired, ReachesUnder (wiredFrom newWired) OpenWhileDrained wired ∧
      wired.drain.calls = 2 ∧ DrainEnds wired := by
  obtain ⟨wired, run, calls⟩ : ∃ wired, runChecked (wiredFrom newWired) neverShutDown newWired
      fiftyBytesDrained = some wired ∧ wired.drain.calls = 2 := ⟨_, rfl, rfl⟩
  have sound : ∀ (wired : WiredServer fourSlots) (label : WireLabel),
      neverShutDown wired label = true → OpenWhileDrained wired label := by
    intro wired label checked
    cases label with
    | shutDown connection => cases checked
    | _ => trivial
  have begun : ReachesUnder (wiredFrom newWired) OpenWhileDrained newWired := .start rfl
  have reached := reaches_under_run sound begun run
  exact ⟨wired, reached, calls, drain_ends_while_open new_wired_initial reached⟩

/-! ## Behind the end of the stream -/

/-- A whole batch of reads at the end of the stream. -/
def endOfStream : StreamReply := .messages [] (List.replicate 15 [])

/-- The drain stands at the end of a stream. -/
structure AtEnd (wired : WiredServer capacity) (fd owner : Nat) : Prop where
  point : wired.server.point = .receiving fd []
  client : wired.server.kernel.clients fd = some owner
  unread : (wired.sockets owner).unread = []
  finished : (wired.sockets owner).finished = true

/-- Messages without a byte are passed over. -/
theorem empty_messages_passed {first wired : WiredServer capacity}
    (reached : Reaches (wiredFrom first) wired) {fd owner : Nat} (count : Nat)
    (consuming : wired.server.point = .consuming fd owner (List.replicate count []) []) :
    Reaches (wiredFrom first) { wired with server := wired.server.goto (.receiving fd []) } := by
  induction count generalizing wired with
  | zero =>
      have taken : (wiredFrom first).step wired (.server .consume) =
          some { wired with server := wired.server.goto (.receiving fd []) } := by
        simp [wiredFrom, WiredServer.step, WiredServer.kernelSide, Server.step, consuming]
      exact reaches_step reached taken
  | succ count ih =>
      have taken : (wiredFrom first).step wired (.server .consume) = some { wired with
          server := wired.server.goto (.consuming fd owner (List.replicate count []) []) } := by
        simp [wiredFrom, WiredServer.step, WiredServer.kernelSide, Server.step, consuming,
          List.replicate_succ, Server.consumeMessage]
      have passed := ih (reaches_step reached taken) rfl
      exact passed

/-- Another call, and the drain stands where it stood. -/
theorem drain_goes_on {first wired : WiredServer capacity} {fd owner : Nat}
    (reached : Reaches (wiredFrom first) wired) (atEnd : AtEnd wired fd owner) :
    ∃ next, Reaches (wiredFrom first) next ∧ AtEnd next fd owner ∧
      next.drain.owner = wired.drain.owner ∧ next.drain.calls = wired.drain.calls + 1 ∧
      (next.sockets owner).sent = (wired.sockets owner).sent := by
  have read : TcpSocket.reads (List.replicate 16 []) (wired.sockets owner) =
      some (wired.sockets owner) := by
    simp [List.replicate_succ, TcpSocket.reads, atEnd.unread, atEnd.finished]
  have answered : (wired.sockets owner).answer endOfStream = some (wired.sockets owner) := read
  have taken : (wiredFrom first).step wired (.server (.recv endOfStream)) = some
      { server := { wired.server.goto (.consuming fd owner (List.replicate 16 []) []) with
          kernel := wired.server.kernel.arrive owner [] }
        sockets := Function.update wired.sockets owner (wired.sockets owner)
        drain := { wired.drain with
          calls := wired.drain.calls + 1
          sawEnd := wired.drain.sawEnd || endOfStream.readsEnd } } := by
    simp only [wiredFrom, WiredServer.step, WiredServer.kernelSide, WiredServer.recvCall,
      atEnd.point, atEnd.client, answered, Option.map_some, Option.bind_some]
    simp only [Server.step, atEnd.point, Server.recvStep, endOfStream, atEnd.client]
    rfl
  have passed := empty_messages_passed (reaches_step reached taken) 16 rfl
  rw [Function.update_eq_self] at passed
  exact ⟨_, passed, ⟨rfl, atEnd.client, atEnd.unread, atEnd.finished⟩, rfl, rfl, rfl⟩

/-- A client connects, sends fifty bytes and shuts down its side once its connection has been
reported; the first call reads all that it has sent. -/
def shutDownWhenReported : List WireLabel :=
  clientAccepted ++
    [WireLabel.write 0 (List.replicate 50 7), .server (.wait (.events [⟨5, false⟩])), .shutDown 0,
      .server .dispatch,
      .server (.recv (.messages (List.replicate 50 7) (List.replicate 15 [])))] ++
    List.replicate 17 (WireLabel.server .consume)

/-- Fifty bytes are sent, and no number of calls is the last. -/
theorem drain_never_ends :
    ¬ ∃ bound, ∀ wired, Reaches (wiredFrom newWired) wired →
      (wired.sockets wired.drain.owner).sent = List.replicate 50 7 →
        wired.drain.calls ≤ bound := by
  rintro ⟨bound, bounded⟩
  have begun : Reaches (wiredFrom newWired) newWired := reaches_start rfl
  have calls : ∀ count, ∃ wired, Reaches (wiredFrom newWired) wired ∧ AtEnd wired 5 0 ∧
      wired.drain.owner = 0 ∧ wired.drain.calls = count + 1 ∧
        (wired.sockets 0).sent = List.replicate 50 7 := by
    intro count
    induction count with
    | zero =>
        obtain ⟨wired, run, atEnd, owner, one, sent⟩ : ∃ wired,
            runLabels (wiredFrom newWired) newWired shutDownWhenReported = some wired ∧
              AtEnd wired 5 0 ∧ wired.drain.owner = 0 ∧ wired.drain.calls = 1 ∧
              (wired.sockets 0).sent = List.replicate 50 7 :=
          ⟨_, rfl, ⟨rfl, rfl, rfl, rfl⟩, rfl, rfl, rfl⟩
        exact ⟨wired, reaches_run begun run, atEnd, owner, one, sent⟩
    | succ count ih =>
        obtain ⟨wired, reached, atEnd, owner, made, sent⟩ := ih
        obtain ⟨next, again, still, drain, more, same⟩ := drain_goes_on reached atEnd
        exact ⟨next, again, still, drain.trans owner, by rw [more, made], same.trans sent⟩
  obtain ⟨wired, reached, -, owner, made, sent⟩ := calls bound
  have few := bounded wired reached (by rw [owner]; exact sent)
  omega

end MarketDataEngine.Net
