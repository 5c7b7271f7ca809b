import MarketDataEngine.EpollServer

/-!
# Connections of the epoll server stay apart

A watched descriptor has the table entry of its own connection: the entry was
initialised when the connection was accepted, nobody else has written to it since,
and it holds the rest of what this connection has sent. Everything else follows
from the frames of one connection being the blocks of its own stream.
-/

namespace MarketDataEngine.Net

open MarketDataEngine.Protocol MarketDataEngine.Containers MarketDataEngine.Engine
open MarketDataEngine.StreamBlocks MarketDataEngine.TransitionSystem

set_option autoImplicit false

variable {capacity : Capacity}

/-! ## Histories of one connection -/

/-- The frames assembled for a connection. -/
def framesOf (log : List (Nat × Assembled)) (connection : Nat) : List (List UInt8) :=
  log.filterMap fun entry =>
    if entry.1 = connection then some entry.2.frame.toList else none

/-- The frames of a connection that were pushed to the ready ring. -/
def publishedOf (log : List (Nat × Assembled)) (connection : Nat) : List (List UInt8) :=
  log.filterMap fun entry =>
    if entry.1 = connection then entry.2.publishedFrame.map Vector.toList else none

/-- Received and not yet consumed. -/
def LoopPoint.pending (point : LoopPoint) (connection : Nat) : List UInt8 :=
  match point with
  | .consuming _ owner messages _ => if owner = connection then messages.flatten else []
  | _ => []

theorem frames_of_append (log : List (Nat × Assembled)) (owner : Nat) (added : List Assembled)
    (connection : Nat) :
    framesOf (log ++ added.map fun entry => (owner, entry)) connection =
      framesOf log connection ++
        if owner = connection then added.map (fun entry => entry.frame.toList) else [] := by
  unfold framesOf
  rw [List.filterMap_append, List.filterMap_map]
  congr 1
  by_cases same : owner = connection
  · rw [if_pos same, ← List.filterMap_eq_map]
    apply List.filterMap_congr
    intro entry _
    exact if_pos same
  · rw [if_neg same, List.filterMap_eq_nil_iff]
    intro entry _
    exact if_neg same

/-- What is published is a part of what is assembled, in the same order. -/
theorem published_of_sublist {log : List (Nat × Assembled)}
    (published : ∀ entry ∈ log, ∀ idx slot, entry.2.handling = .published idx slot →
      slot = entry.2.frame) (connection : Nat) :
    (publishedOf log connection).Sublist (framesOf log connection) := by
  induction log with
  | nil => exact List.Sublist.refl []
  | cons entry rest ih =>
      have later := ih fun other member => published other (List.mem_cons_of_mem _ member)
      have own := published entry List.mem_cons_self
      unfold publishedOf framesOf at later ⊢
      rw [List.filterMap_cons, List.filterMap_cons]
      by_cases same : entry.1 = connection
      · rw [if_pos same, if_pos same]
        unfold Assembled.publishedFrame
        cases handled : entry.2.handling with
        | published idx slot =>
            rw [own idx slot handled]
            exact later.cons_cons _
        | dropped => exact later.cons _
      · rw [if_neg same, if_neg same]
        exact later

theorem mem_published_of {log : List (Nat × Assembled)} {entry : Nat × Assembled}
    (member : entry ∈ log) {idx : Nat} {slot : Frame}
    (handled : entry.2.handling = .published idx slot) :
    slot.toList ∈ publishedOf log entry.1 := by
  apply List.mem_filterMap.mpr
  refine ⟨entry, member, ?_⟩
  rw [if_pos rfl, Assembled.publishedFrame, handled]
  rfl

/-! ## Descriptors and table entries -/

/-- The entry of a descriptor is the one of its connection. -/
structure Owns (conns : Nat → ConnState) (kernel : Kernel) (consumed : Nat → List UInt8)
    (fd connection : Nat) : Prop where
  inside : fd < maxFd
  entry : (conns fd).fd = fd
  client : kernel.clients fd = some connection
  holds : Holds (conns fd) (consumed connection)

structure Connected (conns : Nat → ConnState) (kernel : Kernel)
    (consumed : Nat → List UInt8) : Prop where
  owns : ∀ fd ∈ kernel.watched, ∃ connection, Owns conns kernel consumed fd connection
  one_fd : ∀ fd other connection, kernel.clients fd = some connection →
    kernel.clients other = some connection → fd = other
  accepted : ∀ fd connection, kernel.clients fd = some connection →
    connection < kernel.nextConnection
  unborn : ∀ connection, kernel.nextConnection ≤ connection → consumed connection = []

section Connected

variable {conns after : Nat → ConnState} {kernel : Kernel} {consumed : Nat → List UInt8}

theorem not_watched (connected : Connected conns kernel consumed) {fd : Nat}
    (closed : kernel.clients fd = none) : fd ∉ kernel.watched := by
  intro watched
  obtain ⟨connection, owns⟩ := connected.owns fd watched
  have client := owns.client
  rw [closed] at client
  cases client

theorem client_of_close {fd other connection : Nat}
    (opened : (kernel.close fd).clients other = some connection) :
    other ≠ fd ∧ kernel.clients other = some connection := by
  simp only [Kernel.close, Function.update_apply] at opened
  split_ifs at opened with same
  exact ⟨same, opened⟩

theorem client_of_open {cfd other connection : Nat}
    (opened : (kernel.openClient cfd).clients other = some connection) :
    other = cfd ∧ connection = kernel.nextConnection ∨
      other ≠ cfd ∧ kernel.clients other = some connection := by
  simp only [Kernel.openClient, Function.update_apply] at opened
  split_ifs at opened with same
  · exact .inl ⟨same, (Option.some.inj opened).symm⟩
  · exact .inr ⟨same, opened⟩

theorem connected_close (connected : Connected conns kernel consumed) (fd : Nat)
    (others : ∀ other, other ≠ fd → after other = conns other) :
    Connected after (kernel.close fd) consumed where
  owns := by
    intro other watched
    obtain ⟨still, different⟩ := List.mem_filter.mp watched
    have apart : other ≠ fd := of_decide_eq_true different
    obtain ⟨connection, owns⟩ := connected.owns other still
    refine ⟨connection, owns.inside, ?_, ?_, ?_⟩
    · rw [others other apart]
      exact owns.entry
    · exact (Function.update_of_ne apart _ _).trans owns.client
    · rw [others other apart]
      exact owns.holds
  one_fd := by
    intro left right connection leftOpen rightOpen
    exact connected.one_fd left right connection (client_of_close leftOpen).2
      (client_of_close rightOpen).2
  accepted := by
    intro other connection opened
    exact connected.accepted other connection (client_of_close opened).2
  unborn := connected.unborn

/-- A new connection behind a number that was not in use. -/
theorem connected_open (connected : Connected conns kernel consumed) {cfd : Nat}
    (free : kernel.clients cfd = none)
    (others : ∀ other, other ≠ cfd → after other = conns other) :
    Connected after (kernel.openClient cfd) consumed where
  owns := by
    intro other watched
    have apart : other ≠ cfd := by
      rintro rfl
      exact not_watched connected free watched
    obtain ⟨connection, owns⟩ := connected.owns other watched
    refine ⟨connection, owns.inside, ?_, ?_, ?_⟩
    · rw [others other apart]
      exact owns.entry
    · exact (Function.update_of_ne apart _ _).trans owns.client
    · rw [others other apart]
      exact owns.holds
  one_fd := by
    intro left right connection leftOpen rightOpen
    rcases client_of_open leftOpen with ⟨leftNew, new⟩ | ⟨-, leftOld⟩
    · rcases client_of_open rightOpen with ⟨rightNew, -⟩ | ⟨-, rightOld⟩
      · rw [leftNew, rightNew]
      · have earlier := connected.accepted right connection rightOld
        omega
    · rcases client_of_open rightOpen with ⟨-, new⟩ | ⟨-, rightOld⟩
      · have earlier := connected.accepted left connection leftOld
        omega
      · exact connected.one_fd left right connection leftOld rightOld
  accepted := by
    intro other connection opened
    show connection < kernel.nextConnection + 1
    rcases client_of_open opened with ⟨-, new⟩ | ⟨-, old⟩
    · omega
    · exact Nat.lt_succ_of_lt (connected.accepted other connection old)
  unborn := fun connection born => connected.unborn connection (Nat.le_of_succ_le born)

theorem connected_watch (connected : Connected conns kernel consumed) {cfd connection : Nat}
    (owns : Owns conns kernel consumed cfd connection) :
    Connected conns (kernel.watch cfd) consumed where
  owns := by
    intro other watched
    rcases List.mem_cons.mp watched with rfl | earlier
    · exact ⟨connection, owns.inside, owns.entry, owns.client, owns.holds⟩
    · obtain ⟨its, itsOwns⟩ := connected.owns other earlier
      exact ⟨its, itsOwns.inside, itsOwns.entry, itsOwns.client, itsOwns.holds⟩
  one_fd := connected.one_fd
  accepted := connected.accepted
  unborn := connected.unborn

theorem init_conn_others {cfd : Nat} (conns : Nat → ConnState) (other : Nat)
    (apart : other ≠ cfd) : (initConn conns cfd).1 other = conns other := by
  unfold initConn
  split_ifs
  · rfl
  · exact Function.update_of_ne apart _ _

theorem reset_conn_others {fd : Nat} (conns : Nat → ConnState) (other : Nat)
    (apart : other ≠ fd) : resetConn conns fd other = conns other := by
  unfold resetConn
  split_ifs
  · exact Function.update_of_ne apart _ _
  · rfl

theorem init_conn_entry {conns : Nat → ConnState} {cfd : Nat}
    (initialised : (initConn conns cfd).2 = true) :
    cfd < maxFd ∧ ((initConn conns cfd).1 cfd).fd = cfd ∧
      (((initConn conns cfd).1 cfd).have_ : Nat) = 0 := by
  unfold initConn at initialised ⊢
  split_ifs at initialised ⊢ with large
  refine ⟨Nat.lt_of_not_le large, ?_, ?_⟩
  · simp only [Function.update_self]
  · simp only [Function.update_self]
    rfl

/-- An accepted descriptor starts with an empty frame, whatever its number was used for
before. -/
theorem owns_accepted (connected : Connected conns kernel consumed) {cfd : Nat}
    (initialised : (initConn conns cfd).2 = true) :
    Owns (initConn conns cfd).1 (kernel.openClient cfd) consumed cfd kernel.nextConnection := by
  obtain ⟨inside, entry, empty⟩ := init_conn_entry initialised
  refine ⟨inside, entry, Function.update_self _ _ _, ?_⟩
  rw [connected.unborn _ (Nat.le_refl _)]
  exact holds_start empty

theorem connected_arrive (connected : Connected conns kernel consumed) (owner : Nat)
    (bytes : List UInt8) : Connected conns (kernel.arrive owner bytes) consumed where
  owns := by
    intro fd watched
    obtain ⟨connection, owns⟩ := connected.owns fd watched
    exact ⟨connection, owns.inside, owns.entry, owns.client, owns.holds⟩
  one_fd := connected.one_fd
  accepted := connected.accepted
  unborn := connected.unborn

/-- Bytes of a connection, put into the entry of its descriptor. -/
theorem connected_consume (connected : Connected conns kernel consumed) {fd owner : Nat}
    (client : kernel.clients fd = some owner) {next : ConnState} {message : List UInt8}
    (entry : next.fd = fd) (holds : Holds next (consumed owner ++ message)) :
    Connected (Function.update conns fd next) kernel
      (Function.update consumed owner (consumed owner ++ message)) where
  owns := by
    intro other watched
    obtain ⟨connection, owns⟩ := connected.owns other watched
    by_cases same : other = fd
    · subst same
      obtain rfl : connection = owner := Option.some.inj (owns.client.symm.trans client)
      refine ⟨connection, owns.inside, ?_, owns.client, ?_⟩
      · rw [Function.update_self]
        exact entry
      · rw [Function.update_self, Function.update_self]
        exact holds
    · have apart : connection ≠ owner := by
        rintro rfl
        exact same (connected.one_fd other fd connection owns.client client)
      refine ⟨connection, owns.inside, ?_, owns.client, ?_⟩
      · rw [Function.update_of_ne same]
        exact owns.entry
      · rw [Function.update_of_ne same, Function.update_of_ne apart]
        exact owns.holds
  one_fd := connected.one_fd
  accepted := connected.accepted
  unborn := by
    intro connection born
    have early := connected.accepted fd owner client
    rw [Function.update_of_ne (by omega)]
    exact connected.unborn connection born

end Connected

/-! ## Where the loop is -/

/-- The rest of a batch: at most one event for a descriptor, and only for watched ones. -/
structure Batch (wakeFd listenFd : Nat) (watched : List Nat) (rest : List EpollEvent) :
    Prop where
  once : (rest.map EpollEvent.fd).Nodup
  reported : ∀ event ∈ rest, event.fd = wakeFd ∨ event.fd = listenFd ∨ event.fd ∈ watched

/-- The descriptor whose event is being handled is watched and does not come again. -/
structure Current (wakeFd listenFd : Nat) (watched : List Nat) (fd : Nat)
    (rest : List EpollEvent) : Prop where
  batch : Batch wakeFd listenFd watched rest
  mine : fd ∈ watched
  last : fd ∉ rest.map EpollEvent.fd

def Server.AtPoint (server : Server capacity) : LoopPoint → Prop
  | .stopped => True
  | .waiting => True
  | .handling rest => Batch server.wakeFd server.listenFd server.kernel.watched rest
  | .accepting rest => Batch server.wakeFd server.listenFd server.kernel.watched rest
  | .receiving fd rest => Current server.wakeFd server.listenFd server.kernel.watched fd rest
  | .consuming fd owner _ rest =>
      Current server.wakeFd server.listenFd server.kernel.watched fd rest ∧
        server.kernel.clients fd = some owner

/-- What the frames are and where they went, `before` being the frames the ready ring
started with. -/
structure Recorded (before : List Frame) (pool : FramePool capacity) (held : List Nat)
    (consumed : Nat → List UInt8) (log : List (Nat × Assembled)) (drained : List Frame) :
    Prop where
  frames : ∀ connection, framesOf log connection = blocks kWireSize (consumed connection)
  published : ∀ entry ∈ log, ∀ idx slot,
    entry.2.handling = .published idx slot → slot = entry.2.frame
  ready : before ++ log.filterMap (fun entry => entry.2.publishedFrame) =
    drained ++ poolReady pool
  sound : PoolSound pool held

structure Apart (first server : Server capacity) : Prop where
  connected : Connected server.conns server.kernel server.consumed
  recorded : Recorded (poolReady first.pool) server.pool server.held server.consumed server.log
    server.drained
  received : ∀ connection, server.kernel.received connection =
    server.consumed connection ++ server.point.pending connection
  at_point : server.AtPoint server.point

section Steps

variable {first server next : Server capacity}

theorem apart_start (initial : first.Initial) : Apart first first := by
  refine ⟨⟨?_, ?_, ?_, ?_⟩, ⟨?_, ?_, ?_, initial.sound⟩, ?_, ?_⟩
  · rw [initial.watched]
    intro fd impossible
    cases impossible
  · intro fd other connection opened
    rw [initial.clients] at opened
    cases opened
  · intro fd connection opened
    rw [initial.clients] at opened
    cases opened
  · intro connection _
    exact initial.consumed connection
  · intro connection
    rw [initial.log, initial.consumed, blocks_nil]
    rfl
  · rw [initial.log]
    intro entry impossible
    cases impossible
  · rw [initial.log, initial.drained]
    exact List.append_nil _
  · intro connection
    rw [initial.received, initial.consumed, initial.point]
    rfl
  · rw [initial.point]
    trivial

theorem idle_at {point : LoopPoint} (at_ : server.point = point)
    (quiet : ∀ connection, point.pending connection = []) (connection : Nat) :
    server.point.pending connection = [] := by
  rw [at_]
  exact quiet connection

theorem received_idle (apart : Apart first server)
    (idle : ∀ connection, server.point.pending connection = []) (connection : Nat) :
    server.kernel.received connection = server.consumed connection ++ [] := by
  have before := apart.received connection
  rw [idle connection] at before
  exact before

/-- The loop moves on, and of the state only `running` changes. -/
theorem apart_goto (apart : Apart first server) (point : LoopPoint) (running : Bool)
    (idle : ∀ connection, server.point.pending connection = [])
    (quiet : ∀ connection, point.pending connection = []) (at_ : server.AtPoint point) :
    Apart first { server.goto point with running := running } where
  connected := apart.connected
  recorded := apart.recorded
  received := by
    intro connection
    show _ = _ ++ point.pending connection
    rw [quiet connection]
    exact received_idle apart idle connection
  at_point := at_

theorem apart_close (apart : Apart first server) {fd : Nat} {rest : List EpollEvent}
    (idle : ∀ connection, server.point.pending connection = [])
    (current : Batch server.wakeFd server.listenFd server.kernel.watched rest)
    (last : fd ∉ rest.map EpollEvent.fd) :
    Apart first ((server.closeClient fd).goto (.handling rest)) where
  connected := connected_close apart.connected fd fun other => reset_conn_others server.conns other
  recorded := apart.recorded
  received := by
    have before := received_idle apart idle
    exact before
  at_point := by
    refine ⟨current.once, ?_⟩
    intro event member
    rcases current.reported event member with wake | listen | watched
    · exact .inl wake
    · exact .inr (.inl listen)
    · refine .inr (.inr (List.mem_filter.mpr ⟨watched, ?_⟩))
      apply decide_eq_true
      intro same
      exact last (same ▸ List.mem_map_of_mem member)

theorem apart_exit (apart : Apart first server)
    (idle : ∀ connection, server.point.pending connection = []) : Apart first server.exit where
  connected := by
    refine ⟨?_, apart.connected.one_fd, apart.connected.accepted, apart.connected.unborn⟩
    intro fd impossible
    cases impossible
  recorded := apart.recorded
  received := by
    have before := received_idle apart idle
    exact before
  at_point := trivial

theorem apart_wait (apart : Apart first server) {reply : WaitReply}
    (waiting : server.point = .waiting) (taken : server.waitStep reply = some next) :
    Apart first next := by
  have idle := idle_at waiting fun _ => rfl
  cases reply with
  | events batch =>
      simp only [Server.waitStep] at taken
      split_ifs at taken with reported
      cases taken
      exact apart_goto apart (.handling batch) server.running idle (fun _ => rfl)
        ⟨reported.1, reported.2⟩
  | timeout =>
      cases taken
      exact apart
  | interrupted =>
      cases taken
      exact apart
  | failed =>
      cases taken
      exact apart_exit apart idle

theorem apart_dispatch (apart : Apart first server) {event : EpollEvent}
    {rest : List EpollEvent} (handling : server.point = .handling (event :: rest)) :
    Apart first (server.dispatchStep event rest) := by
  have at_ := apart.at_point
  rw [handling] at at_
  obtain ⟨once, reported⟩ := at_
  obtain ⟨last, once⟩ := List.nodup_cons.mp once
  have idle := idle_at handling fun _ => rfl
  have batch : Batch server.wakeFd server.listenFd server.kernel.watched rest :=
    ⟨once, fun other member => reported other (List.mem_cons_of_mem _ member)⟩
  unfold Server.dispatchStep
  split_ifs with wake listen hangUp
  · exact apart_goto apart (.handling rest) false idle (fun _ => rfl) batch
  · exact apart_goto apart (.accepting rest) server.running idle (fun _ => rfl) batch
  · exact apart_close apart idle batch last
  · have watched : event.fd ∈ server.kernel.watched :=
      ((reported event List.mem_cons_self).resolve_left wake).resolve_left listen
    exact apart_goto apart (.receiving event.fd rest) server.running idle (fun _ => rfl)
      ⟨batch, watched, last⟩

/-- A connection is accepted or turned away. -/
theorem apart_connection (apart : Apart first server) {rest : List EpollEvent}
    (accepting : server.point = .accepting rest) {conns : Nat → ConnState} {kernel : Kernel}
    (connected : Connected conns kernel server.consumed)
    (received : kernel.received = server.kernel.received)
    (watched : ∀ fd ∈ server.kernel.watched, fd ∈ kernel.watched) :
    Apart first { server with conns := conns, kernel := kernel } where
  connected := connected
  recorded := apart.recorded
  received := by
    intro connection
    rw [received]
    exact apart.received connection
  at_point := by
    have at_ := apart.at_point
    rw [accepting] at at_
    simp only [accepting]
    refine ⟨at_.once, ?_⟩
    intro event member
    rcases at_.reported event member with wake | listen | before
    · exact .inl wake
    · exact .inr (.inl listen)
    · exact .inr (.inr (watched event.fd before))

theorem apart_accepted (apart : Apart first server) {rest : List EpollEvent} {cfd : Nat}
    {added : Bool} (accepting : server.point = .accepting rest)
    (taken : server.acceptStep rest (.connection cfd added) = some next) :
    Apart first next := by
  simp only [Server.acceptStep] at taken
  by_cases fresh : server.kernel.clients cfd = none ∧ cfd ≠ server.listenFd ∧
      cfd ≠ server.wakeFd
  · rw [if_pos fresh] at taken
    have free := fresh.1
    have kept : ∀ fd ∈ server.kernel.watched,
        fd ∈ ((server.kernel.openClient cfd).close cfd).watched := by
      intro fd watched
      refine List.mem_filter.mpr ⟨watched, ?_⟩
      apply decide_eq_true
      rintro rfl
      exact not_watched apart.connected free watched
    have others := fun other => @init_conn_others cfd server.conns other
    have owns := fun ok => @owns_accepted _ _ _ apart.connected cfd ok
    cases initialised : initConn server.conns cfd with
    | mk conns ok =>
        rw [initialised] at taken others owns
        cases ok with
        | false =>
            cases taken
            have opened := connected_open apart.connected free (fun other _ => rfl)
            exact apart_connection apart accepting
              (connected_close opened cfd fun other _ => rfl) rfl kept
        | true =>
            have opened := connected_open apart.connected free others
            cases added with
            | true =>
                cases taken
                exact apart_connection apart accepting (connected_watch opened (owns rfl)) rfl
                  (fun fd watched => List.mem_cons_of_mem _ watched)
            | false =>
                cases taken
                exact apart_connection apart accepting
                  (connected_close opened cfd fun other => reset_conn_others conns other) rfl kept
  · rw [if_neg fresh] at taken
    cases taken

theorem apart_accept (apart : Apart first server) {rest : List EpollEvent} {reply : AcceptReply}
    (accepting : server.point = .accepting rest)
    (taken : server.acceptStep rest reply = some next) : Apart first next := by
  have at_ := apart.at_point
  rw [accepting] at at_
  have idle := idle_at accepting fun _ => rfl
  cases reply with
  | connection cfd added => exact apart_accepted apart accepting taken
  | again =>
      cases taken
      exact apart_goto apart (.handling rest) server.running idle (fun _ => rfl) at_
  | interrupted =>
      cases taken
      exact apart
  | failed =>
      cases taken
      exact apart_goto apart (.handling rest) server.running idle (fun _ => rfl) at_

theorem apart_recv (apart : Apart first server) {fd : Nat} {rest : List EpollEvent}
    {reply : StreamReply} (receiving : server.point = .receiving fd rest)
    (taken : server.recvStep fd rest reply = some next) : Apart first next := by
  have at_ := apart.at_point
  rw [receiving] at at_
  obtain ⟨batch, mine, last⟩ := at_
  have idle := idle_at receiving fun _ => rfl
  cases reply with
  | messages message more =>
      simp only [Server.recvStep] at taken
      split at taken
      · next owner client =>
          cases taken
          refine ⟨connected_arrive apart.connected owner (message :: more).flatten,
            apart.recorded, ?_, ⟨batch, mine, last⟩, client⟩
          intro connection
          have before := received_idle apart idle connection
          rw [List.append_nil] at before
          simp only [Server.goto, Kernel.arrive, LoopPoint.pending, Function.update_apply]
          by_cases same : connection = owner
          · rw [if_pos same, if_pos same.symm, ← same, before]
          · rw [if_neg same, if_neg (Ne.symm same), before, List.append_nil]
      · cases taken
  | closed =>
      cases taken
      exact apart_close apart idle batch last
  | again =>
      cases taken
      exact apart_goto apart (.handling rest) server.running idle (fun _ => rfl) batch
  | interrupted =>
      cases taken
      exact apart
  | failed =>
      cases taken
      exact apart_close apart idle batch last

/-- `consume_frames` on the entry of the connection the bytes came from. -/
theorem recorded_consume {before : List Frame} (recorded : Recorded before server.pool
    server.held server.consumed server.log server.drained) {fd owner : Nat}
    (message : List UInt8) (holds : Holds (server.conns fd) (server.consumed owner)) :
    let consumed := consumeFrames (server.conns fd) message server.sink
    Recorded before consumed.2.pool server.held
      (Function.update server.consumed owner (server.consumed owner ++ message))
      (server.log ++ consumed.2.assembled.map fun entry => (owner, entry)) server.drained := by
  intro consumed
  have run := @consume_frames_consumed _ _ server.sink _ _ holds recorded.sound message
  obtain ⟨added, adds, newBlocks⟩ := run.added
  have assembled : consumed.2.assembled = added := adds.assembled
  refine ⟨?_, ?_, ?_, run.sound⟩
  · intro connection
    rw [assembled, frames_of_append, recorded.frames connection, Function.update_apply]
    by_cases same : connection = owner
    · rw [if_pos same, if_pos same.symm, same, newBlocks]
    · rw [if_neg same, if_neg (Ne.symm same), List.append_nil]
  · intro entry member
    rw [assembled] at member
    rcases List.mem_append.mp member with early | late
    · exact recorded.published entry early
    · obtain ⟨its, itsMember, rfl⟩ := List.mem_map.mp late
      exact fun idx slot handled => (adds.published its itsMember idx slot handled).1
  · rw [assembled, List.filterMap_append, List.filterMap_map, ← List.append_assoc,
      recorded.ready, List.append_assoc]
    exact congrArg (server.drained ++ ·) adds.ready.symm

theorem apart_consume (apart : Apart first server) {fd owner : Nat} {message : List UInt8}
    {more : List (List UInt8)} {rest : List EpollEvent}
    (consuming : server.point = .consuming fd owner (message :: more) rest) :
    Apart first ((server.consumeMessage fd owner message).goto
      (.consuming fd owner more rest)) := by
  have at_ := apart.at_point
  rw [consuming] at at_
  obtain ⟨⟨batch, mine, last⟩, client⟩ := at_
  obtain ⟨connection, owns⟩ := apart.connected.owns fd mine
  obtain rfl : connection = owner := Option.some.inj (owns.client.symm.trans client)
  have before := apart.received
  rw [consuming] at before
  unfold Server.consumeMessage
  split_ifs with guard
  · have run := @consume_frames_consumed _ _ server.sink _ _ owns.holds
      apart.recorded.sound message
    have recorded := recorded_consume apart.recorded message owns.holds
    refine ⟨connected_consume apart.connected client (run.fd.trans owns.entry) run.holds,
      recorded, ?_,
      ⟨batch, mine, last⟩, client⟩
    intro other
    have its := before other
    simp only [LoopPoint.pending, List.flatten_cons] at its
    simp only [Server.goto, LoopPoint.pending, Function.update_apply]
    by_cases same : other = connection
    · rw [if_pos same.symm] at its ⊢
      rw [if_pos same, its, same, List.append_assoc]
    · rw [if_neg (Ne.symm same)] at its ⊢
      rw [if_neg same, its]
  · have empty : message = [] := by
      apply List.eq_nil_of_length_eq_zero
      by_contra some_
      exact guard ⟨Nat.pos_of_ne_zero some_, owns.inside, owns.entry⟩
    refine ⟨apart.connected, apart.recorded, ?_, ⟨batch, mine, last⟩, client⟩
    intro other
    have its := before other
    rw [empty] at its
    exact its

theorem apart_drain (apart : Apart first server) : Apart first server.drainStep := by
  unfold Server.drainStep
  split
  · exact apart
  · next ready idx popped =>
      obtain ⟨sound, drained⟩ := @sink_drained _ server.sink _ apart.recorded.sound _ _ popped
      refine ⟨apart.connected, ⟨apart.recorded.frames, apart.recorded.published, ?_, sound⟩,
        apart.received, apart.at_point⟩
      have oldest : poolReady server.pool =
          [server.pool.slots idx] ++ poolReady (server.sink.setRing .ready ready).pool := drained
      refine apart.recorded.ready.trans ?_
      rw [oldest, ← List.append_assoc]

theorem apart_recycle (apart : Apart first server) {idx : Nat}
    (taken : server.recycleStep idx = some next) : Apart first next := by
  unfold Server.recycleStep at taken
  split_ifs at taken with mine
  cases taken
  exact ⟨apart.connected, ⟨apart.recorded.frames, apart.recorded.published,
    apart.recorded.ready, @sink_recycled _ server.sink _ apart.recorded.sound _ mine⟩,
    apart.received, apart.at_point⟩

theorem apart_step (apart : Apart first server) {label : ServerLabel}
    (taken : server.step label = some next) : Apart first next := by
  cases label with
  | start listenFd wakeFd =>
      simp only [Server.step] at taken
      split at taken
      · next stopped =>
          split_ifs at taken with unused
          cases taken
          refine ⟨apart.connected, apart.recorded, ?_, trivial⟩
          have before := received_idle apart (idle_at stopped fun _ => rfl)
          exact before
      · cases taken
  | stop =>
      cases taken
      exact ⟨apart.connected, apart.recorded, apart.received, apart.at_point⟩
  | wait reply =>
      simp only [Server.step] at taken
      split at taken
      · next waiting =>
          split_ifs at taken with running
          · exact apart_wait apart waiting taken
          · cases taken
            exact apart_exit apart (idle_at waiting fun _ => rfl)
      · cases taken
  | dispatch =>
      simp only [Server.step] at taken
      split at taken
      · next handling =>
          cases taken
          exact apart_goto apart .waiting server.running (idle_at handling fun _ => rfl)
            (fun _ => rfl) trivial
      · next event rest handling =>
          cases taken
          exact apart_dispatch apart handling
      · cases taken
  | accept reply =>
      simp only [Server.step] at taken
      split at taken
      · next rest accepting => exact apart_accept apart accepting taken
      · cases taken
  | recv reply =>
      simp only [Server.step] at taken
      split at taken
      · next fd rest receiving => exact apart_recv apart receiving taken
      · cases taken
  | consume =>
      simp only [Server.step] at taken
      split at taken
      · next fd owner rest consuming =>
          cases taken
          have at_ := apart.at_point
          rw [consuming] at at_
          refine apart_goto apart (.receiving fd rest) server.running ?_ (fun _ => rfl) at_.1
          intro connection
          rw [consuming]
          simp [LoopPoint.pending]
      · next fd owner message more rest consuming =>
          cases taken
          exact apart_consume apart consuming
      · cases taken
  | drain =>
      cases taken
      exact apart_drain apart
  | recycle idx => exact apart_recycle apart taken

theorem apart_of_reaches (initial : first.Initial) (reached : Reaches (serverFrom first) server) :
    Apart first server := by
  refine invariant_of_step ?_ ?_ reached
  · intro start same
    rw [show start = first from same]
    exact apart_start initial
  · intro state label next _ before _ taken
    exact apart_step before taken

end Steps

/-- Every frame on its way through the ready ring is a block of the stream of the one
connection it is logged under, at a multiple of the frame size; the blocks of a
connection come in stream order, each at most once; and what was assembled for a
connection are the blocks of its own stream from its beginning on, whoever had the
descriptor before. -/
structure ConnectionsApart (first server : Server capacity) : Prop where
  ready : first.sink.readyFrames ++
      server.log.filterMap (fun entry => entry.2.publishedFrame) =
    server.drained ++ server.sink.readyFrames
  aligned : ∀ entry ∈ server.log, ∀ idx slot, entry.2.handling = .published idx slot →
    ∃ index, kWireSize * index + kWireSize ≤ (server.kernel.received entry.1).length ∧
      slot.toList = block kWireSize (server.kernel.received entry.1) index
  in_order : ∀ connection, (publishedOf server.log connection).Sublist
    (blocks kWireSize (server.kernel.received connection))
  assembled : ∀ connection, ∃ pending,
    server.kernel.received connection = server.consumed connection ++ pending ∧
      framesOf server.log connection = blocks kWireSize (server.consumed connection)

/-- Accepts, reads, errors and hang-ups in any order, also across restarts of the
server. -/
theorem connections_never_mix {first server : Server capacity} (initial : first.Initial)
    (reached : Reaches (serverFrom first) server) : ConnectionsApart first server := by
  have apart := apart_of_reaches initial reached
  have positive : 0 < kWireSize := by decide
  have inOrder : ∀ connection, (publishedOf server.log connection).Sublist
      (blocks kWireSize (server.kernel.received connection)) := by
    intro connection
    have some_ := published_of_sublist apart.recorded.published connection
    rw [apart.recorded.frames connection] at some_
    rw [apart.received connection, (blocks_append positive _ _).1]
    exact some_.trans (List.sublist_append_left _ _)
  refine ⟨apart.recorded.ready, ?_, inOrder, ?_⟩
  · intro entry member idx slot handled
    apply mem_blocks
    exact (inOrder entry.1).subset (mem_published_of member handled)
  · intro connection
    exact ⟨_, apart.received connection, apart.recorded.frames connection⟩

/-- A client leaves after ten bytes; the next one gets its descriptor and sends a whole
frame. -/
def descriptorReused : List ServerLabel :=
  [.start 3 4,
    .wait (.events [⟨3, false⟩]), .dispatch, .accept (.connection 5 true), .accept .again,
    .dispatch, .wait (.events [⟨5, false⟩]), .dispatch,
    .recv (.messages (List.replicate 10 1) []), .consume, .consume, .recv .closed, .dispatch,
    .wait (.events [⟨3, false⟩]), .dispatch, .accept (.connection 5 true), .accept .again,
    .dispatch, .wait (.events [⟨5, false⟩]), .dispatch,
    .recv (.messages (List.replicate 44 2) []), .consume]

def newServer : Server fourSlots where
  listenFd := 0
  wakeFd := 0
  running := false
  conns := fun _ => ⟨-1, noBytes, Vector.replicate kWireSize 0⟩
  pool := fourSlotPool
  metrics := .zero
  point := .stopped
  kernel := ⟨fun _ => none, [], 0, fun _ => []⟩
  held := []
  consumed := fun _ => []
  log := []
  drained := []

theorem connections_never_mix_when_descriptor_reused :
    ∃ server, runLabels (serverFrom newServer) newServer descriptorReused = some server ∧
      framesOf server.log 1 = [List.replicate 44 2] ∧ ConnectionsApart newServer server := by
  have initial : newServer.Initial := ⟨rfl, fun _ => rfl, rfl, fun _ => rfl,
    fun _ => ⟨rfl, rfl⟩, fun _ => rfl, rfl, rfl, pool_sound_init _⟩
  have begun : Reaches (serverFrom newServer) newServer := reaches_start rfl
  refine ⟨_, rfl, ?_⟩
  have reached := reaches_run begun (rfl : runLabels _ _ descriptorReused = _)
  have apart := connections_never_mix initial reached
  obtain ⟨pending, received, frames⟩ := apart.assembled 1
  have one : blocks kWireSize (List.replicate 44 (2 : UInt8)) = [List.replicate 44 2] := by
    decide
  exact ⟨frames.trans one, apart⟩

end MarketDataEngine.Net
