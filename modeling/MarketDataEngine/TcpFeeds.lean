import MarketDataEngine.BlockingTransport
import MarketDataEngine.EpollHangUps

/-!
# Feeds from blocking clients to the epoll server

Any number of clients send encoded messages with `send_all`, each over its own connection;
the epoll server reassembles them and hands them to the ready ring. A kernel may cut and
fail the sends as it likes, the clients and the server are interleaved in any way, and the
byte order may be another on each client.
-/

namespace MarketDataEngine.Net

open MarketDataEngine.Protocol MarketDataEngine.Containers MarketDataEngine.StreamBlocks
open MarketDataEngine.TransitionSystem

set_option autoImplicit false

variable {capacity : Capacity}

/-! ## What a client has handed over -/

/-- The buffers of a client; `send.1` is the memory that `encode` finds in its array. -/
def encodedSends (writer : ByteOrder) (sends : List (Frame × MarketDataMsg)) :
    List (List UInt8) :=
  sends.map fun send => (encode writer send.1 send.2).toList

/-- Whatever the kernel answers, the bytes taken over are those in front of the rest, and
there is no rest exactly if `send_all` returns true. -/
def LeavesRest (outbound : Outbound) (data : List UInt8) (sent : Bool × Outbound) : Prop :=
  ∃ rest, sent.2.accepted ++ rest = outbound.accepted ++ data ∧ (sent.1 = true ↔ rest = [])

theorem send_from_leaves (outbound : Outbound) (data : List UInt8) (total : Nat) :
    LeavesRest outbound (data.drop total) (sendFrom outbound data total) := by
  fun_induction sendFrom outbound data total with
  | case1 outbound total missing n next answered positive ih =>
      cases sent_of_send (drop_present missing) answered with
      | sent _ some_ fits accepted decisions =>
          obtain ⟨rest, whole, all⟩ := ih
          refine ⟨rest, ?_, all⟩
          rw [whole, accepted, List.append_assoc, ← List.drop_drop, List.take_append_drop]
  | case2 outbound total missing n next answered none_ =>
      cases sent_of_send (drop_present missing) answered with
      | sent _ some_ fits accepted decisions => exact absurd some_ none_
  | case3 outbound total missing next answered ih =>
      cases sent_of_send (drop_present missing) answered with
      | error _ accepted decisions =>
          obtain ⟨rest, whole, all⟩ := ih
          rw [accepted] at whole
          exact ⟨rest, whole, all⟩
  | case4 outbound total missing errno next other answered =>
      cases sent_of_send (drop_present missing) answered with
      | error _ accepted decisions =>
          refine ⟨data.drop total, ?_, ?_⟩
          · rw [accepted]
          · have present := List.length_pos_iff.mp (drop_present missing)
            simp [present]
  | case5 outbound total complete =>
      refine ⟨[], ?_, ?_⟩
      · rw [List.drop_eq_nil_of_le (Nat.le_of_not_lt complete)]
      · simp

theorem send_all_leaves (outbound : Outbound) (data : List UInt8) :
    LeavesRest outbound data (sendAll outbound (some data)) := by
  simp only [sendAll]
  split_ifs with empty
  · refine ⟨[], ?_, ?_⟩
    · rw [List.eq_nil_of_length_eq_zero empty]
    · simp
  · exact send_from_leaves outbound data 0

theorem send_each_leaves (buffers : List (List UInt8)) (outbound : Outbound) :
    LeavesRest outbound buffers.flatten (sendEach outbound buffers) := by
  induction buffers generalizing outbound with
  | nil => exact ⟨[], rfl, by simp [sendEach]⟩
  | cons data later ih =>
      obtain ⟨rest, whole, all⟩ := send_all_leaves outbound data
      rw [sendEach, List.flatten_cons]
      generalize sendAll outbound (some data) = sent at whole all
      obtain ⟨ok, next⟩ := sent
      cases ok with
      | true =>
          obtain ⟨restLater, wholeLater, allLater⟩ := ih next
          have nothing : rest = [] := all.mp rfl
          subst nothing
          refine ⟨restLater, ?_, allLater⟩
          rw [wholeLater, ← List.append_assoc, ← whole, List.append_nil]
      | false =>
          refine ⟨rest ++ later.flatten, ?_, ?_⟩
          · rw [← List.append_assoc, whole, List.append_assoc]
          · constructor
            · intro impossible
              cases impossible
            · intro nothing
              exact all.mpr (List.append_eq_nil_iff.mp nothing).1

/-- A client somewhere in its calls of `send_all`, with the answers it meets. -/
def Sending (writer : ByteOrder) (sends : List (Frame × MarketDataMsg)) (sent : List UInt8) :
    Prop :=
  ∃ decisions, sent <+: (sendEach ⟨[], decisions⟩ (encodedSends writer sends)).2.accepted

/-- A client all of whose calls have returned true. -/
def SentAll (writer : ByteOrder) (sends : List (Frame × MarketDataMsg)) (sent : List UInt8) :
    Prop :=
  ∃ decisions, (sendEach ⟨[], decisions⟩ (encodedSends writer sends)).1 = true ∧
    sent = (sendEach ⟨[], decisions⟩ (encodedSends writer sends)).2.accepted

theorem sending_beginning {writer : ByteOrder} {sends : List (Frame × MarketDataMsg)}
    {sent : List UInt8} (sending : Sending writer sends sent) :
    sent <+: (encodedSends writer sends).flatten := by
  obtain ⟨decisions, before⟩ := sending
  obtain ⟨rest, whole, -⟩ := send_each_leaves (encodedSends writer sends) ⟨[], decisions⟩
  rw [List.nil_append] at whole
  exact before.trans ⟨rest, whole⟩

theorem sending_of_sent_all {writer : ByteOrder} {sends : List (Frame × MarketDataMsg)}
    {sent whole : List UInt8} (sentAll : SentAll writer sends whole) (before : sent <+: whole) :
    Sending writer sends sent := by
  obtain ⟨decisions, -, rfl⟩ := sentAll
  exact ⟨decisions, before⟩

theorem sent_all_eq {writer : ByteOrder} {sends : List (Frame × MarketDataMsg)}
    {sent : List UInt8} (sentAll : SentAll writer sends sent) :
    sent = (encodedSends writer sends).flatten := by
  obtain ⟨decisions, ok, rfl⟩ := sentAll
  obtain ⟨rest, whole, all⟩ := send_each_leaves (encodedSends writer sends) ⟨[], decisions⟩
  rw [all.mp ok, List.append_nil, List.nil_append] at whole
  exact whole

/-! ## What the server makes of it -/

/-- `protocol::decode` of a frame in the ready ring. -/
def decoded (reader : ByteOrder) (out : MarketDataMsg) (frames : List (List UInt8)) :
    List (Bool × MarketDataMsg) :=
  frames.map fun bytes => decode reader bytes bytes.length out

theorem blocks_of_beginning {size : Nat} (positive : 0 < size) {stream whole : List UInt8}
    (before : stream <+: whole) : blocks size stream <+: blocks size whole := by
  obtain ⟨rest, rfl⟩ := before
  rw [(blocks_append positive stream rest).1]
  exact List.prefix_append _ _

/-- The whole frames of a part of the stream are the first of the messages. -/
theorem decoded_beginning (writer reader : ByteOrder) (out : MarketDataMsg)
    {sends : List (Frame × MarketDataMsg)} {stream : List UInt8}
    (before : stream <+: (encodedSends writer sends).flatten) :
    ∃ whole ≤ sends.length, whole = stream.length / kWireSize ∧
      decoded reader out (blocks kWireSize stream) =
        (sends.take whole).map fun send => (true, send.2) := by
  have positive : 0 < kWireSize := by decide
  have frames := blocks_of_beginning positive before
  rw [encodedSends, blocks_of_encoded] at frames
  have count : (blocks kWireSize stream).length = stream.length / kWireSize := by
    rw [blocks, List.length_map, List.length_range]
  refine ⟨stream.length / kWireSize, ?_, rfl, ?_⟩
  · have bound := frames.length_le
    rw [List.length_map, count] at bound
    exact bound
  · rw [List.prefix_iff_eq_take, count, ← List.map_take] at frames
    rw [decoded, frames]
    exact decoded_of_encoded writer reader _ out

/-- Every message a client has sent is, in every state, assembled in its turn, still on its
way in the bytes behind, or lost with its connection; none is altered, repeated, taken for
another's or overtaken by a later one of its client. What is assembled goes through the
ready ring or is counted in `drops`. -/
theorem feeds_kept_apart {first wired : WiredServer capacity} (initial : first.Initial)
    (reached : Reaches (wiredFrom first) wired) (writer : Nat → ByteOrder) (reader : ByteOrder)
    (out : MarketDataMsg) (sends : Nat → List (Frame × MarketDataMsg))
    (sending : ∀ connection,
      Sending (writer connection) (sends connection) (wired.sockets connection).sent) :
    (∀ connection,
      (∃ whole ≤ (sends connection).length,
        whole = (wired.server.consumed connection).length / kWireSize ∧
        decoded reader out (framesOf wired.server.log connection) =
          ((sends connection).take whole).map fun send => (true, send.2)) ∧
      (decoded reader out (publishedOf wired.server.log connection)).Sublist
        ((sends connection).map fun send => (true, send.2))) ∧
    first.server.sink.readyFrames ++
        wired.server.log.filterMap (fun entry => entry.2.publishedFrame) =
      wired.server.drained ++ wired.server.sink.readyFrames ∧
    wired.server.metrics.drops =
      first.server.metrics.drops + UInt64.ofNat (droppedFrames wired.server.log) := by
  have apart := apart_of_wired initial reached
  have streams := streams_of_reaches initial reached
  refine ⟨?_, apart.recorded.ready, streams.drops⟩
  intro connection
  have inside : wired.server.consumed connection <+:
      (encodedSends (writer connection) (sends connection)).flatten := by
    refine List.IsPrefix.trans ?_ (sending_beginning (sending connection))
    rw [streams.sent connection, apart.received connection, List.append_assoc]
    exact List.prefix_append _ _
  obtain ⟨whole, bound, count, frames⟩ := decoded_beginning (writer connection) reader out inside
  rw [← apart.recorded.frames connection] at frames
  refine ⟨⟨whole, bound, count, frames⟩, ?_⟩
  have published := (published_of_sublist apart.recorded.published connection).map
    fun bytes => decode reader bytes bytes.length out
  have ordered : (decoded reader out (publishedOf wired.server.log connection)).Sublist
      (((sends connection).take whole).map fun send => (true, send.2)) := by
    rw [← frames]
    exact published
  exact ordered.trans ((List.take_sublist _ _).map _)

/-- The message whose bytes are all 7. -/
def sevens : MarketDataMsg :=
  ⟨0x0707070707070707, 0x07070707, 0x0707070707070707, 0x0707070707070707, 0x0707070707070707,
    0x07070707, 0x07070707⟩

/-- The message whose bytes are all 9. -/
def nines : MarketDataMsg :=
  ⟨0x0909090909090909, 0x09090909, 0x0909090909090909, 0x0909090909090909, 0x0909090909090909,
    0x09090909, 0x09090909⟩

theorem encode_sevens : (encode .little (Vector.replicate kWireSize 0) sevens).toList =
    List.replicate 44 7 := by
  decide +kernel

theorem encode_nines : (encode .little (Vector.replicate kWireSize 0) nines).toList =
    List.replicate 44 9 := by
  decide +kernel

/-- Two clients send the two messages, in different order and number. -/
def twoFeeds : Nat → List (Frame × MarketDataMsg)
  | 0 => [(Vector.replicate kWireSize 0, sevens), (Vector.replicate kWireSize 0, nines)]
  | 1 => [(Vector.replicate kWireSize 0, nines), (Vector.replicate kWireSize 0, sevens),
      (Vector.replicate kWireSize 0, nines)]
  | _ => []

/-- The sends of the first client are cut after ten bytes and interrupted. -/
theorem sent_all_first :
    SentAll .little (twoFeeds 0) (List.replicate 44 7 ++ List.replicate 44 9) := by
  refine ⟨[.transfer 9, .error .eintr], ?_⟩
  have buffers : encodedSends .little (twoFeeds 0) =
      [List.replicate 44 7, List.replicate 44 9] := by
    simp only [twoFeeds, encodedSends, List.map_cons, List.map_nil, encode_sevens, encode_nines]
  rw [buffers]
  decide +kernel

theorem sent_all_second : SentAll .little (twoFeeds 1)
    (List.replicate 44 9 ++ List.replicate 44 7 ++ List.replicate 44 9) := by
  refine ⟨[], ?_⟩
  have buffers : encodedSends .little (twoFeeds 1) =
      [List.replicate 44 9, List.replicate 44 7, List.replicate 44 9] := by
    simp only [twoFeeds, encodedSends, List.map_cons, List.map_nil, encode_sevens, encode_nines]
  rw [buffers]
  decide +kernel

theorem sending_nothing (writer : ByteOrder) (sends : List (Frame × MarketDataMsg)) :
    Sending writer sends [] :=
  ⟨[], List.nil_prefix⟩

/-- Only a client adds to what it has sent. -/
theorem sent_of_unwritten {first wired final : WiredServer capacity} {labels : List WireLabel}
    {connection : Nat} (unwritten : ∀ bytes, .write connection bytes ∉ labels)
    (run : runLabels (wiredFrom first) wired labels = some final) :
    (final.sockets connection).sent = (wired.sockets connection).sent := by
  induction labels generalizing wired with
  | nil =>
      cases run
      rfl
  | cons label rest ih =>
      obtain ⟨next, taken, remaining⟩ := Option.bind_eq_some_iff.mp run
      have later : ∀ bytes, .write connection bytes ∉ rest := fun bytes member =>
        unwritten bytes (List.mem_cons_of_mem _ member)
      rw [ih later remaining]
      cases label with
      | write other bytes =>
          have different : connection ≠ other := by
            rintro rfl
            exact unwritten bytes List.mem_cons_self
          simp only [wiredFrom, WiredServer.step] at taken
          split_ifs at taken
          cases taken
          exact congrArg TcpSocket.sent (Function.update_of_ne different _ _)
      | shutDown other =>
          cases taken
          simp only [WiredServer.setSocket, Function.update_apply]
          split_ifs with same
          · rw [same]
          · rfl
      | fail other =>
          cases taken
          simp only [WiredServer.setSocket, Function.update_apply]
          split_ifs with same
          · rw [same]
          · rfl
      | server serverLabel =>
          obtain ⟨answered, side, served⟩ := Option.bind_eq_some_iff.mp taken
          obtain ⟨server, -, rfl⟩ := Option.map_eq_some_iff.mp served
          show (answered.sockets connection).sent = _
          by_cases reads : ∃ reply, serverLabel = .recv reply
          · obtain ⟨reply, rfl⟩ := reads
            simp only [WiredServer.kernelSide, WiredServer.recvCall] at side
            split at side
            · split at side
              · obtain ⟨socket, found, rfl⟩ := Option.map_eq_some_iff.mp side
                simp only [WiredServer.setSocket, Function.update_apply]
                split_ifs with same
                · rw [(answer_front found).2.2.2, same]
                · rfl
              · cases side
            · cases side
          · rw [(kernel_side_sockets (fun reply same => reads ⟨reply, same⟩) side).1]

/-- Both clients are accepted. -/
def bothAccepted : List WireLabel :=
  [.start 3 4, .wait (.events [⟨3, false⟩]), .dispatch, .accept (.connection 5 true),
    .accept (.connection 6 true), .accept .again, .dispatch].map .server

/-- Both clients have sent, and the server reads all of it. -/
def bothRead (first second : List UInt8) : List WireLabel :=
  [WireLabel.write 0 first, .write 1 second] ++
    [ServerLabel.wait (.events [⟨5, false⟩, ⟨6, false⟩]), .dispatch, .recv (.messages first []),
      .consume, .consume, .recv .again, .dispatch, .recv (.messages second []), .consume, .consume,
      .recv .again, .dispatch].map WireLabel.server

/-- Five messages for four slots, and nobody reads the ready ring. -/
def fiveMessages : List WireLabel :=
  bothAccepted ++ bothRead (List.replicate 44 7 ++ List.replicate 6 9)
    (List.replicate 44 9 ++ List.replicate 44 7) ++
    bothRead (List.replicate 38 9) (List.replicate 44 9)

/-- The second message of the first client is cut by the messages of the other one, whose last
message is dropped. -/
theorem two_feeds_kept_apart :
    ∃ wired, Reaches (wiredFrom newWired) wired ∧
      decoded .big sevens (framesOf wired.server.log 0) = [(true, sevens), (true, nines)] ∧
      decoded .big sevens (framesOf wired.server.log 1) =
        [(true, nines), (true, sevens), (true, nines)] ∧
      (decoded .big sevens (publishedOf wired.server.log 1)).Sublist
        [(true, nines), (true, sevens), (true, nines)] ∧
      (publishedOf wired.server.log 1).length = 2 ∧ wired.server.metrics.drops = 1 := by
  have outcome : (runLabels (wiredFrom newWired) newWired fiveMessages).map
      (fun wired => ((wired.sockets 0).sent, (wired.sockets 1).sent,
        (wired.server.consumed 0).length, (wired.server.consumed 1).length,
        (publishedOf wired.server.log 1).length, droppedFrames wired.server.log)) =
        some (List.replicate 44 7 ++ List.replicate 44 9,
          List.replicate 44 9 ++ List.replicate 44 7 ++ List.replicate 44 9, 88, 132, 2, 1) := by
    decide +kernel
  obtain ⟨wired, run, outcome⟩ := Option.map_eq_some_iff.mp outcome
  obtain ⟨first, outcome⟩ := Prod.mk.inj outcome
  obtain ⟨second, outcome⟩ := Prod.mk.inj outcome
  obtain ⟨consumedFirst, outcome⟩ := Prod.mk.inj outcome
  obtain ⟨consumedSecond, outcome⟩ := Prod.mk.inj outcome
  obtain ⟨published, dropped⟩ := Prod.mk.inj outcome
  have reached : Reaches (wiredFrom newWired) wired := reaches_run (.start rfl) run
  have sending : ∀ connection,
      Sending .little (twoFeeds connection) (wired.sockets connection).sent := by
    intro connection
    match connection with
    | 0 =>
        rw [first]
        exact sending_of_sent_all sent_all_first (List.prefix_refl _)
    | 1 =>
        rw [second]
        exact sending_of_sent_all sent_all_second (List.prefix_refl _)
    | connection + 2 =>
        have unwritten : ∀ bytes, .write (connection + 2) bytes ∉ fiveMessages := by
          simp [fiveMessages, bothAccepted, bothRead]
        rw [sent_of_unwritten unwritten run]
        exact sending_nothing .little _
  obtain ⟨feeds, -, drops⟩ := feeds_kept_apart new_wired_initial reached (fun _ => .little) .big
    sevens twoFeeds sending
  obtain ⟨whole, -, count, frames⟩ := (feeds 0).1
  obtain ⟨wholeSecond, -, countSecond, framesSecond⟩ := (feeds 1).1
  rw [consumedFirst] at count
  rw [consumedSecond] at countSecond
  rw [count] at frames
  rw [countSecond] at framesSecond
  rw [dropped] at drops
  exact ⟨wired, reached, frames, framesSecond, (feeds 1).2, published, drops⟩

/-! ## Feeds that arrive as a whole -/

theorem all_assembled_of_reaches {first wired : WiredServer capacity} (initial : first.Initial)
    (reached : ReachesUnder (wiredFrom first) TailConsumed wired) : AllAssembled wired := by
  refine invariant_of_step ?_ ?_ reached
  · intro start same
    rw [show start = first from same]
    intro connection impossible
    have none_ := impossible.1
    rw [initial.connections] at none_
    exact absurd none_ (Nat.not_lt_zero connection)
  · intro state label next run before consumed taken
    have run := reaches_of_reaches_under run
    exact all_assembled_step (apart_of_wired initial run) (streams_of_reaches initial run) before
      consumed taken

/-- Without drops everything that was assembled was published. -/
theorem published_of_undropped {log : List (Nat × Assembled)} (none_ : droppedFrames log = 0)
    (published : ∀ entry ∈ log, ∀ idx slot, entry.2.handling = .published idx slot →
      slot = entry.2.frame) (connection : Nat) :
    publishedOf log connection = framesOf log connection := by
  apply List.filterMap_congr
  intro entry member
  have kept : ¬ entry.2.isDropped = true := List.countP_eq_zero.mp none_ entry member
  by_cases same : entry.1 = connection
  · rw [if_pos same, if_pos same, Assembled.publishedFrame]
    cases handled : entry.2.handling with
    | published idx slot =>
        rw [published entry member idx slot handled]
        rfl
    | dropped =>
        rw [Assembled.isDropped, handled] at kept
        exact absurd (decide_eq_true rfl) kept
  · rw [if_neg same, if_neg same]

/-- As long as no hang-up is handled before the end of a frame has been read: once the
connection of a client whose sends have all succeeded is closed, its messages were assembled,
all of them, in order and nothing else; and they all went to the ready ring if nothing was
dropped. -/
theorem closed_feed_complete {first wired : WiredServer capacity} (initial : first.Initial)
    (reached : ReachesUnder (wiredFrom first) TailConsumed wired) (writer reader : ByteOrder)
    (out : MarketDataMsg) {sends : List (Frame × MarketDataMsg)} {connection : Nat}
    (closed : wired.Closed connection) (clean : (wired.sockets connection).broken = false)
    (sentAll : SentAll writer sends (wired.sockets connection).sent) :
    decoded reader out (framesOf wired.server.log connection) =
        sends.map (fun send => (true, send.2)) ∧
      (droppedFrames wired.server.log = 0 →
        decoded reader out (publishedOf wired.server.log connection) =
          sends.map fun send => (true, send.2)) := by
  have apart := apart_of_wired initial (reaches_of_reaches_under reached)
  have frames := (all_assembled_of_reaches initial reached connection closed clean).2
  rw [sent_all_eq sentAll, encodedSends, blocks_of_encoded] at frames
  have complete : decoded reader out (framesOf wired.server.log connection) =
      sends.map fun send => (true, send.2) := by
    rw [frames]
    exact decoded_of_encoded writer reader sends out
  refine ⟨complete, ?_⟩
  intro none_
  rw [published_of_undropped none_ apart.recorded.published]
  exact complete

/-- Two messages arrive in two pieces, the first of which ends inside the second message; then
the client shuts down its side. -/
def messagesThenHangUp : List WireLabel :=
  clientAccepted ++ [WireLabel.write 0 (List.replicate 44 7 ++ List.replicate 6 9)] ++
    [ServerLabel.wait (.events [⟨5, false⟩]), .dispatch,
      .recv (.messages (List.replicate 44 7 ++ List.replicate 6 9) []), .consume, .consume,
      .recv .again, .dispatch].map WireLabel.server ++
    [WireLabel.write 0 (List.replicate 38 9)] ++
    [ServerLabel.wait (.events [⟨5, false⟩]), .dispatch,
      .recv (.messages (List.replicate 38 9) []), .consume, .consume, .recv .again,
      .dispatch].map WireLabel.server ++
    [WireLabel.shutDown 0, .server (.wait (.events [⟨5, true⟩]))]

/-- The one event of a batch that is left. -/
def LoopPoint.lastEvent : LoopPoint → Option (Nat × Bool)
  | .handling [event] => some (event.fd, event.hangUp)
  | _ => none

theorem handling_of_last_event {point : LoopPoint} {fd : Nat} {hangUp : Bool}
    (last : point.lastEvent = some (fd, hangUp)) : point = .handling [⟨fd, hangUp⟩] := by
  unfold LoopPoint.lastEvent at last
  split at last
  · next event =>
      obtain ⟨same, its⟩ := Prod.mk.inj (Option.some.inj last)
      rw [← same, ← its]
  · cases last

/-- Both messages are read before their client shuts down; then the hang-up is handled. -/
theorem messages_complete_before_hang_up :
    ∃ wired, ReachesUnder (wiredFrom newWired) TailConsumed wired ∧ wired.Closed 0 ∧
      decoded .big sevens (framesOf wired.server.log 0) = [(true, sevens), (true, nines)] := by
  have begun : ReachesUnder (wiredFrom newWired) TailConsumed newWired := .start rfl
  have outcome : (runChecked (wiredFrom newWired) tailConsumed newWired messagesThenHangUp).map
      (fun wired => (wired.server.point.lastEvent,
        (wired.server.kernel.clients 5, wired.server.kernel.nextConnection),
        (wired.server.wakeFd, wired.server.listenFd))) =
        some (some (5, true), (some 0, 1), (4, 3)) := by
    decide +kernel
  have sockets : (runChecked (wiredFrom newWired) tailConsumed newWired messagesThenHangUp).map
      (fun wired => (tailConsumed wired (.server .dispatch), (wired.sockets 0).broken,
        (wired.sockets 0).sent)) =
        some (true, false, List.replicate 44 7 ++ List.replicate 44 9) := by
    decide +kernel
  obtain ⟨wired, run, outcome⟩ := Option.map_eq_some_iff.mp outcome
  obtain ⟨handles, outcome⟩ := Prod.mk.inj outcome
  obtain ⟨clients, fds⟩ := Prod.mk.inj outcome
  obtain ⟨client, connections⟩ := Prod.mk.inj clients
  obtain ⟨wake, listen⟩ := Prod.mk.inj fds
  rw [run] at sockets
  obtain ⟨checked, sockets⟩ := Prod.mk.inj (Option.some.inj sockets)
  obtain ⟨clean, sent⟩ := Prod.mk.inj sockets
  have point := handling_of_last_event handles
  have reached := reaches_under_run tail_consumed_of_check begun run
  have guarded : TailConsumed wired (.server .dispatch) :=
    tail_consumed_of_check wired _ checked
  have taken : (wiredFrom newWired).step wired (.server .dispatch) = some { wired with
      server := (wired.server.closeClient 5).goto (.handling []) } := by
    simp [wiredFrom, WiredServer.step, WiredServer.kernelSide, Server.step, point, client,
      Server.dispatchStep, wake, listen]
  have closes := ReachesUnder.step reached guarded taken
  have closed : WiredServer.Closed { wired with
      server := (wired.server.closeClient 5).goto (.handling []) } 0 := by
    have born : 0 < wired.server.kernel.nextConnection := by
      rw [connections]
      decide
    refine ⟨born, ?_⟩
    intro fd opened
    have apart := apart_of_wired new_wired_initial (reaches_of_reaches_under reached)
    obtain ⟨other, still⟩ := client_of_close opened
    exact other (apart.connected.one_fd fd 5 0 still client)
  have sentAll : SentAll .little (twoFeeds 0) (wired.sockets 0).sent := by
    rw [sent]
    exact sent_all_first
  have complete := closed_feed_complete new_wired_initial closes .little .big sevens closed clean
    sentAll
  exact ⟨_, closes, closed, complete.1⟩

end MarketDataEngine.Net
