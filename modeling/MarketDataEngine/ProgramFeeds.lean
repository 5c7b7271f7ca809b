import MarketDataEngine.EngineAgreement
import MarketDataEngine.GeneratorProgram

/-!
# From the generator program to the engines

What an engine of version 1 or 2 has counted once it has consumed what reached its socket: the
generator is the whole program, with whatever its kernel refuses, and the network may lose,
repeat and reorder the datagrams.
-/

namespace MarketDataEngine.GeneratorV2

open MarketDataEngine.Engine MarketDataEngine.Net MarketDataEngine.Protocol
open MarketDataEngine.TransitionSystem
open SequenceTracker
open MarketDataEngine.EngineV1 (Datagram bufferFrame)

set_option autoImplicit false

/-- The bytes that a datagram carries. -/
def payload (datagram : TxDatagram) : Datagram := datagram.frame.data.getD []

/-- A network between two sockets: the places, among the datagrams sent, of those that arrive. -/
def delivered (sent : List TxDatagram) (network : List Nat) : List Datagram :=
  network.filterMap fun place => sent[place]?.map payload

/-- The session of an engine that has consumed exactly these datagrams. Its threads take turns in
any order; a ring operation is one step, so that calls on one ring do not overlap. -/
inductive ConsumedBy (order : ByteOrder) (datagrams : List Datagram) : Session → Prop where
  | engineV1 {state : EngineV1.QueueState order EngineV1.kPoolCapacity}
      (reached : ReachesUnder (EngineV1.queueSystem order EngineV1.kPoolCapacity)
        EngineV1.SlotFree state)
      (obtained : state.memory.obtained = datagrams)
      (consumed : EngineV1.inFlight state.queue state.server state.consumer = 0) :
      ConsumedBy order datagrams state.memory.session
  | engineV2 {state : EngineV2.QueueState order EngineV2.kPoolCapacity}
      (reached : Reaches (EngineV2.queueSystem order EngineV2.kPoolCapacity) state)
      (obtained : List.Forall₂ EngineV2.Received datagrams state.memory.obtained)
      (consumed : EngineV2.inFlight state.queue state.memory state.io state.consumer = 0) :
      ConsumedBy order datagrams state.memory.session

theorem consumed_of_engine {order : ByteOrder} {datagrams : List Datagram} {session : Session}
    (engine : ConsumedBy order datagrams session) : Consumed datagrams session := by
  cases engine with
  | engineV1 reached obtained consumed =>
      rw [← obtained]
      exact consumed_of_engine_v1 reached consumed
  | engineV2 reached obtained consumed => exact consumed_of_engine_v2 reached obtained consumed

section Frames

variable {order : ByteOrder} {uninitialised : Frame} {messages : List MarketDataMsg}

/-- The slots into which the datagrams of 44 bytes are read. -/
def fullSlots (datagrams : List Datagram) : List Frame :=
  (datagrams.filter EngineV1.isFull).map bufferFrame

theorem slot_of_payload (msg : MarketDataMsg) :
    EngineV1.isFull (payload (GeneratorV1.datagram order uninitialised msg)) = true ∧
      bufferFrame (payload (GeneratorV1.datagram order uninitialised msg)) =
        encode order uninitialised msg := by
  have bytes : payload (GeneratorV1.datagram order uninitialised msg) =
      (encode order uninitialised msg).toList := rfl
  rw [bytes]
  constructor
  · rw [EngineV1.isFull, Vector.length_toList]
    rfl
  · apply Vector.toList_inj.mp
    exact EngineV1.buffer_frame_to_list Vector.length_toList

/-- What the network has delivered are messages of the feed. -/
theorem messages_of_delivered (network : List Nat) :
    ∀ msg ∈ messagesOf (fullSlots (delivered
      (messages.map (GeneratorV1.datagram order uninitialised)) network)), msg ∈ messages := by
  intro msg member
  obtain ⟨slot, inSlots, rfl⟩ := List.mem_map.mp member
  obtain ⟨datagram, arrived, rfl⟩ := List.mem_map.mp inSlots
  obtain ⟨place, -, found⟩ := List.mem_filterMap.mp (List.mem_filter.mp arrived).1
  rw [List.getElem?_map, Option.map_map] at found
  obtain ⟨sent, at_, rfl⟩ := Option.map_eq_some_iff.mp found
  have decoded := messages_of_encoded order uninitialised [sent]
  rw [Function.comp_apply, (slot_of_payload sent).2]
  have same : messageOf (encode order uninitialised sent).toList = sent :=
    (List.cons.inj decoded).1
  rw [same]
  exact List.mem_of_getElem? at_

theorem delivered_payloads (sent : List TxDatagram) (network : List Nat) :
    delivered sent network = network.filterMap fun place => (sent.map payload)[place]? := by
  simp only [delivered, List.getElem?_map]

theorem delivered_all (sent : List TxDatagram) :
    delivered sent (List.range sent.length) = sent.map payload := by
  have places : (List.range sent.length).map (fun place => sent[place]?) = sent.map some := by
    apply List.ext_getElem
    · simp
    · intro place inside _
      rw [List.length_map, List.length_range] at inside
      simp [inside]
  have found : delivered sent (List.range sent.length) =
      ((List.range sent.length).map fun place => sent[place]?).filterMap (Option.map payload) := by
    rw [List.filterMap_map]
    rfl
  rw [found, places, List.filterMap_map]
  show sent.filterMap (some ∘ payload) = sent.map payload
  rw [List.filterMap_eq_map]

theorem full_slots_of_all :
    fullSlots ((messages.map (GeneratorV1.datagram order uninitialised)).map payload) =
      messages.map (encode order uninitialised) := by
  induction messages with
  | nil => rfl
  | cons msg rest ih =>
      obtain ⟨full, slot⟩ := @slot_of_payload order uninitialised msg
      rw [fullSlots] at ih
      rw [List.map_cons, List.map_cons, fullSlots, List.filter_cons, if_pos full, List.map_cons,
        slot, ih, List.map_cons]

end Frames

/-- The books of an engine that the program has fed. The feed is that of the settings, `rate *
duration_s` slots if no count is set. Whatever the generator's kernel refuses and whatever the
network does with what it took, the engine processes messages of the feed only, each at most
once and in order, and counts as missing exactly the other numbers between the first and the
last one. After an exit code of 0, an engine to which everything came through in order has
processed the whole feed. -/
theorem program_feeds_engine (inetPton : List Char → Option UInt32) (writer reader : ByteOrder)
    (uninitialised : Frame) (settings : Settings) (logOpened : Bool)
    (answers : SenderOpenAnswers)
    (replies : AnswerStream.Answers SendmmsgReply (· = .error .eintr)) (now : Int)
    (network : List Nat) (session : Session)
    (fits : 0 < rateOf settings.run →
      FitsInt ((rateOf settings.run).toInt * (durationOf settings.run).toInt)) :
    let ended := main inetPton writer uninitialised settings logOpened answers ⟨replies, []⟩ now
      blankLedger
    let messages := feed (mainArgs settings.run) .constructed
    let arrived := delivered ended.kernel.accepted network
    (settings.run .count = none → 0 < rateOf settings.run →
      (mainArgs settings.run).count.toInt =
        (rateOf settings.run).toInt * (durationOf settings.run).toInt) ∧
    (ConsumedBy reader arrived session →
      PartialFeed session (fullSlots arrived) messages ∧
      (ended.exit = 0 → network = List.range ended.kernel.accepted.length →
        WholeFeed session messages)) := by
  intro ended messages arrived
  refine ⟨fun unset positive => main_count_product unset positive (fits positive), ?_⟩
  intro engine
  obtain ⟨-, taken, bound, accepted, -, ended_, -⟩ :=
    main_ends inetPton writer uninitialised settings logOpened answers ⟨replies, []⟩ now
  change ended.kernel.accepted = _ at accepted
  change taken ≤ messages.length at bound
  change ended.exit = 0 ↔ _ at ended_
  rw [List.nil_append] at accepted
  change _ = (messages.take taken).map _ at accepted
  obtain ⟨increasing, short, low⟩ := feed_seq (mainArgs settings.run) .constructed
  have shape : FeedShape messages := ⟨increasing, short, low⟩
  have books := consumed_of_engine engine
  have drawn : ∀ msg ∈ messagesOf (fullSlots arrived), msg ∈ messages := by
    intro msg member
    simp only [arrived] at member
    rw [accepted] at member
    exact List.mem_of_mem_take (messages_of_delivered network msg member)
  have noTop : topSeqNum ∉ (messagesOf (fullSlots arrived)).map MarketDataMsg.seqNum := by
    intro member
    obtain ⟨msg, inside, top⟩ := List.mem_map.mp member
    exact shape.no_top (List.mem_map.mpr ⟨msg, drawn msg inside, top⟩)
  have tally : Tally session (messagesOf (fullSlots arrived)) := by
    rw [← tally_besides_drops, books.handled, tally_besides_drops]
    exact tally_replay _
  have spans : Spans session := by
    rw [← spans_besides_drops, books.handled, spans_besides_drops]
    exact spans_replay _ noTop
  refine ⟨partial_feed shape drawn tally spans noTop, ?_⟩
  intro success through
  have all := (ended_.mp success).2
  have whole : messagesOf (fullSlots arrived) = messages := by
    have sent : ended.kernel.accepted =
        messages.map (GeneratorV1.datagram writer uninitialised) := by
      rw [accepted, List.take_of_length_le (Nat.le_of_eq all.symm)]
    simp only [arrived]
    rw [through, delivered_all, sent, full_slots_of_all, messages_of_encoded]
  rw [whole] at tally
  exact whole_feed shape tally spans

/-- Two messages are to be sent, in two seconds. -/
def twoSlots : Environment
  | .rate => some ['1']
  | .durationS => some ['2']
  | _ => none

def firstBytes : Datagram :=
  [0, 0, 0, 0, 0, 0, 0, 0, 0, 0, 0, 1, 0, 0, 0, 0, 0, 0, 0, 0, 0, 0, 0, 0, 0, 0, 2, 65, 0, 0, 0, 0,
    0, 0, 2, 66, 0, 0, 0, 89, 0, 0, 0, 90]

def secondBytes : Datagram :=
  [0, 0, 0, 0, 0, 0, 0, 1, 0, 0, 0, 1, 0, 0, 0, 0, 0, 0, 0, 1, 0, 0, 0, 0, 0, 0, 0, 200, 0, 0, 0, 0,
    0, 0, 0, 201, 0, 0, 0, 95, 0, 0, 0, 96]

/-- The second datagram arrives twice at engine v1, and the first one is lost. -/
def secondTwice : Option (EngineV1.QueueState .little EngineV1.kPoolCapacity) :=
  runChecked (EngineV1.queueSystem .little EngineV1.kPoolCapacity) EngineV1.slotFree
    EngineV1.freshQueues
    (EngineV1.ticks .server 1 ++ EngineV1.epollReply (.events (.socket false) []) ++
      EngineV1.ticks .server 1 ++ EngineV1.recvReply (.batch secondBytes [secondBytes]) ++
      EngineV1.ticks .server 9 ++ EngineV1.ticks .consumer 12)

theorem second_twice_consumed :
    ∃ state : EngineV1.QueueState .little EngineV1.kPoolCapacity,
      ConsumedBy .little [secondBytes, secondBytes] state.memory.session ∧
      state.memory.session.metrics.processed = 1 := by
  have outcome : secondTwice.map (fun state => ((state.memory.obtained,
      EngineV1.inFlight state.queue state.server state.consumer),
      state.memory.session.metrics.processed)) = some (([secondBytes, secondBytes], 0), 1) := by
    decide +kernel
  obtain ⟨state, run, seen⟩ := Option.map_eq_some_iff.mp outcome
  obtain ⟨taken, processed⟩ := Prod.mk.inj seen
  obtain ⟨obtained, consumed⟩ := Prod.mk.inj taken
  exact ⟨state, .engineV1 (reaches_under_run EngineV1.slot_free_of_check
    (.start EngineV1.fresh_queues_start) run) obtained consumed, processed⟩

/-- What `recvmmsg` makes of a datagram of 44 bytes. -/
def wholeFrame (datagram : Datagram) : RxFrame := ⟨kWireSize, false, bufferFrame datagram⟩

/-- Both datagrams arrive at engine v2 in one batch. -/
def bothInOrder : Option (EngineV2.QueueState .little EngineV2.kPoolCapacity) :=
  runLabels (EngineV2.queueSystem .little EngineV2.kPoolCapacity) EngineV2.freshQueues
    (EngineV2.ticks .io 35 ++
      [(EngineV2.Thread.io, EngineV2.Input.epoll true [.ready false]
        [.frames (wholeFrame firstBytes) [wholeFrame secondBytes]])] ++
      EngineV2.ticks .io 1 ++ EngineV2.clockRead .io 5 ++ EngineV2.ticks .io 12 ++
      EngineV2.ticks .consumer 9 ++ EngineV2.clockRead .consumer 5 ++
      EngineV2.ticks .consumer 4 ++ EngineV2.clockRead .consumer 5 ++
      EngineV2.ticks .consumer 9)

theorem both_in_order_consumed :
    ∃ state : EngineV2.QueueState .little EngineV2.kPoolCapacity,
      ConsumedBy .little [firstBytes, secondBytes] state.memory.session := by
  have outcome : bothInOrder.map (fun state => (state.memory.obtained.map EngineV2.frameFields,
      EngineV2.inFlight state.queue state.memory state.io state.consumer)) =
      some ([wholeFrame firstBytes, wholeFrame secondBytes].map EngineV2.frameFields, 0) := by
    decide +kernel
  obtain ⟨state, run, seen⟩ := Option.map_eq_some_iff.mp outcome
  obtain ⟨obtained, consumed⟩ := Prod.mk.inj seen
  have frames : state.memory.obtained = [wholeFrame firstBytes, wholeFrame secondBytes] :=
    List.map_injective_iff.mpr EngineV2.frame_fields_injective obtained
  refine ⟨state, .engineV2 (reaches_run (reaches_start EngineV2.fresh_queues_start) run) ?_
    consumed⟩
  rw [frames]
  exact .cons ⟨rfl, rfl, rfl⟩ (.cons ⟨rfl, rfl, rfl⟩ .nil)

/-- The program sends both messages. Engine v1 gets the second one twice, engine v2 both. -/
theorem both_engines_fed :
    let settings : Settings := ⟨twoSlots, none, none, none, none, none⟩
    let ended := main loopbackAddresses .little (Vector.replicate kWireSize 0) settings true
      ⟨some 5, true, true, true⟩ ⟨AnswerStream.Answers.always (.accept 0) (by decide), []⟩ 0
      blankLedger
    let messages := feed (mainArgs twoSlots) .constructed
    (0 < rateOf twoSlots ∧ FitsInt ((rateOf twoSlots).toInt * (durationOf twoSlots).toInt)) ∧
      (mainArgs twoSlots).count.toInt = 2 ∧ ended.exit = 0 ∧ messages.length = 2 ∧
      (∃ state : EngineV1.QueueState .little EngineV1.kPoolCapacity,
        ConsumedBy .little (delivered ended.kernel.accepted [1, 1]) state.memory.session ∧
        state.memory.session.metrics.processed = 1 ∧
        PartialFeed state.memory.session
          (fullSlots (delivered ended.kernel.accepted [1, 1])) messages) ∧
      ∃ state : EngineV2.QueueState .little EngineV2.kPoolCapacity,
        ConsumedBy .little (delivered ended.kernel.accepted [0, 1]) state.memory.session ∧
        WholeFeed state.memory.session messages := by
  intro settings ended messages
  have fits : 0 < rateOf twoSlots ∧
      FitsInt ((rateOf twoSlots).toInt * (durationOf twoSlots).toInt) := by decide
  have opens : Sender.Opens loopbackAddresses (senderConfig settings) ⟨some 5, true, true, true⟩ :=
    ⟨rfl, by decide, rfl, fun _ => rfl, .inr rfl, rfl, rfl, fun _ => rfl⟩
  have success : ended.exit = 0 := main_succeeds loopbackAddresses opens (fun _ => ⟨0, rfl⟩) 0
  have payloads : ended.kernel.accepted.map payload = [firstBytes, secondBytes] := by
    obtain ⟨-, taken, -, accepted, -, ended_, -⟩ := main_ends loopbackAddresses .little
      (Vector.replicate kWireSize 0) settings true ⟨some 5, true, true, true⟩
      ⟨AnswerStream.Answers.always (.accept 0) (by decide), []⟩ 0
    change ended.kernel.accepted = _ at accepted
    have all : taken = messages.length := (ended_.mp success).2
    have bytes : messages.map (fun msg =>
        payload (GeneratorV1.datagram .little (Vector.replicate kWireSize 0) msg)) =
        [firstBytes, secondBytes] := by
      decide +kernel
    rw [accepted, all, List.nil_append, List.take_length, List.map_map]
    exact bytes
  have fed := program_feeds_engine loopbackAddresses .little .little (Vector.replicate kWireSize 0)
    settings true ⟨some 5, true, true, true⟩
    (AnswerStream.Answers.always (.accept 0) (by decide)) 0
  have both : delivered ended.kernel.accepted [0, 1] = [firstBytes, secondBytes] := by
    rw [delivered_payloads, payloads]
    rfl
  have twice : delivered ended.kernel.accepted [1, 1] = [secondBytes, secondBytes] := by
    rw [delivered_payloads, payloads]
    rfl
  have length : ended.kernel.accepted.length = 2 := by
    have counted := congrArg List.length payloads
    rw [List.length_map] at counted
    exact counted
  obtain ⟨one, oneConsumed, processed⟩ := second_twice_consumed
  obtain ⟨two, twoConsumed⟩ := both_in_order_consumed
  rw [← twice] at oneConsumed
  rw [← both] at twoConsumed
  have count := (fed [1, 1] one.memory.session fun _ => fits.2).1 rfl fits.1
  refine ⟨fits, ?_, success, by decide +kernel, ⟨one, oneConsumed, processed, ?_⟩, two,
    twoConsumed, ?_⟩
  · rw [count]
    decide
  · exact ((fed [1, 1] one.memory.session fun _ => fits.2).2 oneConsumed).1
  · refine ((fed [0, 1] two.memory.session fun _ => fits.2).2 twoConsumed).2 success ?_
    change [0, 1] = List.range ended.kernel.accepted.length
    rw [length]
    rfl

end MarketDataEngine.GeneratorV2
