import MarketDataEngine.EngineShutdown
import MarketDataEngine.EngineV1Accounting
import MarketDataEngine.EngineV2Delivery
import MarketDataEngine.EngineV3Frames
import MarketDataEngine.FeedAccounting

/-!
# Three engines on the same traffic

What an engine makes of a list of datagrams once it has consumed them all, for
every cut into batches and every order of the threads' steps. Engines v1 and v2
take the datagrams of 44 bytes and agree in all counters. Engine v3 also takes
longer ones, and that is the one difference to engine v2.
-/

namespace MarketDataEngine.EngineV1

open MarketDataEngine.Protocol MarketDataEngine.Containers MarketDataEngine.Engine
open MarketDataEngine.TransitionSystem MarketDataEngine.SteppedObject

set_option autoImplicit false

variable {order : ByteOrder} {capacity : Capacity}

def isFull (datagram : Datagram) : Bool := datagram.length == kWireSize

/-- Whenever the server asks the free ring for a slot, there is one. -/
def SlotFree (state : QueueState order capacity) (label : Thread × Input) : Prop :=
  label.1 = .server → ∀ events datagram batch,
    state.server = .takeSlot events datagram batch → state.queue .free ≠ []

/-- No datagram of 44 bytes is passed over. -/
def AcceptsFull (memory : Memory) (server : ServerLocation) : Prop :=
  memory.obtained.filter isFull =
    memory.accepted ++ (server.checked ++ server.waiting).filter isFull

section Steps

variable {queues nextQueues : PoolRing → List Nat} {memory after : Memory}
variable {server nextServer : ServerLocation} {consumer : ConsumerLocation}

theorem accepts_full_of_moves (accepts : AcceptsFull memory server)
    (obtained : after.obtained = memory.obtained)
    (accepted : after.accepted = memory.accepted)
    (moved : nextServer.checked ++ nextServer.waiting = server.checked ++ server.waiting) :
    AcceptsFull after nextServer := by
  unfold AcceptsFull
  rw [obtained, accepted, moved]
  exact accepts

theorem accepts_full_inspect {events : List SocketEvent} {batch : List Datagram}
    (accepts : AcceptsFull memory (.inspect events batch)) :
    AcceptsFull memory (inspectNext events batch) := by
  cases batch with
  | nil => exact accepts_full_of_moves accepts rfl rfl rfl
  | cons datagram batch =>
      simp only [inspectNext]
      split_ifs with invalid
      · have dropped : isFull datagram = false := by
          rw [Bool.eq_false_iff]
          intro full
          rw [isFull, beq_iff_eq] at full
          simp [truncated, msgLen, full, kBufSize, kWireSize] at invalid
        refine accepts.trans ?_
        simp [ServerLocation.checked, ServerLocation.waiting, dropped]
      · exact accepts_full_of_moves accepts rfl rfl rfl

theorem accepts_full_copy {events : List SocketEvent} {idx : Nat} {datagram : Datagram}
    {batch : List Datagram}
    (owned : Owned capacity queues memory (.copySlot events idx datagram batch) consumer)
    (accepts : AcceptsFull memory (.copySlot events idx datagram batch)) :
    AcceptsFull (memory.copy idx datagram) (.publish events idx batch) := by
  have full : isFull datagram = true := by
    rw [isFull, beq_iff_eq]
    exact owned.full_length datagram (by simp [ServerLocation.checked])
  refine accepts.trans ?_
  simp [Memory.copy, ServerLocation.checked, ServerLocation.waiting, full]

theorem accepts_full_server_step {input : Input}
    (owned : Owned capacity queues memory server consumer)
    (accepts : AcceptsFull memory server)
    (slotFree : ∀ events datagram batch, server = .takeSlot events datagram batch →
      queues .free ≠ [])
    (step : queueStep capacity (serverAction server) queues memory input =
      some (nextQueues, after, nextServer)) :
    AcceptsFull after nextServer := by
  cases server with
  | loopTest =>
      cases step
      cases memory.handleRunning <;> exact accepts_full_of_moves accepts rfl rfl rfl
  | wait =>
      cases input with
      | epoll reply =>
          cases reply with
          | events first rest =>
              simp only [queueStep, actionStep, serverAction] at step
              split_ifs at step
              · cases step
                exact accepts_full_of_moves accepts rfl rfl rfl
              · cases step
          | _ =>
              cases step
              exact accepts_full_of_moves accepts rfl rfl rfl
      | _ => cases step
  | dispatch events =>
      cases step
      cases events with
      | nil => exact accepts_full_of_moves accepts rfl rfl rfl
      | cons event rest =>
          cases event with
          | socket failed => cases failed <;> exact accepts_full_of_moves accepts rfl rfl rfl
          | _ => exact accepts_full_of_moves accepts rfl rfl rfl
  | receive events =>
      cases input with
      | recv reply =>
          cases reply with
          | batch first rest =>
              simp only [queueStep, actionStep, serverAction, receiveReply] at step
              split_ifs at step
              · cases step
                have before : memory.obtained.filter isFull = memory.accepted ++ [] := accepts
                unfold AcceptsFull
                rw [List.filter_append, before, List.append_nil]
                rfl
              · cases step
          | _ =>
              cases step
              exact accepts_full_of_moves accepts rfl rfl rfl
      | _ => cases step
  | inspect events batch =>
      cases step
      exact accepts_full_inspect accepts
  | takeSlot events datagram batch =>
      cases step
      cases free : queues .free with
      | nil => exact absurd free (slotFree events datagram batch rfl)
      | cons idx rest =>
          have popped : (fifoExec capacity queues (.pop .free)).2 = some idx := by
            simp only [fifoExec, free, fifoPop]
            rfl
          show AcceptsFull memory (takeReturned events datagram batch
            (fifoExec capacity queues (.pop .free)).2)
          rw [popped]
          exact accepts_full_of_moves accepts rfl rfl rfl
  | copySlot events idx datagram batch =>
      cases step
      exact accepts_full_copy owned accepts
  | publish events idx batch =>
      cases step
      show AcceptsFull memory (publishReturned events idx batch
        (fifoExec capacity queues (.push .ready idx)).2)
      unfold publishReturned
      split_ifs <;> exact accepts_full_of_moves accepts rfl rfl rfl
  | finished => cases step
  | _ =>
      cases step
      exact accepts_full_of_moves accepts rfl rfl rfl

theorem consumer_step_arrivals {nextConsumer : ConsumerLocation} {input : Input}
    (step : queueStep capacity (consumerAction order consumer) queues memory input =
      some (nextQueues, after, nextConsumer)) :
    after.obtained = memory.obtained ∧ after.accepted = memory.accepted := by
  cases consumer <;> cases step <;> exact ⟨rfl, rfl⟩

end Steps

def StateAcceptsFull (state : QueueState order capacity) : Prop :=
  AcceptsFull state.memory state.server

theorem accepts_full_of_reaches {state : QueueState order capacity}
    (reached : ReachesUnder (queueSystem order capacity) SlotFree state) :
    StateAcceptsFull state := by
  refine invariant_of_step ?_ ?_ reached
  · rintro state ⟨-, -, ⟨slots, memory⟩, server, -⟩
    unfold StateAcceptsFull
    rw [memory, server]
    rfl
  · intro state label next prior accepts slotFree taken
    have owned := owned_of_reaches (reaches_of_reaches_under prior)
    unfold StateAcceptsFull at accepts ⊢
    cases moves_of_step taken with
    | server step _ _ =>
        exact accepts_full_server_step owned accepts (slotFree rfl) step
    | consumer step server _ =>
        obtain ⟨obtained, accepted⟩ := consumer_step_arrivals step
        rw [server]
        exact accepts_full_of_moves accepts obtained accepted rfl
    | control step server consumer =>
        obtain ⟨-, -, -, accepted, obtained⟩ := control_step_frame step
        rw [server]
        exact accepts_full_of_moves accepts obtained accepted rfl

theorem nothing_pending {server : ServerLocation} (settled : server.pending = 0) :
    server.checked = [] ∧ server.waiting = [] ∧ server.copied = [] := by
  cases server with
  | inspect events batch => exact ⟨rfl, List.eq_nil_of_length_eq_zero settled, rfl⟩
  | giveBack events idx batch => exact ⟨rfl, List.eq_nil_of_length_eq_zero settled, rfl⟩
  | loopTest => exact ⟨rfl, rfl, rfl⟩
  | wait => exact ⟨rfl, rfl, rfl⟩
  | dispatch events => exact ⟨rfl, rfl, rfl⟩
  | receive events => exact ⟨rfl, rfl, rfl⟩
  | leave => exact ⟨rfl, rfl, rfl⟩
  | finished => exact ⟨rfl, rfl, rfl⟩
  | _ => cases settled

theorem nothing_unclassified {consumer : ConsumerLocation}
    (settled : consumer.unclassified = 0) :
    consumer.undecoded = [] ∧ consumer.point = none := by
  cases consumer with
  | stage idx point => cases settled
  | _ => exact ⟨rfl, rfl⟩

/-- With nothing in flight the datagrams of 44 bytes have been decoded, in order. -/
theorem decoded_of_consumed {state : QueueState order capacity}
    (reached : ReachesUnder (queueSystem order capacity) SlotFree state)
    (consumed : inFlight state.queue state.server state.consumer = 0) :
    (state.memory.obtained.filter isFull).map bufferFrame =
      state.memory.session.decoded := by
  have accepts := accepts_full_of_reaches reached
  have owned := owned_of_reaches (reaches_of_reaches_under reached)
  have flow := owned.flow
  unfold inFlight at consumed
  have ready : state.queue .ready = [] := List.eq_nil_of_length_eq_zero (by omega)
  obtain ⟨checked, waiting, copied⟩ := nothing_pending
    (show state.server.pending = 0 by omega)
  obtain ⟨undecoded, -⟩ := nothing_unclassified
    (show state.consumer.unclassified = 0 by omega)
  unfold StateAcceptsFull AcceptsFull at accepts
  rw [checked, waiting, List.append_nil, List.filter_nil, List.append_nil] at accepts
  rw [ready, copied, undecoded, List.append_nil, List.append_nil, List.map_nil,
    List.append_nil] at flow
  rw [accepts, flow]

def slotFree (state : QueueState order capacity) (label : Thread × Input) : Bool :=
  match label.1, state.server with
  | .server, .takeSlot _ _ _ => !(state.queue .free).isEmpty
  | _, _ => true

theorem slot_free_of_check (state : QueueState order capacity) (label : Thread × Input)
    (checked : slotFree state label = true) : SlotFree state label := by
  intro server events datagram batch at_
  simp only [slotFree, server, at_, Bool.not_eq_true', List.isEmpty_eq_false_iff] at checked
  exact checked

/-- A datagram of 44 bytes and one of three arrive together and are consumed. -/
def twoDatagramsRun : Option (QueueState .little kPoolCapacity) :=
  runChecked (queueSystem .little kPoolCapacity) slotFree freshQueues
    (ticks .server 1 ++ epollReply (.events (.socket false) []) ++ ticks .server 1 ++
      recvReply (.batch (List.replicate 44 7) [List.replicate 3 7]) ++ ticks .server 6 ++
      ticks .consumer 5)

end MarketDataEngine.EngineV1

namespace MarketDataEngine.EngineV2

open MarketDataEngine.Protocol MarketDataEngine.Containers MarketDataEngine.Engine
open MarketDataEngine.Net MarketDataEngine.TransitionSystem
open MarketDataEngine.EngineV1 (Datagram bufferFrame)

set_option autoImplicit false

variable {order : ByteOrder} {capacity : Capacity}

/-- What the kernel makes of a datagram in a slot of 44 bytes. -/
structure Received (datagram : Datagram) (frame : RxFrame) : Prop where
  len : frame.len = min datagram.length kWireSize
  truncated : frame.truncated = decide (kWireSize < datagram.length)
  bytes : frame.slot.toList.take frame.len = datagram.take frame.len

theorem is_full_of_received {datagram : Datagram} {frame : RxFrame}
    (received : Received datagram frame) :
    isFull frame = EngineV1.isFull datagram := by
  rw [Bool.eq_iff_iff, EngineV1.isFull, isFull, received.len, received.truncated]
  simp only [Bool.not_eq_true', Bool.or_eq_false_iff, decide_eq_false_iff_not, bne_eq_false_iff_eq,
    beq_iff_eq]
  omega

theorem slot_of_received {datagram : Datagram} {frame : RxFrame}
    (received : Received datagram frame) (full : EngineV1.isFull datagram = true) :
    frame.slot = bufferFrame datagram := by
  rw [EngineV1.isFull, beq_iff_eq] at full
  have bytes := received.bytes
  rw [received.len, full, Nat.min_self, List.take_of_length_le (by simp),
    List.take_of_length_le (Nat.le_of_eq full)] at bytes
  apply Vector.toList_inj.mp
  rw [bytes, EngineV1.buffer_frame_to_list full]

theorem full_slots_of_received {datagrams : List Datagram} {frames : List RxFrame}
    (received : List.Forall₂ Received datagrams frames) :
    (frames.filter isFull).map RxFrame.slot =
      (datagrams.filter EngineV1.isFull).map bufferFrame := by
  induction received with
  | nil => rfl
  | cons first rest ih =>
      rw [List.filter_cons, List.filter_cons, is_full_of_received first]
      split_ifs with full
      · rw [List.map_cons, List.map_cons, slot_of_received first full, ih]
      · exact ih

def frameFields (frame : RxFrame) : Nat × Bool × Frame :=
  (frame.len, frame.truncated, frame.slot)

theorem frame_fields_injective : Function.Injective frameFields := by
  rintro ⟨len, truncated, slot⟩ ⟨otherLen, otherTruncated, otherSlot⟩ same
  simpa [frameFields] using same

/-- The same two datagrams in slots of 44 bytes. -/
def twoFramesRun : Option (QueueState .little kPoolCapacity) :=
  runLabels (queueSystem .little kPoolCapacity) freshQueues
    (ticks .io 35 ++ [(.io, .epoll true [.ready false]
      [.frames ⟨44, false, Vector.replicate kWireSize 7⟩
        [⟨3, false, Vector.replicate kWireSize 7⟩]])] ++ ticks .io 1 ++ clockRead .io 5 ++
      ticks .io 5 ++ ticks .consumer 7)

theorem two_frames_received :
    ∃ state, twoFramesRun = some state ∧
      Reaches (queueSystem .little kPoolCapacity) state ∧
      List.Forall₂ Received [List.replicate 44 7, List.replicate 3 7] state.memory.obtained ∧
      inFlight state.queue state.memory state.io state.consumer = 0 := by
  have outcome : twoFramesRun.map (fun state => (state.memory.obtained.map frameFields,
      inFlight state.queue state.memory state.io state.consumer)) =
      some ([(44, false, Vector.replicate kWireSize 7),
        (3, false, Vector.replicate kWireSize 7)], 0) := by
    decide +kernel
  obtain ⟨state, run, seen⟩ := Option.map_eq_some_iff.mp outcome
  obtain ⟨obtained, consumed⟩ := Prod.mk.inj seen
  have frames : state.memory.obtained =
      [⟨44, false, Vector.replicate kWireSize 7⟩, ⟨3, false, Vector.replicate kWireSize 7⟩] :=
    List.map_injective_iff.mpr frame_fields_injective obtained
  refine ⟨state, run, reaches_run (reaches_start fresh_queues_start) run, ?_, consumed⟩
  rw [frames]
  exact .cons ⟨rfl, rfl, rfl⟩ (.cons ⟨rfl, rfl, rfl⟩ .nil)

/-- A datagram of 45 bytes fills its slot and is flagged. -/
def truncatedRun : Option (QueueState .little kPoolCapacity) :=
  runLabels (queueSystem .little kPoolCapacity) freshQueues
    (ticks .io 35 ++ [(.io, .epoll true [.ready false]
      [.frames ⟨44, true, Vector.replicate kWireSize 7⟩ []])] ++ ticks .io 1 ++
      clockRead .io 5 ++ ticks .io 2)

theorem point_of_consumed {consumer : ConsumerLocation} (settled : consumer.unclassified = 0) :
    consumer.point = none := by
  cases consumer with
  | stage work point => cases settled
  | _ => rfl

end MarketDataEngine.EngineV2

namespace MarketDataEngine.Engine

open MarketDataEngine.Protocol MarketDataEngine.TransitionSystem
open MarketDataEngine.EngineV1 (Datagram bufferFrame)

set_option autoImplicit false

/-! ## Engine v1 and engine v2 -/

/-- The session an engine ends with after these datagrams: the full ones were
handled in order, and every datagram was counted once. -/
structure Consumed (datagrams : List Datagram) (session : Session) : Prop where
  handled : session.besidesDrops =
    (replay ((datagrams.filter EngineV1.isFull).map bufferFrame)).besidesDrops
  settled : session.metrics.settled = UInt64.ofNat datagrams.length

/-- The drops are what is left of the datagrams, so they are determined too. -/
theorem metrics_of_consumed {datagrams : List Datagram} {left right : Session}
    (leftConsumed : Consumed datagrams left) (rightConsumed : Consumed datagrams right) :
    left.metrics = right.metrics ∧ left.tracker = right.tracker := by
  have same : left.besidesDrops = right.besidesDrops :=
    leftConsumed.handled.trans rightConsumed.handled.symm
  have settled : left.metrics.settled = right.metrics.settled :=
    leftConsumed.settled.trans rightConsumed.settled.symm
  obtain ⟨leftMsg, leftTracker, ⟨leftProcessed, leftReceived, leftErrors, leftDrops, leftGaps⟩,
    leftDecoded, leftClassified⟩ := left
  obtain ⟨rightMsg, rightTracker, ⟨rightProcessed, rightReceived, rightErrors, rightDrops,
    rightGaps⟩, rightDecoded, rightClassified⟩ := right
  simp only [Session.besidesDrops, Session.mk.injEq, Metrics.mk.injEq] at same
  obtain ⟨-, rfl, ⟨rfl, rfl, rfl, -, rfl⟩, -, -⟩ := same
  have drops : leftDrops = rightDrops := by
    simp only [Metrics.settled, UInt64.add_left_inj, UInt64.add_right_inj] at settled
    exact settled
  rw [drops]
  exact ⟨rfl, rfl⟩

theorem consumed_of_engine_v1 {order : ByteOrder} {capacity : Containers.Capacity}
    {state : EngineV1.QueueState order capacity}
    (reached : ReachesUnder (EngineV1.queueSystem order capacity) EngineV1.SlotFree state)
    (consumed : EngineV1.inFlight state.queue state.server state.consumer = 0) :
    Consumed state.memory.obtained state.memory.session := by
  have plain := reaches_of_reaches_under reached
  have accounted := EngineV1.accounted_of_reaches plain
  have between : state.consumer.point = none := by
    unfold EngineV1.inFlight at consumed
    exact (EngineV1.nothing_unclassified (by omega)).2
  constructor
  · rw [EngineV1.decoded_of_consumed reached consumed]
    exact EngineV1.queue_session_between_frames plain between
  · unfold EngineV1.StateAccounted EngineV1.Accounted at accounted
    rw [accounted, consumed]
    exact (UInt64.add_zero _).symm

theorem consumed_of_engine_v2 {order : ByteOrder} {capacity : Containers.Capacity}
    {datagrams : List Datagram} {state : EngineV2.QueueState order capacity}
    (reached : Reaches (EngineV2.queueSystem order capacity) state)
    (received : List.Forall₂ EngineV2.Received datagrams state.memory.obtained)
    (consumed : EngineV2.inFlight state.queue state.memory state.io state.consumer = 0) :
    Consumed datagrams state.memory.session := by
  have accounted := EngineV2.accounted_of_reaches reached
  have between : state.consumer.point = none := by
    unfold EngineV2.inFlight at consumed
    exact EngineV2.point_of_consumed (by omega)
  constructor
  · rw [← EngineV2.full_slots_of_received received,
      EngineV2.decoded_of_consumed reached consumed]
    exact EngineV2.queue_session_between_frames reached between
  · have counted := accounted.counted
    rw [consumed, accounted.obtained] at counted
    rw [received.length_eq, counted]
    exact (UInt64.add_zero _).symm

/-- Engines v1 and v2 end with the same counters and the same tracker. -/
theorem engines_v1_v2_agree (firstOrder secondOrder : ByteOrder) (datagrams : List Datagram)
    (first : EngineV1.QueueState firstOrder EngineV1.kPoolCapacity)
    (second : EngineV2.QueueState secondOrder EngineV2.kPoolCapacity)
    (firstReached : ReachesUnder (EngineV1.queueSystem firstOrder EngineV1.kPoolCapacity)
      EngineV1.SlotFree first)
    (secondReached : Reaches (EngineV2.queueSystem secondOrder EngineV2.kPoolCapacity) second)
    (firstObtained : first.memory.obtained = datagrams)
    (secondObtained : List.Forall₂ EngineV2.Received datagrams second.memory.obtained)
    (firstConsumed : EngineV1.inFlight first.queue first.server first.consumer = 0)
    (secondConsumed :
      EngineV2.inFlight second.queue second.memory second.io second.consumer = 0) :
    first.memory.session.metrics = second.memory.session.metrics ∧
      first.memory.session.tracker = second.memory.session.tracker := by
  have left := consumed_of_engine_v1 firstReached firstConsumed
  rw [firstObtained] at left
  exact metrics_of_consumed left
    (consumed_of_engine_v2 secondReached secondObtained secondConsumed)

theorem two_datagrams_agree :
    ∃ first second, EngineV1.twoDatagramsRun = some first ∧
      EngineV2.twoFramesRun = some second ∧
      first.memory.session.metrics = ⟨1, 1, 0, 1, 0⟩ ∧
      first.memory.session.metrics = second.memory.session.metrics ∧
      first.memory.session.tracker = second.memory.session.tracker := by
  have firstOutcome : EngineV1.twoDatagramsRun.map (fun state =>
      (state.memory.obtained, EngineV1.inFlight state.queue state.server state.consumer,
        state.memory.session.metrics)) =
      some ([List.replicate 44 7, List.replicate 3 7], 0, ⟨1, 1, 0, 1, 0⟩) := by
    decide +kernel
  obtain ⟨first, firstRun, firstSeen⟩ := Option.map_eq_some_iff.mp firstOutcome
  obtain ⟨second, secondRun, secondReached, received, secondConsumed⟩ :=
    EngineV2.two_frames_received
  obtain ⟨firstObtained, firstConsumed, metrics⟩ :
      first.memory.obtained = _ ∧ _ = 0 ∧ first.memory.session.metrics = _ := by
    simpa only [Prod.mk.injEq] using firstSeen
  have firstReached : ReachesUnder (EngineV1.queueSystem .little EngineV1.kPoolCapacity)
      EngineV1.SlotFree first := by
    unfold EngineV1.twoDatagramsRun at firstRun
    exact reaches_under_run EngineV1.slot_free_of_check (.start EngineV1.fresh_queues_start)
      firstRun
  exact ⟨first, second, firstRun, secondRun, metrics,
    engines_v1_v2_agree .little .little _ first second firstReached secondReached firstObtained
      received firstConsumed secondConsumed⟩

end MarketDataEngine.Engine

namespace MarketDataEngine.EngineV3

open MarketDataEngine.Protocol MarketDataEngine.Engine
open MarketDataEngine.EngineV1 (Datagram bufferFrame)

set_option autoImplicit false

/-- The payload that `process_one` decodes and the message it finds there. -/
def processedPayload (order : ByteOrder) (udpDstPort : UInt16) (packet : PacketView) :
    Option (Datagram × MarketDataMsg) :=
  match packet.data with
  | none => none
  | some frame =>
      let extracted := extractUdpPayload packet udpDstPort
      if extracted.ok then
        let result := decode order (extracted.bytes frame) extracted.payloadLen
          ⟨0, 0, 0, 0, 0, 0, 0⟩
        if result.1 then some (extracted.bytes frame, result.2) else none
      else none

theorem process_one_of_payload (order : ByteOrder) (udpDstPort : UInt16)
    (tracker : SequenceTracker) (packet : PacketView) :
    processOne order udpDstPort tracker packet =
      match processedPayload order udpDstPort packet with
      | some (_, msg) => tracker.observe msg.seqNum
      | none => tracker := by
  unfold processOne processedPayload
  cases packet.data with
  | none => rfl
  | some frame =>
      simp only
      split_ifs <;> rfl

/-- The packets that the engine takes as messages. -/
def accepted (order : ByteOrder) (udpDstPort : UInt16) (packets : List PacketView) :
    List (Datagram × MarketDataMsg) :=
  packets.filterMap (processedPayload order udpDstPort)

def processAll (order : ByteOrder) (udpDstPort : UInt16) (packets : List PacketView) :
    SequenceTracker :=
  packets.foldl (processOne order udpDstPort) .fresh

/-- The tracker has seen the accepted messages and nothing else. -/
theorem process_all_eq (order : ByteOrder) (udpDstPort : UInt16) (packets : List PacketView)
    (tracker : SequenceTracker) :
    packets.foldl (processOne order udpDstPort) tracker =
      tracker.run ((accepted order udpDstPort packets).map Prod.snd) := by
  induction packets generalizing tracker with
  | nil => rfl
  | cons packet rest ih =>
      rw [List.foldl_cons, ih, process_one_of_payload, accepted, accepted]
      cases found : processedPayload order udpDstPort packet with
      | none => rw [List.filterMap_cons_none found]
      | some entry =>
          rw [List.filterMap_cons_some found]
          rfl

theorem processed_payload_eq (frame : UdpFrame) {expectedDstPort : UInt16}
    (addressed : expectedDstPort = 0 ∨ frame.dstPort = expectedDstPort) (order : ByteOrder) :
    processedPayload order expectedDstPort frame.packet =
      if frame.payload.length < kWireSize then none
      else some (frame.payload, messageOf frame.payload) := by
  have extracted := frame.extract_eq addressed
  have payload : Extracted.bytes
      ⟨true, some (14 + 4 * frame.headerWords + 8), frame.payload.length⟩ frame.bytes =
      frame.payload := frame.payload_slice
  simp only [UdpFrame.packet] at extracted
  simp only [processedPayload, UdpFrame.packet, extracted, payload, ↓reduceIte]
  by_cases short : frame.payload.length < kWireSize
  · rw [decode_short order _ _ short, if_neg Bool.false_ne_true, if_pos short]
  · rw [decode_eq order _ (not_lt.mp short) (not_lt.mp short), if_pos rfl, if_neg short]

/-- Every datagram of at least 44 bytes. -/
theorem accepted_eq {expectedDstPort : UInt16} {frames : List UdpFrame}
    (addressed : ∀ frame ∈ frames, expectedDstPort = 0 ∨ frame.dstPort = expectedDstPort)
    (order : ByteOrder) :
    accepted order expectedDstPort (frames.map UdpFrame.packet) =
      ((frames.map UdpFrame.payload).filter fun payload => decide (kWireSize ≤ payload.length)).map
        fun payload => (payload, messageOf payload) := by
  induction frames with
  | nil => rfl
  | cons frame rest ih =>
      have found := processed_payload_eq frame (addressed frame List.mem_cons_self) order
      have later := ih fun other member => addressed other (List.mem_cons_of_mem _ member)
      unfold accepted at later ⊢
      rw [List.map_cons, List.map_cons, List.filter_cons]
      by_cases short : frame.payload.length < kWireSize
      · rw [if_pos short] at found
        rw [List.filterMap_cons_none found, later,
          if_neg (by rw [decide_eq_true_eq]; omega)]
      · rw [if_neg short] at found
        rw [List.filterMap_cons_some found, later,
          if_pos (by rw [decide_eq_true_eq]; omega), List.map_cons]

end MarketDataEngine.EngineV3

namespace MarketDataEngine.Engine

open MarketDataEngine.Protocol MarketDataEngine.TransitionSystem
open MarketDataEngine.EngineV1 (Datagram bufferFrame)
open MarketDataEngine.EngineV3 (UdpFrame)

set_option autoImplicit false

/-! ## Engine v2 and engine v3 -/

/-- A session of engine v2 against the accepted payloads of engine v3 with their
messages, and its tracker. -/
structure Agrees (session : Session) (accepted : List (Datagram × MarketDataMsg))
    (tracker : SequenceTracker) : Prop where
  datagrams : session.decoded.map Vector.toList = accepted.map Prod.fst
  messages : session.classified.map Prod.fst = accepted.map Prod.snd
  tracker : session.tracker = tracker

theorem buffered_to_list (datagrams : List Datagram) :
    ((datagrams.filter EngineV1.isFull).map bufferFrame).map Vector.toList =
      datagrams.filter EngineV1.isFull := by
  rw [List.map_map]
  conv_rhs => rw [← List.map_id (datagrams.filter EngineV1.isFull)]
  apply List.map_congr_left
  intro datagram member
  have full := (List.mem_filter.mp member).2
  rw [EngineV1.isFull, beq_iff_eq] at full
  exact EngineV1.buffer_frame_to_list full

theorem tally_of_consumed {datagrams : List Datagram} {session : Session}
    (consumed : Consumed datagrams session) :
    Tally session ((datagrams.filter EngineV1.isFull).map messageOf) := by
  rw [← tally_besides_drops, consumed.handled, tally_besides_drops]
  have messages : messagesOf ((datagrams.filter EngineV1.isFull).map bufferFrame) =
      (datagrams.filter EngineV1.isFull).map messageOf := by
    conv_rhs => rw [← buffered_to_list datagrams, List.map_map]
    rfl
  rw [← messages]
  exact tally_replay _

/-- Both engines take the same datagrams exactly if none is longer than 44 bytes. -/
theorem engine_v3_agrees_iff (secondOrder thirdOrder : ByteOrder) (expectedDstPort : UInt16)
    (frames : List UdpFrame)
    (addressed : ∀ frame ∈ frames, frame.dstPort = expectedDstPort)
    (state : EngineV2.QueueState secondOrder EngineV2.kPoolCapacity)
    (reached : Reaches (EngineV2.queueSystem secondOrder EngineV2.kPoolCapacity) state)
    (received : List.Forall₂ EngineV2.Received (frames.map UdpFrame.payload)
      state.memory.obtained)
    (consumed : EngineV2.inFlight state.queue state.memory state.io state.consumer = 0) :
    Agrees state.memory.session
        (EngineV3.accepted thirdOrder expectedDstPort (frames.map UdpFrame.packet))
        (EngineV3.processAll thirdOrder expectedDstPort (frames.map UdpFrame.packet)) ↔
      ∀ frame ∈ frames, frame.payload.length ≤ kWireSize := by
  have accepted := EngineV3.accepted_eq (fun frame member => .inr (addressed frame member))
    thirdOrder
  have tally := tally_of_consumed (consumed_of_engine_v2 reached received consumed)
  have decoded : state.memory.session.decoded.map Vector.toList =
      (frames.map UdpFrame.payload).filter EngineV1.isFull := by
    rw [← EngineV2.decoded_of_consumed reached consumed,
      EngineV2.full_slots_of_received received, buffered_to_list]
  constructor
  · intro agrees frame member
    have same := agrees.datagrams
    rw [decoded, accepted, List.map_map] at same
    by_contra long
    have taken : frame.payload ∈ (frames.map UdpFrame.payload).filter EngineV1.isFull := by
      rw [same]
      refine List.mem_map.mpr ⟨frame.payload, List.mem_filter.mpr
        ⟨List.mem_map_of_mem member, ?_⟩, rfl⟩
      rw [decide_eq_true_eq]
      omega
    have full := (List.mem_filter.mp taken).2
    rw [EngineV1.isFull, beq_iff_eq] at full
    omega
  · intro short
    have same : (frames.map UdpFrame.payload).filter EngineV1.isFull =
        (frames.map UdpFrame.payload).filter fun payload =>
          decide (kWireSize ≤ payload.length) := by
      apply List.filter_congr
      intro payload member
      obtain ⟨frame, inFrames, rfl⟩ := List.mem_map.mp member
      have bound := short frame inFrames
      rw [EngineV1.isFull, Bool.eq_iff_iff, beq_iff_eq, decide_eq_true_eq]
      omega
    have messages : (EngineV3.accepted thirdOrder expectedDstPort
        (frames.map UdpFrame.packet)).map Prod.snd =
          ((frames.map UdpFrame.payload).filter EngineV1.isFull).map messageOf := by
      rw [accepted, same, List.map_map]
      rfl
    refine ⟨?_, ?_, ?_⟩
    · rw [decoded, accepted, same, List.map_map]
      exact (List.map_id _).symm
    · rw [tally.classified, messages]
    · rw [tally.tracker, EngineV3.processAll, EngineV3.process_all_eq, messages]

/-- An unfragmented datagram to port 5000 without options or padding. -/
def plainFrame (payload : List UInt8) (fits : 28 + payload.length ≤ 65535) : UdpFrame where
  macAddresses := Vector.replicate 12 0
  headerWords := 5
  shortest_header := Nat.le_refl 5
  longest_header := by decide
  typeOfService := 0
  packetControl := Vector.replicate 5 0
  packetAddressing := Vector.replicate 10 0
  options := Vector.replicate 0 0
  srcPort := Vector.replicate 2 0
  dstPort := 5000
  dgramCksum := Vector.replicate 2 0
  payload := payload
  total_length_fits := fits
  padding := []

theorem engine_v3_agrees_on_two :
    ∃ state, EngineV2.twoFramesRun = some state ∧
      let frames := [plainFrame (List.replicate 44 7) (by decide),
        plainFrame (List.replicate 3 7) (by decide)]
      Agrees state.memory.session
        (EngineV3.accepted .big 5000 (frames.map UdpFrame.packet))
        (EngineV3.processAll .big 5000 (frames.map UdpFrame.packet)) := by
  obtain ⟨state, run, reached, received, consumed⟩ := EngineV2.two_frames_received
  refine ⟨state, run, ?_⟩
  intro frames
  refine (engine_v3_agrees_iff .little .big 5000 frames ?_ state reached received
    consumed).mpr ?_
  · intro frame member
    rcases List.mem_pair.mp member with rfl | rfl <;> rfl
  · intro frame member
    rcases List.mem_pair.mp member with rfl | rfl <;> decide

/-- Engine v2 drops a datagram of 45 bytes, engine v3 takes it as a message. -/
theorem long_datagram_only_in_engine_v3 :
    ∃ state, Reaches (EngineV2.queueSystem .little EngineV2.kPoolCapacity) state ∧
      List.Forall₂ EngineV2.Received [List.replicate 45 7] state.memory.obtained ∧
      EngineV2.inFlight state.queue state.memory state.io state.consumer = 0 ∧
      ¬ Agrees state.memory.session
        (EngineV3.accepted .little 5000
          [(plainFrame (List.replicate 45 7) (by decide)).packet])
        (EngineV3.processAll .little 5000
          [(plainFrame (List.replicate 45 7) (by decide)).packet]) := by
  have outcome : EngineV2.truncatedRun.map (fun state =>
      (state.memory.obtained.map EngineV2.frameFields, state.memory.session.decoded,
        EngineV2.inFlight state.queue state.memory state.io state.consumer)) =
      some ([(44, true, Vector.replicate kWireSize 7)], [], 0) := by
    decide +kernel
  obtain ⟨state, run, seen⟩ := Option.map_eq_some_iff.mp outcome
  obtain ⟨obtained, decoded, consumed⟩ :
      _ = _ ∧ state.memory.session.decoded = [] ∧ _ = 0 := by
    simpa only [Prod.mk.injEq] using seen
  have frames : state.memory.obtained = [⟨44, true, Vector.replicate kWireSize 7⟩] :=
    List.map_injective_iff.mpr EngineV2.frame_fields_injective obtained
  refine ⟨state, reaches_run (reaches_start EngineV2.fresh_queues_start) run, ?_, consumed, ?_⟩
  · rw [frames]
    exact .cons ⟨rfl, rfl, rfl⟩ .nil
  · intro agrees
    have same := agrees.datagrams
    have accepted := @EngineV3.accepted_eq 5000
      [plainFrame (List.replicate 45 7) (by decide)]
      (fun frame member => .inr (by rw [List.mem_singleton.mp member]; rfl)) .little
    rw [List.map_singleton] at accepted
    rw [decoded, accepted] at same
    exact absurd (congrArg List.length same) (by decide)

end MarketDataEngine.Engine
