import MarketDataEngine.EngineV2Accounting

/-!
# Delivery in engine v2

The frames of full length reach the decoder in the order in which `recvmmsg`
returned them, through the slots they were received into. Over atomic queues
the way of a frame is the I/O thread's batch, the ready ring and the consumer's
batch; a frame of any other length leaves it when it is counted as dropped.
-/

namespace MarketDataEngine.EngineV2

open MarketDataEngine.Protocol MarketDataEngine.Containers MarketDataEngine.Engine
open MarketDataEngine.Net MarketDataEngine.TransitionSystem
open MarketDataEngine.SteppedObject

set_option autoImplicit false

variable {order : ByteOrder} {capacity : Capacity}

/-- The frame passes the test of `publish_batch`. -/
def isFull (frame : RxFrame) : Bool := !(frame.truncated || frame.len != kWireSize)

namespace IoLocation

/-- The frame whose index is about to be published. -/
def chosen : IoLocation → List Nat
  | .stamp idx _ => [idx]
  | .readyPush idx _ => [idx]
  | _ => []

/-- The frames of the current batch that have not been tested. -/
def waiting : IoLocation → List (Nat × RxFrame)
  | .batchTest frames _ => frames
  | .clock frames _ => frames
  | .publish batch => batch.frames
  | .stamp _ batch => batch.frames
  | .readyPush _ batch => batch.frames
  | .dropCount _ _ batch => batch.frames
  | .dropClear _ _ batch => batch.frames
  | .dropReturn _ _ batch => batch.frames
  | .dropReturned _ batch => batch.frames
  | _ => []

end IoLocation

/-- The indices the consumer has popped and not decoded. -/
def ConsumerLocation.undecoded : ConsumerLocation → List Nat
  | .collect indices => indices
  | .collected indices => indices
  | .stage work point => if point = .decode then work.idx :: work.rest else work.rest
  | .exchange work => work.rest
  | .clock _ work => work.rest
  | _ => []

def fullIndices (frames : List (Nat × RxFrame)) : List Nat :=
  (frames.filter fun entry => isFull entry.2).map Prod.fst

theorem full_indices_cons (idx : Nat) (frame : RxFrame) (rest : List (Nat × RxFrame)) :
    fullIndices ((idx, frame) :: rest) =
      if isFull frame then idx :: fullIndices rest else fullIndices rest := by
  simp only [fullIndices, List.filter_cons]
  split_ifs <;> rfl

/-- The slots on their way to the decoder, first to last. -/
def route (queues : PoolRing → List Nat) (io : IoLocation) (consumer : ConsumerLocation) :
    List Nat :=
  consumer.undecoded ++ queues .ready ++ io.chosen ++ fullIndices io.waiting

/-- Unless a batch was abandoned, the full frames are the decoded ones and then
those whose slots are on their way. -/
def Flows (queues : PoolRing → List Nat) (memory : Memory) (io : IoLocation)
    (consumer : ConsumerLocation) : Prop :=
  memory.abandonedFrames = [] →
    (memory.obtained.filter isFull).map RxFrame.slot =
      memory.session.decoded ++ (route queues io consumer).map memory.slots

section Steps

variable {queues nextQueues : PoolRing → List Nat} {memory after : Memory}
variable {io nextIo : IoLocation} {consumer nextConsumer : ConsumerLocation}

theorem flows_of_route (flows : Flows queues memory io consumer)
    (route_eq : route nextQueues nextIo nextConsumer = route queues io consumer)
    (slots : after.slots = memory.slots) (obtained : after.obtained = memory.obtained)
    (decoded : after.session.decoded = memory.session.decoded)
    (abandoned : after.abandonedFrames = memory.abandonedFrames) :
    Flows nextQueues after nextIo nextConsumer := by
  unfold Flows
  rw [route_eq, slots, obtained, decoded, abandoned]
  exact flows

/-! ## The I/O thread -/

theorem fill_slots_of_not_mem (slots : Nat → Frame) (frames : List (Nat × RxFrame)) {idx : Nat}
    (outside : idx ∉ frames.map Prod.fst) : fillSlots slots frames idx = slots idx := by
  induction frames generalizing slots with
  | nil => rfl
  | cons entry rest ih =>
      rw [List.map_cons, List.mem_cons, not_or] at outside
      have later := ih (Function.update slots entry.1 entry.2.slot) outside.2
      rw [Function.update_of_ne outside.1] at later
      exact later

theorem fill_slots_of_mem (slots : Nat → Frame) {frames : List (Nat × RxFrame)}
    (distinct : (frames.map Prod.fst).Nodup) {entry : Nat × RxFrame} (member : entry ∈ frames) :
    fillSlots slots frames entry.1 = entry.2.slot := by
  induction frames generalizing slots with
  | nil => cases member
  | cons first rest ih =>
      rw [List.map_cons, List.nodup_cons] at distinct
      rcases List.mem_cons.mp member with rfl | later
      · have kept := fill_slots_of_not_mem (Function.update slots entry.1 entry.2.slot) rest
          distinct.1
        rw [Function.update_self] at kept
        exact kept
      · exact ih (Function.update slots first.1 first.2.slot) distinct.2 later

/-- What the I/O thread holds is nowhere on the way behind it. -/
theorem io_held_apart (owned : Owned capacity queues memory io consumer) {idx : Nat}
    (held : idx ∈ io.held) : idx ∉ queues .ready ∧ idx ∉ consumer.held := by
  have nodup : (places queues memory io consumer).Nodup :=
    owned.placed.nodup_iff.mpr List.nodup_range
  unfold places at nodup
  rw [List.nodup_append, List.nodup_append, List.nodup_append] at nodup
  obtain ⟨⟨⟨-, -, ioApart⟩, -, consumerApart⟩, -, -⟩ := nodup
  constructor
  · intro ready
    exact ioApart idx (List.mem_append_right _ ready) idx held rfl
  · intro consumed
    exact consumerApart idx (List.mem_append_right _ held) idx consumed rfl

theorem io_held_nodup (owned : Owned capacity queues memory io consumer) : io.held.Nodup := by
  have nodup : (places queues memory io consumer).Nodup :=
    owned.placed.nodup_iff.mpr List.nodup_range
  unfold places at nodup
  rw [List.nodup_append, List.nodup_append, List.nodup_append] at nodup
  exact nodup.1.1.2.1

theorem undecoded_subset_held (consumer : ConsumerLocation) :
    consumer.undecoded ⊆ consumer.held := by
  intro idx member
  cases consumer with
  | stage work point =>
      simp only [ConsumerLocation.undecoded] at member
      split_ifs at member
      · exact List.mem_append_right _ member
      · exact List.mem_append_right _ (List.mem_cons_of_mem _ member)
  | exchange work => exact List.mem_append_right _ (List.mem_cons_of_mem _ member)
  | clock startNs work => exact List.mem_append_right _ (List.mem_cons_of_mem _ member)
  | collect indices => exact member
  | collected indices => exact member
  | _ => exact absurd member List.not_mem_nil

theorem full_indices_filled (slots : Nat → Frame) {indices : List Nat} {frames : List RxFrame}
    (bounded : frames.length ≤ indices.length) (distinct : indices.Nodup) :
    (fullIndices (indices.zip frames)).map (fillSlots slots (indices.zip frames)) =
      (frames.filter isFull).map RxFrame.slot := by
  have firsts : ((indices.zip frames).map Prod.fst).Nodup := by
    rw [← received_indices bounded] at distinct
    exact (List.nodup_append.mp distinct).1
  have seconds : frames = (indices.zip frames).map Prod.snd :=
    (List.map_snd_zip bounded).symm
  conv_rhs => rw [seconds]
  rw [fullIndices, List.map_map, List.filter_map, List.map_map]
  apply List.map_congr_left
  intro entry member
  exact fill_slots_of_mem slots firsts (List.mem_filter.mp member).1

theorem flows_receive {site : Site} {indices : List Nat} {outcome : Receiver × RxResult}
    (owned : Owned capacity queues memory (.receive site indices) consumer)
    (flows : Flows queues memory (.receive site indices) consumer)
    (bounded : outcome.2.received.length ≤ indices.length) :
    Flows queues (receiveReturned memory site indices outcome).1
      (receiveReturned memory site indices outcome).2 consumer := by
  obtain ⟨receiver, result⟩ := outcome
  cases result with
  | nothing => exact flows_of_route flows rfl rfl rfl rfl rfl
  | failed => exact flows_of_route flows rfl rfl rfl rfl rfl
  | frames first rest =>
      intro kept
      have before := flows kept
      have seconds : (indices.zip (first :: rest)).map Prod.snd = first :: rest :=
        List.map_snd_zip bounded
      have untouched : (consumer.undecoded ++ queues .ready).map
          (fillSlots memory.slots (indices.zip (first :: rest))) =
            (consumer.undecoded ++ queues .ready).map memory.slots := by
        apply List.map_congr_left
        intro idx member
        apply fill_slots_of_not_mem
        intro filled
        obtain ⟨entry, inZip, rfl⟩ := List.mem_map.mp filled
        obtain ⟨notReady, notConsumed⟩ := io_held_apart owned
          (show entry.1 ∈ indices from (List.of_mem_zip inZip).1)
        rcases List.mem_append.mp member with consumed | ready
        · exact notConsumed (undecoded_subset_held consumer consumed)
        · exact notReady ready
      have filled := @full_indices_filled memory.slots indices (first :: rest) bounded
        (io_held_nodup owned)
      simp only [route, IoLocation.chosen, IoLocation.waiting, fullIndices, List.filter_nil,
        List.map_nil, List.append_nil] at before
      simp only [receiveReturned, Memory.received, route, IoLocation.chosen,
        IoLocation.waiting, List.append_nil, seconds, List.filter_append]
      rw [List.map_append, List.map_append, untouched, filled, before, List.append_assoc]

theorem flows_publish {batch : Publishing}
    (flows : Flows queues memory (.publish batch) consumer) :
    Flows queues memory (publishNext batch) consumer := by
  obtain ⟨receivedNs, frames, unused⟩ := batch
  cases frames with
  | nil => exact flows_of_route flows rfl rfl rfl rfl rfl
  | cons entry rest =>
      obtain ⟨idx, frame⟩ := entry
      simp only [publishNext]
      split_ifs with invalid
      · refine flows_of_route flows ?_ rfl rfl rfl rfl
        have dropped : isFull frame = false := by rw [isFull, invalid, Bool.not_true]
        simp [route, IoLocation.chosen, IoLocation.waiting, full_indices_cons, dropped]
      · refine flows_of_route flows ?_ rfl rfl rfl rfl
        have taken : isFull frame = true := by
          rw [isFull, Bool.eq_false_iff.mpr invalid, Bool.not_false]
        simp [route, IoLocation.chosen, IoLocation.waiting, full_indices_cons, taken]

theorem flows_abandon {frames : List (Nat × RxFrame)} {unused : List Nat}
    (flows : Flows queues memory (.batchTest frames unused) consumer) :
    Flows queues (memory.abandon frames unused) .loopTest consumer := by
  intro kept
  have none : memory.abandonedFrames = [] ∧ frames = [] := by
    simpa [Memory.abandon] using kept
  have before := flows none.1
  rw [none.2] at before
  exact before

theorem flows_free_push {idx : Nat} (flows : Flows queues memory io consumer)
    (chosen : nextIo.chosen = io.chosen) (waiting : nextIo.waiting = io.waiting)
    (undecoded : nextConsumer.undecoded = consumer.undecoded) :
    Flows (fifoExec capacity queues (.push .free idx)).1 memory nextIo nextConsumer := by
  refine flows_of_route flows ?_ rfl rfl rfl rfl
  simp only [route, fifoExec, chosen, waiting, undecoded, ne_eq, reduceCtorEq,
    not_false_eq_true, Function.update_of_ne]

theorem flows_reserve (capacity : Capacity) {site : Site} {indices : List Nat}
    (flows : Flows queues memory (.reserve site indices) consumer) :
    Flows (fifoExec capacity queues (.pop .free)).1 memory
      (reserveReturned site indices (fifoExec capacity queues (.pop .free)).2) consumer := by
  refine flows_of_route flows ?_ rfl rfl rfl rfl
  simp only [fifoExec, route, ne_eq, reduceCtorEq, not_false_eq_true, Function.update_of_ne]
  cases queues .free <;> rfl

theorem flows_ready_push {idx : Nat} {batch : Publishing}
    (owned : Owned capacity queues memory (.readyPush idx batch) consumer)
    (flows : Flows queues memory (.readyPush idx batch) consumer) :
    Flows (fifoExec capacity queues (.push .ready idx)).1 memory
      (readyReturned idx batch (fifoExec capacity queues (.push .ready idx)).2) consumer := by
  have room := push_has_room .ready owned
    (by simp only [IoLocation.held, List.length_cons]; omega)
  simp only [fifoExec, fifoPush, if_neg room]
  refine flows_of_route flows ?_ rfl rfl rfl rfl
  simp [route, readyReturned, IoLocation.chosen, IoLocation.waiting]

theorem flows_io_step {input : Input}
    (owned : Owned capacity queues memory io consumer)
    (flows : Flows queues memory io consumer)
    (step : queueStep capacity (ioAction io) queues memory input =
      some (nextQueues, after, nextIo)) :
    Flows nextQueues after nextIo consumer := by
  have quiet : ∀ location : IoLocation, location.chosen = io.chosen →
      location.waiting = io.waiting → Flows queues memory location consumer := by
    intro location chosen waiting
    refine flows_of_route flows ?_ rfl rfl rfl rfl
    unfold route
    rw [chosen, waiting]
  cases io with
  | loopTest =>
      cases step
      cases memory.running <;> exact quiet _ rfl rfl
  | reserve site indices =>
      simp only [ioAction] at step
      split_ifs at step
      · cases step
        exact flows_reserve capacity flows
      · cases step
        exact quiet _ rfl rfl
  | reserved site indices =>
      cases step
      cases indices <;> exact quiet _ rfl rfl
  | receive site indices =>
      obtain ⟨rfl, outcome, accounts, returned⟩ := receive_step_cases step
      have received := flows_receive owned flows accounts.2
      rw [returned] at received
      exact received
  | batchTest frames unused =>
      simp only [queueStep, actionStep, ioAction] at step
      split_ifs at step
      · cases step
        exact quiet _ rfl rfl
      · cases step
        exact flows_abandon flows
  | clock frames unused =>
      cases input with
      | clock now =>
          cases step
          exact quiet _ rfl rfl
      | _ => cases step
  | publish batch =>
      cases step
      exact flows_publish flows
  | stamp idx batch =>
      cases step
      exact flows_of_route flows rfl rfl rfl rfl rfl
  | readyPush idx batch =>
      cases step
      exact flows_ready_push owned flows
  | dropCount refused idx batch =>
      cases step
      exact flows_of_route flows rfl rfl rfl rfl rfl
  | dropClear refused idx batch =>
      cases step
      exact flows_of_route flows rfl rfl rfl rfl rfl
  | dropReturn refused idx batch =>
      cases step
      exact flows_free_push flows rfl rfl rfl
  | dropReturned ok batch =>
      cases step
      exact quiet _ rfl rfl
  | release destination indices =>
      cases indices with
      | nil =>
          cases step
          cases destination <;> exact quiet _ rfl rfl
      | cons idx rest =>
          cases step
          exact flows_free_push flows rfl rfl rfl
  | released ok destination indices =>
      cases step
      exact quiet _ rfl rfl
  | epollErrorTest =>
      cases step
      cases memory.running <;> exact quiet _ rfl rfl
  | drainErrorTest =>
      cases step
      cases memory.running <;> exact quiet _ rfl rfl
  | lateErrorTest =>
      cases step
      cases memory.running <;> exact quiet _ rfl rfl
  | errorStore =>
      cases step
      exact flows_of_route flows rfl rfl rfl rfl rfl
  | leave =>
      cases step
      exact flows_of_route flows rfl rfl rfl rfl rfl
  | finished => cases step

/-! ## The consumer thread -/

theorem flows_collect (capacity : Capacity) {indices : List Nat}
    (flows : Flows queues memory io (.collect indices)) :
    Flows (fifoExec capacity queues (.pop .ready)).1 memory io
      (collectReturned indices (fifoExec capacity queues (.pop .ready)).2) := by
  simp only [fifoExec]
  cases ready : queues .ready with
  | nil =>
      rw [← ready, pop_unchanged ready, ready]
      exact flows_of_route flows rfl rfl rfl rfl rfl
  | cons idx rest =>
      refine flows_of_route flows ?_ rfl rfl rfl rfl
      simp [route, ready, fifoPop, collectReturned, ConsumerLocation.undecoded]

/-- The current slot is decoded by the first step of the stage. -/
theorem stage_next_undecoded (order : ByteOrder) (work : Working) (point : StagePoint)
    (memory : Memory) : (stageNext order work point memory).2.undecoded = work.rest := by
  have leaves := stage_step_leaves_decode order (memory.slots work.idx) memory.session point
  simp only [stageNext]
  cases later : (stageStep order (memory.slots work.idx) memory.session point).2 with
  | none => rfl
  | some later' =>
      rw [later] at leaves
      simp only [ConsumerLocation.undecoded]
      rw [if_neg (fun same => leaves (by rw [same]))]

/-- The first step of the stage decodes the slot at the head of the route. -/
theorem flows_stage {work : Working} {point : StagePoint}
    (flows : Flows queues memory io (.stage work point)) :
    Flows queues (stageNext order work point memory).1 io
      (stageNext order work point memory).2 := by
  have undecoded := stage_next_undecoded order work point memory
  have decoded := stage_step_decoded order (memory.slots work.idx) memory.session point
  intro kept
  have before := flows kept
  unfold route at before ⊢
  rw [undecoded]
  simp only [stageNext, decoded]
  simp only [ConsumerLocation.undecoded] at before
  refine before.trans ?_
  split_ifs <;> simp

theorem work_next_undecoded (work : Working) : (workNext work).undecoded = work.rest := by
  obtain ⟨done, idx, rest⟩ := work
  cases rest <;> rfl

theorem flows_consumer_step {input : Input}
    (flows : Flows queues memory io consumer)
    (step : queueStep capacity (consumerAction order consumer) queues memory input =
      some (nextQueues, after, nextConsumer)) :
    Flows nextQueues after io nextConsumer := by
  have quiet : ∀ location : ConsumerLocation, location.undecoded = consumer.undecoded →
      Flows queues memory io location := by
    intro location undecoded
    refine flows_of_route flows ?_ rfl rfl rfl rfl
    unfold route
    rw [undecoded]
  cases consumer with
  | loopTest =>
      cases step
      cases memory.running <;> exact quiet _ rfl
  | emptyTest =>
      cases step
      show Flows queues memory io (emptyReturned (queues .ready).isEmpty)
      cases (queues .ready).isEmpty <;> exact quiet _ rfl
  | collect indices =>
      simp only [consumerAction] at step
      split_ifs at step
      · cases step
        exact flows_collect capacity flows
      · cases step
        exact quiet _ rfl
  | collected indices =>
      cases step
      cases indices <;> exact quiet _ rfl
  | stage work point =>
      cases step
      exact flows_stage flows
  | exchange work =>
      cases step
      exact flows_of_route flows rfl rfl rfl rfl rfl
  | clock startNs work =>
      cases input with
      | clock now =>
          cases step
          obtain ⟨latencies, recorded⟩ := record_latency_eq memory work.idx startNs now
          rw [recorded]
          refine flows_of_route flows ?_ rfl rfl rfl rfl
          unfold route
          rw [work_next_undecoded]
          rfl
      | _ => cases step
  | recycle indices =>
      cases indices with
      | nil =>
          cases step
          exact quiet _ rfl
      | cons idx rest =>
          cases step
          exact flows_free_push flows rfl rfl rfl
  | recycled ok indices =>
      cases step
      exact quiet _ rfl
  | leave =>
      cases step
      exact flows_of_route flows rfl rfl rfl rfl rfl
  | finished => cases step

end Steps

/-! ## Whole runs -/

def StateFlows (state : QueueState order capacity) : Prop :=
  Flows state.queue state.memory state.io state.consumer

theorem flows_start {state : QueueState order capacity} (start : QueueStart state) :
    StateFlows state := by
  obtain ⟨-, ready, ⟨slots, memory⟩, io, consumer, -⟩ := start
  unfold StateFlows
  rw [memory, io, consumer]
  intro _
  unfold route
  rw [ready]
  rfl

theorem flows_of_reaches {state : QueueState order capacity}
    (reached : Reaches (queueSystem order capacity) state) : StateFlows state := by
  refine invariant_of_step ?_ ?_ reached
  · exact fun _ start => flows_start start
  · intro state label next prior flows _ taken
    have owned := owned_of_reaches prior
    unfold StateFlows at flows ⊢
    cases moves_of_step taken with
    | io step consumer _ =>
        rw [consumer]
        exact flows_io_step owned flows step
    | consumer step io _ =>
        rw [io]
        exact flows_consumer_step flows step
    | control step io consumer =>
        obtain ⟨queues, running, receiver, after, -⟩ := control_step_eq step
        rw [queues, io, consumer, after]
        exact flows_of_route flows rfl rfl rfl rfl rfl

theorem route_length (queues : PoolRing → List Nat) (memory : Memory) (io : IoLocation)
    (consumer : ConsumerLocation) :
    (route queues io consumer).length ≤ inFlight queues memory io consumer := by
  have behind : consumer.undecoded.length ≤ consumer.unclassified := by
    cases consumer with
    | stage work point =>
        simp only [ConsumerLocation.undecoded, ConsumerLocation.unclassified]
        split_ifs
        · exact Nat.le_refl _
        · omega
    | _ => exact Nat.le_refl _
  have ahead : io.chosen.length + io.waiting.length ≤ io.pending := by
    cases io <;> simp [IoLocation.chosen, IoLocation.waiting, IoLocation.pending] <;> omega
  have full : (fullIndices io.waiting).length ≤ io.waiting.length := by
    rw [fullIndices, List.length_map]
    exact List.length_filter_le _ _
  simp only [route, inFlight, List.length_append]
  omega

/-- With nothing in flight the full frames have been decoded, in order. -/
theorem decoded_of_consumed {state : QueueState order capacity}
    (reached : Reaches (queueSystem order capacity) state)
    (consumed : inFlight state.queue state.memory state.io state.consumer = 0) :
    (state.memory.obtained.filter isFull).map RxFrame.slot =
      state.memory.session.decoded := by
  have flows := flows_of_reaches reached
  have length := route_length state.queue state.memory state.io state.consumer
  have kept : state.memory.abandonedFrames = [] := by
    apply List.eq_nil_of_length_eq_zero
    unfold inFlight at consumed
    omega
  have empty : route state.queue state.io state.consumer = [] :=
    List.eq_nil_of_length_eq_zero (by omega)
  have flow := flows kept
  rw [empty, List.map_nil, List.append_nil] at flow
  exact flow

end MarketDataEngine.EngineV2
