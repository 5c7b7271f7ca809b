import MarketDataEngine.EngineV2Delivery

/-!
# The timestamps of engine v2

A timestamp is stored for an index when `publish_batch` publishes the frame in its slot and
taken out by the consumer behind the frame. Slots are recycled, so a timestamp that stayed
would be charged to a later frame. Over atomic queues none stays: a timestamp other than zero
is that of an index on its way to the exchange, and the indices on the way are those of the
publications that the consumer has not come to, in their order.

The history lists what the clock returned in each call of `publish_batch`, the publications,
how many exchanges there were, and the calls of `record_latency`.
-/

namespace MarketDataEngine.EngineV2

open MarketDataEngine.Protocol MarketDataEngine.Containers MarketDataEngine.Engine
open MarketDataEngine.Net MarketDataEngine.TransitionSystem
open MarketDataEngine.SteppedObject

set_option autoImplicit false

variable {order : ByteOrder} {capacity : Capacity}

/-- A datagram in the ready ring, or past it; `batch` counts the calls of `publish_batch`
before the one that published it. -/
structure Publication where
  idx : Nat
  datagram : Frame
  batch : Nat

/-- A call of `record_latency`, for the datagram in the slot at that time; `position` counts
the frames whose timestamps were exchanged before. -/
structure LatencyCall where
  position : Nat
  idx : Nat
  datagram : Frame
  endNs : UInt64
  latencyNs : UInt64

structure StampTrace where
  clocks : List UInt64
  published : List Publication
  exchanged : Nat
  calls : List LatencyCall

namespace StampTrace

def empty : StampTrace := ⟨[], [], 0, []⟩

def publish (trace : StampTrace) (idx : Nat) (datagram : Frame) : StampTrace :=
  { trace with
    published := trace.published ++ [⟨idx, datagram, trace.clocks.length - 1⟩] }

def call (trace : StampTrace) (idx : Nat) (datagram : Frame) (startNs endNs : UInt64) :
    StampTrace :=
  { trace with
    calls := trace.calls ++ [⟨trace.exchanged - 1, idx, datagram, endNs, endNs - startNs⟩] }

def recordIo (trace : StampTrace) (memory : Memory) (io : IoLocation) (input : Input)
    (next : IoLocation) : StampTrace :=
  match io, input, next with
  | .clock _ _, .clock now, _ => { trace with clocks := trace.clocks ++ [now] }
  | .readyPush idx _, _, .publish _ => trace.publish idx (memory.slots idx)
  | _, _, _ => trace

def recordConsumer (trace : StampTrace) (memory : Memory) (consumer : ConsumerLocation)
    (input : Input) : StampTrace :=
  match consumer, input with
  | .exchange _, _ => { trace with exchanged := trace.exchanged + 1 }
  | .clock startNs work, .clock now =>
      if startNs ≠ 0 ∧ startNs ≤ now then
        trace.call work.idx (memory.slots work.idx) startNs now
      else trace
  | _, _ => trace

end StampTrace

def recordStamps (state : QueueState order capacity) (label : Thread × Input)
    (next : QueueState order capacity) (trace : StampTrace) : StampTrace :=
  match label.1 with
  | .io => trace.recordIo state.memory state.io label.2 next.io
  | .consumer => trace.recordConsumer state.memory state.consumer label.2
  | .control => trace

/-- The engine over atomic queues with the history of its timestamps. -/
def stampedSystem (order : ByteOrder) (capacity : Capacity) :
    System (QueueState order capacity × StampTrace) (Thread × Input) :=
  traced (queueSystem order capacity) .empty recordStamps

/-- The index whose timestamp has been stored and whose push is not decided or was
refused. -/
def IoLocation.stamping : IoLocation → List Nat
  | .readyPush idx _ => [idx]
  | .dropCount true idx _ => [idx]
  | .dropClear true idx _ => [idx]
  | _ => []

/-- What the clock returned in the current call of `publish_batch`. -/
def IoLocation.batchNs : IoLocation → Option UInt64
  | .publish batch => some batch.receivedNs
  | .stamp _ batch => some batch.receivedNs
  | .readyPush _ batch => some batch.receivedNs
  | .dropCount _ _ batch => some batch.receivedNs
  | .dropClear _ _ batch => some batch.receivedNs
  | .dropReturn _ _ batch => some batch.receivedNs
  | .dropReturned _ batch => some batch.receivedNs
  | _ => none

namespace ConsumerLocation

/-- The indices popped from the ready ring whose timestamps have not been exchanged. -/
def unexchanged : ConsumerLocation → List Nat
  | .collect indices => indices
  | .collected indices => indices
  | .stage work _ => work.idx :: work.rest
  | .exchange work => work.idx :: work.rest
  | .clock _ work => work.rest
  | _ => []

/-- The timestamp that was exchanged, with its index, until the clock has been read. -/
def timing : ConsumerLocation → Option (UInt64 × Nat)
  | .clock startNs work => some (startNs, work.idx)
  | _ => none

end ConsumerLocation

theorem unexchanged_sublist_held (consumer : ConsumerLocation) :
    consumer.unexchanged.Sublist consumer.held := by
  cases consumer with
  | stage work point => exact List.sublist_append_right _ _
  | exchange work => exact List.sublist_append_right _ _
  | clock startNs work =>
      exact (List.sublist_cons_self _ _).trans (List.sublist_append_right _ _)
  | collect indices => exact List.Sublist.refl _
  | collected indices => exact List.Sublist.refl _
  | _ => exact List.nil_sublist _

theorem stamping_subset_held (io : IoLocation) : io.stamping ⊆ io.held := by
  intro idx member
  cases io with
  | readyPush current batch =>
      rw [List.mem_singleton.mp member]
      exact List.mem_cons_self
  | dropCount refused current batch =>
      cases refused with
      | false => cases member
      | true =>
          rw [List.mem_singleton.mp member]
          exact List.mem_cons_self
  | dropClear refused current batch =>
      cases refused with
      | false => cases member
      | true =>
          rw [List.mem_singleton.mp member]
          exact List.mem_cons_self
  | _ => cases member

/-! ## What a step can do -/

section Effects

variable {queues nextQueues : PoolRing → List Nat} {memory after : Memory}

/-- Nothing that is stored for an index behind the I/O thread changes. -/
structure StampFrame (held : List Nat) (memory after : Memory) : Prop where
  stamps : after.recvReadyNs = memory.recvReadyNs
  slots : ∀ idx, idx ∉ held → after.slots idx = memory.slots idx
  latencies : after.latencies = memory.latencies

theorem stamp_frame_refl (held : List Nat) (memory : Memory) : StampFrame held memory memory :=
  ⟨rfl, fun _ _ => rfl, rfl⟩

/-- What a step of the I/O thread does to the timestamps. -/
inductive IoEffect (queues : PoolRing → List Nat) (memory : Memory) :
    IoLocation → Input → (PoolRing → List Nat) → Memory → IoLocation → Prop where
  | quiet {io next : IoLocation} {input : Input} {nextQueues : PoolRing → List Nat}
      {after : Memory} (ready : nextQueues .ready = queues .ready)
      (frame : StampFrame io.held memory after)
      (stamping : next.stamping = io.stamping)
      (batch : ∀ ns, next.batchNs = some ns → io.batchNs = some ns)
      (silent : ∀ trace : StampTrace, trace.recordIo memory io input next = trace) :
      IoEffect queues memory io input nextQueues after next
  | clock (frames : List (Nat × RxFrame)) (unused : List Nat) (now : UInt64) :
      IoEffect queues memory (.clock frames unused) (.clock now) queues memory
        (.publish ⟨now, frames, unused⟩)
  | stamp (idx : Nat) (batch : Publishing) (input : Input) :
      IoEffect queues memory (.stamp idx batch) input queues
        (memory.stamp idx batch.receivedNs) (.readyPush idx batch)
  | publish (idx : Nat) (batch : Publishing) (input : Input) :
      IoEffect queues memory (.readyPush idx batch) input
        (Function.update queues .ready (queues .ready ++ [idx])) memory (.publish batch)
  | clear (refused : Bool) (idx : Nat) (batch : Publishing) (input : Input) :
      IoEffect queues memory (.dropClear refused idx batch) input queues
        (memory.stamp idx 0) (.dropReturn refused idx batch)

/-- What a step of the consumer does to the timestamps. -/
inductive ConsumerEffect (queues : PoolRing → List Nat) (memory : Memory) :
    ConsumerLocation → Input → (PoolRing → List Nat) → Memory → ConsumerLocation → Prop where
  | quiet {consumer next : ConsumerLocation} {input : Input}
      {nextQueues : PoolRing → List Nat} {after : Memory}
      (waiting : next.unexchanged ++ nextQueues .ready =
        consumer.unexchanged ++ queues .ready)
      (stamps : after.recvReadyNs = memory.recvReadyNs)
      (slots : after.slots = memory.slots) (latencies : after.latencies = memory.latencies)
      (before : consumer.timing = none) (timing : next.timing = none)
      (silent : ∀ trace : StampTrace,
        trace.recordConsumer memory consumer input = trace) :
      ConsumerEffect queues memory consumer input nextQueues after next
  | exchange (work : Working) (input : Input) :
      ConsumerEffect queues memory (.exchange work) input queues
        (memory.stamp work.idx 0) (.clock (memory.recvReadyNs work.idx) work)
  | clock (startNs : UInt64) (work : Working) (now : UInt64) :
      ConsumerEffect queues memory (.clock startNs work) (.clock now) queues
        (recordLatency memory work.idx startNs now) (workNext work)

theorem receive_stamp_frame (memory : Memory) (site : Site) {indices : List Nat}
    (outcome : Receiver × RxResult) :
    StampFrame indices memory (receiveReturned memory site indices outcome).1 := by
  obtain ⟨receiver, result⟩ := outcome
  cases result with
  | nothing => exact ⟨rfl, fun _ _ => rfl, rfl⟩
  | failed => exact ⟨rfl, fun _ _ => rfl, rfl⟩
  | frames first rest =>
      refine ⟨rfl, ?_, rfl⟩
      intro idx outside
      apply fill_slots_of_not_mem
      intro filled
      obtain ⟨entry, inZip, rfl⟩ := List.mem_map.mp filled
      exact outside (List.of_mem_zip inZip).1

theorem receive_location (memory : Memory) (site : Site) (indices : List Nat)
    (outcome : Receiver × RxResult) :
    (receiveReturned memory site indices outcome).2.stamping = [] ∧
      (receiveReturned memory site indices outcome).2.batchNs = none := by
  obtain ⟨receiver, result⟩ := outcome
  cases result <;> exact ⟨rfl, rfl⟩

theorem ready_of_free_push (capacity : Capacity) (queues : PoolRing → List Nat) (idx : Nat) :
    (fifoExec capacity queues (.push .free idx)).1 .ready = queues .ready := by
  simp only [fifoExec, ne_eq, reduceCtorEq, not_false_eq_true, Function.update_of_ne]

theorem io_effect_reserve (capacity : Capacity) (queues : PoolRing → List Nat)
    (memory : Memory) (site : Site) (indices : List Nat) (input : Input) :
    IoEffect queues memory (.reserve site indices) input
      (fifoExec capacity queues (.pop .free)).1 memory
      (reserveReturned site indices (fifoExec capacity queues (.pop .free)).2) := by
  have ready : (fifoExec capacity queues (.pop .free)).1 .ready = queues .ready := by
    simp only [fifoExec, ne_eq, reduceCtorEq, not_false_eq_true, Function.update_of_ne]
  cases (fifoExec capacity queues (.pop .free)).2 with
  | none =>
      exact .quiet ready (stamp_frame_refl _ _) rfl (fun _ same => same) (fun _ => rfl)
  | some idx =>
      exact .quiet ready (stamp_frame_refl _ _) rfl (fun _ same => same) (fun _ => rfl)

theorem io_effect_of_step {io next : IoLocation} {input : Input}
    (step : queueStep capacity (ioAction io) queues memory input =
      some (nextQueues, after, next)) :
    IoEffect queues memory io input nextQueues after next := by
  have quiet : ∀ location : IoLocation, location.stamping = io.stamping →
      location.batchNs = io.batchNs →
      (∀ trace : StampTrace, trace.recordIo memory io input location = trace) →
      IoEffect queues memory io input queues memory location := by
    intro location stamping batch silent
    exact .quiet rfl (stamp_frame_refl _ _) stamping (fun ns same => batch ▸ same) silent
  cases io with
  | loopTest =>
      cases step
      cases memory.running <;> exact quiet _ rfl rfl (fun _ => rfl)
  | reserve site indices =>
      simp only [ioAction] at step
      split_ifs at step
      · cases step
        exact io_effect_reserve capacity queues memory site indices input
      · cases step
        exact quiet _ rfl rfl (fun _ => rfl)
  | reserved site indices =>
      cases step
      cases indices <;> exact quiet _ rfl rfl (fun _ => rfl)
  | receive site indices =>
      obtain ⟨rfl, outcome, accounts, returned⟩ := receive_step_cases step
      have frame := @receive_stamp_frame memory site indices outcome
      obtain ⟨stamping, batch⟩ := receive_location memory site indices outcome
      rw [returned] at frame stamping batch
      refine .quiet rfl frame stamping ?_ (fun _ => rfl)
      intro ns same
      rw [batch] at same
      cases same
  | batchTest frames unused =>
      simp only [queueStep, actionStep, ioAction] at step
      split_ifs at step
      · cases step
        exact quiet _ rfl rfl (fun _ => rfl)
      · cases step
        exact .quiet rfl ⟨rfl, fun _ _ => rfl, rfl⟩ rfl (fun _ same => same) (fun _ => rfl)
  | clock frames unused =>
      cases input with
      | clock now =>
          cases step
          exact .clock frames unused now
      | _ => cases step
  | publish batch =>
      cases step
      obtain ⟨receivedNs, frames, unused⟩ := batch
      cases frames with
      | nil =>
          refine .quiet rfl (stamp_frame_refl _ _) rfl ?_ (fun _ => rfl)
          intro ns none_
          cases none_
      | cons entry rest =>
          simp only [publishNext]
          split_ifs <;> exact quiet _ rfl rfl (fun _ => rfl)
  | stamp idx batch =>
      cases step
      exact .stamp idx batch input
  | readyPush idx batch =>
      cases step
      simp only [fifoObject, fifoExec, fifoPush]
      split_ifs
      · refine .quiet ?_ (stamp_frame_refl _ _) rfl (fun _ same => same) (fun _ => rfl)
        exact Function.update_self _ _ _
      · exact .publish idx batch input
  | dropCount refused idx batch =>
      cases step
      refine .quiet rfl ⟨rfl, fun _ _ => rfl, rfl⟩ ?_ (fun _ same => same) (fun _ => rfl)
      cases refused <;> rfl
  | dropClear refused idx batch =>
      cases step
      exact .clear refused idx batch input
  | dropReturn refused idx batch =>
      cases step
      exact .quiet (ready_of_free_push capacity queues idx) (stamp_frame_refl _ _) rfl
        (fun _ same => same) (fun _ => rfl)
  | dropReturned ok batch =>
      cases step
      exact quiet _ rfl rfl (fun _ => rfl)
  | release destination indices =>
      cases indices with
      | nil =>
          cases step
          cases destination <;> exact quiet _ rfl rfl (fun _ => rfl)
      | cons idx rest =>
          cases step
          exact .quiet (ready_of_free_push capacity queues idx) (stamp_frame_refl _ _) rfl
            (fun _ same => same) (fun _ => rfl)
  | released ok destination indices =>
      cases step
      exact quiet _ rfl rfl (fun _ => rfl)
  | epollErrorTest =>
      cases step
      cases memory.running <;> exact quiet _ rfl rfl (fun _ => rfl)
  | drainErrorTest =>
      cases step
      cases memory.running <;> exact quiet _ rfl rfl (fun _ => rfl)
  | lateErrorTest =>
      cases step
      cases memory.running <;> exact quiet _ rfl rfl (fun _ => rfl)
  | errorStore =>
      cases step
      exact .quiet rfl ⟨rfl, fun _ _ => rfl, rfl⟩ rfl (fun _ same => same) (fun _ => rfl)
  | leave =>
      cases step
      exact .quiet rfl ⟨rfl, fun _ _ => rfl, rfl⟩ rfl (fun _ same => same) (fun _ => rfl)
  | finished => cases step

theorem consumer_effect_of_step {consumer next : ConsumerLocation} {input : Input}
    (step : queueStep capacity (consumerAction order consumer) queues memory input =
      some (nextQueues, after, next)) :
    ConsumerEffect queues memory consumer input nextQueues after next := by
  have quiet : ∀ location : ConsumerLocation,
      location.unexchanged = consumer.unexchanged → consumer.timing = none →
      location.timing = none →
      (∀ trace : StampTrace, trace.recordConsumer memory consumer input = trace) →
      ConsumerEffect queues memory consumer input queues memory location := by
    intro location waiting before timing silent
    exact .quiet (by rw [waiting]) rfl rfl rfl before timing silent
  cases consumer with
  | loopTest =>
      cases step
      cases memory.running <;> exact quiet _ rfl rfl rfl (fun _ => rfl)
  | emptyTest =>
      cases step
      show ConsumerEffect queues memory _ input _ memory
        (emptyReturned (queues .ready).isEmpty)
      cases (queues .ready).isEmpty <;> exact quiet _ rfl rfl rfl (fun _ => rfl)
  | collect indices =>
      simp only [consumerAction] at step
      split_ifs at step
      · cases step
        simp only [fifoObject, fifoExec]
        cases ready : queues .ready with
        | nil =>
            rw [← ready, pop_unchanged ready, ready]
            exact quiet _ rfl rfl rfl (fun _ => rfl)
        | cons idx rest =>
            refine .quiet ?_ rfl rfl rfl rfl rfl (fun _ => rfl)
            simp [ready, fifoPop, collectReturned, ConsumerLocation.unexchanged]
      · cases step
        exact quiet _ rfl rfl rfl (fun _ => rfl)
  | collected indices =>
      cases step
      cases indices <;> exact quiet _ rfl rfl rfl (fun _ => rfl)
  | stage work point =>
      cases step
      simp only [stageNext]
      cases (stageStep order (memory.slots work.idx) memory.session point).2 <;>
        exact .quiet rfl rfl rfl rfl rfl rfl (fun _ => rfl)
  | exchange work =>
      cases step
      exact .exchange work input
  | clock startNs work =>
      cases input with
      | clock now =>
          cases step
          exact .clock startNs work now
      | _ => cases step
  | recycle indices =>
      cases indices with
      | nil =>
          cases step
          exact quiet _ rfl rfl rfl (fun _ => rfl)
      | cons idx rest =>
          cases step
          refine .quiet ?_ rfl rfl rfl rfl rfl (fun _ => rfl)
          exact ready_of_free_push capacity queues idx
  | recycled ok indices =>
      cases step
      exact quiet _ rfl rfl rfl (fun _ => rfl)
  | leave =>
      cases step
      exact .quiet rfl rfl rfl rfl rfl rfl (fun _ => rfl)
  | finished => cases step

end Effects

/-! ## The timestamps in the slots -/

/-- The datagram is in its slot, with the timestamp of its call of `publish_batch`. -/
def Publication.Carried (publication : Publication) (memory : Memory)
    (clocks : List UInt64) : Prop :=
  memory.slots publication.idx = publication.datagram ∧
    clocks[publication.batch]? = some (memory.recvReadyNs publication.idx)

structure Stamped (queues : PoolRing → List Nat) (memory : Memory) (io : IoLocation)
    (consumer : ConsumerLocation) (trace : StampTrace) : Prop where
  clocked : ∀ ns, io.batchNs = some ns → trace.clocks.getLast? = some ns
  stored : ∀ idx ∈ io.stamping, ∀ ns, io.batchNs = some ns → memory.recvReadyNs idx = ns
  bounded : trace.exchanged ≤ trace.published.length
  waiting : (trace.published.drop trace.exchanged).map Publication.idx =
    consumer.unexchanged ++ queues .ready
  carried : ∀ publication ∈ trace.published.drop trace.exchanged,
    publication.Carried memory trace.clocks
  placed : ∀ idx, memory.recvReadyNs idx ≠ 0 →
    idx ∈ io.stamping ∨ idx ∈ consumer.unexchanged ++ queues .ready

section Slots

variable {queues nextQueues : PoolRing → List Nat} {memory after : Memory}
variable {io nextIo : IoLocation} {consumer nextConsumer : ConsumerLocation}
variable {trace : StampTrace}

theorem getElem?_append_of_some {α : Type} {values : List α} {position : Nat} {value : α}
    (found : values[position]? = some value) (more : List α) :
    (values ++ more)[position]? = some value := by
  rw [List.getElem?_append_left (List.getElem?_eq_some_iff.mp found).1]
  exact found

theorem stamp_other (memory : Memory) {idx other : Nat} (apart : other ≠ idx) (ns : UInt64) :
    (memory.stamp idx ns).recvReadyNs other = memory.recvReadyNs other :=
  Function.update_of_ne apart _ _

theorem nonzero_before_clear {idx other : Nat}
    (nonzero : (memory.stamp idx 0).recvReadyNs other ≠ 0) :
    other ≠ idx ∧ memory.recvReadyNs other ≠ 0 := by
  have apart : other ≠ idx := by
    rintro rfl
    exact nonzero (Function.update_self _ _ _)
  rw [stamp_other memory apart] at nonzero
  exact ⟨apart, nonzero⟩

theorem waiting_apart (owned : Owned capacity queues memory io consumer) {idx : Nat}
    (held : idx ∈ io.held) : idx ∉ consumer.unexchanged ++ queues .ready := by
  obtain ⟨notReady, notConsumed⟩ := io_held_apart owned held
  rw [List.mem_append, not_or]
  exact ⟨fun member => notConsumed ((unexchanged_sublist_held consumer).subset member), notReady⟩

theorem waiting_nodup (owned : Owned capacity queues memory io consumer) :
    (consumer.unexchanged ++ queues .ready).Nodup := by
  have nodup : (places queues memory io consumer).Nodup :=
    owned.placed.nodup_iff.mpr List.nodup_range
  unfold places at nodup
  rw [List.nodup_append, List.nodup_append, List.nodup_append, List.nodup_append] at nodup
  obtain ⟨⟨⟨⟨-, ready, -⟩, -⟩, consumed, apart⟩, -⟩ := nodup
  rw [List.nodup_append]
  refine ⟨consumed.sublist (unexchanged_sublist_held consumer), ready, ?_⟩
  intro idx member other inReady same
  exact apart other (List.mem_append_left _ (List.mem_append_right _ inReady)) idx
    ((unexchanged_sublist_held consumer).subset member) same.symm

theorem waits_of_mem_drop (stamped : Stamped queues memory io consumer trace)
    {publication : Publication} (member : publication ∈ trace.published.drop trace.exchanged) :
    publication.idx ∈ consumer.unexchanged ++ queues .ready := by
  rw [← stamped.waiting]
  exact List.mem_map_of_mem member

theorem carried_of_frame {publication : Publication} {clocks : List UInt64}
    (carried : publication.Carried memory clocks)
    (stamp : after.recvReadyNs publication.idx = memory.recvReadyNs publication.idx)
    (slot : after.slots publication.idx = memory.slots publication.idx) :
    publication.Carried after clocks := by
  unfold Publication.Carried
  rw [stamp, slot]
  exact carried

/-- The timestamp of an index in the hands of the I/O thread is nobody else's. -/
theorem carried_of_held_stamp (owned : Owned capacity queues memory io consumer)
    (stamped : Stamped queues memory io consumer trace) {idx : Nat} (held : idx ∈ io.held)
    (ns : UInt64) {publication : Publication}
    (member : publication ∈ trace.published.drop trace.exchanged) :
    publication.Carried (memory.stamp idx ns) trace.clocks := by
  apply carried_of_frame (stamped.carried publication member)
  · apply stamp_other
    intro same
    apply waiting_apart owned held
    rw [← same]
    exact waits_of_mem_drop stamped member
  · rfl

theorem stamped_quiet (owned : Owned capacity queues memory io consumer)
    (stamped : Stamped queues memory io consumer trace)
    (ready : nextQueues .ready = queues .ready) (frame : StampFrame io.held memory after)
    (stamping : nextIo.stamping = io.stamping)
    (batch : ∀ ns, nextIo.batchNs = some ns → io.batchNs = some ns) :
    Stamped nextQueues after nextIo consumer trace := by
  constructor
  case clocked => exact fun ns same => stamped.clocked ns (batch ns same)
  case stored =>
    intro idx member ns same
    rw [stamping] at member
    rw [frame.stamps]
    exact stamped.stored idx member ns (batch ns same)
  case bounded => exact stamped.bounded
  case waiting =>
    rw [ready]
    exact stamped.waiting
  case carried =>
    intro publication member
    apply carried_of_frame (stamped.carried publication member)
    · rw [frame.stamps]
    · apply frame.slots
      intro held
      exact waiting_apart owned held (waits_of_mem_drop stamped member)
  case placed =>
    rw [frame.stamps, stamping, ready]
    exact stamped.placed

theorem stamped_clock {frames : List (Nat × RxFrame)} {unused : List Nat}
    (stamped : Stamped queues memory (.clock frames unused) consumer trace) (now : UInt64) :
    Stamped queues memory (.publish ⟨now, frames, unused⟩) consumer
      { trace with clocks := trace.clocks ++ [now] } := by
  constructor
  case clocked =>
    intro ns same
    cases same
    exact List.getLast?_concat
  case stored =>
    intro idx member
    cases member
  case bounded => exact stamped.bounded
  case waiting => exact stamped.waiting
  case carried =>
    intro publication member
    obtain ⟨slot, stamp⟩ := stamped.carried publication member
    exact ⟨slot, getElem?_append_of_some stamp _⟩
  case placed => exact stamped.placed

theorem stamped_stamp {idx : Nat} {batch : Publishing}
    (owned : Owned capacity queues memory (.stamp idx batch) consumer)
    (stamped : Stamped queues memory (.stamp idx batch) consumer trace) :
    Stamped queues (memory.stamp idx batch.receivedNs) (.readyPush idx batch) consumer
      trace := by
  constructor
  case clocked => exact stamped.clocked
  case stored =>
    intro other member ns same
    rw [List.mem_singleton.mp member]
    cases same
    exact Function.update_self _ _ _
  case bounded => exact stamped.bounded
  case waiting => exact stamped.waiting
  case carried =>
    intro publication member
    exact carried_of_held_stamp owned stamped List.mem_cons_self _ member
  case placed =>
    intro other nonzero
    by_cases same : other = idx
    · exact .inl (List.mem_singleton.mpr same)
    · apply Or.inr
      rw [stamp_other memory same] at nonzero
      exact (stamped.placed other nonzero).resolve_left List.not_mem_nil

theorem stamped_publish {idx : Nat} {batch : Publishing}
    (stamped : Stamped queues memory (.readyPush idx batch) consumer trace) :
    Stamped (Function.update queues .ready (queues .ready ++ [idx])) memory (.publish batch)
      consumer (trace.publish idx (memory.slots idx)) := by
  have ready : Function.update queues .ready (queues .ready ++ [idx]) .ready =
      queues .ready ++ [idx] := Function.update_self _ _ _
  have dropped : (trace.publish idx (memory.slots idx)).published.drop trace.exchanged =
      trace.published.drop trace.exchanged ++
        [⟨idx, memory.slots idx, trace.clocks.length - 1⟩] :=
    List.drop_append_of_le_length stamped.bounded
  constructor
  case clocked => exact stamped.clocked
  case stored =>
    intro other member
    cases member
  case bounded =>
    refine Nat.le_trans stamped.bounded ?_
    simp [StampTrace.publish]
  case waiting =>
    show ((trace.publish idx (memory.slots idx)).published.drop trace.exchanged).map
      Publication.idx = _
    rw [dropped, ready, List.map_append, stamped.waiting, List.append_assoc]
    rfl
  case carried =>
    intro publication member
    change publication ∈
      (trace.publish idx (memory.slots idx)).published.drop trace.exchanged at member
    rw [dropped] at member
    rcases List.mem_append.mp member with earlier | newest
    · exact stamped.carried publication earlier
    · rw [List.mem_singleton.mp newest]
      refine ⟨rfl, ?_⟩
      have last := stamped.clocked batch.receivedNs rfl
      have stored := stamped.stored idx List.mem_cons_self batch.receivedNs rfl
      rw [List.getLast?_eq_getElem?] at last
      rw [stored]
      exact last
  case placed =>
    intro other nonzero
    apply Or.inr
    rw [ready, ← List.append_assoc]
    rcases stamped.placed other nonzero with stamping | waits
    · exact List.mem_append_right _ stamping
    · exact List.mem_append_left _ waits

theorem stamped_clear {refused : Bool} {idx : Nat} {batch : Publishing}
    (owned : Owned capacity queues memory (.dropClear refused idx batch) consumer)
    (stamped : Stamped queues memory (.dropClear refused idx batch) consumer trace) :
    Stamped queues (memory.stamp idx 0) (.dropReturn refused idx batch) consumer trace := by
  constructor
  case clocked => exact stamped.clocked
  case stored =>
    intro other member
    cases member
  case bounded => exact stamped.bounded
  case waiting => exact stamped.waiting
  case carried =>
    intro publication member
    exact carried_of_held_stamp owned stamped List.mem_cons_self _ member
  case placed =>
    intro other nonzero
    obtain ⟨apart, before⟩ := nonzero_before_clear nonzero
    apply Or.inr
    refine (stamped.placed other before).resolve_left ?_
    cases refused with
    | false => exact List.not_mem_nil
    | true => exact fun member => apart (List.mem_singleton.mp member)

theorem stamped_io_effect {input : Input}
    (owned : Owned capacity queues memory io consumer)
    (stamped : Stamped queues memory io consumer trace)
    (effect : IoEffect queues memory io input nextQueues after nextIo) :
    Stamped nextQueues after nextIo consumer (trace.recordIo memory io input nextIo) := by
  cases effect with
  | quiet ready frame stamping batch silent =>
      rw [silent]
      exact stamped_quiet owned stamped ready frame stamping batch
  | clock frames unused now => exact stamped_clock stamped now
  | stamp idx batch input => exact stamped_stamp owned stamped
  | publish idx batch input => exact stamped_publish stamped
  | clear refused idx batch input => exact stamped_clear owned stamped

theorem work_next_unexchanged (work : Working) :
    (workNext work).unexchanged = work.rest ∧ (workNext work).timing = none := by
  obtain ⟨done, idx, rest⟩ := work
  cases rest <;> exact ⟨rfl, rfl⟩

/-- A step that leaves the timestamps, and the slots behind the I/O thread, as they are. -/
theorem stamped_of_frame {later : StampTrace}
    (stamped : Stamped queues memory io consumer trace)
    (waiting : nextConsumer.unexchanged ++ nextQueues .ready =
      consumer.unexchanged ++ queues .ready)
    (stamps : after.recvReadyNs = memory.recvReadyNs) (slots : after.slots = memory.slots)
    (clocks : later.clocks = trace.clocks) (published : later.published = trace.published)
    (exchanged : later.exchanged = trace.exchanged) :
    Stamped nextQueues after io nextConsumer later := by
  constructor
  case clocked =>
    rw [clocks]
    exact stamped.clocked
  case stored =>
    rw [stamps]
    exact stamped.stored
  case bounded =>
    rw [exchanged, published]
    exact stamped.bounded
  case waiting =>
    rw [exchanged, published, waiting]
    exact stamped.waiting
  case carried =>
    rw [exchanged, published, clocks]
    intro publication member
    apply carried_of_frame (stamped.carried publication member)
    · rw [stamps]
    · rw [slots]
  case placed =>
    rw [stamps, waiting]
    exact stamped.placed

/-- At an exchange the first publication that waits is that of the current index. -/
theorem drop_at_exchange {work : Working}
    (stamped : Stamped queues memory io (.exchange work) trace) :
    ∃ publication, publication.idx = work.idx ∧
      trace.published[trace.exchanged]? = some publication ∧
      trace.published.drop trace.exchanged =
        publication :: trace.published.drop (trace.exchanged + 1) ∧
      (trace.published.drop (trace.exchanged + 1)).map Publication.idx =
        work.rest ++ queues .ready := by
  have waiting := stamped.waiting
  have inside : trace.exchanged < trace.published.length := by
    have lengths := congrArg List.length waiting
    simp only [ConsumerLocation.unexchanged, List.length_map, List.length_drop,
      List.length_append, List.length_cons] at lengths
    omega
  have split := List.drop_eq_getElem_cons inside
  rw [split, List.map_cons] at waiting
  obtain ⟨current, rest⟩ := List.cons.inj waiting
  exact ⟨_, current, List.getElem?_eq_getElem inside, split, rest⟩

theorem stamped_exchange {work : Working}
    (owned : Owned capacity queues memory io (.exchange work))
    (stamped : Stamped queues memory io (.exchange work) trace) :
    Stamped queues (memory.stamp work.idx 0) io
      (.clock (memory.recvReadyNs work.idx) work)
      { trace with exchanged := trace.exchanged + 1 } := by
  obtain ⟨publication, -, found, split, rest⟩ := drop_at_exchange stamped
  have nodup := waiting_nodup owned
  have fresh : work.idx ∉ work.rest ++ queues .ready := (List.nodup_cons.mp nodup).1
  constructor
  case clocked => exact stamped.clocked
  case stored =>
    intro idx member ns same
    have notCurrent : idx ≠ work.idx := by
      rintro rfl
      exact waiting_apart owned (stamping_subset_held io member) List.mem_cons_self
    rw [stamp_other memory notCurrent]
    exact stamped.stored idx member ns same
  case bounded => exact (List.getElem?_eq_some_iff.mp found).1
  case waiting => exact rest
  case carried =>
    intro later member
    apply carried_of_frame (stamped.carried later (by rw [split]; exact .tail _ member))
    · apply stamp_other
      intro same
      apply fresh
      rw [← same, ← rest]
      exact List.mem_map_of_mem member
    · rfl
  case placed =>
    intro idx nonzero
    obtain ⟨apart, before⟩ := nonzero_before_clear nonzero
    rcases stamped.placed idx before with stamping | waits
    · exact .inl stamping
    · exact .inr ((List.mem_cons.mp waits).resolve_left apart)

theorem stamped_consumer_effect {input : Input}
    (owned : Owned capacity queues memory io consumer)
    (stamped : Stamped queues memory io consumer trace)
    (effect : ConsumerEffect queues memory consumer input nextQueues after nextConsumer) :
    Stamped nextQueues after io nextConsumer (trace.recordConsumer memory consumer input) := by
  cases effect with
  | quiet waiting stamps slots latencies before timing silent =>
      rw [silent]
      exact stamped_of_frame stamped waiting stamps slots rfl rfl rfl
  | exchange work input => exact stamped_exchange owned stamped
  | clock startNs work now =>
      obtain ⟨latencies, recorded⟩ := record_latency_eq memory work.idx startNs now
      have waiting := (work_next_unexchanged work).1
      rw [recorded]
      simp only [StampTrace.recordConsumer]
      split_ifs <;> exact stamped_of_frame stamped (by rw [waiting]; rfl) rfl rfl rfl rfl rfl

end Slots

end MarketDataEngine.EngineV2
