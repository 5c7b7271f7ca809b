import MarketDataEngine.EngineV2Stamps

/-!
# Whose latency `record_latency` is called with

The consumer takes the timestamps out in the order of the publications, so the timestamp in
its hand, while it reads the clock, is that of the datagram in the current slot. No call is
for a frame that another call was for.
-/

namespace MarketDataEngine.EngineV2

open MarketDataEngine.Protocol MarketDataEngine.Containers MarketDataEngine.Engine
open MarketDataEngine.Net MarketDataEngine.TransitionSystem
open MarketDataEngine.SteppedObject

set_option autoImplicit false

variable {order : ByteOrder} {capacity : Capacity}

/-! ## The calls of `record_latency` -/

/-- The call is for one publication, and measures from what the clock returned in the call of
`publish_batch` that made it. -/
def LatencyCall.Attributed (call : LatencyCall) (trace : StampTrace) : Prop :=
  ∃ publication startNs, trace.published[call.position]? = some publication ∧
    publication.idx = call.idx ∧ publication.datagram = call.datagram ∧
    trace.clocks[publication.batch]? = some startNs ∧ startNs ≠ 0 ∧
    startNs ≤ call.endNs ∧ call.latencyNs = call.endNs - startNs

/-- The frames that the consumer is done with. -/
def StampTrace.finished (trace : StampTrace) (consumer : ConsumerLocation) : Nat :=
  match consumer.timing with
  | some _ => trace.exchanged - 1
  | none => trace.exchanged

structure Charged (memory : Memory) (consumer : ConsumerLocation) (trace : StampTrace) :
    Prop where
  timed : ∀ startNs idx, consumer.timing = some (startNs, idx) →
    0 < trace.exchanged ∧ ∃ publication,
      trace.published[trace.exchanged - 1]? = some publication ∧ publication.idx = idx ∧
        memory.slots idx = publication.datagram ∧
        trace.clocks[publication.batch]? = some startNs
  recorded : memory.latencies = trace.calls.map fun call => (call.idx, call.latencyNs)
  attributed : ∀ call ∈ trace.calls, call.Attributed trace
  ordered : (trace.calls.map LatencyCall.position).Pairwise (· < ·)
  counted : ∀ call ∈ trace.calls, call.position < trace.finished consumer

section Calls

variable {queues nextQueues : PoolRing → List Nat} {memory after : Memory}
variable {io nextIo : IoLocation} {consumer nextConsumer : ConsumerLocation}
variable {trace : StampTrace}

theorem record_io_extends (trace : StampTrace) (memory : Memory) (io : IoLocation)
    (input : Input) (next : IoLocation) :
    ∃ clocks published, trace.recordIo memory io input next =
      { trace with
        clocks := trace.clocks ++ clocks
        published := trace.published ++ published } := by
  unfold StampTrace.recordIo
  split
  case h_1 frames unused now => exact ⟨[now], [], by rw [List.append_nil]⟩
  case h_2 idx batch published =>
      exact ⟨[], [⟨idx, memory.slots idx, trace.clocks.length - 1⟩], by
        rw [List.append_nil]
        rfl⟩
  case h_3 => exact ⟨[], [], by rw [List.append_nil, List.append_nil]⟩

theorem attributed_extend {call : LatencyCall} (attributed : call.Attributed trace)
    (clocks : List UInt64) (published : List Publication) :
    call.Attributed { trace with
      clocks := trace.clocks ++ clocks
      published := trace.published ++ published } := by
  obtain ⟨publication, startNs, found, idx, datagram, clock, facts⟩ := attributed
  exact ⟨publication, startNs, getElem?_append_of_some found _, idx, datagram,
    getElem?_append_of_some clock _, facts⟩

/-- Nothing but the slot of the frame being timed matters to the calls. -/
theorem charged_extend (charged : Charged memory consumer trace)
    (slots : ∀ startNs idx, consumer.timing = some (startNs, idx) →
      after.slots idx = memory.slots idx)
    (latencies : after.latencies = memory.latencies)
    (clocks : List UInt64) (published : List Publication) :
    Charged after consumer { trace with
      clocks := trace.clocks ++ clocks
      published := trace.published ++ published } := by
  constructor
  case timed =>
    intro startNs idx timing
    obtain ⟨positive, publication, found, same, slot, clock⟩ :=
      charged.timed startNs idx timing
    refine ⟨positive, publication, getElem?_append_of_some found _, same, ?_,
      getElem?_append_of_some clock _⟩
    rw [slots startNs idx timing]
    exact slot
  case recorded =>
    rw [latencies]
    exact charged.recorded
  case attributed =>
    intro call member
    exact attributed_extend (charged.attributed call member) clocks published
  case ordered => exact charged.ordered
  case counted => exact charged.counted

theorem timing_held {startNs : UInt64} {idx : Nat}
    (timing : consumer.timing = some (startNs, idx)) : idx ∈ consumer.held := by
  cases consumer <;> cases timing
  exact List.mem_append_right _ List.mem_cons_self

theorem io_effect_frame {input : Input}
    (effect : IoEffect queues memory io input nextQueues after nextIo) :
    (∀ idx, idx ∉ io.held → after.slots idx = memory.slots idx) ∧
      after.latencies = memory.latencies := by
  cases effect with
  | quiet ready frame stamping batch silent => exact ⟨frame.slots, frame.latencies⟩
  | _ => exact ⟨fun _ _ => rfl, rfl⟩

theorem charged_io_effect {input : Input}
    (owned : Owned capacity queues memory io consumer)
    (charged : Charged memory consumer trace)
    (effect : IoEffect queues memory io input nextQueues after nextIo) :
    Charged after consumer (trace.recordIo memory io input nextIo) := by
  obtain ⟨slots, latencies⟩ := io_effect_frame effect
  obtain ⟨clocks, published, extended⟩ := record_io_extends trace memory io input nextIo
  rw [extended]
  apply charged_extend charged _ latencies
  intro startNs idx timing
  apply slots
  intro held
  exact (io_held_apart owned held).2 (timing_held timing)

/-- The consumer moves on without having been at the clock. -/
theorem charged_untimed (charged : Charged memory consumer trace)
    (before : consumer.timing = none) (timing : nextConsumer.timing = none)
    (latencies : after.latencies = memory.latencies) : Charged after nextConsumer trace := by
  constructor
  case timed =>
    intro startNs idx timed
    rw [timing] at timed
    cases timed
  case recorded =>
    rw [latencies]
    exact charged.recorded
  case attributed => exact charged.attributed
  case ordered => exact charged.ordered
  case counted =>
    have counted := charged.counted
    unfold StampTrace.finished at counted ⊢
    rw [timing]
    rw [before] at counted
    exact counted

theorem charged_exchange {work : Working}
    (stamped : Stamped queues memory io (.exchange work) trace)
    (charged : Charged memory (.exchange work) trace) :
    Charged (memory.stamp work.idx 0) (.clock (memory.recvReadyNs work.idx) work)
      { trace with exchanged := trace.exchanged + 1 } := by
  obtain ⟨publication, current, found, split, -⟩ := drop_at_exchange stamped
  obtain ⟨slot, clock⟩ := stamped.carried publication (by rw [split]; exact .head _)
  rw [current] at slot clock
  constructor
  case timed =>
    intro startNs idx timing
    cases timing
    exact ⟨Nat.succ_pos _, publication, found, current, slot, clock⟩
  case recorded => exact charged.recorded
  case attributed => exact charged.attributed
  case ordered => exact charged.ordered
  case counted => exact charged.counted

/-- The consumer has read the clock, and the calls that were made are before it. -/
theorem charged_after_clock {later : StampTrace} {work : Working}
    (recorded : after.latencies = later.calls.map fun call => (call.idx, call.latencyNs))
    (attributed : ∀ call ∈ later.calls, call.Attributed later)
    (ordered : (later.calls.map LatencyCall.position).Pairwise (· < ·))
    (counted : ∀ call ∈ later.calls, call.position < later.exchanged) :
    Charged after (workNext work) later := by
  have timing := (work_next_unexchanged work).2
  constructor
  case timed =>
    intro startNs idx timed
    rw [timing] at timed
    cases timed
  case recorded => exact recorded
  case attributed => exact attributed
  case ordered => exact ordered
  case counted =>
    unfold StampTrace.finished
    rw [timing]
    exact counted

theorem charged_clock {startNs : UInt64} {work : Working} (now : UInt64)
    (charged : Charged memory (.clock startNs work) trace) :
    Charged (recordLatency memory work.idx startNs now) (workNext work)
      (trace.recordConsumer memory (.clock startNs work) (.clock now)) := by
  obtain ⟨positive, publication, found, current, slot, clock⟩ :=
    charged.timed startNs work.idx rfl
  have earlier : ∀ call ∈ trace.calls, call.position < trace.exchanged - 1 := charged.counted
  have past : ∀ call ∈ trace.calls, call.position < trace.exchanged := by
    intro call member
    exact Nat.lt_of_lt_of_le (earlier call member) (Nat.sub_le _ _)
  simp only [recordLatency, StampTrace.recordConsumer]
  split_ifs with measured
  · apply charged_after_clock
    case recorded => simp [StampTrace.call, charged.recorded]
    case attributed =>
      intro call member
      rcases List.mem_append.mp member with before | newest
      · exact charged.attributed call before
      · rw [List.mem_singleton.mp newest]
        exact ⟨publication, startNs, found, current, slot.symm, clock, measured.1, measured.2,
          rfl⟩
    case ordered =>
      simp only [StampTrace.call, List.map_append, List.map_cons, List.map_nil]
      rw [List.pairwise_append]
      refine ⟨charged.ordered, List.pairwise_singleton _ _, ?_⟩
      intro position member last isLast
      obtain ⟨call, inCalls, rfl⟩ := List.mem_map.mp member
      rw [List.mem_singleton.mp isLast]
      exact earlier call inCalls
    case counted =>
      intro call member
      rcases List.mem_append.mp member with before | newest
      · exact past call before
      · rw [List.mem_singleton.mp newest]
        exact Nat.sub_lt positive Nat.zero_lt_one
  · exact charged_after_clock charged.recorded charged.attributed charged.ordered past

theorem charged_consumer_effect {input : Input}
    (stamped : Stamped queues memory io consumer trace)
    (charged : Charged memory consumer trace)
    (effect : ConsumerEffect queues memory consumer input nextQueues after nextConsumer) :
    Charged after nextConsumer (trace.recordConsumer memory consumer input) := by
  cases effect with
  | quiet waiting stamps slots latencies before timing silent =>
      rw [silent]
      exact charged_untimed charged before timing latencies
  | exchange work input => exact charged_exchange stamped charged
  | clock startNs work now => exact charged_clock now charged

end Calls

/-! ## Whole runs -/

def StateStamped (pair : QueueState order capacity × StampTrace) : Prop :=
  Stamped pair.1.queue pair.1.memory pair.1.io pair.1.consumer pair.2 ∧
    Charged pair.1.memory pair.1.consumer pair.2

theorem stamped_start {state : QueueState order capacity} (start : QueueStart state) :
    StateStamped (state, .empty) := by
  obtain ⟨-, ready, ⟨slots, memory⟩, io, consumer, -⟩ := start
  unfold StateStamped
  rw [memory, io, consumer]
  constructor
  · constructor
    case waiting =>
      rw [ready]
      rfl
    case placed => exact fun _ nonzero => absurd rfl nonzero
    all_goals simp [StampTrace.empty, IoLocation.batchNs, IoLocation.stamping]
  · constructor
    all_goals simp [StampTrace.empty, ConsumerLocation.timing, startMemory]

theorem stamped_step {state next : QueueState order capacity} {label : Thread × Input}
    {trace : StampTrace} (owned : StateOwned state) (stamped : StateStamped (state, trace))
    (taken : atomicStep (program order) state label = some next) :
    StateStamped (next, recordStamps state label next trace) := by
  obtain ⟨stamps, charged⟩ := stamped
  unfold StateStamped
  cases moves_of_step taken with
  | io step consumer _ =>
      have effect := io_effect_of_step step
      rw [consumer]
      exact ⟨stamped_io_effect owned stamps effect, charged_io_effect owned charged effect⟩
  | consumer step io _ =>
      have effect := consumer_effect_of_step step
      rw [io]
      exact ⟨stamped_consumer_effect owned stamps effect,
        charged_consumer_effect stamps charged effect⟩
  | control step io consumer =>
      obtain ⟨queues, running, receiver, after, -⟩ := control_step_eq step
      rw [queues, io, consumer, after]
      exact ⟨stamped_of_frame stamps rfl rfl rfl rfl rfl rfl,
        ⟨charged.timed, charged.recorded, charged.attributed, charged.ordered,
          charged.counted⟩⟩

theorem stamped_of_reaches {pair : QueueState order capacity × StampTrace}
    (reached : Reaches (stampedSystem order capacity) pair) : StateStamped pair := by
  refine invariant_of_step ?_ ?_ reached
  · rintro ⟨state, trace⟩ ⟨start, rfl⟩
    exact stamped_start start
  · intro pair label next prior stamped _ taken
    obtain ⟨stepped, recorded⟩ := traced_step_cases taken
    have kept := stamped_step (owned_of_reaches (reaches_of_traced prior)) stamped stepped
    rw [← recorded] at kept
    exact kept

/-- A timestamp other than zero belongs to an index in the hands of `publish_batch`, in the
ready ring, or popped and not yet exchanged. -/
theorem recv_ready_ns_on_its_way {state : QueueState order capacity}
    (reached : Reaches (queueSystem order capacity) state) {idx : Nat}
    (nonzero : state.memory.recvReadyNs idx ≠ 0) :
    idx ∈ state.io.stamping ∨ idx ∈ state.queue .ready ∨ idx ∈ state.consumer.unexchanged := by
  obtain ⟨trace, recorded⟩ := @traced_of_reaches _ _ _ (queueSystem order capacity)
    StampTrace.empty recordStamps state reached
  rcases (stamped_of_reaches recorded).1.placed idx nonzero with stamping | waits
  · exact .inl stamping
  · exact .inr (List.mem_append.mp waits).symm

/-- No timestamp outlives its frame, and every call of `record_latency` is for the datagram of
one publication, at most one for each, and measures from what the clock returned in the call
of `publish_batch` that made it. -/
theorem latencies_attributed (order : ByteOrder) (state : QueueState order kPoolCapacity)
    (trace : StampTrace)
    (reached : Reaches (stampedSystem order kPoolCapacity) (state, trace)) :
    (∀ idx, state.memory.recvReadyNs idx ≠ 0 →
      idx ∈ state.io.stamping ∨ idx ∈ state.queue .ready ∨
        idx ∈ state.consumer.unexchanged) ∧
      state.memory.latencies = trace.calls.map (fun call => (call.idx, call.latencyNs)) ∧
      (∀ call ∈ trace.calls, call.Attributed trace) ∧
      (trace.calls.map LatencyCall.position).Pairwise (· < ·) := by
  have charged := (stamped_of_reaches reached).2
  refine ⟨?_, charged.recorded, charged.attributed, charged.ordered⟩
  intro idx nonzero
  exact recv_ready_ns_on_its_way (reaches_of_traced reached) nonzero

/-- One frame is published at 5 and timed at 9. -/
def timedRun : Option (QueueState .little kPoolCapacity × StampTrace) :=
  runLabels (stampedSystem .little kPoolCapacity) (freshQueues, .empty)
    (ticks .io 35 ++ oneFrame ++ ticks .io 1 ++ clockRead .io 5 ++ ticks .io 4 ++
      ticks .consumer 8 ++ clockRead .consumer 9)

theorem timed_frame_attributed :
    ∃ pair, timedRun = some pair ∧ pair.1.memory.latencies = [(0, 4)] ∧
      pair.2.calls.length = 1 ∧ ∀ call ∈ pair.2.calls, call.Attributed pair.2 := by
  have outcome : timedRun.map (fun pair => (pair.1.memory.latencies, pair.2.calls.length)) =
      some ([(0, 4)], 1) := by
    decide +kernel
  obtain ⟨pair, run, facts⟩ := Option.map_eq_some_iff.mp outcome
  obtain ⟨latencies, calls⟩ := Prod.mk.inj facts
  have fresh : (stampedSystem .little kPoolCapacity).start (freshQueues, .empty) :=
    ⟨fresh_queues_start, rfl⟩
  have reached := reaches_run (reaches_start fresh) run
  exact ⟨pair, run, latencies, calls,
    (latencies_attributed .little pair.1 pair.2 reached).2.2.1⟩

end MarketDataEngine.EngineV2
