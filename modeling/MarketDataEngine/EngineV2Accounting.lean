import MarketDataEngine.EngineV2Ownership

/-!
# The counters of engine v2

Over atomic queues every received frame is in flight or counted, once. In flight
means: in the I/O thread's current batch, in the ready ring, or popped and not
yet classified; a batch that was abandoned at shutdown stays in the equation.
Counters are taken modulo 2^64.
-/

namespace MarketDataEngine.EngineV2

open MarketDataEngine.Protocol MarketDataEngine.Containers MarketDataEngine.Engine
open MarketDataEngine.Net MarketDataEngine.TransitionSystem
open MarketDataEngine.SteppedObject

set_option autoImplicit false

variable {order : ByteOrder} {capacity : Capacity}

/-- The received frames of the current batch not yet published or counted as
dropped. -/
def IoLocation.pending : IoLocation → Nat
  | .batchTest frames _ => frames.length
  | .clock frames _ => frames.length
  | .publish batch => batch.frames.length
  | .stamp _ batch => batch.frames.length + 1
  | .readyPush _ batch => batch.frames.length + 1
  | .dropCount _ _ batch => batch.frames.length + 1
  | .dropClear _ _ batch => batch.frames.length
  | .dropReturn _ _ batch => batch.frames.length
  | .dropReturned _ batch => batch.frames.length
  | _ => 0

/-- The indices popped by the consumer and not yet classified. -/
def ConsumerLocation.unclassified : ConsumerLocation → Nat
  | .collect indices => indices.length
  | .collected indices => indices.length
  | .stage work _ => work.rest.length + 1
  | .exchange work => work.rest.length
  | .clock _ work => work.rest.length
  | _ => 0

def inFlight (queues : PoolRing → List Nat) (memory : Memory) (io : IoLocation)
    (consumer : ConsumerLocation) : Nat :=
  (queues .ready).length + consumer.unclassified + io.pending +
    memory.abandonedFrames.length

structure Accounted (queues : PoolRing → List Nat) (memory : Memory)
    (io : IoLocation) (consumer : ConsumerLocation) : Prop where
  counted : memory.receiver.stats.receivedPackets =
    memory.session.metrics.settled +
      UInt64.ofNat (inFlight queues memory io consumer)
  obtained : memory.receiver.stats.receivedPackets =
    UInt64.ofNat memory.obtained.length
  stage_ready : StageReady memory.session consumer.point
  balanced : Balanced memory.session consumer.point
  no_decode_errors : memory.session.metrics.decodeErrors = 0

section Steps

variable {queues nextQueues : PoolRing → List Nat} {memory after : Memory}
variable {io nextIo : IoLocation} {consumer nextConsumer : ConsumerLocation}

/-- A step that counts nothing moves frames from one kind of flight to another. -/
theorem accounted_of_moves (accounted : Accounted queues memory io consumer)
    (receiver : after.receiver.stats.receivedPackets =
      memory.receiver.stats.receivedPackets)
    (session : after.session = memory.session)
    (obtained : after.obtained = memory.obtained)
    (ready : StageReady memory.session nextConsumer.point)
    (opened : stageOpen nextConsumer.point = stageOpen consumer.point)
    (flight : inFlight nextQueues after nextIo nextConsumer =
      inFlight queues memory io consumer) :
    Accounted nextQueues after nextIo nextConsumer where
  counted := by
    rw [receiver, session, flight]
    exact accounted.counted
  obtained := by
    rw [receiver, obtained]
    exact accounted.obtained
  stage_ready := by
    rw [session]
    exact ready
  balanced := by
    unfold Engine.Balanced
    rw [session, opened]
    exact accounted.balanced
  no_decode_errors := by
    rw [session]
    exact accounted.no_decode_errors

/-- Frames come in: the receiver's counter and the flight grow together. -/
theorem accounted_received (frames : List RxFrame)
    (accounted : Accounted queues memory io consumer)
    (receiver : after.receiver.stats.receivedPackets =
      memory.receiver.stats.receivedPackets + UInt64.ofNat frames.length)
    (session : after.session = memory.session)
    (obtained : after.obtained = memory.obtained ++ frames)
    (flight : inFlight queues after nextIo consumer =
      inFlight queues memory io consumer + frames.length) :
    Accounted queues after nextIo consumer where
  counted := by
    rw [receiver, session, flight, accounted.counted, UInt64.ofNat_add,
      UInt64.add_assoc]
  obtained := by
    rw [receiver, obtained, accounted.obtained, List.length_append, UInt64.ofNat_add]
  stage_ready := by
    rw [session]
    exact accounted.stage_ready
  balanced := by
    rw [session]
    exact accounted.balanced
  no_decode_errors := by
    rw [session]
    exact accounted.no_decode_errors

/-- The I/O thread counts a frame of its batch as dropped. -/
theorem accounted_drop (accounted : Accounted queues memory io consumer)
    (flight : inFlight queues memory.dropOne nextIo consumer + 1 =
      inFlight queues memory io consumer) :
    Accounted queues memory.dropOne nextIo consumer where
  counted := by
    show memory.receiver.stats.receivedPackets =
      (memory.session.metrics.incDrops 1).settled + _
    rw [accounted.counted]
    refine Metrics.settled_takes_off _ 0 ?_ flight.symm (Nat.add_zero _).symm
    rw [Metrics.settled_inc_drops]
    exact UInt64.add_zero _
  obtained := accounted.obtained
  stage_ready := by
    have ready := accounted.stage_ready
    cases at_ : consumer.point with
    | none => trivial
    | some point =>
        rw [at_] at ready
        cases point <;> exact ready
  balanced := accounted.balanced
  no_decode_errors := accounted.no_decode_errors

theorem accounted_receive {site : Site} {indices : List Nat}
    {outcome : Receiver × RxResult}
    (accounted : Accounted queues memory (.receive site indices) consumer)
    (accounts : Receiver.Accounts indices.length memory.receiver outcome) :
    Accounted queues (receiveReturned memory site indices outcome).1
      (receiveReturned memory site indices outcome).2 consumer := by
  obtain ⟨receiver, result⟩ := outcome
  obtain ⟨packets, bounded⟩ := accounts
  cases result with
  | nothing =>
      exact accounted_of_moves accounted (packets.trans (UInt64.add_zero _)) rfl rfl
        accounted.stage_ready rfl rfl
  | failed =>
      exact accounted_of_moves accounted (packets.trans (UInt64.add_zero _)) rfl rfl
        accounted.stage_ready rfl rfl
  | frames first rest =>
      have length : (indices.zip (first :: rest)).length = (first :: rest).length := by
        rw [List.length_zip]
        exact Nat.min_eq_right bounded
      have seconds : (indices.zip (first :: rest)).map Prod.snd = first :: rest :=
        List.map_snd_zip bounded
      refine accounted_received (first :: rest) accounted packets rfl ?_ ?_
      · show memory.obtained ++ (indices.zip (first :: rest)).map Prod.snd = _
        rw [seconds]
      · show _ + _ + (indices.zip (first :: rest)).length + _ = _ + _ + 0 + _ + _
        rw [length]
        show _ + _ + _ + memory.abandonedFrames.length = _
        omega

/-- A push to the ready ring takes the frame along; a refused one leaves it with
the I/O thread. -/
theorem accounted_ready_push {idx : Nat} {batch : Publishing}
    (accounted : Accounted queues memory (.readyPush idx batch) consumer) :
    Accounted (fifoExec capacity queues (.push .ready idx)).1 memory
      (readyReturned idx batch (fifoExec capacity queues (.push .ready idx)).2)
      consumer := by
  simp only [fifoExec, fifoPush]
  split_ifs
  · refine accounted_of_moves accounted rfl rfl rfl accounted.stage_ready rfl ?_
    simp [inFlight, readyReturned, IoLocation.pending]
  · refine accounted_of_moves accounted rfl rfl rfl accounted.stage_ready rfl ?_
    simp only [inFlight, readyReturned, IoLocation.pending, ↓reduceIte,
      Function.update_self, List.length_append, List.length_singleton]
    omega

theorem accounted_free_push {idx : Nat}
    (accounted : Accounted queues memory io consumer)
    (pending : nextIo.pending = io.pending)
    (unclassified : nextConsumer.unclassified = consumer.unclassified)
    (point : nextConsumer.point = consumer.point) :
    Accounted (fifoExec capacity queues (.push .free idx)).1 memory nextIo
      nextConsumer := by
  refine accounted_of_moves accounted rfl rfl rfl ?_ (congrArg stageOpen point) ?_
  · rw [point]
    exact accounted.stage_ready
  · simp only [inFlight, fifoExec, pending, unclassified, ne_eq, reduceCtorEq,
      not_false_eq_true, Function.update_of_ne]

theorem accounted_reserve (capacity : Capacity) {site : Site} {indices : List Nat}
    (accounted : Accounted queues memory (.reserve site indices) consumer) :
    Accounted (fifoExec capacity queues (.pop .free)).1 memory
      (reserveReturned site indices (fifoExec capacity queues (.pop .free)).2)
      consumer := by
  refine accounted_of_moves accounted rfl rfl rfl accounted.stage_ready rfl ?_
  simp only [fifoExec, inFlight, ne_eq, reduceCtorEq, not_false_eq_true,
    Function.update_of_ne]
  cases queues .free <;> rfl

theorem accounted_publish {batch : Publishing}
    (accounted : Accounted queues memory (.publish batch) consumer) :
    Accounted queues memory (publishNext batch) consumer := by
  obtain ⟨receivedNs, frames, unused⟩ := batch
  refine accounted_of_moves accounted rfl rfl rfl accounted.stage_ready rfl ?_
  cases frames with
  | nil => rfl
  | cons entry rest =>
      obtain ⟨idx, frame⟩ := entry
      simp only [publishNext]
      split_ifs
      · rfl
      · rfl

theorem accounted_abandon {frames : List (Nat × RxFrame)} {unused : List Nat}
    (accounted : Accounted queues memory (.batchTest frames unused) consumer) :
    Accounted queues (memory.abandon frames unused) .loopTest consumer := by
  refine accounted_of_moves accounted rfl rfl rfl accounted.stage_ready rfl ?_
  simp only [inFlight, IoLocation.pending, Memory.abandon, List.length_append,
    List.length_map]
  omega

theorem accounted_io_step {input : Input}
    (accounted : Accounted queues memory io consumer)
    (step : queueStep capacity (ioAction io) queues memory input =
      some (nextQueues, after, nextIo)) :
    Accounted nextQueues after nextIo consumer := by
  have quiet : ∀ location : IoLocation, location.pending = io.pending →
      Accounted queues memory location consumer := by
    intro location same
    refine accounted_of_moves accounted rfl rfl rfl accounted.stage_ready rfl ?_
    unfold inFlight
    rw [same]
  cases io with
  | loopTest =>
      cases step
      cases memory.running <;> exact quiet _ rfl
  | reserve site indices =>
      simp only [ioAction] at step
      split_ifs at step
      · cases step
        exact accounted_reserve capacity accounted
      · cases step
        exact quiet _ rfl
  | reserved site indices =>
      cases step
      cases indices <;> exact quiet _ rfl
  | receive site indices =>
      obtain ⟨rfl, outcome, accounts, returned⟩ := receive_step_cases step
      have received := accounted_receive accounted accounts
      rw [returned] at received
      exact received
  | batchTest frames unused =>
      simp only [queueStep, actionStep, ioAction] at step
      split_ifs at step
      · cases step
        exact quiet _ rfl
      · cases step
        exact accounted_abandon accounted
  | clock frames unused =>
      cases input with
      | clock now =>
          cases step
          exact quiet _ rfl
      | _ => cases step
  | publish batch =>
      cases step
      exact accounted_publish accounted
  | stamp idx batch =>
      cases step
      exact accounted_of_moves accounted rfl rfl rfl accounted.stage_ready rfl rfl
  | readyPush idx batch =>
      cases step
      exact accounted_ready_push accounted
  | dropCount refused idx batch =>
      cases step
      refine accounted_drop accounted ?_
      show _ + _ + batch.frames.length + memory.abandonedFrames.length + 1 =
        _ + _ + (batch.frames.length + 1) + memory.abandonedFrames.length
      omega
  | dropClear refused idx batch =>
      cases step
      exact accounted_of_moves accounted rfl rfl rfl accounted.stage_ready rfl rfl
  | dropReturn refused idx batch =>
      cases step
      exact accounted_free_push accounted rfl rfl rfl
  | dropReturned ok batch =>
      cases step
      exact quiet _ rfl
  | release destination indices =>
      cases indices with
      | nil =>
          cases step
          cases destination <;> exact quiet _ rfl
      | cons idx rest =>
          cases step
          exact accounted_free_push accounted rfl rfl rfl
  | released ok destination indices =>
      cases step
      exact quiet _ rfl
  | epollErrorTest =>
      cases step
      cases memory.running <;> exact quiet _ rfl
  | drainErrorTest =>
      cases step
      cases memory.running <;> exact quiet _ rfl
  | lateErrorTest =>
      cases step
      cases memory.running <;> exact quiet _ rfl
  | errorStore =>
      cases step
      exact accounted_of_moves accounted rfl rfl rfl accounted.stage_ready rfl rfl
  | leave =>
      cases step
      exact accounted_of_moves accounted rfl rfl rfl accounted.stage_ready rfl rfl
  | finished => cases step

/-! ## The consumer thread -/

theorem accounted_collect (capacity : Capacity) {indices : List Nat}
    (accounted : Accounted queues memory io (.collect indices)) :
    Accounted (fifoExec capacity queues (.pop .ready)).1 memory io
      (collectReturned indices (fifoExec capacity queues (.pop .ready)).2) := by
  simp only [fifoExec]
  cases ready : queues .ready with
  | nil =>
      rw [← ready, pop_unchanged ready, ready]
      exact accounted_of_moves accounted rfl rfl rfl accounted.stage_ready rfl rfl
  | cons idx rest =>
      refine accounted_of_moves accounted rfl rfl rfl accounted.stage_ready rfl ?_
      simp only [inFlight, ready, fifoPop, collectReturned,
        ConsumerLocation.unclassified, Function.update_self, List.length_append,
        List.length_cons, List.length_nil]
      omega

/-- The stage keeps its frame in flight until the step that counts it. -/
theorem accounted_stage {work : Working} {point : StagePoint}
    (accounted : Accounted queues memory io (.stage work point)) :
    Accounted queues (stageNext order work point memory).1 io
      (stageNext order work point memory).2 := by
  have settles := stage_step_settles order (memory.slots work.idx) memory.session point
  have later : (stageNext order work point memory).2.unclassified =
      work.rest.length + (stageStep order (memory.slots work.idx) memory.session
        point).2.toList.length := by
    simp only [stageNext]
    cases (stageStep order (memory.slots work.idx) memory.session point).2 <;> rfl
  have samePoint : (stageNext order work point memory).2.point =
      (stageStep order (memory.slots work.idx) memory.session point).2 := by
    simp only [stageNext]
    cases (stageStep order (memory.slots work.idx) memory.session point).2 <;> rfl
  refine ⟨?_, accounted.obtained, ?_, ?_, ?_⟩
  · show memory.receiver.stats.receivedPackets = _
    rw [accounted.counted]
    refine Metrics.settled_takes_off ((queues .ready).length + work.rest.length +
      io.pending + memory.abandonedFrames.length) _ settles ?_ ?_
    · simp only [inFlight, ConsumerLocation.unclassified]
      omega
    · unfold inFlight
      rw [later]
      simp only [stageNext]
      omega
  · rw [samePoint]
    exact stage_step_ready accounted.stage_ready
  · rw [samePoint]
    exact stage_step_balanced accounted.stage_ready accounted.balanced
  · exact (stage_step_decode_errors accounted.stage_ready).trans
      accounted.no_decode_errors

theorem accounted_consumer_step {input : Input}
    (accounted : Accounted queues memory io consumer)
    (step : queueStep capacity (consumerAction order consumer) queues memory input =
      some (nextQueues, after, nextConsumer)) :
    Accounted nextQueues after io nextConsumer := by
  have quiet : ∀ location : ConsumerLocation,
      location.unclassified = consumer.unclassified →
      location.point = consumer.point → Accounted queues memory io location := by
    intro location same point
    refine accounted_of_moves accounted rfl rfl rfl ?_ (congrArg stageOpen point) ?_
    · rw [point]
      exact accounted.stage_ready
    · unfold inFlight
      rw [same]
  cases consumer with
  | loopTest =>
      cases step
      cases memory.running <;> exact quiet _ rfl rfl
  | emptyTest =>
      cases step
      show Accounted queues memory io (emptyReturned (queues .ready).isEmpty)
      cases (queues .ready).isEmpty <;> exact quiet _ rfl rfl
  | collect indices =>
      simp only [consumerAction] at step
      split_ifs at step
      · cases step
        exact accounted_collect capacity accounted
      · cases step
        exact quiet _ rfl rfl
  | collected indices =>
      cases step
      cases indices with
      | nil => exact quiet _ rfl rfl
      | cons idx rest => exact accounted_of_moves accounted rfl rfl rfl trivial rfl rfl
  | stage work point =>
      cases step
      exact accounted_stage accounted
  | exchange work =>
      cases step
      exact accounted_of_moves accounted rfl rfl rfl accounted.stage_ready rfl rfl
  | clock startNs work =>
      cases input with
      | clock now =>
          cases step
          obtain ⟨latencies, recorded⟩ := record_latency_eq memory work.idx startNs now
          rw [recorded]
          obtain ⟨done, idx, rest⟩ := work
          cases rest with
          | nil => exact accounted_of_moves accounted rfl rfl rfl trivial rfl rfl
          | cons next rest =>
              exact accounted_of_moves accounted rfl rfl rfl trivial rfl rfl
      | _ => cases step
  | recycle indices =>
      cases indices with
      | nil =>
          cases step
          exact quiet _ rfl rfl
      | cons idx rest =>
          cases step
          exact accounted_free_push accounted rfl rfl rfl
  | recycled ok indices =>
      cases step
      exact quiet _ rfl rfl
  | leave =>
      cases step
      exact accounted_of_moves accounted rfl rfl rfl accounted.stage_ready rfl rfl
  | finished => cases step

end Steps

/-! ## Whole runs -/

def StateAccounted (state : QueueState order capacity) : Prop :=
  Accounted state.queue state.memory state.io state.consumer

theorem accounted_start {state : QueueState order capacity} (start : QueueStart state) :
    StateAccounted state := by
  obtain ⟨-, ready, ⟨slots, memory⟩, io, consumer, -⟩ := start
  unfold StateAccounted
  rw [memory, io, consumer]
  refine ⟨?_, rfl, trivial, rfl, rfl⟩
  unfold inFlight
  rw [ready]
  rfl

theorem accounted_step {state next : QueueState order capacity}
    {label : Thread × Input} (accounted : StateAccounted state)
    (taken : atomicStep (program order) state label = some next) :
    StateAccounted next := by
  unfold StateAccounted at accounted ⊢
  cases moves_of_step taken with
  | io step consumer _ =>
      rw [consumer]
      exact accounted_io_step accounted step
  | consumer step io _ =>
      rw [io]
      exact accounted_consumer_step accounted step
  | control step io consumer =>
      obtain ⟨queues, session, stats, obtained, -, frames, -⟩ := control_step_frame step
      rw [queues, io, consumer]
      refine accounted_of_moves accounted (by rw [stats]) session obtained
        accounted.stage_ready rfl ?_
      unfold inFlight
      rw [frames]

theorem accounted_of_reaches {state : QueueState order capacity}
    (reached : Reaches (queueSystem order capacity) state) : StateAccounted state := by
  refine invariant_of_step ?_ ?_ reached
  · exact fun _ start => accounted_start start
  · intro state label next _ accounted _ taken
    exact accounted_step accounted taken

/-- As long as `running_` has not been cleared, every received packet is counted
once or in flight, no decode error is counted, a received message is processed or
dropped by its sequence number unless it is being classified, and no push fails. -/
theorem running_counters_balance (order : ByteOrder)
    (state : QueueState order kPoolCapacity)
    (reached : Reaches (queueSystem order kPoolCapacity) state)
    (running : state.memory.running = true) :
    state.memory.receiver.stats.receivedPackets =
        state.memory.session.metrics.processed + state.memory.session.metrics.drops +
          state.memory.session.metrics.decodeErrors +
          UInt64.ofNat ((state.queue .ready).length + state.consumer.unclassified +
            state.io.pending) ∧
      state.memory.session.metrics.decodeErrors = 0 ∧
      state.memory.session.metrics.received =
        state.memory.session.metrics.processed +
          UInt64.ofNat state.memory.session.sequenceDrops +
          stageOpen state.consumer.point ∧
      state.io.pushFailed = false ∧ state.consumer.pushFailed = false := by
  have accounted := accounted_of_reaches reached
  have owned := owned_of_reaches reached
  refine ⟨?_, accounted.no_decode_errors, accounted.balanced, owned.io_pushed,
    owned.consumer_pushed⟩
  have counted := accounted.counted
  unfold inFlight at counted
  rw [(owned.kept running).2] at counted
  exact counted

/-- The engine over atomic queues right after `init`; the first reservation is
spelled out. -/
def freshQueues : QueueState .little kPoolCapacity where
  shared
    | .free => List.range 32 ++ (List.range 16352).map (32 + ·)
    | .ready => ([] : List Nat)
  memory := startMemory fun _ => Vector.replicate kWireSize 0
  location
    | .io => IoLocation.loopTest
    | .consumer => ConsumerLocation.loopTest
    | .control => ControlLocation.clearRunning

theorem fresh_queues_start : QueueStart freshQueues := by
  refine ⟨?_, rfl, ⟨_, rfl⟩, rfl, rfl, rfl⟩
  show List.range 32 ++ (List.range 16352).map (32 + ·) = List.range (32 + 16352)
  exact List.range_add.symm

/-- One frame is received, published, popped and counted as received. -/
def oneFrameRun : Option (QueueState .little kPoolCapacity) :=
  runLabels (queueSystem .little kPoolCapacity) freshQueues
    (ticks .io 35 ++ oneFrame ++ ticks .io 1 ++ clockRead .io 5 ++ ticks .io 4 ++
      ticks .consumer 6)

theorem counters_balance_inside_stage :
    ∃ state, oneFrameRun = some state ∧
      state.memory.receiver.stats.receivedPackets = 1 ∧
      state.memory.session.metrics.received =
        state.memory.session.metrics.processed +
          UInt64.ofNat state.memory.session.sequenceDrops + 1 := by
  have outcome : oneFrameRun.map (fun state => (state.memory.running,
      state.memory.receiver.stats.receivedPackets, stageOpen state.consumer.point)) =
      some (true, 1, 1) := by
    decide +kernel
  obtain ⟨state, run, facts⟩ := Option.map_eq_some_iff.mp outcome
  obtain ⟨running, packets, opened⟩ : state.memory.running = true ∧
      state.memory.receiver.stats.receivedPackets = 1 ∧
      stageOpen state.consumer.point = 1 := by
    simpa only [Prod.mk.injEq] using facts
  have balance := running_counters_balance .little state
    (reaches_run (reaches_start fresh_queues_start) run) running
  refine ⟨state, run, packets, ?_⟩
  rw [← opened]
  exact balance.2.2.1

end MarketDataEngine.EngineV2
