import MarketDataEngine.EngineV2Model

/-!
# Slot ownership in engine v2 over atomic queues

Every index has one place: a ring, the I/O thread's reservation, the consumer's
batch, or, once `running_` has been cleared, the batch that the I/O thread
abandoned. As long as ring operations are atomic, no push can then fail.
-/

namespace MarketDataEngine.EngineV2

open MarketDataEngine.Protocol MarketDataEngine.Containers MarketDataEngine.Engine
open MarketDataEngine.Net MarketDataEngine.TransitionSystem
open MarketDataEngine.SteppedObject

set_option autoImplicit false

variable {order : ByteOrder} {capacity : Capacity}

def Publishing.held (batch : Publishing) : List Nat :=
  batch.frames.map Prod.fst ++ batch.unused

def Working.held (work : Working) : List Nat := work.done ++ work.idx :: work.rest

namespace IoLocation

/-- The reserved indices that the I/O thread still has to publish or return. -/
def held : IoLocation → List Nat
  | .reserve _ indices => indices
  | .reserved _ indices => indices
  | .receive _ indices => indices
  | .batchTest frames unused => frames.map Prod.fst ++ unused
  | .clock frames unused => frames.map Prod.fst ++ unused
  | .publish batch => batch.held
  | .stamp idx batch => idx :: batch.held
  | .readyPush idx batch => idx :: batch.held
  | .dropCount _ idx batch => idx :: batch.held
  | .dropClear _ idx batch => idx :: batch.held
  | .dropReturn _ idx batch => idx :: batch.held
  | .dropReturned _ batch => batch.held
  | .release _ indices => indices
  | .released _ _ indices => indices
  | _ => []

/-- A push of this thread has returned false. -/
def pushFailed : IoLocation → Bool
  | .dropCount refused _ _ => refused
  | .dropClear refused _ _ => refused
  | .dropReturn refused _ _ => refused
  | .dropReturned ok _ => !ok
  | .released ok _ _ => !ok
  | _ => false

end IoLocation

namespace ConsumerLocation

/-- The indices popped from the ready ring and not yet recycled. -/
def held : ConsumerLocation → List Nat
  | .collect indices => indices
  | .collected indices => indices
  | .stage work _ => work.held
  | .exchange work => work.held
  | .clock _ work => work.held
  | .recycle indices => indices
  | .recycled _ indices => indices
  | _ => []

def pushFailed : ConsumerLocation → Bool
  | .recycled ok _ => !ok
  | _ => false

end ConsumerLocation

def places (queues : PoolRing → List Nat) (memory : Memory) (io : IoLocation)
    (consumer : ConsumerLocation) : List Nat :=
  queues .free ++ queues .ready ++ io.held ++ consumer.held ++
    memory.abandonedIndices

structure Owned (capacity : Capacity) (queues : PoolRing → List Nat)
    (memory : Memory) (io : IoLocation) (consumer : ConsumerLocation) : Prop where
  placed : (places queues memory io consumer).Perm (List.range capacity.val)
  io_pushed : io.pushFailed = false
  consumer_pushed : consumer.pushFailed = false
  kept : memory.running = true →
    memory.abandonedIndices = [] ∧ memory.abandonedFrames = []

section Steps

variable {queues : PoolRing → List Nat} {memory : Memory}
variable {io : IoLocation} {consumer : ConsumerLocation}

theorem places_length (owned : Owned capacity queues memory io consumer) :
    (queues .free).length + (queues .ready).length + io.held.length +
      consumer.held.length ≤ capacity.val := by
  have length := owned.placed.length_eq
  simp only [places, List.length_append, List.length_range] at length
  omega

/-- What a step has to show: it only moves indices between places, its pushes
succeed, and it abandons nothing while the engine runs. -/
theorem owned_of_step {nextQueues : PoolRing → List Nat} {after : Memory}
    {nextIo : IoLocation} {nextConsumer : ConsumerLocation}
    (owned : Owned capacity queues memory io consumer)
    (moved : (places nextQueues after nextIo nextConsumer).Perm
      (places queues memory io consumer))
    (ioPushed : nextIo.pushFailed = false)
    (consumerPushed : nextConsumer.pushFailed = false)
    (kept : after.running = true → memory.running = true ∧
      after.abandonedIndices = memory.abandonedIndices ∧
      after.abandonedFrames = memory.abandonedFrames) :
    Owned capacity nextQueues after nextIo nextConsumer where
  placed := moved.trans owned.placed
  io_pushed := ioPushed
  consumer_pushed := consumerPushed
  kept := by
    intro running
    obtain ⟨before, indices, frames⟩ := kept running
    rw [indices, frames]
    exact owned.kept before

/-- A step of the I/O thread that leaves the rings alone. -/
theorem owned_io_quiet {after : Memory} {next : IoLocation}
    (owned : Owned capacity queues memory io consumer)
    (held : next.held = io.held) (pushed : next.pushFailed = false)
    (indices : after.abandonedIndices = memory.abandonedIndices)
    (frames : after.abandonedFrames = memory.abandonedFrames)
    (running : after.running = true → memory.running = true) :
    Owned capacity queues after next consumer := by
  refine owned_of_step owned ?_ pushed owned.consumer_pushed ?_
  · unfold places
    rw [held, indices]
  · exact fun runs => ⟨running runs, indices, frames⟩

theorem pop_unchanged {name : PoolRing} (empty : queues name = []) :
    Function.update queues name (fifoPop (queues name)).1 = queues := by
  have same : (fifoPop (queues name)).1 = queues name := by
    rw [empty]
    rfl
  rw [same]
  exact Function.update_eq_self _ _

/-- A push has room as long as some index is in a hand. -/
theorem push_has_room (name : PoolRing)
    (owned : Owned capacity queues memory io consumer)
    (held : 0 < io.held.length + consumer.held.length) :
    ¬ (queues name).length = capacity.val := by
  have lengths := places_length owned
  cases name <;> omega

theorem owned_reserve {site : Site} {indices : List Nat}
    (owned : Owned capacity queues memory (.reserve site indices) consumer) :
    Owned capacity (fifoExec capacity queues (.pop .free)).1 memory
      (reserveReturned site indices (fifoExec capacity queues (.pop .free)).2)
      consumer := by
  simp only [fifoExec]
  cases free : queues .free with
  | nil =>
      rw [← free, pop_unchanged free, free]
      exact owned_io_quiet owned rfl rfl rfl rfl id
  | cons idx rest =>
      refine owned_of_step owned (List.perm_iff_count.mpr fun value => ?_) rfl
        owned.consumer_pushed (fun runs => ⟨runs, rfl, rfl⟩)
      simp only [places, free, fifoPop, reserveReturned, IoLocation.held,
        Function.update_self, ne_eq, reduceCtorEq, not_false_eq_true,
        Function.update_of_ne, List.count_append, List.count_cons, List.count_nil]
      omega

theorem owned_ready_push {idx : Nat} {batch : Publishing}
    (owned : Owned capacity queues memory (.readyPush idx batch) consumer) :
    Owned capacity (fifoExec capacity queues (.push .ready idx)).1 memory
      (readyReturned idx batch (fifoExec capacity queues (.push .ready idx)).2)
      consumer := by
  have room := push_has_room .ready owned
    (by simp only [IoLocation.held, List.length_cons]; omega)
  simp only [fifoExec, fifoPush, if_neg room]
  refine owned_of_step owned (List.perm_iff_count.mpr fun value => ?_) rfl
    owned.consumer_pushed (fun runs => ⟨runs, rfl, rfl⟩)
  simp only [places, readyReturned, IoLocation.held, ↓reduceIte,
    Function.update_self, ne_eq, reduceCtorEq, not_false_eq_true,
    Function.update_of_ne, List.count_append, List.count_cons, List.count_nil]
  omega

/-- The I/O thread pushes an index of its own back to the free ring. -/
theorem owned_io_free_push {idx : Nat} {rest : List Nat}
    (returned : Bool → IoLocation)
    (owned : Owned capacity queues memory io consumer)
    (before : io.held = idx :: rest) (after : (returned true).held = rest)
    (pushed : (returned true).pushFailed = false) :
    Owned capacity (fifoExec capacity queues (.push .free idx)).1 memory
      (returned (fifoExec capacity queues (.push .free idx)).2) consumer := by
  have room := push_has_room .free owned
    (by rw [before, List.length_cons]; omega)
  simp only [fifoExec, fifoPush, if_neg room]
  refine owned_of_step owned (List.perm_iff_count.mpr fun value => ?_) pushed
    owned.consumer_pushed (fun runs => ⟨runs, rfl, rfl⟩)
  simp only [places, before, after, Function.update_self, ne_eq, reduceCtorEq,
    not_false_eq_true, Function.update_of_ne, List.count_append, List.count_cons,
    List.count_nil]
  omega

/-- Frames are received into the first reserved indices; the others stay. -/
theorem received_indices {indices : List Nat} {frames : List RxFrame}
    (bounded : frames.length ≤ indices.length) :
    (indices.zip frames).map Prod.fst ++ indices.drop frames.length = indices := by
  induction frames generalizing indices with
  | nil => simp
  | cons frame frames ih =>
      cases indices with
      | nil => simp at bounded
      | cons idx rest =>
          simp only [List.zip_cons_cons, List.map_cons, List.length_cons,
            List.drop_succ_cons, List.cons_append]
          rw [ih (Nat.le_of_succ_le_succ bounded)]

theorem owned_receive {site : Site} {indices : List Nat}
    {outcome : Receiver × RxResult}
    (owned : Owned capacity queues memory (.receive site indices) consumer)
    (bounded : outcome.2.received.length ≤ indices.length) :
    Owned capacity queues (receiveReturned memory site indices outcome).1
      (receiveReturned memory site indices outcome).2 consumer := by
  obtain ⟨receiver, result⟩ := outcome
  cases result with
  | nothing => exact owned_io_quiet owned rfl rfl rfl rfl id
  | failed => exact owned_io_quiet owned rfl rfl rfl rfl id
  | frames first rest =>
      exact owned_io_quiet owned (received_indices bounded) rfl rfl rfl id

theorem owned_publish {batch : Publishing}
    (owned : Owned capacity queues memory (.publish batch) consumer) :
    Owned capacity queues memory (publishNext batch) consumer := by
  obtain ⟨receivedNs, frames, unused⟩ := batch
  cases frames with
  | nil => exact owned_io_quiet owned rfl rfl rfl rfl id
  | cons entry rest =>
      obtain ⟨idx, frame⟩ := entry
      simp only [publishNext]
      split_ifs
      · exact owned_io_quiet owned rfl rfl rfl rfl id
      · exact owned_io_quiet owned rfl rfl rfl rfl id

theorem owned_batch_test {frames : List (Nat × RxFrame)} {unused : List Nat}
    (owned : Owned capacity queues memory (.batchTest frames unused) consumer)
    (stopped : ¬ memory.running = true) :
    Owned capacity queues (memory.abandon frames unused) .loopTest consumer := by
  refine owned_of_step owned (List.perm_iff_count.mpr fun value => ?_) rfl
    owned.consumer_pushed (fun runs => absurd runs stopped)
  simp only [places, IoLocation.held, Memory.abandon, List.append_nil,
    List.count_append]
  omega

theorem owned_io_step {input : Input} {nextQueues : PoolRing → List Nat}
    {after : Memory} {next : IoLocation}
    (owned : Owned capacity queues memory io consumer)
    (step : queueStep capacity (ioAction io) queues memory input =
      some (nextQueues, after, next)) :
    Owned capacity nextQueues after next consumer := by
  have quiet : ∀ location : IoLocation, location.held = io.held →
      location.pushFailed = false → Owned capacity queues memory location consumer :=
    fun _ held pushed => owned_io_quiet owned held pushed rfl rfl id
  cases io with
  | loopTest =>
      cases step
      cases memory.running <;> exact quiet _ rfl rfl
  | reserve site indices =>
      simp only [ioAction] at step
      split_ifs at step
      · cases step
        exact owned_reserve owned
      · cases step
        exact quiet _ rfl rfl
  | reserved site indices =>
      cases step
      cases indices <;> exact quiet _ rfl rfl
  | receive site indices =>
      obtain ⟨rfl, outcome, accounts, returned⟩ := receive_step_cases step
      have received := owned_receive owned accounts.2
      rw [returned] at received
      exact received
  | batchTest frames unused =>
      simp only [queueStep, actionStep, ioAction] at step
      split_ifs at step with running
      · cases step
        exact quiet _ rfl rfl
      · cases step
        exact owned_batch_test owned running
  | clock frames unused =>
      cases input with
      | clock now =>
          cases step
          exact quiet _ rfl rfl
      | _ => cases step
  | publish batch =>
      cases step
      exact owned_publish owned
  | stamp idx batch =>
      cases step
      exact owned_io_quiet owned rfl rfl rfl rfl id
  | readyPush idx batch =>
      cases step
      exact owned_ready_push owned
  | dropCount refused idx batch =>
      cases step
      exact owned_io_quiet owned rfl owned.io_pushed rfl rfl id
  | dropClear refused idx batch =>
      cases step
      exact owned_io_quiet owned rfl owned.io_pushed rfl rfl id
  | dropReturn refused idx batch =>
      cases step
      exact owned_io_free_push (fun ok => .dropReturned ok batch) owned rfl rfl rfl
  | dropReturned ok batch =>
      cases step
      exact quiet _ rfl rfl
  | release destination indices =>
      cases indices with
      | nil =>
          cases step
          cases destination <;> exact quiet _ rfl rfl
      | cons idx rest =>
          cases step
          exact owned_io_free_push (fun ok => .released ok destination rest) owned rfl
            rfl rfl
  | released ok destination indices =>
      cases step
      exact quiet _ rfl rfl
  | epollErrorTest =>
      cases step
      cases memory.running <;> exact quiet _ rfl rfl
  | drainErrorTest =>
      cases step
      cases memory.running <;> exact quiet _ rfl rfl
  | lateErrorTest =>
      cases step
      cases memory.running <;> exact quiet _ rfl rfl
  | errorStore =>
      cases step
      exact owned_io_quiet owned rfl rfl rfl rfl (fun runs => absurd runs Bool.false_ne_true)
  | leave =>
      cases step
      exact owned_io_quiet owned rfl rfl rfl rfl id
  | finished => cases step

/-! ## The consumer thread -/

theorem owned_consumer_quiet {after : Memory} {next : ConsumerLocation}
    (owned : Owned capacity queues memory io consumer)
    (held : next.held = consumer.held) (pushed : next.pushFailed = false)
    (indices : after.abandonedIndices = memory.abandonedIndices)
    (frames : after.abandonedFrames = memory.abandonedFrames)
    (running : after.running = memory.running) :
    Owned capacity queues after io next := by
  refine owned_of_step owned ?_ owned.io_pushed pushed ?_
  · unfold places
    rw [held, indices]
  · exact fun runs => ⟨running ▸ runs, indices, frames⟩

theorem owned_collect {indices : List Nat}
    (owned : Owned capacity queues memory io (.collect indices)) :
    Owned capacity (fifoExec capacity queues (.pop .ready)).1 memory io
      (collectReturned indices (fifoExec capacity queues (.pop .ready)).2) := by
  simp only [fifoExec]
  cases ready : queues .ready with
  | nil =>
      rw [← ready, pop_unchanged ready, ready]
      exact owned_consumer_quiet owned rfl rfl rfl rfl rfl
  | cons idx rest =>
      refine owned_of_step owned (List.perm_iff_count.mpr fun value => ?_)
        owned.io_pushed rfl (fun runs => ⟨runs, rfl, rfl⟩)
      simp only [places, ready, fifoPop, collectReturned, ConsumerLocation.held,
        Function.update_self, ne_eq, reduceCtorEq, not_false_eq_true,
        Function.update_of_ne, List.count_append, List.count_cons, List.count_nil]
      omega

theorem owned_recycle {idx : Nat} {rest : List Nat}
    (owned : Owned capacity queues memory io (.recycle (idx :: rest))) :
    Owned capacity (fifoExec capacity queues (.push .free idx)).1 memory io
      (.recycled (fifoExec capacity queues (.push .free idx)).2 rest) := by
  have room := push_has_room .free owned
    (by simp only [ConsumerLocation.held, List.length_cons]; omega)
  simp only [fifoExec, fifoPush, if_neg room]
  refine owned_of_step owned (List.perm_iff_count.mpr fun value => ?_)
    owned.io_pushed rfl (fun runs => ⟨runs, rfl, rfl⟩)
  simp only [places, ConsumerLocation.held, Function.update_self, ne_eq, reduceCtorEq,
    not_false_eq_true, Function.update_of_ne, List.count_append, List.count_cons,
    List.count_nil]
  omega

theorem work_next_held (work : Working) :
    (workNext work).held = work.held ∧ (workNext work).pushFailed = false := by
  obtain ⟨done, idx, rest⟩ := work
  cases rest with
  | nil => exact ⟨rfl, rfl⟩
  | cons next rest => exact ⟨List.append_assoc _ _ _, rfl⟩

theorem record_latency_eq (memory : Memory) (idx : Nat) (startNs endNs : UInt64) :
    ∃ latencies, recordLatency memory idx startNs endNs =
      { memory with latencies := latencies } := by
  unfold recordLatency
  split_ifs
  · exact ⟨_, rfl⟩
  · exact ⟨memory.latencies, rfl⟩

theorem owned_consumer_step {input : Input} {nextQueues : PoolRing → List Nat}
    {after : Memory} {next : ConsumerLocation}
    (owned : Owned capacity queues memory io consumer)
    (step : queueStep capacity (consumerAction order consumer) queues memory input =
      some (nextQueues, after, next)) :
    Owned capacity nextQueues after io next := by
  have quiet : ∀ location : ConsumerLocation, location.held = consumer.held →
      location.pushFailed = false → Owned capacity queues memory io location :=
    fun _ held pushed => owned_consumer_quiet owned held pushed rfl rfl rfl
  cases consumer with
  | loopTest =>
      cases step
      cases memory.running <;> exact quiet _ rfl rfl
  | emptyTest =>
      cases step
      show Owned capacity queues memory io (emptyReturned (queues .ready).isEmpty)
      cases (queues .ready).isEmpty <;> exact quiet _ rfl rfl
  | collect indices =>
      simp only [consumerAction] at step
      split_ifs at step
      · cases step
        exact owned_collect owned
      · cases step
        exact quiet _ rfl rfl
  | collected indices =>
      cases step
      cases indices <;> exact quiet _ rfl rfl
  | stage work point =>
      cases step
      simp only [stageNext]
      cases (stageStep order (memory.slots work.idx) memory.session point).2 <;>
        exact owned_consumer_quiet owned rfl rfl rfl rfl rfl
  | exchange work =>
      cases step
      exact owned_consumer_quiet owned rfl rfl rfl rfl rfl
  | clock startNs work =>
      cases input with
      | clock now =>
          cases step
          obtain ⟨held, pushed⟩ := work_next_held work
          obtain ⟨latencies, recorded⟩ := record_latency_eq memory work.idx startNs now
          rw [recorded]
          exact owned_consumer_quiet owned held pushed rfl rfl rfl
      | _ => cases step
  | recycle indices =>
      cases indices with
      | nil =>
          cases step
          exact quiet _ rfl rfl
      | cons idx rest =>
          cases step
          exact owned_recycle owned
  | recycled ok indices =>
      cases step
      exact quiet _ rfl rfl
  | leave =>
      cases step
      exact owned_consumer_quiet owned rfl rfl rfl rfl rfl
  | finished => cases step

end Steps

/-! ## Whole runs -/

def StateOwned (state : QueueState order capacity) : Prop :=
  Owned capacity state.queue state.memory state.io state.consumer

theorem owned_start {state : QueueState order capacity} (start : QueueStart state) :
    StateOwned state := by
  obtain ⟨free, ready, ⟨slots, memory⟩, io, consumer, -⟩ := start
  unfold StateOwned
  rw [memory, io, consumer]
  refine ⟨?_, rfl, rfl, fun _ => ⟨rfl, rfl⟩⟩
  unfold places
  rw [free, ready]
  simp [IoLocation.held, ConsumerLocation.held, startMemory]

/-- `stop()` clears the flag and closes the receiver, and changes nothing else. -/
theorem control_step_eq {queues nextQueues : PoolRing → List Nat}
    {memory after : Memory} {control next : ControlLocation} {input : Input}
    (step : queueStep capacity (controlAction control) queues memory input =
      some (nextQueues, after, next)) :
    nextQueues = queues ∧ ∃ running receiver,
      after = { memory with running := running, receiver := receiver } ∧
        receiver.stats = memory.receiver.stats ∧
        (running = true → memory.running = true) := by
  cases control with
  | clearRunning =>
      cases step
      exact ⟨rfl, false, memory.receiver, rfl, rfl,
        fun runs => absurd runs Bool.false_ne_true⟩
  | closeReceiver =>
      cases step
      exact ⟨rfl, memory.running, memory.receiver.close, rfl, rfl, id⟩
  | joinIo =>
      simp only [queueStep, actionStep, controlAction] at step
      split_ifs at step
      · cases step
        exact ⟨rfl, memory.running, memory.receiver, rfl, rfl, id⟩
      · cases step
  | joinConsumer =>
      simp only [queueStep, actionStep, controlAction] at step
      split_ifs at step
      · cases step
        exact ⟨rfl, memory.running, memory.receiver, rfl, rfl, id⟩
      · cases step
  | returned => cases step

theorem control_step_frame {queues nextQueues : PoolRing → List Nat}
    {memory after : Memory} {control next : ControlLocation} {input : Input}
    (step : queueStep capacity (controlAction control) queues memory input =
      some (nextQueues, after, next)) :
    nextQueues = queues ∧ after.session = memory.session ∧
      after.receiver.stats = memory.receiver.stats ∧
      after.obtained = memory.obtained ∧
      after.abandonedIndices = memory.abandonedIndices ∧
      after.abandonedFrames = memory.abandonedFrames ∧
      (after.running = true → memory.running = true) := by
  obtain ⟨queues, running, receiver, rfl, stats, runs⟩ := control_step_eq step
  exact ⟨queues, rfl, stats, rfl, rfl, rfl, runs⟩

theorem owned_step {state next : QueueState order capacity} {label : Thread × Input}
    (owned : StateOwned state)
    (taken : atomicStep (program order) state label = some next) :
    StateOwned next := by
  unfold StateOwned at owned ⊢
  cases moves_of_step taken with
  | io step consumer _ =>
      rw [consumer]
      exact owned_io_step owned step
  | consumer step io _ =>
      rw [io]
      exact owned_consumer_step owned step
  | control step io consumer =>
      obtain ⟨queues, -, -, -, indices, frames, running⟩ := control_step_frame step
      rw [queues, io, consumer]
      exact owned_io_quiet owned rfl owned.io_pushed indices frames running

theorem owned_of_reaches {state : QueueState order capacity}
    (reached : Reaches (queueSystem order capacity) state) : StateOwned state := by
  refine invariant_of_step ?_ ?_ reached
  · exact fun _ start => owned_start start
  · intro state label next _ owned _ taken
    exact owned_step owned taken

end MarketDataEngine.EngineV2
