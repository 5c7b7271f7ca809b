import MarketDataEngine.EngineShutdown
import MarketDataEngine.LatencyHistogram
import MarketDataEngine.ReporterJoin

/-!
# Engine v2: `stop()` returns

Once `running_` is cleared nobody sets it again. The I/O thread then finishes the batch it is
publishing, reserves and receives at most once more, and leaves; the consumer empties the ready
ring and leaves; the reporter ends a report it is in, and leaves when its timer next fires. Every
step of any thread is paid for: by the location of its thread, and by the frames that the consumer
will still find. An operation on a ring is one step.
-/

namespace MarketDataEngine.EngineV2

open MarketDataEngine.Protocol MarketDataEngine.Containers MarketDataEngine.Engine
open MarketDataEngine.Net MarketDataEngine.TransitionSystem
open MarketDataEngine.SteppedObject

set_option autoImplicit false

variable {order : ByteOrder} {capacity : Capacity}

/-! ## What is left to do -/

/-- A whole `reserve_frames`, a receive and a release of the frames. -/
def kReserveSteps : Nat := 3 * kBatch + 8

/-- The steps behind a release, of `kReserveSteps` for the next round of the inner loop. -/
def AfterRelease.steps : AfterRelease → Nat
  | .resume => 2
  | .epollFailed => 3
  | .drainFailed => 4
  | .published => kReserveSteps

/-- A frame takes at most seven steps to publish, an unused index two to give back. -/
def Publishing.steps (batch : Publishing) : Nat :=
  7 * batch.frames.length + 2 * batch.unused.length + kReserveSteps + 2

/-- The steps the I/O thread may still take with `running_` cleared. -/
def IoLocation.steps : IoLocation → Nat
  | .loopTest => 2
  | .reserve _ indices => (kBatch - indices.length) + 2 * max indices.length kBatch + 8
  | .reserved _ indices => 2 * indices.length + 7
  | .receive _ indices => 2 * indices.length + 6
  | .batchTest _ _ => 3
  | .clock frames unused => 7 * frames.length + 2 * unused.length + kReserveSteps + 3
  | .publish batch => batch.steps
  | .stamp _ batch => batch.steps + 6
  | .readyPush _ batch => batch.steps + 5
  | .dropCount _ _ batch => batch.steps + 4
  | .dropClear _ _ batch => batch.steps + 3
  | .dropReturn _ _ batch => batch.steps + 2
  | .dropReturned _ batch => batch.steps + 1
  | .release after indices => 2 * indices.length + 1 + after.steps
  | .released _ after indices => 2 * indices.length + 2 + after.steps
  | .epollErrorTest => 3
  | .drainErrorTest => 4
  | .lateErrorTest => 3
  | .errorStore => 2
  | .leave => 1
  | .finished => 0

/-- The frames the I/O thread may still push to the ready ring. -/
def IoLocation.ahead : IoLocation → Nat
  | .clock frames _ => frames.length
  | .publish batch => batch.frames.length
  | .stamp _ batch => batch.frames.length + 1
  | .readyPush _ batch => batch.frames.length + 1
  | .dropCount _ _ batch => batch.frames.length
  | .dropClear _ _ batch => batch.frames.length
  | .dropReturn _ _ batch => batch.frames.length
  | .dropReturned _ batch => batch.frames.length
  | _ => 0

/-- Giving back a batch, the current index included, and taking the others through the stage. -/
def Working.steps (work : Working) : Nat :=
  2 * (work.done.length + 1) + 8 * work.rest.length + 4

/-- The steps the consumer may still take but for the frames that wait for it. An empty batch
with frames waiting is paid for by the first of them. -/
def ConsumerLocation.steps (waiting : Nat) : ConsumerLocation → Nat
  | .loopTest => 3
  | .emptyTest => 2
  | .collect [] => if waiting = 0 then 6 else 1
  | .collect (_ :: rest) => 8 * (rest.length + 1) + 6
  | .collected indices => 8 * indices.length + 5
  | .stage work point => point.steps + work.steps + 2
  | .exchange work => work.steps + 2
  | .clock _ work => work.steps + 1
  | .recycle indices => 2 * indices.length + 4
  | .recycled _ indices => 2 * indices.length + 5
  | .leave => 1
  | .finished => 0

def ControlLocation.steps : ControlLocation → Nat
  | .clearRunning => 4
  | .closeReceiver => 3
  | .joinIo => 2
  | .joinConsumer => 1
  | .returned => 0

/-- What a frame costs the consumer. -/
def kFrameSteps : Nat := 14

/-! ## Every step is paid for -/

section Steps

variable {queues nextQueues : PoolRing → List Nat} {memory after : Memory} {input : Input}

/-- What a step of the I/O thread does once `running_` is cleared. -/
structure IoPaid (queues nextQueues : PoolRing → List Nat) (after : Memory)
    (io next : IoLocation) : Prop where
  stopped : after.running = false
  less : next.steps < io.steps
  frames : (nextQueues .ready).length + next.ahead ≤ (queues .ready).length + io.ahead
  grows : (queues .ready).length ≤ (nextQueues .ready).length

/-- A step that leaves the ready ring alone. -/
theorem io_paid_quiet {io next : IoLocation} (stopped : after.running = false)
    (ready : nextQueues .ready = queues .ready) (less : next.steps < io.steps)
    (ahead : next.ahead ≤ io.ahead) : IoPaid queues nextQueues after io next := by
  constructor
  · exact stopped
  · exact less
  · rw [ready]
    exact Nat.add_le_add_left ahead _
  · rw [ready]

/-- A receive of frames is followed by the test that finds `running_` cleared. -/
theorem receive_paid {site : Site} {indices : List Nat} {next : IoLocation}
    {outcome : Receiver × RxResult}
    (returned : receiveReturned memory site indices outcome = (after, next)) :
    after.running = memory.running ∧ next.ahead = 0 ∧
      next.steps < 2 * indices.length + 6 := by
  obtain ⟨receiver, result⟩ := outcome
  cases result with
  | nothing =>
      cases returned
      refine ⟨rfl, rfl, ?_⟩
      simp only [IoLocation.steps, AfterRelease.steps]
      omega
  | failed =>
      cases site with
      | outer =>
          cases returned
          refine ⟨rfl, rfl, ?_⟩
          simp only [IoLocation.steps, AfterRelease.steps]
          omega
      | drain =>
          cases returned
          refine ⟨rfl, rfl, ?_⟩
          simp only [IoLocation.steps, AfterRelease.steps]
          omega
  | frames first rest =>
      cases returned
      refine ⟨rfl, rfl, ?_⟩
      simp only [IoLocation.steps]
      omega

theorem publish_paid (batch : Publishing) :
    (publishNext batch).steps < batch.steps ∧
      (publishNext batch).ahead ≤ batch.frames.length := by
  obtain ⟨ns, frames, unused⟩ := batch
  cases frames with
  | nil =>
      refine ⟨?_, Nat.le_refl 0⟩
      simp only [publishNext, IoLocation.steps, AfterRelease.steps, Publishing.steps,
        List.length_nil]
      omega
  | cons entry rest =>
      simp only [publishNext]
      split_ifs
      · refine ⟨?_, Nat.le_succ _⟩
        simp only [IoLocation.steps, Publishing.steps, List.length_cons]
        omega
      · refine ⟨?_, Nat.le_refl _⟩
        simp only [IoLocation.steps, Publishing.steps, List.length_cons]
        omega

theorem release_next_paid (destination : AfterRelease) :
    (releaseNext destination).steps < 1 + destination.steps ∧
      (releaseNext destination).ahead = 0 := by
  cases destination with
  | _ => decide

/-- A push to the ready ring moves a frame from the I/O thread to the consumer, or fails. -/
theorem ready_push_paid {idx : Nat} {batch : Publishing} {next : IoLocation}
    (stopped : memory.running = false)
    (step : queueStep capacity (ioAction (.readyPush idx batch)) queues memory input =
      some (nextQueues, after, next)) :
    IoPaid queues nextQueues after (.readyPush idx batch) next := by
  have cases_ : nextQueues = queues ∧ after = memory ∧ next = .dropCount true idx batch ∨
      nextQueues = Function.update queues .ready (queues .ready ++ [idx]) ∧ after = memory ∧
        next = .publish batch := by
    simp only [queueStep, actionStep, ioAction, fifoObject, fifoExec, fifoPush] at step
    split_ifs at step
    · cases step
      exact .inl ⟨Function.update_eq_self _ _, rfl, rfl⟩
    · cases step
      exact .inr ⟨rfl, rfl, rfl⟩
  rcases cases_ with ⟨rfl, rfl, rfl⟩ | ⟨rfl, rfl, rfl⟩
  · exact io_paid_quiet stopped rfl (Nat.lt_succ_self _) (Nat.le_succ _)
  · constructor
    · exact stopped
    · exact Nat.lt_add_of_pos_right (Nat.succ_pos 4)
    · rw [Function.update_self, List.length_append]
      simp only [IoLocation.ahead, List.length_singleton]
      omega
    · rw [Function.update_self, List.length_append]
      exact Nat.le_add_right _ _

theorem io_paid {io next : IoLocation} (stopped : memory.running = false)
    (step : queueStep capacity (ioAction io) queues memory input =
      some (nextQueues, after, next)) :
    IoPaid queues nextQueues after io next := by
  cases io with
  | loopTest =>
      cases step
      rw [stopped, if_neg Bool.false_ne_true]
      exact io_paid_quiet stopped rfl (Nat.lt_succ_self 1) (Nat.zero_le _)
  | reserve site indices =>
      simp only [ioAction] at step
      split_ifs at step with room
      · cases step
        show IoPaid _ _ _ _ (reserveReturned site indices (fifoPop (queues .free)).2)
        cases (fifoPop (queues .free)).2 with
        | none =>
            refine io_paid_quiet stopped rfl ?_ (Nat.zero_le _)
            simp only [reserveReturned, IoLocation.steps]
            omega
        | some idx =>
            refine io_paid_quiet stopped rfl ?_ (Nat.zero_le _)
            simp only [reserveReturned, IoLocation.steps, List.length_append,
              List.length_singleton]
            omega
      · cases step
        refine io_paid_quiet stopped rfl ?_ (Nat.zero_le _)
        simp only [IoLocation.steps]
        omega
  | reserved site indices =>
      cases step
      cases indices with
      | nil =>
          exact io_paid_quiet stopped rfl
            (Nat.lt_of_lt_of_le (Nat.lt_succ_self 2) (Nat.le_add_left 3 4)) (Nat.zero_le _)
      | cons idx rest =>
          exact io_paid_quiet stopped rfl (Nat.lt_succ_self _) (Nat.zero_le _)
  | receive site indices =>
      obtain ⟨rfl, outcome, -, returned⟩ := receive_step_cases step
      obtain ⟨running, ahead, less⟩ := receive_paid returned
      exact io_paid_quiet (running.trans stopped) rfl less (Nat.le_of_eq ahead)
  | batchTest frames unused =>
      simp only [queueStep, actionStep, ioAction, stopped, Bool.false_eq_true, if_false] at step
      cases step
      exact io_paid_quiet stopped rfl (Nat.lt_succ_self 2) (Nat.zero_le _)
  | clock frames unused =>
      cases input with
      | clock now =>
          cases step
          exact io_paid_quiet stopped rfl (Nat.lt_succ_self _) (Nat.le_refl _)
      | _ => cases step
  | publish batch =>
      cases step
      obtain ⟨less, ahead⟩ := publish_paid batch
      exact io_paid_quiet stopped rfl less ahead
  | stamp idx batch =>
      cases step
      exact io_paid_quiet stopped rfl (Nat.lt_succ_self _) (Nat.le_refl _)
  | readyPush idx batch => exact ready_push_paid stopped step
  | dropCount refused idx batch =>
      cases step
      exact io_paid_quiet stopped rfl (Nat.lt_succ_self _) (Nat.le_refl _)
  | dropClear refused idx batch =>
      cases step
      exact io_paid_quiet stopped rfl (Nat.lt_succ_self _) (Nat.le_refl _)
  | dropReturn refused idx batch =>
      cases step
      exact io_paid_quiet stopped rfl (Nat.lt_succ_self _) (Nat.le_refl _)
  | dropReturned ok batch =>
      cases step
      exact io_paid_quiet stopped rfl (Nat.lt_succ_self _) (Nat.le_refl _)
  | release destination indices =>
      cases indices with
      | nil =>
          cases step
          obtain ⟨less, ahead⟩ := release_next_paid destination
          exact io_paid_quiet stopped rfl less (Nat.le_of_eq ahead)
      | cons idx rest =>
          cases step
          refine io_paid_quiet stopped rfl ?_ (Nat.zero_le _)
          simp only [IoLocation.steps, List.length_cons]
          omega
  | released ok destination indices =>
      cases step
      refine io_paid_quiet stopped rfl ?_ (Nat.zero_le _)
      simp only [IoLocation.steps]
      omega
  | epollErrorTest =>
      cases step
      rw [stopped, if_neg Bool.false_ne_true]
      exact io_paid_quiet stopped rfl (Nat.le_succ 2) (Nat.zero_le _)
  | drainErrorTest =>
      cases step
      rw [stopped, if_neg Bool.false_ne_true]
      exact io_paid_quiet stopped rfl (Nat.lt_succ_self 3) (Nat.zero_le _)
  | lateErrorTest =>
      cases step
      rw [stopped, if_neg Bool.false_ne_true]
      exact io_paid_quiet stopped rfl (Nat.lt_succ_self 2) (Nat.zero_le _)
  | errorStore =>
      cases step
      exact io_paid_quiet rfl rfl (Nat.lt_succ_self 1) (Nat.zero_le _)
  | leave =>
      cases step
      exact io_paid_quiet stopped rfl Nat.zero_lt_one (Nat.le_refl _)
  | finished => cases step

/-- What a step of the consumer does once `running_` is cleared. -/
structure ConsumerPaid (queues nextQueues : PoolRing → List Nat) (after : Memory)
    (consumer next : ConsumerLocation) : Prop where
  stopped : after.running = false
  less : kFrameSteps * (nextQueues .ready).length + next.steps (nextQueues .ready).length <
    kFrameSteps * (queues .ready).length + consumer.steps (queues .ready).length

theorem consumer_paid_quiet {consumer next : ConsumerLocation} (stopped : after.running = false)
    (ready : nextQueues .ready = queues .ready)
    (less : next.steps (queues .ready).length < consumer.steps (queues .ready).length) :
    ConsumerPaid queues nextQueues after consumer next := by
  constructor
  · exact stopped
  · rw [ready]
    exact Nat.add_lt_add_left less _

/-- A pop moves a frame into the batch; the first one of a batch pays for the batch. -/
theorem collect_paid {indices : List Nat} {next : ConsumerLocation}
    (stopped : memory.running = false)
    (step : queueStep capacity (consumerAction order (.collect indices)) queues memory input =
      some (nextQueues, after, next)) :
    ConsumerPaid queues nextQueues after (.collect indices) next := by
  simp only [consumerAction] at step
  split_ifs at step with room
  · simp only [queueStep, actionStep, fifoObject, fifoExec] at step
    cases step
    cases waiting : queues .ready with
    | nil =>
        have same : Function.update queues .ready (fifoPop []).1 = queues := by
          rw [← waiting]
          exact pop_unchanged waiting
        rw [same]
        refine consumer_paid_quiet stopped rfl ?_
        rw [waiting]
        cases indices with
        | nil => exact Nat.lt_succ_self 5
        | cons idx rest => exact Nat.lt_succ_self _
    | cons idx rest =>
        refine ⟨stopped, ?_⟩
        rw [Function.update_self, waiting]
        cases indices with
        | nil =>
            simp only [fifoPop, collectReturned, List.nil_append, ConsumerLocation.steps,
              kFrameSteps, List.length_cons, List.length_nil, Nat.add_one_ne_zero, if_false]
            omega
        | cons first others =>
            simp only [fifoPop, collectReturned, List.cons_append, ConsumerLocation.steps,
              kFrameSteps, List.length_cons, List.length_append, List.length_nil]
            omega
  · cases step
    refine consumer_paid_quiet stopped rfl ?_
    cases indices with
    | nil => exact absurd (by decide) room
    | cons idx rest => exact Nat.lt_succ_self _

theorem stage_paid {work : Working} {point : StagePoint} (waiting : Nat) :
    (stageNext order work point memory).2.steps waiting < point.steps + work.steps + 2 := by
  simp only [stageNext]
  cases more : (stageStep order (memory.slots work.idx) memory.session point).2 with
  | some later =>
      have fewer := stage_step_fewer more
      simp only [ConsumerLocation.steps]
      omega
  | none =>
      have positive := (stage_steps_bounds point).1
      simp only [ConsumerLocation.steps]
      omega

theorem work_next_paid (work : Working) (waiting : Nat) :
    (workNext work).steps waiting < work.steps + 1 := by
  obtain ⟨done, idx, rest⟩ := work
  cases rest with
  | nil =>
      simp only [workNext, ConsumerLocation.steps, Working.steps, List.length_append,
        List.length_singleton, List.length_nil]
      omega
  | cons next others =>
      simp only [workNext, ConsumerLocation.steps, Working.steps, StagePoint.steps,
        List.length_append, List.length_cons, List.length_nil]
      omega

theorem consumer_paid {consumer next : ConsumerLocation} (stopped : memory.running = false)
    (step : queueStep capacity (consumerAction order consumer) queues memory input =
      some (nextQueues, after, next)) :
    ConsumerPaid queues nextQueues after consumer next := by
  cases consumer with
  | loopTest =>
      cases step
      rw [stopped, if_neg Bool.false_ne_true]
      exact consumer_paid_quiet stopped rfl (Nat.lt_succ_self 2)
  | emptyTest =>
      cases step
      show ConsumerPaid queues queues memory _ (emptyReturned (queues .ready).isEmpty)
      cases waiting : queues .ready with
      | nil => exact consumer_paid_quiet stopped rfl (Nat.lt_succ_self 1)
      | cons idx rest =>
          refine consumer_paid_quiet stopped rfl ?_
          rw [waiting]
          exact Nat.lt_succ_self 1
  | collect indices => exact collect_paid stopped step
  | collected indices =>
      cases step
      cases indices with
      | nil =>
          refine consumer_paid_quiet stopped rfl ?_
          simp only [collectedNext, ConsumerLocation.steps, List.length_nil]
          omega
      | cons idx rest =>
          refine consumer_paid_quiet stopped rfl ?_
          simp only [collectedNext, ConsumerLocation.steps, Working.steps, StagePoint.steps,
            List.length_cons, List.length_nil]
          omega
  | stage work point =>
      cases step
      exact consumer_paid_quiet stopped rfl (stage_paid _)
  | exchange work =>
      cases step
      exact consumer_paid_quiet stopped rfl (Nat.lt_succ_self _)
  | clock startNs work =>
      cases input with
      | clock now =>
          cases step
          obtain ⟨latencies, recorded⟩ := record_latency_eq memory work.idx startNs now
          rw [recorded]
          exact consumer_paid_quiet stopped rfl (work_next_paid work (queues .ready).length)
      | _ => cases step
  | recycle indices =>
      cases indices with
      | nil =>
          cases step
          exact consumer_paid_quiet stopped rfl (Nat.lt_succ_self 3)
      | cons idx rest =>
          cases step
          refine consumer_paid_quiet stopped rfl ?_
          simp only [ConsumerLocation.steps, List.length_cons]
          omega
  | recycled ok indices =>
      cases step
      exact consumer_paid_quiet stopped rfl (Nat.lt_succ_self _)
  | leave =>
      cases step
      exact consumer_paid_quiet stopped rfl Nat.zero_lt_one
  | finished => cases step

/-- `stop()` takes its steps one after another. -/
theorem control_paid {control next : ControlLocation}
    (step : queueStep capacity (controlAction control) queues memory input =
      some (nextQueues, after, next)) :
    next.steps < control.steps ∧ after.ioDone = memory.ioDone ∧
      after.consumerDone = memory.consumerDone := by
  cases control with
  | clearRunning =>
      cases step
      exact ⟨Nat.lt_succ_self 3, rfl, rfl⟩
  | closeReceiver =>
      cases step
      exact ⟨Nat.lt_succ_self 2, rfl, rfl⟩
  | joinIo =>
      simp only [queueStep, actionStep, controlAction] at step
      split_ifs at step
      · cases step
        exact ⟨Nat.lt_succ_self 1, rfl, rfl⟩
      · cases step
  | joinConsumer =>
      simp only [queueStep, actionStep, controlAction] at step
      split_ifs at step
      · cases step
        exact ⟨Nat.lt_succ_self 0, rfl, rfl⟩
      · cases step
  | returned => cases step

/-- `stop()` gets behind a join only when the thread is through. -/
theorem control_joins {control next : ControlLocation}
    (step : queueStep capacity (controlAction control) queues memory input =
      some (nextQueues, after, next)) :
    (next.steps ≤ 1 → memory.ioDone = true ∨ control.steps ≤ 1) ∧
      (next.steps = 0 → memory.consumerDone = true) := by
  cases control with
  | clearRunning =>
      cases step
      constructor
      · exact fun joined => absurd joined (show ¬ 3 ≤ 1 by decide)
      · exact fun joined => absurd joined (show ¬ 3 = 0 by decide)
  | closeReceiver =>
      cases step
      constructor
      · exact fun joined => absurd joined (show ¬ 2 ≤ 1 by decide)
      · exact fun joined => absurd joined (show ¬ 2 = 0 by decide)
  | joinIo =>
      simp only [queueStep, actionStep, controlAction] at step
      split_ifs at step with done
      · cases step
        exact ⟨fun _ => .inl done, fun joined => absurd joined (show ¬ 1 = 0 by decide)⟩
      · cases step
  | joinConsumer =>
      simp only [queueStep, actionStep, controlAction] at step
      split_ifs at step with done
      · cases step
        exact ⟨fun _ => .inr (Nat.le_refl 1), fun _ => done⟩
      · cases step
  | returned => cases step

theorem io_steps_le {io : IoLocation} (few : io.held.length ≤ kBatch) :
    io.steps + 14 * io.ahead ≤ 779 := by
  cases io with
  | release destination indices =>
      have later : destination.steps ≤ 104 := by
        cases destination with
        | _ => decide
      simp only [IoLocation.held, kBatch] at few
      simp only [IoLocation.steps, IoLocation.ahead]
      omega
  | released ok destination indices =>
      have later : destination.steps ≤ 104 := by
        cases destination with
        | _ => decide
      simp only [IoLocation.held, kBatch] at few
      simp only [IoLocation.steps, IoLocation.ahead]
      omega
  | _ =>
      simp only [IoLocation.held, Publishing.held, kBatch, List.length_cons, List.length_append,
        List.length_map] at few
      simp only [IoLocation.steps, IoLocation.ahead, Publishing.steps, kReserveSteps, kBatch]
      omega

theorem consumer_steps_le {consumer : ConsumerLocation} (few : consumer.held.length ≤ kBatch)
    (waiting : Nat) : consumer.steps waiting ≤ 262 := by
  cases consumer with
  | collect indices =>
      cases indices with
      | nil =>
          simp only [ConsumerLocation.steps]
          split_ifs
          · decide
          · decide
      | cons idx rest =>
          simp only [ConsumerLocation.held, kBatch, List.length_cons] at few
          simp only [ConsumerLocation.steps]
          omega
  | stage work point =>
      have last := (stage_steps_bounds point).2
      simp only [ConsumerLocation.held, Working.held, kBatch, List.length_append,
        List.length_cons] at few
      simp only [ConsumerLocation.steps, Working.steps]
      omega
  | _ =>
      simp only [ConsumerLocation.held, Working.held, kBatch, List.length_append,
        List.length_cons] at few
      simp only [ConsumerLocation.steps, Working.steps]
      omega

/-- The I/O thread can always go on until it is through. -/
theorem io_moves (queues : PoolRing → List Nat) (memory : Memory) {io : IoLocation}
    (working : io.done = false) :
    ∃ input, (queueStep capacity (ioAction io) queues memory input).isSome = true := by
  cases io with
  | finished => cases working
  | reserve site indices =>
      refine ⟨.tick, ?_⟩
      simp only [ioAction]
      split_ifs <;> rfl
  | receive site indices =>
      cases site with
      | outer =>
          refine ⟨.epoll true [.timeout] [], ?_⟩
          simp only [queueStep, actionStep, ioAction, Receiver.epollReceive]
          split_ifs <;> rfl
      | drain =>
          refine ⟨.recv [.again], ?_⟩
          simp only [queueStep, actionStep, ioAction, Receiver.receiveBatch]
          split_ifs <;> rfl
  | batchTest frames unused =>
      refine ⟨.tick, ?_⟩
      simp only [queueStep, actionStep, ioAction]
      split_ifs <;> rfl
  | clock frames unused => exact ⟨.clock 0, rfl⟩
  | release destination indices =>
      cases indices with
      | _ => exact ⟨.tick, rfl⟩
  | _ => exact ⟨.tick, rfl⟩

theorem consumer_moves (queues : PoolRing → List Nat) (memory : Memory)
    {consumer : ConsumerLocation} (working : consumer.done = false) :
    ∃ input, (queueStep capacity (consumerAction order consumer) queues memory input).isSome =
      true := by
  cases consumer with
  | finished => cases working
  | collect indices =>
      refine ⟨.tick, ?_⟩
      simp only [consumerAction]
      split_ifs <;> rfl
  | clock startNs work => exact ⟨.clock 0, rfl⟩
  | recycle indices =>
      cases indices with
      | _ => exact ⟨.tick, rfl⟩
  | _ => exact ⟨.tick, rfl⟩

/-- Frames that come for a consumer cost nothing but what was put by for them. -/
theorem consumer_steps_antitone (consumer : ConsumerLocation) {fewer more : Nat}
    (le : fewer ≤ more) : consumer.steps more ≤ consumer.steps fewer := by
  cases consumer with
  | collect indices =>
      cases indices with
      | nil =>
          simp only [ConsumerLocation.steps]
          split_ifs
          · exact Nat.le_refl _
          · omega
          · omega
          · exact Nat.le_refl _
      | cons idx rest => exact Nat.le_refl _
  | _ => exact Nat.le_refl _

/-- What every step of the I/O thread keeps: at most `kBatch` indices in its hands, and the word
about its end. -/
structure IoKept (memory after : Memory) (io next : IoLocation) : Prop where
  few : io.held.length ≤ kBatch → next.held.length ≤ kBatch
  io_done : memory.ioDone = io.done → after.ioDone = next.done
  consumer_done : after.consumerDone = memory.consumerDone

theorem io_kept_quiet {io next : IoLocation} (held : next.held.length ≤ io.held.length)
    (flags : after.ioDone = memory.ioDone ∧ after.consumerDone = memory.consumerDone)
    (still : io.done = false) (later : next.done = false) : IoKept memory after io next := by
  constructor
  · exact held.trans
  · intro known
    rw [flags.1, known, still, later]
  · exact flags.2

theorem receive_kept {site : Site} {indices : List Nat} {next : IoLocation}
    {outcome : Receiver × RxResult} (few : outcome.2.received.length ≤ indices.length)
    (returned : receiveReturned memory site indices outcome = (after, next)) :
    IoKept memory after (.receive site indices) next := by
  obtain ⟨receiver, result⟩ := outcome
  cases result with
  | nothing =>
      cases returned
      exact io_kept_quiet (Nat.le_refl _) ⟨rfl, rfl⟩ rfl rfl
  | failed =>
      cases returned
      exact io_kept_quiet (Nat.le_refl _) ⟨rfl, rfl⟩ rfl rfl
  | frames first rest =>
      cases returned
      refine io_kept_quiet ?_ ⟨rfl, rfl⟩ rfl rfl
      exact Nat.le_of_eq (congrArg List.length (received_indices few))

theorem publish_kept (batch : Publishing) :
    IoKept memory memory (.publish batch) (publishNext batch) := by
  obtain ⟨ns, frames, unused⟩ := batch
  cases frames with
  | nil => exact io_kept_quiet (Nat.le_refl _) ⟨rfl, rfl⟩ rfl rfl
  | cons entry rest =>
      simp only [publishNext]
      split_ifs
      · exact io_kept_quiet (Nat.le_refl _) ⟨rfl, rfl⟩ rfl rfl
      · exact io_kept_quiet (Nat.le_refl _) ⟨rfl, rfl⟩ rfl rfl

theorem io_kept {io next : IoLocation}
    (step : queueStep capacity (ioAction io) queues memory input =
      some (nextQueues, after, next)) : IoKept memory after io next := by
  cases io with
  | loopTest =>
      cases step
      cases memory.running with
      | _ => exact io_kept_quiet (Nat.le_refl _) ⟨rfl, rfl⟩ rfl rfl
  | reserve site indices =>
      simp only [ioAction] at step
      split_ifs at step with room
      · cases step
        show IoKept memory memory _ (reserveReturned site indices (fifoPop (queues .free)).2)
        cases (fifoPop (queues .free)).2 with
        | none => exact io_kept_quiet (Nat.le_refl _) ⟨rfl, rfl⟩ rfl rfl
        | some idx =>
            refine ⟨fun _ => ?_, id, rfl⟩
            simp only [reserveReturned, IoLocation.held, List.length_append,
              List.length_singleton]
            exact room
      · cases step
        exact io_kept_quiet (Nat.le_refl _) ⟨rfl, rfl⟩ rfl rfl
  | reserved site indices =>
      cases step
      cases indices with
      | _ => exact io_kept_quiet (Nat.le_refl _) ⟨rfl, rfl⟩ rfl rfl
  | receive site indices =>
      obtain ⟨-, outcome, accounts, returned⟩ := receive_step_cases step
      exact receive_kept accounts.2 returned
  | batchTest frames unused =>
      simp only [queueStep, actionStep, ioAction] at step
      split_ifs at step
      · cases step
        exact io_kept_quiet (Nat.le_refl _) ⟨rfl, rfl⟩ rfl rfl
      · cases step
        exact io_kept_quiet (Nat.zero_le _) ⟨rfl, rfl⟩ rfl rfl
  | clock frames unused =>
      cases input with
      | clock now =>
          cases step
          exact io_kept_quiet (Nat.le_refl _) ⟨rfl, rfl⟩ rfl rfl
      | _ => cases step
  | publish batch =>
      cases step
      exact publish_kept batch
  | readyPush idx batch =>
      cases step
      show IoKept memory memory _ (readyReturned idx batch _)
      unfold readyReturned
      split_ifs
      · exact io_kept_quiet (Nat.le_succ _) ⟨rfl, rfl⟩ rfl rfl
      · exact io_kept_quiet (Nat.le_refl _) ⟨rfl, rfl⟩ rfl rfl
  | stamp idx batch
  | dropCount refused idx batch
  | dropClear refused idx batch
  | dropReturned ok batch
  | released ok destination indices =>
      cases step
      exact io_kept_quiet (Nat.le_refl _) ⟨rfl, rfl⟩ rfl rfl
  | dropReturn refused idx batch =>
      cases step
      exact io_kept_quiet (Nat.le_succ _) ⟨rfl, rfl⟩ rfl rfl
  | release destination indices =>
      cases indices with
      | nil =>
          cases step
          cases destination with
          | _ => exact io_kept_quiet (Nat.le_refl _) ⟨rfl, rfl⟩ rfl rfl
      | cons idx rest =>
          cases step
          exact io_kept_quiet (Nat.le_succ _) ⟨rfl, rfl⟩ rfl rfl
  | epollErrorTest | drainErrorTest | lateErrorTest =>
      cases step
      cases memory.running with
      | _ => exact io_kept_quiet (Nat.le_refl _) ⟨rfl, rfl⟩ rfl rfl
  | errorStore =>
      cases step
      exact io_kept_quiet (Nat.le_refl _) ⟨rfl, rfl⟩ rfl rfl
  | leave =>
      cases step
      exact ⟨fun _ => Nat.zero_le _, fun _ => rfl, rfl⟩
  | finished => cases step

structure ConsumerKept (memory after : Memory) (consumer next : ConsumerLocation) : Prop where
  few : consumer.held.length ≤ kBatch → next.held.length ≤ kBatch
  consumer_done : memory.consumerDone = consumer.done → after.consumerDone = next.done
  io_done : after.ioDone = memory.ioDone

theorem consumer_kept_quiet {consumer next : ConsumerLocation}
    (held : next.held.length ≤ consumer.held.length)
    (flags : after.consumerDone = memory.consumerDone ∧ after.ioDone = memory.ioDone)
    (still : consumer.done = false) (later : next.done = false) :
    ConsumerKept memory after consumer next := by
  constructor
  · exact held.trans
  · intro known
    rw [flags.1, known, still, later]
  · exact flags.2

theorem consumer_kept {consumer next : ConsumerLocation}
    (step : queueStep capacity (consumerAction order consumer) queues memory input =
      some (nextQueues, after, next)) : ConsumerKept memory after consumer next := by
  cases consumer with
  | loopTest =>
      cases step
      cases memory.running with
      | _ => exact consumer_kept_quiet (Nat.le_refl _) ⟨rfl, rfl⟩ rfl rfl
  | emptyTest =>
      cases step
      show ConsumerKept memory memory _ (emptyReturned (queues .ready).isEmpty)
      cases (queues .ready).isEmpty with
      | _ => exact consumer_kept_quiet (Nat.le_refl _) ⟨rfl, rfl⟩ rfl rfl
  | collect indices =>
      simp only [consumerAction] at step
      split_ifs at step with room
      · cases step
        show ConsumerKept memory memory _ (collectReturned indices (fifoPop (queues .ready)).2)
        cases (fifoPop (queues .ready)).2 with
        | none => exact consumer_kept_quiet (Nat.le_refl _) ⟨rfl, rfl⟩ rfl rfl
        | some idx =>
            refine ⟨fun _ => ?_, id, rfl⟩
            simp only [collectReturned, ConsumerLocation.held, List.length_append,
              List.length_singleton]
            exact room
      · cases step
        exact consumer_kept_quiet (Nat.le_refl _) ⟨rfl, rfl⟩ rfl rfl
  | collected indices =>
      cases step
      cases indices with
      | _ => exact consumer_kept_quiet (Nat.le_refl _) ⟨rfl, rfl⟩ rfl rfl
  | stage work point =>
      cases step
      simp only [stageNext]
      cases (stageStep order (memory.slots work.idx) memory.session point).2 with
      | _ => exact consumer_kept_quiet (Nat.le_refl _) ⟨rfl, rfl⟩ rfl rfl
  | exchange work =>
      cases step
      exact consumer_kept_quiet (Nat.le_refl _) ⟨rfl, rfl⟩ rfl rfl
  | clock startNs work =>
      cases input with
      | clock now =>
          cases step
          obtain ⟨latencies, recorded⟩ := record_latency_eq memory work.idx startNs now
          rw [recorded]
          obtain ⟨done, idx, rest⟩ := work
          cases rest with
          | nil => exact consumer_kept_quiet (Nat.le_refl _) ⟨rfl, rfl⟩ rfl rfl
          | cons other others =>
              refine consumer_kept_quiet ?_ ⟨rfl, rfl⟩ rfl rfl
              simp [workNext, ConsumerLocation.held, Working.held]
      | _ => cases step
  | recycle indices =>
      cases indices with
      | nil =>
          cases step
          exact consumer_kept_quiet (Nat.le_refl _) ⟨rfl, rfl⟩ rfl rfl
      | cons idx rest =>
          cases step
          exact consumer_kept_quiet (Nat.le_succ _) ⟨rfl, rfl⟩ rfl rfl
  | recycled ok indices =>
      cases step
      exact consumer_kept_quiet (Nat.le_refl _) ⟨rfl, rfl⟩ rfl rfl
  | leave =>
      cases step
      exact ⟨fun _ => Nat.zero_le _, fun _ => rfl, rfl⟩
  | finished => cases step

end Steps

/-! ## The whole engine -/

namespace QueueState

def stepsLeft (state : QueueState order capacity) : Nat :=
  state.io.steps + kFrameSteps * ((state.queue .ready).length + state.io.ahead) +
    state.consumer.steps (state.queue .ready).length + state.control.steps

end QueueState

/-- The hands are small, the threads that are through have said so, and `stop()` has waited for
them. -/
structure StopKnown (state : QueueState order capacity) : Prop where
  io_few : state.io.held.length ≤ kBatch
  consumer_few : state.consumer.held.length ≤ kBatch
  io_done : state.memory.ioDone = state.io.done
  consumer_done : state.memory.consumerDone = state.consumer.done
  joined_io : state.control.steps ≤ 1 → state.memory.ioDone = true
  joined_consumer : state.control.steps = 0 → state.memory.consumerDone = true

theorem io_done_stays {queues nextQueues : PoolRing → List Nat} {memory after : Memory}
    {input : Input} {io next : IoLocation} (known : memory.ioDone = io.done)
    (step : queueStep capacity (ioAction io) queues memory input =
      some (nextQueues, after, next)) : memory.ioDone = false := by
  rw [known]
  cases io with
  | finished => cases step
  | _ => rfl

theorem stop_known_start {state : QueueState order capacity} (start : QueueStart state) :
    StopKnown state := by
  obtain ⟨-, -, ⟨slots, memory⟩, io, consumer, control⟩ := start
  constructor
  · rw [io]
    exact Nat.zero_le _
  · rw [consumer]
    exact Nat.zero_le _
  · rw [memory, io]
    rfl
  · rw [memory, consumer]
    rfl
  · rw [control]
    exact fun joined => absurd joined (by decide)
  · rw [control]
    exact fun joined => absurd joined (by decide)

theorem stop_known_step {state next : QueueState order capacity} {label : Thread × Input}
    (known : StopKnown state) (taken : atomicStep (program order) state label = some next) :
    StopKnown next := by
  cases moves_of_step taken with
  | io step consumer control =>
      obtain ⟨few, ioDone, consumerDone⟩ := io_kept step
      have before := io_done_stays known.io_done step
      constructor
      · exact few known.io_few
      · rw [consumer]
        exact known.consumer_few
      · exact ioDone known.io_done
      · rw [consumerDone, consumer]
        exact known.consumer_done
      · rw [control]
        intro joined
        rw [known.joined_io joined] at before
        cases before
      · rw [control, consumerDone]
        exact known.joined_consumer
  | consumer step io control =>
      obtain ⟨few, consumerDone, ioDone⟩ := consumer_kept step
      constructor
      · rw [io]
        exact known.io_few
      · exact few known.consumer_few
      · rw [ioDone, io]
        exact known.io_done
      · exact consumerDone known.consumer_done
      · rw [control, ioDone]
        exact known.joined_io
      · rw [control]
        intro joined
        have finished := known.joined_consumer joined
        rw [known.consumer_done] at finished
        rw [ConsumerLocation.eq_finished finished] at step
        cases step
  | control step io consumer =>
      obtain ⟨-, ioDone, consumerDone⟩ := control_paid step
      obtain ⟨joinedIo, joinedConsumer⟩ := control_joins step
      constructor
      · rw [io]
        exact known.io_few
      · rw [consumer]
        exact known.consumer_few
      · rw [ioDone, io]
        exact known.io_done
      · rw [consumerDone, consumer]
        exact known.consumer_done
      · intro joined
        rw [ioDone]
        exact (joinedIo joined).elim id known.joined_io
      · intro joined
        rw [consumerDone]
        exact joinedConsumer joined

theorem stop_known_of_reaches {state : QueueState order capacity}
    (reached : Reaches (queueSystem order capacity) state) : StopKnown state := by
  apply invariant_of_step _ _ reached
  · intro state start
    exact stop_known_start start
  · intro state label next prior known allowed taken
    exact stop_known_step known taken

theorem stopped_step {state next : QueueState order capacity} {label : Thread × Input}
    (stopped : state.memory.running = false)
    (taken : atomicStep (program order) state label = some next) :
    next.memory.running = false ∧ next.stepsLeft < state.stepsLeft := by
  unfold QueueState.stepsLeft
  cases moves_of_step taken with
  | io step consumer control =>
      obtain ⟨running, less, frames, grows⟩ := io_paid stopped step
      refine ⟨running, ?_⟩
      rw [consumer, control]
      have kept := consumer_steps_antitone state.consumer grows
      have paid := Nat.mul_le_mul_left kFrameSteps frames
      omega
  | consumer step io control =>
      obtain ⟨running, less⟩ := consumer_paid stopped step
      refine ⟨running, ?_⟩
      rw [io, control, Nat.mul_add, Nat.mul_add]
      omega
  | control step io consumer =>
      obtain ⟨less, -, -⟩ := control_paid step
      obtain ⟨queues, -, -, -, -, -, running⟩ := control_step_frame step
      refine ⟨?_, ?_⟩
      · by_contra runs
        rw [running (Bool.eq_true_of_not_eq_false runs)] at stopped
        cases stopped
      · rw [queues, io, consumer]
        omega

/-- The bound in numbers: 14 steps for every frame in the ready ring, and the rest of what the
threads have in their hands. -/
theorem steps_left_le {state : QueueState order capacity} (known : StopKnown state) :
    state.stepsLeft ≤ kFrameSteps * (state.queue .ready).length + 1045 := by
  have io := io_steps_le known.io_few
  have consumer := consumer_steps_le known.consumer_few (state.queue .ready).length
  have control : state.control.steps ≤ 4 := by
    cases state.control with
    | _ => decide
  unfold QueueState.stepsLeft
  rw [Nat.mul_add]
  have ahead : kFrameSteps * state.io.ahead = 14 * state.io.ahead := rfl
  omega

theorem thread_moves {state : QueueState order capacity} {thread : Thread} {input : Input}
    (some_ : (queueStep capacity ((program order).action thread (state.location thread))
      state.queue state.memory input).isSome = true) :
    ∃ label next, (queueSystem order capacity).step state label = some next := by
  obtain ⟨⟨shared, memory, location⟩, step⟩ := Option.isSome_iff_exists.mp some_
  exact ⟨(thread, input), _, atomic_step_of_action _ step⟩

/-- As long as `stop()` has not returned, some thread can go on. -/
theorem engine_moves {state : QueueState order capacity} (known : StopKnown state)
    (waiting : state.control ≠ .returned) :
    ∃ label next, (queueSystem order capacity).step state label = some next := by
  cases at_ : state.control with
  | returned => exact absurd at_ waiting
  | clearRunning =>
      apply @thread_moves _ _ state .control .tick
      show (queueStep capacity (controlAction state.control) _ _ _).isSome = true
      rw [at_]
      rfl
  | closeReceiver =>
      apply @thread_moves _ _ state .control .tick
      show (queueStep capacity (controlAction state.control) _ _ _).isSome = true
      rw [at_]
      rfl
  | joinIo =>
      cases done : state.io.done with
      | false =>
          obtain ⟨input, some_⟩ := @io_moves capacity state.queue state.memory _ done
          exact @thread_moves _ _ state .io input some_
      | true =>
          apply @thread_moves _ _ state .control .tick
          show (queueStep capacity (controlAction state.control) _ _ _).isSome = true
          rw [at_]
          simp only [queueStep, actionStep, controlAction, known.io_done, done, if_true]
          rfl
  | joinConsumer =>
      cases done : state.consumer.done with
      | false =>
          obtain ⟨input, some_⟩ :=
            @consumer_moves order capacity state.queue state.memory _ done
          exact @thread_moves _ _ state .consumer input some_
      | true =>
          apply @thread_moves _ _ state .control .tick
          show (queueStep capacity (controlAction state.control) _ _ _).isSome = true
          rw [at_]
          simp only [queueStep, actionStep, controlAction, known.consumer_done, done, if_true]
          rfl

theorem stopped_of_returned {state : QueueState order capacity} (known : StopKnown state)
    (returned : state.control = .returned) : Stopped state := by
  refine ⟨returned, ?_, ?_⟩
  · rw [← known.io_done]
    apply known.joined_io
    rw [returned]
    decide
  · rw [← known.consumer_done]
    apply known.joined_consumer
    rw [returned]
    rfl

/-- A report loads the five counters, and exchanges every bucket, the samples and the maximum. -/
def kReportAccesses : Nat := 5 + (kLatencyBucketCount + 1) + 2

/-- The engine with its reporter; behind the joins `stop()` releases the pool. -/
def reportedEngine (order : ByteOrder) (capacity : Capacity) :
    ReportedEngine (QueueState order capacity) (Thread × Input) where
  system := queueSystem order capacity
  running := fun state => state.memory.running
  joined := fun state => decide (state.control = .returned)
  accesses := kReportAccesses
  releases := true

/-- Once `running_` is cleared, whoever cleared it and whatever the kernel answers: the I/O
thread, the consumer, the reporter and `stop()` together take at most 14 steps for every frame in
the ready ring and 21058 more, and until `stop()` has joined all threads and released the pool, one
of them can take a step. -/
theorem stop_returns (order : ByteOrder) (capacity : Capacity)
    (state final : WithReporter (QueueState order capacity))
    (reached : Reaches (reportedEngine order capacity).withReporter state)
    (stopped : state.engine.memory.running = false)
    (labels : List (ReportedLabel (Thread × Input)))
    (run : runLabels (reportedEngine order capacity).withReporter state labels = some final) :
    labels.length ≤ 14 * (state.engine.queue .ready).length + 21058 ∧
      (final.Over Stopped ∨ ∃ label next,
        (reportedEngine order capacity).withReporter.step final label = some next) := by
  have bound := steps_left_le (stop_known_of_reaches (engine_reached reached).1)
  have known := stop_known_of_reaches (engine_reached (reaches_run reached run)).1
  have steps := @reported_steps_le _ _ (reportedEngine order capacity)
    (fun state => state.memory.running = false) QueueState.stepsLeft (fun _ => 0)
    (fun _ _ _ stopped taken => stopped_step stopped taken) (fun _ stopped => stopped)
    state final labels reached stopped run
  have nothing : (labels.map (laterReported fun _ => 0)).sum = 0 := by
    apply List.sum_eq_zero
    intro gain member
    obtain ⟨label, -, rfl⟩ := List.mem_map.mp member
    cases label with
    | _ => rfl
  have cost : kFrameSteps * (state.engine.queue .ready).length =
    14 * (state.engine.queue .ready).length := rfl
  have accesses : (reportedEngine order capacity).accesses = 20008 := rfl
  refine ⟨by omega, ?_⟩
  have moves : Stopped final.engine ∨
      ∃ label next, (queueSystem order capacity).step final.engine label = some next := by
    by_cases returned : final.engine.control = .returned
    · exact .inl (stopped_of_returned known returned)
    · exact .inr (engine_moves known returned)
  exact reported_moves moves fun ended => decide_eq_true ended.1

/-- Twice the frames of one reservation. -/
def twoBatches : Capacity := ⟨64, by decide, by decide, by decide⟩

/-- The new engine with its reporter, over a small pool. -/
def freshReported : WithReporter (QueueState .little twoBatches) where
  engine :=
    { shared := fun
        | .free => List.range 64
        | .ready => ([] : List Nat)
      memory := startMemory fun _ => Vector.replicate kWireSize 0
      location := fun
        | .io => IoLocation.loopTest
        | .consumer => ConsumerLocation.loopTest
        | .control => ControlLocation.clearRunning }
  reporter := .loopTest
  tail := .joinReporter

/-- One frame is in the ready ring and the reporter waits for its timer; then `running_` is
cleared. -/
def framePublished : List (ReportedLabel (Thread × Input)) :=
  (ticks .io 35 ++ oneFrame ++ ticks .io 1 ++ clockRead .io 5 ++ ticks .io 4).map
      ReportedLabel.engine ++
    [ReportedLabel.reporter .expired] ++ (ticks .control 1).map ReportedLabel.engine

/-- The consumer times the frame while the I/O thread gives back what it has reserved; the timer
fires last. -/
def stopWithFrame : List (ReportedLabel (Thread × Input)) :=
  (ticks .control 1 ++ ticks .io 40 ++ ticks .consumer 9 ++ clockRead .consumer 9 ++
    ticks .io 57 ++ [(Thread.io, Input.recv [.again])] ++ ticks .io 69 ++ ticks .consumer 6 ++
    ticks .control 2).map ReportedLabel.engine ++
    [ReportedLabel.reporter .expired, .reporter .expired, .reporter .expired, .stop, .stop]

theorem stop_with_frame_returns :
    ∃ state final, Reaches (reportedEngine .little twoBatches).withReporter state ∧
      (state.engine.queue .ready).length = 1 ∧ state.reporter = .wait ∧
      runLabels (reportedEngine .little twoBatches).withReporter state stopWithFrame =
        some final ∧
      final.Over Stopped ∧ final.engine.memory.session.metrics.processed = 1 ∧
      stopWithFrame.length ≤ 14 * (state.engine.queue .ready).length + 21058 := by
  have begun : (runLabels (reportedEngine .little twoBatches).withReporter freshReported
      framePublished).map (fun state => (state.engine.memory.running,
        (state.engine.queue .ready).length, state.reporter)) = some (false, 1, .wait) := by
    decide +kernel
  have ended : ((runLabels (reportedEngine .little twoBatches).withReporter freshReported
      framePublished).bind fun state => runLabels
        (reportedEngine .little twoBatches).withReporter state stopWithFrame).map
      (fun final => ((decide (final.engine.control = .returned), final.engine.io.done,
        final.engine.consumer.done), final.reporter, final.tail,
        final.engine.memory.session.metrics.processed)) =
        some ((true, true, true), .finished, .returned, 1) := by
    decide +kernel
  obtain ⟨state, published, seen⟩ := Option.map_eq_some_iff.mp begun
  obtain ⟨stopped, seen⟩ := Prod.mk.inj seen
  obtain ⟨ready, waits⟩ := Prod.mk.inj seen
  rw [published, Option.bind_some] at ended
  obtain ⟨final, run, seen⟩ := Option.map_eq_some_iff.mp ended
  obtain ⟨threads, seen⟩ := Prod.mk.inj seen
  obtain ⟨control, workers⟩ := Prod.mk.inj threads
  obtain ⟨io, consumer⟩ := Prod.mk.inj workers
  obtain ⟨reporter, seen⟩ := Prod.mk.inj seen
  obtain ⟨tail, processed⟩ := Prod.mk.inj seen
  have start : (reportedEngine .little twoBatches).withReporter.start freshReported :=
    ⟨⟨rfl, rfl, ⟨_, rfl⟩, rfl, rfl, rfl⟩, rfl, rfl⟩
  have reached := reaches_run (reaches_start start) published
  exact ⟨state, final, reached, ready, waits, run,
    ⟨⟨of_decide_eq_true control, io, consumer⟩, reporter, tail⟩, processed,
    (stop_returns .little twoBatches state final reached stopped stopWithFrame run).1⟩

end MarketDataEngine.EngineV2
