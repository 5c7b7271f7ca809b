import MarketDataEngine.EngineV1Delivery
import MarketDataEngine.EngineV2Delivery
import MarketDataEngine.MetricsReporter

/-!
# Snapshots of the engines

Both engines have a consumer that pops frames and decodes them one by one; how many it has
popped and not decoded can be read off its location. So the reporter can be put beside both
of them, with every access to the rings a step of its own.

A message with the largest sequence number makes the expected number wrap, and the gap
in front of the next one is counted from zero again: the sum of the gaps can wrap then.
-/

namespace MarketDataEngine.Engine

open MarketDataEngine.Protocol MarketDataEngine.TransitionSystem
open MarketDataEngine.SteppedObject

set_option autoImplicit false

section Programs

variable {Thread Memory Input : Type} [DecidableEq Thread]
variable {Call : Type} {Ret : Call → Type} {object : MicroObject Call Ret}
variable {order : ByteOrder} {program : Program Thread Call Ret Memory Input}

/-- What the location of a consumer says about the frames it has popped. -/
structure PopView (view : ConsumerView order program) where
  waiting : program.Location view.consumer → Nat
  pops : program.Location view.consumer → program.Location view.consumer → Nat
  pops_self : ∀ location, pops location location = 0
  own_step : ∀ location effect, program.action view.consumer location = .memory effect →
    ∀ memory input after next, effect memory input = some (after, next) →
      waiting next + (view.session after).decoded.length =
        waiting location + (view.session memory).decoded.length + pops location next
  call_step : ∀ location call next,
    program.action view.consumer location = .call call next →
      ∀ result, waiting (next result) = waiting location + pops location (next result)

variable {view : ConsumerView order program} (popView : PopView view)

theorem fine_step_waiting {state next : FineState object program} {label : Thread × Input}
    (taken : fineStep program state label = some next) :
    popView.waiting (next.location view.consumer) +
        (view.session next.memory).decoded.length =
      popView.waiting (state.location view.consumer) +
        (view.session state.memory).decoded.length +
        popView.pops (state.location view.consumer) (next.location view.consumer) := by
  obtain ⟨thread, input⟩ := label
  unfold fineStep at taken
  cases action : program.action thread (state.location thread) with
  | halt => simp [action] at taken
  | call call after =>
      simp only [action, Option.some.injEq] at taken
      subst taken
      by_cases own : thread = view.consumer
      · subst own
        simp only [callStep, Function.update_self]
        cases (object.step state.shared call (state.pc view.consumer)).2 with
        | inl pc =>
            simp only [Sum.elim_inl]
            rw [popView.pops_self]
            rfl
        | inr result =>
            simp only [Sum.elim_inr]
            rw [popView.call_step _ call after action result]
            omega
      · simp only [callStep, Function.update_of_ne (Ne.symm own)]
        rw [popView.pops_self]
        rfl
  | memory effect =>
      simp only [action, Option.map_eq_some_iff] at taken
      obtain ⟨⟨memory, location⟩, result, rfl⟩ := taken
      by_cases own : thread = view.consumer
      · subst own
        simp only [memoryStep, Function.update_self]
        exact popView.own_step _ effect action _ _ _ _ result
      · simp only [memoryStep, Function.update_of_ne (Ne.symm own)]
        rw [popView.pops_self]
        rcases view.others_drop thread own _ effect action _ _ _ _ result with same | dropped
        · rw [same]
          rfl
        · rw [dropped]
          rfl

/-- A program with such a consumer, run with the calls in micro-steps. -/
def sessionView (Start : FineState object program → Prop)
    (fresh : ∀ state, Start state → view.session state.memory = .fresh ∧
      view.point (state.location view.consumer) = none ∧
      popView.waiting (state.location view.consumer) = 0) :
    SessionView (fineSystem program Start) where
  order := order
  session state := view.session state.memory
  point state := view.point (state.location view.consumer)
  waiting state := popView.waiting (state.location view.consumer)
  pops state next := popView.pops (state.location view.consumer) (next.location view.consumer)
  fresh := fresh
  step_session _ _ _ taken := view.fine_step_session taken
  step_waiting _ _ _ taken := fine_step_waiting popView taken

end Programs

end MarketDataEngine.Engine

namespace MarketDataEngine.EngineV1

open MarketDataEngine.Protocol MarketDataEngine.Containers MarketDataEngine.Engine
open MarketDataEngine.TransitionSystem MarketDataEngine.SteppedObject

set_option autoImplicit false

variable {order : ByteOrder} {capacity : Capacity}

/-- A pop of the ready ring leads to the stage. -/
def ConsumerLocation.pops : ConsumerLocation → ConsumerLocation → Nat
  | .take, .stage _ _ => 1
  | _, _ => 0

theorem consumer_effect_waiting {consumer next : ConsumerLocation} {memory after : Memory}
    {input : Input} {effect : Memory → Input → Option (Memory × ConsumerLocation)}
    (action : consumerAction order consumer = .memory effect)
    (result : effect memory input = some (after, next)) :
    next.undecoded.length + after.session.decoded.length =
      consumer.undecoded.length + memory.session.decoded.length + consumer.pops next := by
  cases consumer with
  | loopTest =>
      cases action
      cases result
      cases memory.running <;> rfl
  | stage idx point =>
      cases action
      have moved : stageNext order idx point memory = (after, next) := Option.some.inj result
      have stepped : (stageNext order idx point memory).1 = after := by rw [moved]
      have decoded := stage_step_decoded order (memory.slots idx) memory.session point
      have session : after.session.decoded.length = memory.session.decoded.length +
          if point = .decode then 1 else 0 := by
        rw [← stepped]
        simp only [stageNext, decoded, List.length_append]
        split_ifs <;> rfl
      have undecoded := (stage_next_facts order idx point memory).2.1
      rw [moved] at undecoded
      have nothing : (ConsumerLocation.stage idx point).pops next = 0 := rfl
      rw [session, undecoded, undecoded_stage, nothing]
      split_ifs <;> simp [Nat.add_comm]
  | emptyTest => cases action
  | take => cases action
  | recycle idx => cases action
  | recycled ok =>
      cases action
      cases result
      rfl
  | leave =>
      cases action
      cases result
      rfl
  | finished => cases action

theorem consumer_call_waiting {consumer : ConsumerLocation} {call : PoolCall}
    {next : RingRet call → ConsumerLocation}
    (action : consumerAction order consumer = .call call next) (result : RingRet call) :
    (next result).undecoded.length =
      consumer.undecoded.length + consumer.pops (next result) := by
  cases consumer with
  | emptyTest =>
      cases action
      cases result <;> rfl
  | take =>
      cases action
      cases result <;> rfl
  | recycle idx =>
      cases action
      rfl
  | loopTest => cases action
  | stage idx point => cases action
  | recycled ok => cases action
  | leave => cases action
  | finished => cases action

def popView (order : ByteOrder) : PopView (consumerView order) where
  waiting location := location.undecoded.length
  pops := ConsumerLocation.pops
  pops_self location := by cases location <;> rfl
  own_step _ _ action _ _ _ _ result := consumer_effect_waiting action result
  call_step _ _ _ action result := consumer_call_waiting action result

def reportedView (order : ByteOrder) (capacity : Capacity) :
    SessionView (system order capacity) :=
  sessionView (popView order) Start (by
    rintro state ⟨-, ⟨slots, memory⟩, -, consumer, -⟩
    refine ⟨congrArg Memory.session memory, congrArg ConsumerLocation.point consumer, ?_⟩
    exact congrArg (fun location : ConsumerLocation => location.undecoded.length) consumer)

end MarketDataEngine.EngineV1

namespace MarketDataEngine.EngineV2

open MarketDataEngine.Protocol MarketDataEngine.Containers MarketDataEngine.Engine
open MarketDataEngine.TransitionSystem MarketDataEngine.SteppedObject

set_option autoImplicit false

variable {order : ByteOrder} {capacity : Capacity}

/-- A pop of the ready ring adds to the batch. -/
def ConsumerLocation.pops : ConsumerLocation → ConsumerLocation → Nat
  | .collect before, .collect after => after.length - before.length
  | _, _ => 0

theorem consumer_effect_waiting {consumer next : ConsumerLocation} {memory after : Memory}
    {input : Input} {effect : Memory → Input → Option (Memory × ConsumerLocation)}
    (action : consumerAction order consumer = .memory effect)
    (result : effect memory input = some (after, next)) :
    next.undecoded.length + after.session.decoded.length =
      consumer.undecoded.length + memory.session.decoded.length + consumer.pops next := by
  cases consumer with
  | loopTest =>
      cases action
      cases result
      cases memory.running <;> rfl
  | collect indices =>
      simp only [consumerAction] at action
      split_ifs at action
      cases action
      cases result
      rfl
  | collected indices =>
      cases action
      cases result
      cases indices <;> rfl
  | stage work point =>
      cases action
      have moved : stageNext order work point memory = (after, next) := Option.some.inj result
      have stepped : (stageNext order work point memory).1 = after := by rw [moved]
      have decoded := stage_step_decoded order (memory.slots work.idx) memory.session point
      have session : after.session.decoded.length = memory.session.decoded.length +
          if point = .decode then 1 else 0 := by
        rw [← stepped]
        simp only [stageNext, decoded, List.length_append]
        split_ifs <;> rfl
      have undecoded := stage_next_undecoded order work point memory
      rw [moved] at undecoded
      have nothing : (ConsumerLocation.stage work point).pops next = 0 := rfl
      rw [session, undecoded, nothing]
      simp only [ConsumerLocation.undecoded]
      split_ifs
      · rw [List.length_cons]
        omega
      · rfl
  | exchange work =>
      cases action
      cases result
      rfl
  | clock startNs work =>
      cases action
      simp only at result
      split at result <;> cases result
      rw [record_latency_session, work_next_undecoded]
      rfl
  | recycle indices =>
      cases indices with
      | nil =>
          cases action
          cases result
          rfl
      | cons idx rest => cases action
  | recycled ok indices =>
      cases action
      cases result
      rfl
  | leave =>
      cases action
      cases result
      rfl
  | emptyTest => cases action
  | finished => cases action

theorem consumer_call_waiting {consumer : ConsumerLocation} {call : PoolCall}
    {next : RingRet call → ConsumerLocation}
    (action : consumerAction order consumer = .call call next) (result : RingRet call) :
    (next result).undecoded.length =
      consumer.undecoded.length + consumer.pops (next result) := by
  cases consumer with
  | collect indices =>
      simp only [consumerAction] at action
      split_ifs at action
      cases action
      cases result with
      | none => rfl
      | some idx =>
          simp only [collectReturned, ConsumerLocation.undecoded, ConsumerLocation.pops,
            List.length_append]
          omega
  | emptyTest =>
      cases action
      cases result <;> rfl
  | recycle indices =>
      cases indices with
      | nil => cases action
      | cons idx rest =>
          cases action
          rfl
  | loopTest => cases action
  | collected indices => cases action
  | stage work point => cases action
  | exchange work => cases action
  | clock startNs work => cases action
  | recycled ok indices => cases action
  | leave => cases action
  | finished => cases action

def popView (order : ByteOrder) : PopView (consumerView order) where
  waiting location := location.undecoded.length
  pops := ConsumerLocation.pops
  pops_self location := by
    cases location with
    | collect indices => exact Nat.sub_self _
    | _ => rfl
  own_step _ _ action _ _ _ _ result := consumer_effect_waiting action result
  call_step _ _ _ action result := consumer_call_waiting action result

def reportedView (order : ByteOrder) (capacity : Capacity) :
    SessionView (system order capacity) :=
  sessionView (popView order) Start (by
    rintro state ⟨-, ⟨slots, memory⟩, -, consumer, -⟩
    refine ⟨congrArg Memory.session memory, congrArg ConsumerLocation.point consumer, ?_⟩
    exact congrArg (fun location : ConsumerLocation => location.undecoded.length) consumer)

end MarketDataEngine.EngineV2

namespace MarketDataEngine.Engine

open MarketDataEngine.Protocol MarketDataEngine.Containers MarketDataEngine.TransitionSystem

set_option autoImplicit false

/-- Snapshots taken beside a running engine of either version are consistent. -/
theorem snapshots_consistent (order : ByteOrder) (capacity : Capacity) :
    (∀ watched, Reaches (watchedSystem (EngineV1.reportedView order capacity)) watched →
        FewMessages (EngineV1.reportedView order capacity) watched →
        Consistent (EngineV1.reportedView order capacity) watched) ∧
      ∀ watched, Reaches (watchedSystem (EngineV2.reportedView order capacity)) watched →
        FewMessages (EngineV2.reportedView order capacity) watched →
        Consistent (EngineV2.reportedView order capacity) watched := by
  constructor
  · intro watched reached few
    exact consistent_of_reaches _ reached few
  · intro watched reached few
    exact consistent_of_reaches _ reached few

abbrev watchedV1 : System (Watched (EngineV1.State .little EngineV1.kPoolCapacity))
    (Option (EngineV1.Thread × EngineV1.Input)) :=
  watchedSystem (EngineV1.reportedView .little EngineV1.kPoolCapacity)

/-- Engine v1 and its reporter, both about to start. -/
def watchedFresh : Watched (EngineV1.State .little EngineV1.kPoolCapacity) :=
  ⟨EngineV1.freshState, .start, 0, 0⟩

theorem watched_fresh_start : watchedV1.start watchedFresh :=
  ⟨EngineV1.fresh_state_start, rfl, rfl, rfl⟩

/-- The server receives one datagram for each of these sequence numbers. -/
def serverReceives (first : UInt64) (rest : List UInt64) (steps : Nat) :
    List (Option (EngineV1.Thread × EngineV1.Input)) :=
  let datagram (seqNum : UInt64) : EngineV1.Datagram :=
    (encode .little (Vector.replicate kWireSize 0) ⟨seqNum, 0, 0, 0, 0, 0, 0⟩).toList
  (EngineV1.ticks .server 1 ++ EngineV1.epollReply (.events (.socket false) []) ++
    EngineV1.ticks .server 1 ++
    EngineV1.recvReply (.batch (datagram first) (rest.map datagram)) ++
    EngineV1.ticks .server steps).map some

def consumerSteps (steps : Nat) : List (Option (EngineV1.Thread × EngineV1.Input)) :=
  (EngineV1.ticks .consumer steps).map some

def loads (count : Nat) : List (Option (EngineV1.Thread × EngineV1.Input)) :=
  List.replicate count none

/-- `processed` is loaded while the message is being classified, the rest afterwards. -/
def splitSnapshotRun : Option (Watched (EngineV1.State .little EngineV1.kPoolCapacity)) :=
  runLabels watchedV1 watchedFresh
    (serverReceives 7 [] 12 ++ consumerSteps 8 ++ loads 1 ++ consumerSteps 1 ++ loads 4)

theorem split_snapshot_consistent :
    ∃ watched, Reaches watchedV1 watched ∧
      FewMessages (EngineV1.reportedView .little EngineV1.kPoolCapacity) watched ∧
      watched.reporter.snapshots = [(⟨0, 1, 0, 0, 0⟩, 1)] ∧
      Consistent (EngineV1.reportedView .little EngineV1.kPoolCapacity) watched := by
  have outcome : splitSnapshotRun.map (fun watched => (watched.reporter.snapshots,
      watched.ioDrops + watched.engine.memory.session.decoded.length)) =
        some ([(⟨0, 1, 0, 0, 0⟩, 1)], 1) := by
    decide +kernel
  obtain ⟨watched, run, facts⟩ := Option.map_eq_some_iff.mp outcome
  obtain ⟨snapshots, messages⟩ := Prod.mk.inj facts
  have reached : Reaches watchedV1 watched :=
    reaches_run (reaches_start watched_fresh_start) run
  have few : FewMessages (EngineV1.reportedView .little EngineV1.kPoolCapacity) watched := by
    have one : watched.ioDrops + watched.engine.memory.session.decoded.length < 2 ^ 64 := by
      omega
    exact one
  exact ⟨watched, reached, few, snapshots,
    (snapshots_consistent .little EngineV1.kPoolCapacity).1 watched reached few⟩

/-- The sequence numbers 0, `2 ^ 64 - 1` and 5, with a snapshot before and behind the last. -/
def wrappingGapsRun : Option (Watched (EngineV1.State .little EngineV1.kPoolCapacity)) :=
  runLabels watchedV1 watchedFresh
    (serverReceives 0 [18446744073709551615, 5] 36 ++ consumerSteps 25 ++ loads 5 ++
      consumerSteps 16 ++ loads 5)

theorem gap_counter_decreases :
    ∃ watched earlier later, Reaches watchedV1 watched ∧
      FewMessages (EngineV1.reportedView .little EngineV1.kPoolCapacity) watched ∧
      watched.reporter.snapshots = [earlier, later] ∧
      earlier.1.seqNumGaps = 18446744073709551614 ∧ later.1.seqNumGaps = 3 ∧
      ¬ earlier.1.seqNumGaps ≤ later.1.seqNumGaps := by
  have outcome : wrappingGapsRun.map (fun watched => (watched.reporter.snapshots,
      watched.ioDrops + watched.engine.memory.session.decoded.length)) =
        some ([(⟨2, 2, 0, 0, 18446744073709551614⟩, 2), (⟨3, 3, 0, 0, 3⟩, 3)], 3) := by
    decide +kernel
  obtain ⟨watched, run, facts⟩ := Option.map_eq_some_iff.mp outcome
  obtain ⟨snapshots, messages⟩ := Prod.mk.inj facts
  have few : FewMessages (EngineV1.reportedView .little EngineV1.kPoolCapacity) watched := by
    have three : watched.ioDrops + watched.engine.memory.session.decoded.length < 2 ^ 64 := by
      omega
    exact three
  refine ⟨watched, _, _, reaches_run (reaches_start watched_fresh_start) run, few, snapshots,
    rfl, rfl, ?_⟩
  decide

end MarketDataEngine.Engine
