import MarketDataEngine.EngineV2Ownership

/-!
# Interleavings of engine v2

Both threads of engine v2 push to the free ring, which is written for one
producer. Where no `free.push` starts inside the other thread's one, the
micro-steps are a run over atomic queues and every index keeps its one place.
Where two of them overlap, an index can be lost.
-/

namespace MarketDataEngine.EngineV2

open MarketDataEngine.Protocol MarketDataEngine.Containers MarketDataEngine.Engine
open MarketDataEngine.Net MarketDataEngine.TransitionSystem
open MarketDataEngine.SteppedObject

set_option autoImplicit false

variable {order : ByteOrder} {capacity : Capacity}

def queueView (state : State order capacity) : QueueState order capacity :=
  abstractState (program order) (poolLinearization capacity) state

theorem start_linearizes (state : State order capacity) (start : Start state) :
    FineValid (program order) (poolLinearization capacity) state ∧
      QueueStart (queueView state) := by
  obtain ⟨⟨rings, init⟩, memory, io, consumer, control, idle⟩ := start
  have contents : ∀ name, (queueView state).queue name =
      (FramePool.initRings rings name).contents := fun name =>
    congrArg RingBuffer.contents (congrFun init name)
  refine ⟨fine_valid_of_idle ?_ idle, ?_, ?_, memory, ?_, ?_, ?_⟩
  · intro name
    rw [show state.shared name = _ from congrFun init name]
    exact init_bounded rings name
  · rw [contents]
    exact (init_free rings).1
  · rw [contents]
    exact init_ready rings
  · exact (decided_location_idle (idle .io)).trans io
  · exact (decided_location_idle (idle .consumer)).trans consumer
  · exact (decided_location_idle (idle .control)).trans control

/-! ## The one shared end -/

/-- The thread stands at a call of `free.push`, started or not. -/
def AtFreePush (state : State order capacity) (thread : Thread) : Prop :=
  ∃ idx next, (program order).action thread (state.location thread) =
    .call (.push .free idx) next

/-- A `free.push` starts only while the other thread is not inside one. -/
def FreePushAlone (state : State order capacity) (label : Thread × Input) : Prop :=
  state.pc label.1 = none → AtFreePush state label.1 →
    ∀ other, other ≠ label.1 → AtFreePush state other → state.pc other = none

/-- The thread that an end belongs to; the producer end of the free ring belongs
to none. -/
def endOwner : RingEnd × PoolRing → Option Thread
  | (.producer, .free) => none
  | (.consumer, .free) => some .io
  | (.producer, .ready) => some .io
  | (.consumer, .ready) => some .consumer

theorem call_claims {thread : Thread} {location : Location thread} {call : PoolCall}
    {next : RingRet call → Location thread}
    (action : (program order).action thread location = .call call next) :
    (∃ idx, call = .push .free idx) ∨ endOwner call.claims = some thread := by
  cases thread with
  | io =>
      change ioAction location = .call call next at action
      cases location with
      | reserve site indices =>
          simp only [ioAction] at action
          split_ifs at action
          cases action
          exact .inr rfl
      | receive site indices => cases site <;> cases action
      | readyPush idx batch =>
          cases action
          exact .inr rfl
      | dropReturn refused idx batch =>
          cases action
          exact .inl ⟨idx, rfl⟩
      | release after indices =>
          cases indices with
          | nil => cases action
          | cons idx rest =>
              cases action
              exact .inl ⟨idx, rfl⟩
      | _ => cases action
  | consumer =>
      change consumerAction order location = .call call next at action
      cases location with
      | emptyTest =>
          cases action
          exact .inr rfl
      | collect indices =>
          simp only [consumerAction] at action
          split_ifs at action
          cases action
          exact .inr rfl
      | recycle indices =>
          cases indices with
          | nil => cases action
          | cons idx rest =>
              cases action
              exact .inl ⟨idx, rfl⟩
      | _ => cases action
  | control =>
      change controlAction location = .call call next at action
      cases location <;> cases action

theorem starts_alone_of_free_push_alone {state : State order capacity}
    {label : Thread × Input} (alone : FreePushAlone state label) :
    StartsAlone (program order) (poolLinearization capacity) state label := by
  intro idle call next action other otherCall otherPc different progress conflict
  obtain ⟨⟨otherNext, otherAction⟩, running⟩ := progress
  change call.claims = otherCall.claims at conflict
  rcases call_claims action with ⟨idx, rfl⟩ | owner
  · rcases call_claims otherAction with ⟨otherIdx, rfl⟩ | otherOwner
    · have otherIdle := alone idle ⟨idx, next, action⟩ other different
        ⟨otherIdx, otherNext, otherAction⟩
      rw [otherIdle] at running
      cases running
    · rw [← conflict] at otherOwner
      cases otherOwner
  · rcases call_claims otherAction with ⟨otherIdx, rfl⟩ | otherOwner
    · rw [conflict] at owner
      cases owner
    · rw [conflict, otherOwner] at owner
      exact different (Option.some.inj owner)

theorem view_owned {state : State order capacity}
    (reached : ReachesUnder (system order capacity) FreePushAlone state) :
    StateOwned (queueView state) := by
  have alone := reaches_under_mono
    (fun _ _ guard => starts_alone_of_free_push_alone guard) reached
  exact owned_of_reaches (guarded_run_linearizes start_linearizes alone).2

/-! ## Calls in progress -/

/-- What the two views of a thread may differ in: a `pop` bound to find its ring
empty. -/
theorem io_held_of_view {state : State order capacity}
    (owned : StateOwned (queueView state)) :
    (queueView state).io.held = state.io.held := by
  obtain same | ⟨call, next, pc, value, action, -, outcome, decided⟩ :=
    decided_location_cases (poolLinearization capacity) state .io
  · exact congrArg IoLocation.held same
  · have pushed := owned.io_pushed
    change (queueView state).io = next value at decided
    change ioAction state.io = .call call next at action
    rw [decided] at pushed ⊢
    cases at_ : state.io with
    | reserve site indices =>
        rw [at_] at action
        simp only [ioAction] at action
        split_ifs at action
        cases action
        obtain rfl : value = none := pop_outcome_fails outcome
        rfl
    | receive site indices =>
        rw [at_] at action
        cases site <;> cases action
    | readyPush idx batch =>
        rw [at_] at action
        cases action
        obtain rfl : value = false := push_outcome_fails outcome
        exact absurd pushed Bool.true_eq_false.mp
    | dropReturn refused idx batch =>
        rw [at_] at action
        cases action
        obtain rfl : value = false := push_outcome_fails outcome
        exact absurd pushed Bool.true_eq_false.mp
    | release after indices =>
        rw [at_] at action
        cases indices with
        | nil => cases action
        | cons idx rest =>
            cases action
            obtain rfl : value = false := push_outcome_fails outcome
            exact absurd pushed Bool.true_eq_false.mp
    | _ =>
        rw [at_] at action
        cases action

theorem consumer_held_of_view {state : State order capacity}
    (owned : StateOwned (queueView state)) :
    (queueView state).consumer.held = state.consumer.held := by
  obtain same | ⟨call, next, pc, value, action, -, outcome, decided⟩ :=
    decided_location_cases (poolLinearization capacity) state .consumer
  · exact congrArg ConsumerLocation.held same
  · have pushed := owned.consumer_pushed
    change (queueView state).consumer = next value at decided
    change consumerAction order state.consumer = .call call next at action
    rw [decided] at pushed ⊢
    cases at_ : state.consumer with
    | emptyTest =>
        rw [at_] at action
        cases action
        cases outcome
    | collect indices =>
        rw [at_] at action
        simp only [consumerAction] at action
        split_ifs at action
        cases action
        obtain rfl : value = none := pop_outcome_fails outcome
        rfl
    | recycle indices =>
        rw [at_] at action
        cases indices with
        | nil => cases action
        | cons idx rest =>
            cases action
            obtain rfl : value = false := push_outcome_fails outcome
            exact absurd pushed Bool.true_eq_false.mp
    | _ =>
        rw [at_] at action
        cases action

/-! ## Engine v2 -/

/-- Each index has exactly one place, the places being the free ring, the ready
ring, the I/O thread's reservation and the consumer's batch. -/
def OnePlaceEach (state : State order kPoolCapacity) : Prop :=
  ((state.ring .free).contents ++ (state.ring .ready).contents ++ state.io.held ++
    state.consumer.held).Perm (List.range 16384)

theorem one_place_when_free_pushes_apart (order : ByteOrder)
    (state : State order kPoolCapacity)
    (reached : ReachesUnder (system order kPoolCapacity) FreePushAlone state)
    (running : state.memory.running = true) : OnePlaceEach state := by
  have owned := view_owned reached
  have placed := owned.placed
  have abandoned : (queueView state).memory.abandonedIndices = [] :=
    (owned.kept running).1
  unfold places at placed
  rw [io_held_of_view owned, consumer_held_of_view owned, abandoned,
    List.append_nil] at placed
  exact placed

/-- The engine right after `init` on a zeroed pool. -/
def freshState : State .little kPoolCapacity where
  shared
    | .free => ⟨0, kPoolCapacity.size, fun cell => cell.val⟩
    | .ready => ⟨0, 0, fun _ => 0⟩
  memory := startMemory fun _ => Vector.replicate kWireSize 0
  location
    | .io => IoLocation.loopTest
    | .consumer => ConsumerLocation.loopTest
    | .control => ControlLocation.clearRunning
  pc := fun _ => none

theorem fresh_state_start : Start freshState := by
  refine ⟨⟨fun _ => ⟨0, 0, fun _ => 0⟩, ?_⟩, ⟨_, rfl⟩, rfl, rfl, rfl, fun _ => rfl⟩
  funext name
  cases name with
  | free => exact (init_free_eq _).symm
  | ready => rfl

/-- The I/O thread reserves 32 indices, receives one frame into index 0,
publishes it and is about to give back index 1. -/
def ioPublishes : List (Thread × Input) :=
  ticks .io 163 ++ oneFrame ++ ticks .io 1 ++ clockRead .io 5 ++ ticks .io 8

/-- The consumer pops index 0, classifies its message and is about to recycle
it. -/
def consumerProcesses : List (Thread × Input) :=
  ticks .consumer 14 ++ clockRead .consumer 9

/-- No thread but the moving one is inside a call. -/
def othersIdle (state : State order capacity) (label : Thread × Input) : Bool :=
  [Thread.io, .consumer, .control].all fun other =>
    other == label.1 || (state.pc other).isNone

theorem free_push_alone_of_others_idle (state : State order capacity)
    (label : Thread × Input) (idle : othersIdle state label = true) :
    FreePushAlone state label := by
  intro _ _ other different _
  have found := List.all_eq_true.mp idle other (by cases other <;> simp)
  simpa [different] using found

/-- One frame goes round while the threads take turns. -/
def turnsRun : Option (State .little kPoolCapacity) :=
  runChecked (system .little kPoolCapacity) othersIdle freshState
    (ioPublishes ++ ticks .io 12 ++ consumerProcesses ++ ticks .consumer 5)

theorem one_place_after_turns :
    ∃ state, turnsRun = some state ∧ OnePlaceEach state ∧
      state.memory.session.metrics.processed = 1 := by
  have outcome : turnsRun.map (fun state => (state.memory.running,
      state.memory.session.metrics.processed)) = some (true, 1) := by
    decide +kernel
  obtain ⟨state, run, facts⟩ := Option.map_eq_some_iff.mp outcome
  obtain ⟨running, processed⟩ := Prod.mk.inj facts
  exact ⟨state, run,
    one_place_when_free_pushes_apart .little state
      (reaches_under_run free_push_alone_of_others_idle (.start fresh_state_start) run)
      running,
    processed⟩

/-- Both threads load the same tail of the free ring, both write its cell, and
both store the same successor: of the two indices one is gone. -/
def raceRun : Option (State .little kPoolCapacity) :=
  runLabels (system .little kPoolCapacity) freshState
    (ioPublishes ++ ticks .io 3 ++ consumerProcesses ++ ticks .consumer 3 ++
      ticks .io 2 ++ ticks .consumer 2)

theorem free_push_race_loses_index :
    ∃ state, Reaches (system .little kPoolCapacity) state ∧
      state.memory.running = true ∧ ¬ OnePlaceEach state := by
  have counts : raceRun.map (fun state => (state.memory.running,
      (state.ring .free).count + (state.ring .ready).count + state.io.held.length +
        state.consumer.held.length)) = some (true, 16383) := by
    decide +kernel
  obtain ⟨state, run, facts⟩ := Option.map_eq_some_iff.mp counts
  obtain ⟨running, total⟩ := Prod.mk.inj facts
  refine ⟨state, reaches_run (reaches_start fresh_state_start) run, running, ?_⟩
  intro placed
  have length := placed.length_eq
  simp only [List.length_append, List.length_range, RingBuffer.contents_length] at length
  omega

end MarketDataEngine.EngineV2
