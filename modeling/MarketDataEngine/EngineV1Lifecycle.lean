import MarketDataEngine.EngineV1Delivery

/-!
# Engine v1 from `run()` to `stop()` and again

`run()` may be called at any moment: before the engine has started, while it runs, while
another thread is inside `stop()`. It stores `running_` and initialises the pool before
`start_server` looks at `handle.running`. Each of these accesses is a step, so the threads of
a session that is still there come in between; one call of `run()` is under way at a time. A
`stop()` is the control thread of the engine.

The I/O thread sets up its descriptors before it enters the loop. A failed set-up clears
`handle.running` and ends the thread, as the first test of the loop then does. The reporter
is started and joined together with the consumer and is left out.
-/

namespace MarketDataEngine.EngineV1

open MarketDataEngine.Protocol MarketDataEngine.Containers MarketDataEngine.Engine
open MarketDataEngine.TransitionSystem MarketDataEngine.SteppedObject

set_option autoImplicit false

variable {order : ByteOrder} {capacity : Capacity}

/-- The memory when the threads of a successful `run()` start: the tracker, the counters and
the slots are those of the sessions before. `msg` is a local of `process_loop`, and the
histories are those of the session. -/
def Memory.restarted (memory : Memory) : Memory :=
  { startMemory memory.slots with
    session := { Session.fresh with
      tracker := memory.session.tracker, metrics := memory.session.metrics } }

inductive RunPoint where
  | init (point : InitPoint)
  | refuse
  | start

/-- A call of `run()` under way, and the engine as it found it. -/
structure RunCall (order : ByteOrder) (capacity : Capacity) where
  point : RunPoint
  before : State order capacity

/-- `rejections` are the engines before and after each call of `run()` that returned false. -/
structure Life (order : ByteOrder) (capacity : Capacity) where
  engine : State order capacity
  settingUp : Bool
  ioJoinable : Bool
  consumerJoinable : Bool
  call : Option (RunCall order capacity)
  rejections : List (State order capacity × State order capacity)

inductive LifeLabel where
  | run
  | setUp (ok : Bool)
  | thread (thread : Thread) (input : Input)

namespace Life

variable (life : Life order capacity)

/-! ### The accesses of `run()` -/

/-- `init` at this point, with these rings. -/
def initialising (before : State order capacity) (rings : PoolRing → RingBuffer Nat capacity)
    (point : InitPoint) : Life order capacity :=
  { life with
    engine := { life.engine with shared := rings }
    call := some ⟨.init point, before⟩ }

/-- `running_.store(true)`. -/
def entered : Life order capacity :=
  { life with
    engine := { life.engine with memory := { life.engine.memory with running := true } }
    call := some ⟨.init (.resetHead .free), life.engine⟩ }

/-- `start_server` looks at `handle.running`. -/
def tested (before : State order capacity) : Life order capacity :=
  { life with
    call := some ⟨if life.engine.memory.handleRunning then .refuse else .start, before⟩ }

/-- `running_.store(false)`, and the call returns false. -/
def refused (before : State order capacity) : Life order capacity :=
  let after := { life.engine with memory := { life.engine.memory with running := false } }
  { life with
    engine := after
    call := none
    rejections := life.rejections ++ [(before, after)] }

/-- `start_server` stores `handle.running` and starts the I/O thread, and `run()` the others. -/
def begun : Life order capacity where
  engine :=
    { shared := life.engine.shared
      memory := { life.engine.memory.restarted with running := life.engine.memory.running }
      location := fun
        | .server => ServerLocation.loopTest
        | .consumer => ConsumerLocation.loopTest
        | .control => ControlLocation.clearRunning
      pc := fun _ => none }
  settingUp := true
  ioJoinable := true
  consumerJoinable := true
  call := none
  rejections := life.rejections

/-- An assignment over a joinable thread is `std::terminate`. -/
def advance (call : RunCall order capacity) : Option (Life order capacity) :=
  match call.point with
  | .init .done => some (life.tested call.before)
  | .init point =>
      let next := FramePool.initStep life.engine.ring point
      some (life.initialising call.before next.1 next.2)
  | .refuse => some (life.refused call.before)
  | .start => if life.ioJoinable || life.consumerJoinable then none else some life.begun

def runStep : Option (Life order capacity) :=
  match life.call with
  | none => some life.entered
  | some call => life.advance call

/-! ### A call that nothing comes between -/

def rejected : Life order capacity :=
  let after := { life.engine with
    shared := FramePool.initRings life.engine.ring
    memory := { life.engine.memory with running := false } }
  { life with
    engine := after
    call := none
    rejections := life.rejections ++ [(life.engine, after)] }

def started : Life order capacity where
  engine :=
    { shared := FramePool.initRings life.engine.ring
      memory := life.engine.memory.restarted
      location := fun
        | .server => ServerLocation.loopTest
        | .consumer => ConsumerLocation.loopTest
        | .control => ControlLocation.clearRunning
      pc := fun _ => none }
  settingUp := true
  ioJoinable := true
  consumerJoinable := true
  call := none
  rejections := life.rejections

end Life

inductive RunOutcome (order : ByteOrder) (capacity : Capacity) where
  | rejected (after : Life order capacity)
  | terminated
  | started (after : Life order capacity)

namespace Life

variable (life : Life order capacity)

/-- All accesses of a call in a row. -/
def run : RunOutcome order capacity :=
  if life.engine.memory.handleRunning then .rejected life.rejected
  else if life.ioJoinable || life.consumerJoinable then .terminated
  else .started life.started

/-! ### The other threads -/

def setUpStep (ok : Bool) : Life order capacity :=
  { life with
    settingUp := false
    engine := { life.engine with
      memory := { life.engine.memory with
        handleRunning := life.engine.memory.handleRunning && ok } } }

/-- A step of a thread of the engine; a join leaves its thread not joinable. -/
def threadStep (input : Input) : Thread → Option (Life order capacity)
  | .server =>
      if life.settingUp then none
      else (fineStep (program order) life.engine (.server, input)).map fun engine =>
        { life with engine := engine }
  | .consumer =>
      (fineStep (program order) life.engine (.consumer, input)).map fun engine =>
        { life with engine := engine }
  | .control =>
      (fineStep (program order) life.engine (.control, input)).map fun engine =>
        { life with
          engine := engine
          ioJoinable := life.ioJoinable && life.engine.control != .joinServer
          consumerJoinable := life.consumerJoinable && life.engine.control != .joinConsumer }

def step : LifeLabel → Option (Life order capacity)
  | .run => life.runStep
  | .setUp ok => if life.settingUp then some (life.setUpStep ok) else none
  | .thread thread input => life.threadStep input thread

/-- `Engine engine;` -/
structure Initial (life : Life order capacity) : Prop where
  rings : ∀ name, (life.engine.ring name).head = 0 ∧ (life.engine.ring name).tail = 0
  threads : life.engine.server = .finished ∧ life.engine.consumer = .finished ∧
    life.engine.control = .returned
  flags : life.engine.memory.running = false ∧ life.engine.memory.handleRunning = false
  session : life.engine.memory.session = .fresh
  settingUp : life.settingUp = false
  joinable : life.ioJoinable = false ∧ life.consumerJoinable = false
  call : life.call = none ∧ life.rejections = []

end Life

def lives (order : ByteOrder) (capacity : Capacity) : System (Life order capacity) LifeLabel where
  start := Life.Initial
  step := Life.step

section Undisturbed

variable {life : Life order capacity} {guard : Life order capacity → LifeLabel → Prop}

/-- The rest of `init`, when no other thread moves. -/
theorem reaches_initialised (moves : ∀ other : Life order capacity, other.call ≠ none →
      guard other .run) {before : State order capacity} {point : InitPoint}
    (pushing : point.Pushing) {rings : PoolRing → RingBuffer Nat capacity}
    (reached : ReachesUnder (lives order capacity) guard (life.initialising before rings point)) :
    ReachesUnder (lives order capacity) guard
      (life.initialising before (FramePool.initRest rings point) .done) := by
  by_cases ended : point = .done
  · rw [ended, FramePool.init_rest_done]
    rw [ended] at reached
    exact reached
  · have fewer := FramePool.init_step_left rings pushing ended
    have taken : (lives order capacity).step (life.initialising before rings point) .run =
        some (life.initialising before (FramePool.initStep rings point).1
          (FramePool.initStep rings point).2) := by
      cases point with
      | done => exact absurd rfl ended
      | _ => rfl
    have stepped := reached.step (moves _ (Option.some_ne_none _)) taken
    have rest := reaches_initialised moves fewer.2 stepped
    rw [FramePool.init_step_rest] at rest
    exact rest
termination_by point.left capacity
decreasing_by exact fewer.1

theorem reaches_tested (moves : ∀ other : Life order capacity, other.call ≠ none →
      guard other .run)
    (reached : ReachesUnder (lives order capacity) guard life) {before : State order capacity}
    (at_ : life.call = some ⟨.init (.resetHead .free), before⟩) :
    ReachesUnder (lives order capacity) guard
      ((life.initialising before (FramePool.initRings life.engine.ring) .done).tested before) := by
  have same : life.initialising before life.engine.ring (.resetHead .free) = life := by
    unfold Life.initialising
    rw [← at_]
    rfl
  rw [← same] at reached
  have pushing : InitPoint.Pushing (.resetHead .free) := trivial
  have done := reaches_initialised moves pushing reached
  rw [FramePool.init_rest_begin] at done
  exact done.step (moves _ (Option.some_ne_none _)) rfl

theorem tested_of_running {before : State order capacity}
    (running : life.engine.memory.handleRunning = true) :
    life.tested before = { life with call := some ⟨.refuse, before⟩ } := by
  unfold Life.tested
  rw [if_pos running]

theorem tested_of_stopped {before : State order capacity}
    (stopped : life.engine.memory.handleRunning = false) :
    life.tested before = { life with call := some ⟨.start, before⟩ } := by
  unfold Life.tested
  rw [if_neg (Bool.eq_false_iff.mp stopped)]

theorem reaches_refused (moves : ∀ other : Life order capacity, other.call ≠ none →
      guard other .run)
    (reached : ReachesUnder (lives order capacity) guard life) {before : State order capacity}
    (at_ : life.call = some ⟨.init (.resetHead .free), before⟩)
    (running : life.engine.memory.handleRunning = true) :
    ReachesUnder (lives order capacity) guard
      ((life.initialising before (FramePool.initRings life.engine.ring) .done).refused before) := by
  let initialised := life.initialising before (FramePool.initRings life.engine.ring) .done
  have tested : ReachesUnder (lives order capacity) guard (initialised.tested before) :=
    reaches_tested moves reached at_
  have refusing : initialised.tested before =
      { initialised with call := some ⟨.refuse, before⟩ } := tested_of_running running
  rw [refusing] at tested
  exact tested.step (moves _ (Option.some_ne_none _)) rfl

/-- The accesses of a call in a row are `Life.run`. -/
theorem reaches_run_alone (moves : ∀ other : Life order capacity, other.call ≠ none →
      guard other .run)
    (reached : ReachesUnder (lives order capacity) guard life) (enters : guard life .run)
    (outside : life.call = none) :
    (∀ after, life.run = .rejected after → ReachesUnder (lives order capacity) guard after) ∧
    ∀ after, life.run = .started after → ReachesUnder (lives order capacity) guard after := by
  have entered : ReachesUnder (lives order capacity) guard life.entered := by
    apply reached.step enters
    simp only [lives, Life.step, Life.runStep, outside]
  constructor
  · intro after rejects
    unfold Life.run at rejects
    split_ifs at rejects with running
    cases rejects
    exact reaches_refused moves entered rfl running
  · intro after starts
    unfold Life.run at starts
    split_ifs at starts with running joinable
    cases starts
    let initialised :=
      life.entered.initialising life.engine (FramePool.initRings life.engine.ring) .done
    have tested : ReachesUnder (lives order capacity) guard (initialised.tested life.engine) :=
      reaches_tested moves entered rfl
    have starting : initialised.tested life.engine =
        { initialised with call := some ⟨.start, life.engine⟩ } :=
      tested_of_stopped (Bool.eq_false_iff.mpr running)
    rw [starting] at tested
    refine tested.step (moves _ (Option.some_ne_none _)) ?_
    show (if life.ioJoinable || life.consumerJoinable then none else _) = some life.started
    rw [if_neg joinable]
    rfl

end Undisturbed

/-- Every slot is free and every ring as `pool_.init()` leaves it. -/
def RingsNew (rings : PoolRing → RingBuffer Nat capacity) : Prop :=
  rings .free = ⟨0, capacity.size, fun cell => cell.val⟩ ∧
    (rings .ready).head = 0 ∧ (rings .ready).tail = 0

/-- Each index in one place. -/
def OnePlaceEach (state : State order capacity) : Prop :=
  ((state.ring .free).contents ++ (state.ring .ready).contents ++ state.server.held ++
    state.consumer.held).Perm (List.range capacity.val)

/-! ## The engine of a session -/

section Steps

variable {state next : State order capacity}

/-- What holds of the engine as long as one of its threads is joinable. -/
structure EngineKept (state : State order capacity) : Prop where
  valid : FineValid (program order) (poolLinearization capacity) state
  unrefused : state.server.refused = false
  owned : StateOwned (queueView state)

theorem unrefused_threads (kept : EngineKept state) (thread : Thread) :
    Unrefused thread (state.location thread) := by
  cases thread with
  | server => exact kept.unrefused
  | consumer => trivial
  | control => trivial

theorem starts_alone (kept : EngineKept state) (label : Thread × Input) :
    StartsAlone (program order) (poolLinearization capacity) state label := by
  intro _ call nextLocation action other otherCall otherPc different progress conflict
  obtain ⟨⟨otherNext, otherAction⟩, -⟩ := progress
  have own := call_claims_own_end (unrefused_threads kept label.1) action
  have others := call_claims_own_end (unrefused_threads kept other) otherAction
  rw [show call.claims = otherCall.claims from conflict] at own
  exact different (others.symm.trans own)

theorem engine_kept_step (kept : EngineKept state) {label : Thread × Input}
    (taken : fineStep (program order) state label = some next) : EngineKept next := by
  obtain ⟨valid, refined⟩ := fine_step_refines kept.valid (starts_alone kept label) taken
  have owned : StateOwned (queueView next) := by
    rcases refined with same | moved
    · rw [show queueView next = queueView state from same]
      exact kept.owned
    · exact owned_step kept.owned moved
  refine ⟨valid, ?_, owned⟩
  by_cases stays : next.location .server = state.location .server
  · rw [show next.server = state.server from stays]
    exact kept.unrefused
  · have idle := moved_thread_idle kept.valid taken stays
    have published := owned.published
    rwa [show (queueView next).server = next.server from decided_location_idle idle] at published

theorem one_place_of_kept (kept : EngineKept state) : OnePlaceEach state := by
  have placed := kept.owned.placed
  unfold places at placed
  rw [(server_of_view kept.owned kept.unrefused).1, (consumer_of_view kept.owned).1] at placed
  exact placed

/-- Another memory with the same slots and histories. -/
theorem engine_kept_memory (kept : EngineKept state) {memory : Memory}
    (slots : memory.slots = state.memory.slots) (session : memory.session = state.memory.session)
    (obtained : memory.obtained = state.memory.obtained)
    (accepted : memory.accepted = state.memory.accepted) :
    EngineKept { state with memory := memory } := by
  have valid := kept.valid
  refine ⟨⟨valid.object_valid, valid.only_calls_run, valid.pc_valid, valid.apart⟩,
    kept.unrefused, ?_⟩
  have decoded : memory.session.decoded = state.memory.session.decoded := by rw [session]
  exact owned_consumer_quiet kept.owned rfl kept.owned.recycled rfl slots accepted obtained decoded

theorem init_rings_eq_iff (rings : PoolRing → RingBuffer Nat capacity) :
    FramePool.initRings rings = rings ↔
      rings .free = ⟨0, capacity.size, fun cell => cell.val⟩ ∧
        (rings .ready).head = 0 ∧ (rings .ready).tail = 0 := by
  constructor
  · intro same
    refine ⟨?_, ?_, ?_⟩
    · rw [← congrFun same .free]
      exact init_free_eq rings
    · rw [← congrFun same .ready]
      rfl
    · rw [← congrFun same .ready]
      rfl
  · rintro ⟨free, head, tail⟩
    funext name
    cases name with
    | free => rw [init_free_eq, free]
    | ready =>
        show (rings .ready).reset = rings .ready
        generalize rings .ready = ring at head tail
        cases ring
        cases head
        cases tail
        rfl

/-- The threads of a new session over a pool just initialised. -/
theorem engine_kept_start (rings : PoolRing → RingBuffer Nat capacity)
    (start : state.ring = FramePool.initRings rings) (memory : Memory)
    (same : state.memory = memory.restarted) (server : state.server = .loopTest)
    (consumer : state.consumer = .loopTest) (idle : ∀ thread, state.pc thread = none) :
    EngineKept state := by
  have contents : ∀ name, (queueView state).queue name =
      (FramePool.initRings rings name).contents := fun name =>
    congrArg RingBuffer.contents (congrFun start name)
  refine ⟨fine_valid_of_idle ?_ idle, ?_, ?_⟩
  · intro name
    rw [show state.shared name = _ from congrFun start name]
    exact init_bounded rings name
  · rw [server]
    rfl
  · unfold StateOwned
    rw [show (queueView state).server = state.server from decided_location_idle (idle .server),
      show (queueView state).consumer = state.consumer from decided_location_idle (idle .consumer),
      show (queueView state).memory = state.memory from rfl, server, consumer, same]
    exact owned_begin ((contents .free).trans (init_free rings).1)
      ((contents .ready).trans (init_ready rings)) rfl rfl rfl

end Steps

/-! ## What every step keeps -/

/-- A thread that is done has finished, and one that is not is joinable. -/
structure LifeKept (life : Life order capacity) : Prop where
  engine : life.ioJoinable = true ∨ life.consumerJoinable = true → EngineKept life.engine
  server_alive : life.engine.server ≠ .finished → life.ioJoinable = true
  consumer_alive : life.engine.consumer ≠ .finished → life.consumerJoinable = true
  stopping : life.engine.control ≠ .returned → life.consumerJoinable = true
  joined : life.consumerJoinable = true → life.ioJoinable = true ∨ life.engine.control = .joinConsumer
  flagged : life.engine.memory.handleRunning = true → life.ioJoinable = true
  cleared : life.engine.control = .wake ∨ life.engine.control = .joinServer →
    life.engine.memory.handleRunning = false
  server_done : life.engine.memory.serverDone = true → life.engine.server = .finished
  consumer_done : life.engine.memory.consumerDone = true → life.engine.consumer = .finished

/-! ## The flags -/

section Flags

variable {memory after : Memory} {input : Input}

theorem server_effect_flags {server next : ServerLocation}
    {effect : Memory → Input → Option (Memory × ServerLocation)}
    (action : serverAction server = .memory effect)
    (result : effect memory input = some (after, next)) :
    (after.handleRunning = true → memory.handleRunning = true) ∧
      after.consumerDone = memory.consumerDone ∧
      (after.serverDone = true → memory.serverDone = true ∨ next = .finished) := by
  cases server with
  | wait =>
      cases action
      simp only at result
      split at result
      · cases result
        exact ⟨id, rfl, .inl⟩
      · cases result
        exact ⟨id, rfl, .inl⟩
      · cases result
        exact ⟨id, rfl, .inl⟩
      · split_ifs at result
        cases result
        exact ⟨id, rfl, .inl⟩
      · cases result
  | dispatch events =>
      cases action
      have moved : dispatchNext memory events = (after, next) := Option.some.inj result
      unfold dispatchNext at moved
      split at moved <;> cases moved
      · exact ⟨id, rfl, .inl⟩
      · exact ⟨nofun, rfl, .inl⟩
      · exact ⟨id, rfl, .inl⟩
      · exact ⟨nofun, rfl, .inl⟩
      · exact ⟨id, rfl, .inl⟩
  | receive events =>
      cases action
      simp only at result
      split at result
      · unfold receiveReply at result
        split at result
        · split_ifs at result
          cases result
          exact ⟨id, rfl, .inl⟩
        all_goals
          cases result
          exact ⟨id, rfl, .inl⟩
      · cases result
  | leave =>
      cases action
      cases result
      exact ⟨id, rfl, fun _ => .inr rfl⟩
  | takeSlot events datagram batch => cases action
  | publish events idx batch => cases action
  | giveBack events idx batch => cases action
  | finished => cases action
  | _ =>
      cases action
      cases result
      exact ⟨id, rfl, .inl⟩

theorem consumer_effect_flags {consumer next : ConsumerLocation}
    {effect : Memory → Input → Option (Memory × ConsumerLocation)}
    (action : consumerAction order consumer = .memory effect)
    (result : effect memory input = some (after, next)) :
    after.handleRunning = memory.handleRunning ∧ after.serverDone = memory.serverDone ∧
      (after.consumerDone = true → memory.consumerDone = true ∨ next = .finished) := by
  cases consumer with
  | leave =>
      cases action
      cases result
      exact ⟨rfl, rfl, fun _ => .inr rfl⟩
  | emptyTest => cases action
  | take => cases action
  | recycle idx => cases action
  | finished => cases action
  | _ =>
      cases action
      cases result
      exact ⟨rfl, rfl, .inl⟩

/-- A join waits for its thread, and the last one ends the call. -/
theorem control_effect_flags {control next : ControlLocation}
    {effect : Memory → Input → Option (Memory × ControlLocation)}
    (action : controlAction control = .memory effect)
    (result : effect memory input = some (after, next)) :
    (after.serverDone = memory.serverDone ∧ after.consumerDone = memory.consumerDone) ∧
      (after.handleRunning = true → memory.handleRunning = true) ∧
      (next = .wake → memory.handleRunning = true ∧ after.handleRunning = false) ∧
      (next = .joinServer → control = .wake) ∧
      (control = .joinServer → memory.serverDone = true ∧ next = .joinConsumer) ∧
      (control = .joinConsumer → memory.consumerDone = true ∧ next = .returned) := by
  cases control with
  | clearRunning =>
      cases action
      cases result
      exact ⟨⟨rfl, rfl⟩, id, nofun, nofun, nofun, nofun⟩
  | exchange =>
      cases action
      cases running : memory.handleRunning with
      | true =>
          simp only [running, ↓reduceIte] at result
          cases result
          exact ⟨⟨rfl, rfl⟩, nofun, fun _ => ⟨rfl, rfl⟩, nofun, nofun, nofun⟩
      | false =>
          simp only [running, Bool.false_eq_true, ↓reduceIte] at result
          cases result
          exact ⟨⟨rfl, rfl⟩, nofun, nofun, nofun, nofun, nofun⟩
  | wake =>
      cases action
      cases result
      exact ⟨⟨rfl, rfl⟩, id, nofun, fun _ => rfl, nofun, nofun⟩
  | joinServer =>
      cases action
      simp only at result
      split_ifs at result with done
      cases result
      exact ⟨⟨rfl, rfl⟩, id, nofun, nofun, fun _ => ⟨done, rfl⟩, nofun⟩
  | joinConsumer =>
      cases action
      simp only at result
      split_ifs at result with done
      cases result
      exact ⟨⟨rfl, rfl⟩, id, nofun, nofun, nofun, fun _ => ⟨done, rfl⟩⟩
  | returned => cases action

end Flags

section Life

variable {life next : Life order capacity}

theorem life_kept_initial (initial : life.Initial) : LifeKept life := by
  obtain ⟨server, consumer, control⟩ := initial.threads
  refine ⟨?_, fun alive => absurd server alive, fun alive => absurd consumer alive,
    fun stopping => absurd control stopping, ?_, ?_, fun _ => initial.flags.2, fun _ => server,
    fun _ => consumer⟩
  · rw [initial.joinable.1, initial.joinable.2]
    rintro (impossible | impossible) <;> cases impossible
  · rw [initial.joinable.2]
    exact nofun
  · rw [initial.flags.2]
    exact nofun

theorem life_kept_set_up (kept : LifeKept life) (ok : Bool) : LifeKept (life.setUpStep ok) := by
  refine ⟨fun live => engine_kept_memory (kept.engine live) rfl rfl rfl rfl, kept.server_alive,
    kept.consumer_alive, kept.stopping, kept.joined, ?_, ?_, kept.server_done, kept.consumer_done⟩
  · intro running
    exact kept.flagged (Bool.and_eq_true_iff.mp running).1
  · intro clearing
    show (life.engine.memory.handleRunning && ok) = false
    rw [kept.cleared clearing, Bool.false_and]

/-- A memory with `running_` stored. -/
theorem life_kept_running (kept : LifeKept life) (running : Bool) :
    LifeKept { life with
      engine := { life.engine with memory := { life.engine.memory with running := running } } } :=
  ⟨fun live => engine_kept_memory (kept.engine live) rfl rfl rfl rfl, kept.server_alive,
    kept.consumer_alive, kept.stopping, kept.joined, kept.flagged, kept.cleared, kept.server_done,
    kept.consumer_done⟩

theorem life_kept_server (kept : LifeKept life) {input : Input} {engine : State order capacity}
    (taken : fineStep (program order) life.engine (.server, input) = some engine) :
    LifeKept { life with engine := engine } := by
  obtain ⟨others, memory⟩ := fine_step_frame (program order) taken
  have consumer : engine.consumer = life.engine.consumer := others .consumer nofun
  have control : engine.control = life.engine.control := others .control nofun
  have alive : life.engine.server ≠ .finished := by
    intro finished
    apply fine_step_not_halted (program order) taken
    show serverAction life.engine.server = .halt
    rw [finished]
    rfl
  have joinable := kept.server_alive alive
  have flags : (engine.memory.handleRunning = true → life.engine.memory.handleRunning = true) ∧
      engine.memory.consumerDone = life.engine.memory.consumerDone ∧
      (engine.memory.serverDone = true →
        life.engine.memory.serverDone = true ∨ engine.server = .finished) := by
    rcases memory with ⟨_, _, -, same⟩ | ⟨effect, location, action, result, at_⟩
    · rw [same]
      exact ⟨id, rfl, .inl⟩
    · rw [show engine.server = location from at_]
      exact server_effect_flags action result
  refine ⟨fun _ => engine_kept_step (kept.engine (.inl joinable)) taken, fun _ => joinable, ?_, ?_,
    fun _ => .inl joinable, fun _ => joinable, ?_, ?_, ?_⟩
  · rw [consumer]
    exact kept.consumer_alive
  · rw [control]
    exact kept.stopping
  · rw [control]
    intro clearing
    rw [Bool.eq_false_iff]
    intro running
    exact absurd ((kept.cleared clearing).symm.trans (flags.1 running)) Bool.false_ne_true
  · intro done
    rcases flags.2.2 done with before | finished
    · exact absurd (kept.server_done before) alive
    · exact finished
  · rw [flags.2.1, consumer]
    exact kept.consumer_done

theorem life_kept_consumer (kept : LifeKept life) {input : Input} {engine : State order capacity}
    (taken : fineStep (program order) life.engine (.consumer, input) = some engine) :
    LifeKept { life with engine := engine } := by
  obtain ⟨others, memory⟩ := fine_step_frame (program order) taken
  have server : engine.server = life.engine.server := others .server nofun
  have control : engine.control = life.engine.control := others .control nofun
  have alive : life.engine.consumer ≠ .finished := by
    intro finished
    apply fine_step_not_halted (program order) taken
    show consumerAction order life.engine.consumer = .halt
    rw [finished]
    rfl
  have joinable := kept.consumer_alive alive
  have flags : engine.memory.handleRunning = life.engine.memory.handleRunning ∧
      engine.memory.serverDone = life.engine.memory.serverDone ∧
      (engine.memory.consumerDone = true →
        life.engine.memory.consumerDone = true ∨ engine.consumer = .finished) := by
    rcases memory with ⟨_, _, -, same⟩ | ⟨effect, location, action, result, at_⟩
    · rw [same]
      exact ⟨rfl, rfl, .inl⟩
    · rw [show engine.consumer = location from at_]
      exact consumer_effect_flags action result
  refine ⟨fun _ => engine_kept_step (kept.engine (.inr joinable)) taken, ?_, fun _ => joinable, ?_,
    ?_, ?_, ?_, ?_, ?_⟩
  · rw [server]
    exact kept.server_alive
  · rw [control]
    exact kept.stopping
  · rw [control]
    exact kept.joined
  · rw [flags.1]
    exact kept.flagged
  · rw [control, flags.1]
    exact kept.cleared
  · rw [flags.2.1, server]
    exact kept.server_done
  · intro done
    rcases flags.2.2 done with before | finished
    · exact absurd (kept.consumer_done before) alive
    · exact finished

theorem control_step_memory {state engine : State order capacity} {input : Input}
    (taken : fineStep (program order) state (.control, input) = some engine) :
    ∃ effect, controlAction state.control = .memory effect ∧
      effect state.memory input = some (engine.memory, engine.control) := by
  obtain ⟨-, ⟨call, after, action, -⟩ | ⟨effect, location, action, result, at_⟩⟩ :=
    fine_step_frame (program order) taken
  · change controlAction state.control = .call call after at action
    cases at_ : state.control <;> rw [at_] at action <;> cases action
  · rw [← show engine.control = location from at_] at result
    exact ⟨effect, action, result⟩

theorem life_kept_control (kept : LifeKept life) {input : Input}
    (taken : life.threadStep input .control = some next) : LifeKept next := by
  obtain ⟨engine, moved, rfl⟩ := Option.map_eq_some_iff.mp taken
  obtain ⟨others, -⟩ := fine_step_frame (program order) moved
  have server : engine.server = life.engine.server := others .server nofun
  have consumer : engine.consumer = life.engine.consumer := others .consumer nofun
  obtain ⟨effect, action, result⟩ := control_step_memory moved
  have stopping : life.engine.control ≠ .returned := by
    intro returned
    rw [returned] at action
    cases action
  obtain ⟨done, flag, woken, waking, serverJoined, consumerJoined⟩ :=
    control_effect_flags action result
  have joinable := kept.stopping stopping
  have joinServer : life.engine.server ≠ .finished → life.engine.control ≠ .joinServer := by
    intro alive joining
    exact alive (kept.server_done (serverJoined joining).1)
  have joinConsumer : life.engine.consumer ≠ .finished → life.engine.control ≠ .joinConsumer := by
    intro alive joining
    exact alive (kept.consumer_done (consumerJoined joining).1)
  have stopped : ∀ point, life.engine.control = point → (point = .wake ∨ point = .joinServer) →
      engine.memory.handleRunning = false := by
    intro point at_ clearing
    rw [Bool.eq_false_iff]
    intro running
    rw [← at_] at clearing
    exact absurd ((kept.cleared clearing).symm.trans (flag running)) Bool.false_ne_true
  refine ⟨fun _ => engine_kept_step (kept.engine (.inr joinable)) moved, ?_, ?_, ?_, ?_, ?_, ?_, ?_,
    ?_⟩
  · rw [server]
    intro alive
    exact Bool.and_eq_true_iff.mpr ⟨kept.server_alive alive, bne_iff_ne.mpr (joinServer alive)⟩
  · rw [consumer]
    intro alive
    exact Bool.and_eq_true_iff.mpr ⟨joinable, bne_iff_ne.mpr (joinConsumer alive)⟩
  · intro going
    refine Bool.and_eq_true_iff.mpr ⟨joinable, bne_iff_ne.mpr ?_⟩
    intro joining
    exact going (consumerJoined joining).2
  · intro live
    obtain ⟨-, notJoining⟩ := Bool.and_eq_true_iff.mp live
    by_cases joining : life.engine.control = .joinServer
    · exact .inr (serverJoined joining).2
    · rcases kept.joined joinable with io | consumerNext
      · exact .inl (Bool.and_eq_true_iff.mpr ⟨io, bne_iff_ne.mpr joining⟩)
      · exact absurd consumerNext (bne_iff_ne.mp notJoining)
  · intro running
    have before := flag running
    refine Bool.and_eq_true_iff.mpr ⟨kept.flagged before, bne_iff_ne.mpr ?_⟩
    intro joining
    exact absurd ((kept.cleared (.inr joining)).symm.trans before) Bool.false_ne_true
  · rintro (atWake | atJoin)
    · exact (woken atWake).2
    · exact stopped _ (waking atJoin) (.inl rfl)
  · rw [done.1, server]
    exact kept.server_done
  · rw [done.2, consumer]
    exact kept.consumer_done

theorem life_kept_thread (kept : LifeKept life) {thread : Thread} {input : Input}
    (taken : life.threadStep input thread = some next) : LifeKept next := by
  cases thread with
  | server =>
      simp only [Life.threadStep] at taken
      split_ifs at taken
      obtain ⟨engine, moved, rfl⟩ := Option.map_eq_some_iff.mp taken
      exact life_kept_server kept moved
  | consumer =>
      obtain ⟨engine, moved, rfl⟩ := Option.map_eq_some_iff.mp taken
      exact life_kept_consumer kept moved
  | control => exact life_kept_control kept taken

/-- A session that has begun over a new pool. -/
theorem life_kept_begun (rings : PoolRing → RingBuffer Nat capacity)
    (initialised : life.engine.ring = FramePool.initRings rings) : LifeKept life.begun := by
  have kept : EngineKept { life.begun.engine with memory := life.engine.memory.restarted } :=
    engine_kept_start rings initialised life.engine.memory rfl rfl rfl fun _ => rfl
  refine ⟨fun _ => engine_kept_memory kept rfl rfl rfl rfl, fun _ => rfl, fun _ => rfl,
    fun _ => rfl, fun _ => .inl rfl, fun _ => rfl, ?_, nofun, nofun⟩
  rintro (impossible | impossible) <;> cases impossible

end Life

def newLife : Life .little kPoolCapacity where
  engine :=
    { shared := fun _ => ⟨0, 0, fun _ => 0⟩
      memory :=
        { startMemory fun _ => Vector.replicate kWireSize 0 with
          running := false, handleRunning := false }
      location := fun
        | .server => ServerLocation.finished
        | .consumer => ConsumerLocation.finished
        | .control => ControlLocation.returned
      pc := fun _ => none }
  settingUp := false
  ioJoinable := false
  consumerJoinable := false
  call := none
  rejections := []

theorem new_life_initial : newLife.Initial :=
  ⟨fun _ => ⟨rfl, rfl⟩, ⟨rfl, rfl, rfl⟩, ⟨rfl, rfl⟩, rfl, rfl, ⟨rfl, rfl⟩, ⟨rfl, rfl⟩⟩

/-- The engine with its threads started and set up, over the rings of a new pool. -/
def startedLife : Life .little kPoolCapacity :=
  { newLife.started with
    engine := { newLife.started.engine with shared := freshState.shared }
    settingUp := false }

theorem started_life_reached : Reaches (lives .little kPoolCapacity) startedLife := by
  have begun : Reaches (lives .little kPoolCapacity) newLife := reaches_start new_life_initial
  have starts : newLife.run = .started newLife.started := rfl
  have started := (reaches_run_alone (fun _ _ => trivial) begun trivial rfl).2 _ starts
  have ready : (lives .little kPoolCapacity).step newLife.started (.setUp true) =
      some { newLife.started with settingUp := false } := rfl
  have rings : FramePool.initRings newLife.engine.ring = freshState.shared := by
    funext name
    cases name with
    | free => exact init_free_eq _
    | ready => rfl
  have same : ({ newLife.started with settingUp := false } : Life .little kPoolCapacity) =
      startedLife := by
    unfold startedLife
    rw [← rings]
    rfl
  rw [← same]
  exact reaches_step started ready

end MarketDataEngine.EngineV1
