import MarketDataEngine.EngineV1Lifecycle

/-!
# Calls of `run()` that are rejected

A rejected call has stored `running_` twice and initialised the pool. If the rings are as
`pool_.init()` leaves them when it begins, and the I/O thread takes no slot before it returns,
then every access stores what is there already or a later one puts it back. The threads read
nothing of the pool meanwhile except that `ready` is empty.
-/

namespace MarketDataEngine.EngineV1

open MarketDataEngine.Protocol MarketDataEngine.Containers MarketDataEngine.Engine
open MarketDataEngine.TransitionSystem MarketDataEngine.SteppedObject

set_option autoImplicit false

variable {order : ByteOrder} {capacity : Capacity}

structure SameEngine (before after : State order capacity) : Prop where
  running : after.memory.running = before.memory.running
  rings : after.ring = before.ring
  slots : after.memory.slots = before.memory.slots
  held : after.server.held = before.server.held ∧ after.consumer.held = before.consumer.held
  tracker : after.memory.session.tracker = before.memory.session.tracker

/-- The handle is not running and no `stop()` is between its exchange and its return. -/
def Startable (state : State order capacity) : Prop :=
  state.memory.handleRunning = false ∧ state.control ≠ .wake ∧ state.control ≠ .joinServer ∧
    state.control ≠ .joinConsumer

/-- A call begins when it can start, or when `running_` is false and the pool as new; then the
I/O thread takes no slot until it has returned. -/
def HarmlessRun (life : Life order capacity) : LifeLabel → Prop
  | .run => life.call = none →
      Startable life.engine ∨ (life.engine.memory.running = false ∧ RingsNew life.engine.ring)
  | .thread .server _ => ∀ call, life.call = some call → ¬ Startable call.before →
      ∀ events datagram batch, life.engine.server ≠ .takeSlot events datagram batch
  | _ => True

/-! ## A pool that is as new -/

section New

variable {state next : State order capacity}

theorem nothing_held (kept : EngineKept state) (new : RingsNew state.ring) :
    state.server.held = [] ∧ state.consumer.held = [] := by
  have length := (one_place_of_kept kept).length_eq.trans List.length_range
  have free : (state.ring .free).contents.length = capacity.val := by
    rw [← (init_rings_eq_iff state.ring).mpr new, (init_free state.ring).1]
    exact List.length_range
  rw [List.length_append, List.length_append, List.length_append, free] at length
  constructor
  · apply List.eq_nil_of_length_eq_zero
    omega
  · apply List.eq_nil_of_length_eq_zero
    omega

theorem one_place_of_new (new : RingsNew state.ring)
    (held : state.server.held = [] ∧ state.consumer.held = []) : OnePlaceEach state := by
  have rings := (init_rings_eq_iff state.ring).mpr new
  unfold OnePlaceEach
  rw [← rings, (init_free state.ring).1, init_ready, held.1, held.2, List.append_nil,
    List.append_nil, List.append_nil]

theorem new_ready_empty {rings : PoolRing → RingBuffer Nat capacity} (new : RingsNew rings) :
    (rings .ready).count = 0 := by
  unfold RingBuffer.count
  rw [new.2.1, new.2.2]
  rfl

/-- A pop of an empty ring writes nothing. -/
theorem pop_step_of_empty {ring : RingBuffer Nat capacity} (empty : ring.count = 0)
    {pc : Option (RingPc Nat)} (known : ∀ current, pc = some current → PopValid ring current) :
    (popStep ring pc).1 = ring := by
  cases pc with
  | none => rfl
  | some pc =>
      have valid := known pc rfl
      cases pc with
      | headLoaded h => rfl
      | tailLoaded h t =>
          simp only [popStep]
          split_ifs with same
          · rfl
          · rfl
      | admitted h => rfl
      | written t => rfl
      | cellRead h data =>
          obtain ⟨-, stored, -⟩ := valid
          omega

/-- Two families of rings answer a call alike that reads the same ring of both and writes
nothing. -/
theorem pop_step_alike {left right : PoolRing → RingBuffer Nat capacity} {name : PoolRing}
    (same : left name = right name) {pc : Option (RingPc Nat)}
    (unwritten : (popStep (right name) pc).1 = right name) :
    ∃ result, ringStep left (.pop name) pc = (left, result) ∧
      ringStep right (.pop name) pc = (right, result) := by
  refine ⟨(popStep (right name) pc).2, ?_, ?_⟩
  · simp only [ringStep]
    rw [same, unwritten, ← same, Function.update_eq_self]
  · simp only [ringStep]
    rw [unwritten, Function.update_eq_self]

theorem empty_step_alike {left right : PoolRing → RingBuffer Nat capacity} {name : PoolRing}
    (same : left name = right name) (pc : Option (RingPc Nat)) :
    ∃ result, ringStep left (.empty name) pc = (left, result) ∧
      ringStep right (.empty name) pc = (right, result) := by
  refine ⟨(emptyStep (right name) pc).2, ?_, ?_⟩
  · simp only [ringStep]
    rw [same, empty_step_ring, ← same, Function.update_eq_self]
  · simp only [ringStep]
    rw [empty_step_ring, Function.update_eq_self]

/-- What a thread that holds no slot and takes none may do. -/
inductive QuietAction {Location : Type} : EngineAction Location → Prop where
  | halt : QuietAction .halt
  | memory {effect : Memory → Input → Option (Memory × Location)}
      (frame : ∀ memory input after location, effect memory input = some (after, location) →
        after.slots = memory.slots ∧ after.session.tracker = memory.session.tracker) :
      QuietAction (.memory effect)
  | pop (returned : Option Nat → Location) : QuietAction (.call (.pop .ready) returned)
  | empty (returned : Bool → Location) : QuietAction (.call (.empty .ready) returned)

theorem server_quiet {server : ServerLocation} (held : server.held = [])
    (taking : ∀ events datagram batch, server ≠ .takeSlot events datagram batch) :
    QuietAction (serverAction server) := by
  have effects : ∀ effect, serverAction server = .memory effect →
      QuietAction (.memory effect : EngineAction ServerLocation) := by
    intro effect action
    refine .memory ?_
    intro memory input after location result
    rcases server_effect_cases action result with ⟨slots, session⟩ | dropped |
      ⟨events, idx, datagram, batch, at_, -⟩
    · exact ⟨slots, congrArg Session.tracker session⟩
    · rw [dropped]
      exact ⟨rfl, rfl⟩
    · rw [at_] at held
      cases held
  cases server with
  | takeSlot events datagram batch => exact absurd rfl (taking events datagram batch)
  | publish events idx batch => cases held
  | giveBack events idx batch => cases held
  | finished => exact .halt
  | _ => exact effects _ rfl

theorem consumer_quiet {consumer : ConsumerLocation} (held : consumer.held = []) :
    QuietAction (consumerAction order consumer) := by
  cases consumer with
  | emptyTest => exact .empty _
  | take => exact .pop _
  | stage idx point => cases held
  | recycle idx => cases held
  | finished => exact .halt
  | _ =>
      refine .memory ?_
      intro memory input after location result
      cases result
      exact ⟨rfl, rfl⟩

theorem control_quiet (control : ControlLocation) : QuietAction (controlAction control) := by
  have effects : ∀ effect, controlAction control = .memory effect →
      QuietAction (.memory effect : EngineAction ControlLocation) := by
    intro effect action
    refine .memory ?_
    intro memory input after location result
    obtain ⟨slots, session⟩ := control_effect_frame action result
    exact ⟨slots, congrArg Session.tracker session⟩
  cases control with
  | returned => exact .halt
  | _ => exact effects _ rfl

/-- The engine over other rings. -/
def State.over (state : State order capacity) (rings : PoolRing → RingBuffer Nat capacity) :
    State order capacity :=
  { state with shared := rings }

/-- A call that writes nothing and is answered alike by two objects. -/
theorem call_step_over {rings : PoolRing → RingBuffer Nat capacity} {thread : Thread}
    {call : PoolCall} {returned : RingRet call → (program order).Location thread}
    {result : RingPc Nat ⊕ RingRet call}
    (left : ringStep state.shared call (state.pc thread) = (state.shared, result))
    (right : ringStep rings call (state.pc thread) = (rings, result)) :
    callStep (program order) (state.over rings) thread call returned =
        State.over (callStep (program order) state thread call returned) rings ∧
      (callStep (program order) state thread call returned).shared = state.shared := by
  change (ringObject PoolRing Nat capacity).step state.shared call (state.pc thread) = _ at left
  change (ringObject PoolRing Nat capacity).step rings call (state.pc thread) = _ at right
  unfold callStep State.over
  rw [left, right]
  exact ⟨rfl, rfl⟩

/-- While the pool is being initialised over itself, the threads do what they would do
without. -/
theorem quiet_step {rings : PoolRing → RingBuffer Nat capacity}
    (kept : EngineKept (state.over rings)) (new : RingsNew rings)
    (ready : state.ring .ready = rings .ready) {thread : Thread} {input : Input}
    (taking : thread = .server →
      ∀ events datagram batch, state.server ≠ .takeSlot events datagram batch)
    (taken : fineStep (program order) state (thread, input) = some next) :
    fineStep (program order) (state.over rings) (thread, input) = some (next.over rings) ∧
      next.ring = state.ring ∧ next.memory.slots = state.memory.slots ∧
      next.memory.session.tracker = state.memory.session.tracker := by
  obtain ⟨server, consumer⟩ := nothing_held kept new
  have quiet : QuietAction ((program order).action thread (state.location thread)) := by
    cases thread with
    | server => exact server_quiet server (taking rfl)
    | consumer => exact consumer_quiet consumer
    | control => exact control_quiet _
  have known : ∀ call returned,
      (program order).action thread (state.location thread) = .call call returned →
      ∀ current, state.pc thread = some current → ringPcValid rings call current := by
    intro call returned action current running
    exact kept.valid.pc_valid thread call current ⟨⟨returned, action⟩, running⟩
  unfold fineStep at taken ⊢
  cases action : (program order).action thread (state.location thread) with
  | halt => simp only [action, reduceCtorEq] at taken
  | memory effect =>
      have alike : (program order).action thread ((state.over rings).location thread) =
          .memory effect := action
      rw [action] at quiet
      cases quiet with
      | memory frame =>
          simp only [action] at taken
          simp only [alike]
          obtain ⟨⟨memory, location⟩, result, rfl⟩ := Option.map_eq_some_iff.mp taken
          obtain ⟨slots, tracker⟩ := frame _ _ _ _ result
          exact ⟨Option.map_eq_some_iff.mpr ⟨_, result, rfl⟩, rfl, slots, tracker⟩
  | call call returned =>
      have alike : (program order).action thread ((state.over rings).location thread) =
          .call call returned := action
      have running := known call returned action
      simp only [action] at taken
      simp only [alike]
      cases taken
      have unwritten : ∃ result, ringStep state.shared call (state.pc thread) =
          (state.shared, result) ∧ ringStep rings call (state.pc thread) = (rings, result) := by
        rw [action] at quiet
        cases quiet with
        | pop =>
            exact pop_step_alike ready (pop_step_of_empty (new_ready_empty new) running)
        | empty => exact empty_step_alike ready _
      obtain ⟨result, left, right⟩ := unwritten
      obtain ⟨same, kept_⟩ := call_step_over left right
      exact ⟨congrArg some same, kept_, rfl, rfl⟩

end New

/-! ## A call under way -/

/-- What the rest of the call will have made of the rings if nothing comes between. -/
def RunPoint.rest : RunPoint → (PoolRing → RingBuffer Nat capacity) →
    PoolRing → RingBuffer Nat capacity
  | .init point, rings => FramePool.initRest rings point
  | .refuse, rings => rings
  | .start, rings => rings

def Life.over (life : Life order capacity) (rings : PoolRing → RingBuffer Nat capacity) :
    Life order capacity :=
  { life with engine := life.engine.over rings }

/-- No thread is left. -/
structure AloneCall (life : Life order capacity) (call : RunCall order capacity) : Prop where
  joinable : life.ioJoinable = false ∧ life.consumerJoinable = false
  threads : life.engine.server = .finished ∧ life.engine.consumer = .finished ∧
    life.engine.control = .returned
  stopped : life.engine.memory.handleRunning = false
  going : call.point ≠ .refuse
  rest : ∃ rings, call.point.rest life.engine.ring = FramePool.initRings rings

/-- The I/O thread has left its loop and nobody will join it: the call ends in
`std::terminate`. -/
structure DoomedCall (life : Life order capacity) (call : RunCall order capacity) : Prop where
  joinable : life.ioJoinable = true
  passed : life.engine.control ≠ .wake ∧ life.engine.control ≠ .joinServer
  stopped : life.engine.memory.handleRunning = false
  going : call.point ≠ .refuse

/-- The pool is initialised over itself. -/
structure UntouchedCall (life : Life order capacity) (call : RunCall order capacity) : Prop where
  running : call.before.memory.running = false
  new : RingsNew call.before.ring
  held : call.before.server.held = [] ∧ call.before.consumer.held = []
  kept : LifeKept (life.over call.before.ring)
  rest : call.point.rest life.engine.ring = call.before.ring
  ready : life.engine.ring .ready = call.before.ring .ready
  slots : life.engine.memory.slots = call.before.memory.slots
  tracker : life.engine.memory.session.tracker = call.before.memory.session.tracker

def CallKept (life : Life order capacity) (call : RunCall order capacity) : Prop :=
  (Startable call.before ∧ (AloneCall life call ∨ DoomedCall life call)) ∨
    (¬ Startable call.before ∧ UntouchedCall life call)

/-- What every step keeps, in a call or outside. -/
structure RunsKept (life : Life order capacity) : Prop where
  outside : life.call = none → LifeKept life
  inside : ∀ call, life.call = some call → CallKept life call
  rejected : ∀ rejection ∈ life.rejections,
    SameEngine rejection.1 rejection.2 ∧ OnePlaceEach rejection.2

section Calls

variable {life next : Life order capacity} {call : RunCall order capacity}

theorem life_kept_congr {other : Life order capacity} (kept : LifeKept life)
    (engine : other.engine = life.engine) (io : other.ioJoinable = life.ioJoinable)
    (consumer : other.consumerJoinable = life.consumerJoinable) : LifeKept other := by
  obtain ⟨live, server, consumer_, stopping, joined, flagged, cleared, serverDone, consumerDone⟩ :=
    kept
  rw [← engine] at live server consumer_ stopping joined flagged cleared serverDone consumerDone
  rw [← io] at live server joined flagged
  rw [← consumer] at live consumer_ stopping joined
  exact ⟨live, server, consumer_, stopping, joined, flagged, cleared, serverDone, consumerDone⟩

theorem threads_left (kept : LifeKept life) (io : life.ioJoinable = false)
    (consumer : life.consumerJoinable = false) :
    life.engine.server = .finished ∧ life.engine.consumer = .finished ∧
      life.engine.control = .returned := by
  refine ⟨?_, ?_, ?_⟩
  · by_contra alive
    exact absurd (io.symm.trans (kept.server_alive alive)) Bool.false_ne_true
  · by_contra alive
    exact absurd (consumer.symm.trans (kept.consumer_alive alive)) Bool.false_ne_true
  · by_contra alive
    exact absurd (consumer.symm.trans (kept.stopping alive)) Bool.false_ne_true

theorem nothing_held_of_new (kept : LifeKept life) (new : RingsNew life.engine.ring) :
    life.engine.server.held = [] ∧ life.engine.consumer.held = [] := by
  by_cases live : life.ioJoinable = true ∨ life.consumerJoinable = true
  · exact nothing_held (kept.engine live) new
  · obtain ⟨io, consumer⟩ := not_or.mp live
    obtain ⟨server, consumer_, -⟩ :=
      threads_left kept (Bool.eq_false_iff.mpr io) (Bool.eq_false_iff.mpr consumer)
    rw [server, consumer_]
    exact ⟨rfl, rfl⟩

/-! ### The accesses of the call -/

theorem call_kept_entered (kept : LifeKept life) (outside : life.call = none)
    (harmless : HarmlessRun life .run) :
    CallKept life.entered ⟨.init (.resetHead .free), life.engine⟩ := by
  have running := life_kept_running kept true
  rcases Classical.em (Startable life.engine) with startable | unstartable
  · refine .inl ⟨startable, ?_⟩
    obtain ⟨stopped, notWaking, notJoining, notLast⟩ := startable
    cases io : life.ioJoinable with
    | true => exact .inr ⟨io, ⟨notWaking, notJoining⟩, stopped, nofun⟩
    | false =>
        have consumer : life.consumerJoinable = false := by
          rw [Bool.eq_false_iff]
          intro joinable
          rcases kept.joined joinable with live | last
          · exact absurd (io.symm.trans live) Bool.false_ne_true
          · exact notLast last
        have left := threads_left kept io consumer
        exact .inl ⟨⟨io, consumer⟩, left, stopped, nofun,
          life.engine.ring, FramePool.init_rest_begin _⟩
  · obtain ⟨stopped, new⟩ := (harmless outside).resolve_left unstartable
    refine .inr ⟨unstartable, stopped, new, nothing_held_of_new kept new,
      life_kept_congr running rfl rfl rfl, ?_, rfl, rfl, rfl⟩
    exact (FramePool.init_rest_begin _).trans ((init_rings_eq_iff _).mpr new)

theorem call_kept_initialising (kept : CallKept life call) {point : InitPoint}
    (at_ : call.point = .init point) :
    CallKept (life.initialising call.before (FramePool.initStep life.engine.ring point).1
        (FramePool.initStep life.engine.ring point).2)
      ⟨.init (FramePool.initStep life.engine.ring point).2, call.before⟩ := by
  have rest := FramePool.init_step_rest life.engine.ring point
  rcases kept with ⟨startable, alone | doomed⟩ | ⟨unstartable, untouched⟩
  · refine .inl ⟨startable, .inl ⟨alone.joinable, alone.threads, alone.stopped, nofun, ?_⟩⟩
    obtain ⟨rings, made⟩ := alone.rest
    rw [at_] at made
    exact ⟨rings, rest.trans made⟩
  · exact .inl ⟨startable, .inr ⟨doomed.joinable, doomed.passed, doomed.stopped, nofun⟩⟩
  · have made := untouched.rest
    rw [at_] at made
    have head : (life.engine.ring .ready).head = 0 := by
      rw [untouched.ready]
      exact untouched.new.2.1
    have tail : (life.engine.ring .ready).tail = 0 := by
      rw [untouched.ready]
      exact untouched.new.2.2
    exact .inr ⟨unstartable, untouched.running, untouched.new, untouched.held,
      life_kept_congr untouched.kept rfl rfl rfl, rest.trans made,
      (FramePool.init_step_ready _ head tail point).trans untouched.ready, untouched.slots,
      untouched.tracker⟩

theorem call_kept_tested (kept : CallKept life call) (at_ : call.point = .init .done) :
    ∀ tested, (life.tested call.before).call = some tested →
      CallKept (life.tested call.before) tested := by
  intro tested same
  have before : tested.before = call.before := by
    cases same
    rfl
  have rest : ∀ rings : PoolRing → RingBuffer Nat capacity,
      tested.point.rest rings = call.point.rest rings := by
    intro rings
    cases same
    rw [at_]
    show RunPoint.rest (if _ then _ else _) rings = _
    rw [show (RunPoint.init .done).rest rings = rings from FramePool.init_rest_done rings]
    split_ifs <;> rfl
  have going : life.engine.memory.handleRunning = false → tested.point ≠ .refuse := by
    intro stopped
    cases same
    show (if _ then RunPoint.refuse else .start) ≠ .refuse
    rw [stopped]
    exact nofun
  rcases kept with ⟨startable, alone | doomed⟩ | ⟨unstartable, untouched⟩
  · rw [← before] at startable
    refine .inl ⟨startable, .inl ⟨alone.joinable, alone.threads, alone.stopped,
      going alone.stopped, ?_⟩⟩
    obtain ⟨rings, made⟩ := alone.rest
    exact ⟨rings, (rest _).trans made⟩
  · rw [← before] at startable
    exact .inl ⟨startable, .inr ⟨doomed.joinable, doomed.passed, doomed.stopped,
      going doomed.stopped⟩⟩
  · rw [← before] at unstartable
    refine .inr ⟨unstartable, ?_⟩
    obtain ⟨running, new, held, live, made, ready, slots, tracker⟩ := untouched
    rw [← before] at running new held live made ready slots tracker
    exact ⟨running, new, held, life_kept_congr live rfl rfl rfl, (rest _).trans made, ready, slots,
      tracker⟩

theorem refused_keeps (untouched : UntouchedCall life call) (at_ : call.point = .refuse) :
    LifeKept (life.refused call.before) ∧
      SameEngine call.before (life.refused call.before).engine ∧
      OnePlaceEach (life.refused call.before).engine := by
  have rings : life.engine.ring = call.before.ring := by
    have rest := untouched.rest
    rwa [at_] at rest
  have same : life.engine.over call.before.ring = life.engine := by
    unfold State.over
    rw [← rings]
    rfl
  have kept : LifeKept life :=
    life_kept_congr untouched.kept same.symm rfl rfl
  have new : RingsNew life.engine.ring := by
    rw [rings]
    exact untouched.new
  have held := nothing_held_of_new kept new
  refine ⟨life_kept_congr (life_kept_running kept false) rfl rfl rfl, ?_, ?_⟩
  · exact ⟨untouched.running.symm, rings, untouched.slots,
      ⟨held.1.trans untouched.held.1.symm, held.2.trans untouched.held.2.symm⟩, untouched.tracker⟩
  · exact one_place_of_new new held

/-- A call that gets through begins a session over a new pool. -/
theorem begun_kept (kept : CallKept life call) (at_ : call.point = .start)
    (unjoinable : ¬ (life.ioJoinable || life.consumerJoinable) = true) : LifeKept life.begun := by
  rcases kept with ⟨-, alone | doomed⟩ | ⟨-, untouched⟩
  · obtain ⟨rings, made⟩ := alone.rest
    rw [at_] at made
    exact life_kept_begun rings made
  · rw [doomed.joinable, Bool.true_or] at unjoinable
    exact absurd rfl unjoinable
  · have rest := untouched.rest
    rw [at_] at rest
    have new := (init_rings_eq_iff call.before.ring).mpr untouched.new
    exact life_kept_begun call.before.ring (rest.trans new.symm)

/-- No call is under way after a return, and before it exactly this one. -/
theorem runs_kept_called (rejected : ∀ rejection ∈ life.rejections,
      SameEngine rejection.1 rejection.2 ∧ OnePlaceEach rejection.2)
    (under : life.call = some call) (kept : CallKept life call) : RunsKept life := by
  refine ⟨?_, ?_, rejected⟩
  · intro outside
    rw [under] at outside
    cases outside
  · intro other same
    rw [under] at same
    cases same
    exact kept

theorem runs_kept_outside (rejected : ∀ rejection ∈ life.rejections,
      SameEngine rejection.1 rejection.2 ∧ OnePlaceEach rejection.2)
    (outside : life.call = none) (kept : LifeKept life) : RunsKept life := by
  refine ⟨fun _ => kept, ?_, rejected⟩
  intro other same
  rw [outside] at same
  cases same

theorem runs_kept_run (kept : RunsKept life) (harmless : HarmlessRun life .run)
    (taken : life.step .run = some next) : RunsKept next := by
  change life.runStep = some next at taken
  unfold Life.runStep at taken
  cases under : life.call with
  | none =>
      rw [under] at taken
      cases taken
      exact runs_kept_called kept.rejected rfl
        (call_kept_entered (kept.outside under) under harmless)
  | some call =>
      rw [under] at taken
      change life.advance call = some next at taken
      have inside := kept.inside call under
      unfold Life.advance at taken
      cases at_ : call.point with
      | init point =>
          rw [at_] at taken
          by_cases done : point = .done
          · rw [done] at taken at_
            cases taken
            exact runs_kept_called kept.rejected rfl (call_kept_tested inside at_ _ rfl)
          · have moved : some (life.initialising call.before
                (FramePool.initStep life.engine.ring point).1
                (FramePool.initStep life.engine.ring point).2) = some next := by
              cases point with
              | done => exact absurd rfl done
              | _ => exact taken
            cases moved
            exact runs_kept_called kept.rejected rfl (call_kept_initialising inside at_)
      | refuse =>
          rw [at_] at taken
          cases taken
          rcases inside with ⟨-, alone | doomed⟩ | ⟨-, untouched⟩
          · exact absurd at_ alone.going
          · exact absurd at_ doomed.going
          · obtain ⟨live, same, placed⟩ := refused_keeps untouched at_
            refine runs_kept_outside ?_ rfl live
            intro rejection listed
            rcases List.mem_append.mp listed with earlier | this
            · exact kept.rejected rejection earlier
            · rw [List.mem_singleton.mp this]
              exact ⟨same, placed⟩
      | start =>
          rw [at_] at taken
          change (if life.ioJoinable || life.consumerJoinable then none else some life.begun) =
            some next at taken
          split_ifs at taken with joinable
          cases taken
          exact runs_kept_outside kept.rejected rfl (begun_kept inside at_ joinable)

/-! ### The other threads -/

theorem runs_kept_set_up (kept : RunsKept life) (ok : Bool) : RunsKept (life.setUpStep ok) := by
  cases under : life.call with
  | none => exact runs_kept_outside kept.rejected under (life_kept_set_up (kept.outside under) ok)
  | some call =>
      refine runs_kept_called kept.rejected under ?_
      rcases kept.inside call under with ⟨startable, alone | doomed⟩ | ⟨unstartable, untouched⟩
      · refine .inl ⟨startable, .inl ⟨alone.joinable, alone.threads, ?_, alone.going, alone.rest⟩⟩
        show (life.engine.memory.handleRunning && ok) = false
        rw [alone.stopped, Bool.false_and]
      · refine .inl ⟨startable, .inr ⟨doomed.joinable, doomed.passed, ?_, doomed.going⟩⟩
        show (life.engine.memory.handleRunning && ok) = false
        rw [doomed.stopped, Bool.false_and]
      · exact .inr ⟨unstartable, untouched.running, untouched.new, untouched.held,
          life_kept_congr (life_kept_set_up untouched.kept ok) rfl rfl rfl, untouched.rest,
          untouched.ready, untouched.slots, untouched.tracker⟩

/-- A step of a thread is one of the engine, and the same over other rings if the engine does
the same. -/
theorem thread_step_cases {thread : Thread} {input : Input}
    (taken : life.threadStep input thread = some next) :
    fineStep (program order) life.engine (thread, input) = some next.engine ∧
      next.call = life.call ∧ next.rejections = life.rejections ∧
      ∀ rings, fineStep (program order) (life.engine.over rings) (thread, input) =
          some (next.engine.over rings) →
        (life.over rings).threadStep input thread = some (next.over rings) := by
  cases thread with
  | server =>
      simp only [Life.threadStep] at taken
      split_ifs at taken with settingUp
      obtain ⟨engine, moved, rfl⟩ := Option.map_eq_some_iff.mp taken
      refine ⟨moved, rfl, rfl, ?_⟩
      intro rings alike
      have settled : ¬ (life.over rings).settingUp = true := settingUp
      simp only [Life.threadStep]
      rw [if_neg settled]
      exact Option.map_eq_some_iff.mpr ⟨_, alike, rfl⟩
  | consumer =>
      obtain ⟨engine, moved, rfl⟩ := Option.map_eq_some_iff.mp taken
      refine ⟨moved, rfl, rfl, ?_⟩
      intro rings alike
      exact Option.map_eq_some_iff.mpr ⟨_, alike, rfl⟩
  | control =>
      obtain ⟨engine, moved, rfl⟩ := Option.map_eq_some_iff.mp taken
      refine ⟨moved, rfl, rfl, ?_⟩
      intro rings alike
      exact Option.map_eq_some_iff.mpr ⟨_, alike, rfl⟩

/-- A thread that moves is not past its join. -/
theorem moving_joinable (kept : LifeKept life) {thread : Thread}
    (moving : (program order).action thread (life.engine.location thread) ≠ .halt) :
    life.ioJoinable = true ∨ life.consumerJoinable = true := by
  by_contra gone
  obtain ⟨io, consumer⟩ := not_or.mp gone
  obtain ⟨server, consumer_, control⟩ :=
    threads_left kept (Bool.eq_false_iff.mpr io) (Bool.eq_false_iff.mpr consumer)
  apply moving
  cases thread with
  | server =>
      show serverAction life.engine.server = .halt
      rw [server]
      rfl
  | consumer =>
      show consumerAction order life.engine.consumer = .halt
      rw [consumer_]
      rfl
  | control =>
      show controlAction life.engine.control = .halt
      rw [control]
      rfl

theorem untouched_thread (kept : UntouchedCall life call) {thread : Thread} {input : Input}
    (taking : thread = .server →
      ∀ events datagram batch, life.engine.server ≠ .takeSlot events datagram batch)
    (taken : life.threadStep input thread = some next) : UntouchedCall next call := by
  obtain ⟨moved, -, -, alike⟩ := thread_step_cases taken
  have moving := fine_step_not_halted (program order) moved
  have live := moving_joinable kept.kept moving
  obtain ⟨same, rings, slots, tracker⟩ :=
    quiet_step (kept.kept.engine live) kept.new kept.ready taking moved
  refine ⟨kept.running, kept.new, kept.held, life_kept_thread kept.kept (alike _ same), ?_, ?_,
    slots.trans kept.slots, tracker.trans kept.tracker⟩
  · rw [rings]
    exact kept.rest
  · rw [rings]
    exact kept.ready

theorem doomed_thread (kept : DoomedCall life call) {thread : Thread} {input : Input}
    (taken : life.threadStep input thread = some next) : DoomedCall next call := by
  obtain ⟨joinable, passed, stopped, going⟩ := kept
  obtain ⟨moved, -⟩ := thread_step_cases taken
  obtain ⟨others, memory⟩ := fine_step_frame (program order) moved
  cases thread with
  | server =>
      simp only [Life.threadStep] at taken
      split_ifs at taken
      obtain ⟨engine, -, rfl⟩ := Option.map_eq_some_iff.mp taken
      have control : engine.control = life.engine.control := others .control Thread.noConfusion
      refine ⟨joinable, ?_, ?_, going⟩
      · show engine.control ≠ .wake ∧ engine.control ≠ .joinServer
        rw [control]
        exact passed
      · rcases memory with ⟨_, _, -, same⟩ | ⟨effect, location, action, result, -⟩
        · show engine.memory.handleRunning = false
          rw [show engine.memory = life.engine.memory from same]
          exact stopped
        · rw [Bool.eq_false_iff]
          intro running
          exact absurd (stopped.symm.trans ((server_effect_flags action result).1 running))
            Bool.false_ne_true
  | consumer =>
      obtain ⟨engine, -, rfl⟩ := Option.map_eq_some_iff.mp taken
      have control : engine.control = life.engine.control := others .control Thread.noConfusion
      refine ⟨joinable, ?_, ?_, going⟩
      · show engine.control ≠ .wake ∧ engine.control ≠ .joinServer
        rw [control]
        exact passed
      · rcases memory with ⟨_, _, -, same⟩ | ⟨effect, location, action, result, -⟩
        · show engine.memory.handleRunning = false
          rw [show engine.memory = life.engine.memory from same]
          exact stopped
        · exact (consumer_effect_flags action result).1.trans stopped
  | control =>
      obtain ⟨effect, action, result⟩ := control_step_memory moved
      obtain ⟨engine, -, rfl⟩ := Option.map_eq_some_iff.mp taken
      obtain ⟨-, flag, woken, waking, -, -⟩ := control_effect_flags action result
      refine ⟨?_, ⟨?_, ?_⟩, ?_, going⟩
      · exact Bool.and_eq_true_iff.mpr ⟨joinable, bne_iff_ne.mpr passed.2⟩
      · intro atWake
        exact absurd (stopped.symm.trans (woken atWake).1) Bool.false_ne_true
      · intro atJoin
        exact passed.1 (waking atJoin)
      · rw [Bool.eq_false_iff]
        intro running
        exact absurd (stopped.symm.trans (flag running)) Bool.false_ne_true

theorem alone_thread (kept : AloneCall life call) {thread : Thread} {input : Input} :
    life.threadStep input thread ≠ some next := by
  intro taken
  obtain ⟨moved, -⟩ := thread_step_cases taken
  apply fine_step_not_halted (program order) moved
  obtain ⟨server, consumer, control⟩ := kept.threads
  cases thread with
  | server =>
      show serverAction life.engine.server = .halt
      rw [server]
      rfl
  | consumer =>
      show consumerAction order life.engine.consumer = .halt
      rw [consumer]
      rfl
  | control =>
      show controlAction life.engine.control = .halt
      rw [control]
      rfl

theorem runs_kept_thread (kept : RunsKept life) {thread : Thread} {input : Input}
    (harmless : HarmlessRun life (.thread thread input))
    (taken : life.threadStep input thread = some next) : RunsKept next := by
  obtain ⟨-, sameCall, sameRejections, -⟩ := thread_step_cases taken
  have rejected := kept.rejected
  rw [← sameRejections] at rejected
  cases under : life.call with
  | none =>
      exact runs_kept_outside rejected (sameCall.trans under)
        (life_kept_thread (kept.outside under) taken)
  | some call =>
      refine runs_kept_called rejected (sameCall.trans under) ?_
      rcases kept.inside call under with ⟨startable, alone | doomed⟩ | ⟨unstartable, untouched⟩
      · exact absurd taken (alone_thread alone)
      · exact .inl ⟨startable, .inr (doomed_thread doomed taken)⟩
      · refine .inr ⟨unstartable, untouched_thread untouched ?_ taken⟩
        rintro rfl
        exact harmless call under unstartable

theorem runs_kept_step (kept : RunsKept life) {label : LifeLabel}
    (harmless : HarmlessRun life label) (taken : life.step label = some next) : RunsKept next := by
  cases label with
  | run => exact runs_kept_run kept harmless taken
  | setUp ok =>
      simp only [Life.step] at taken
      split_ifs at taken
      cases taken
      exact runs_kept_set_up kept ok
  | thread thread input => exact runs_kept_thread kept harmless taken

theorem runs_kept_of_reaches (reached : ReachesUnder (lives order capacity) HarmlessRun life) :
    RunsKept life := by
  refine invariant_of_step ?_ ?_ reached
  · intro state initial
    refine runs_kept_outside ?_ initial.call.1 (life_kept_initial initial)
    intro rejection listed
    rw [initial.call.2] at listed
    exact absurd listed List.not_mem_nil
  · intro state label after _ kept harmless taken
    exact runs_kept_step kept harmless taken

end Calls

/-- In every run whose calls of `run()` are harmless, each rejected call has left the engine and
the slot ownership alone; and a rejected call that nothing comes between does so exactly if
`running_` is already false and the pool as new. -/
theorem rejected_run_keeps_engine {life : Life order capacity}
    (reached : ReachesUnder (lives order capacity) HarmlessRun life) :
    (∀ rejection ∈ life.rejections,
      SameEngine rejection.1 rejection.2 ∧ OnePlaceEach rejection.2) ∧
    ∀ after, life.call = none → life.run = .rejected after →
      ((SameEngine life.engine after.engine ∧ OnePlaceEach after.engine) ↔
        life.engine.memory.running = false ∧ RingsNew life.engine.ring) := by
  have kept := runs_kept_of_reaches reached
  refine ⟨kept.rejected, ?_⟩
  intro after outside rejects
  unfold Life.run at rejects
  split_ifs at rejects
  cases rejects
  constructor
  · rintro ⟨same, -⟩
    exact ⟨same.running.symm, (init_rings_eq_iff _).mp same.rings⟩
  · rintro ⟨stopped, new⟩
    have rings : life.rejected.engine.ring = life.engine.ring := (init_rings_eq_iff _).mpr new
    have newAfter : RingsNew life.rejected.engine.ring := by
      rw [rings]
      exact new
    have held := nothing_held_of_new (kept.outside outside) new
    exact ⟨⟨stopped.symm, rings, rfl, ⟨rfl, rfl⟩, rfl⟩, one_place_of_new newAfter held⟩

/-- `run()` is called again by another thread, right after `stop()` has cleared `running_` and
before anything was received. The consumer sees `running_` set in between. -/
theorem run_rejected_during_stop :
    ∃ life before after, ReachesUnder (lives .little kPoolCapacity) HarmlessRun life ∧
      life.rejections = [(before, after)] ∧
      before.consumer = .loopTest ∧ after.consumer = .take ∧
      SameEngine before after ∧ OnePlaceEach after := by
  have moves : ∀ other : Life .little kPoolCapacity, other.call ≠ none →
      HarmlessRun other .run := fun other under outside => absurd outside under
  have begun : ReachesUnder (lives .little kPoolCapacity) HarmlessRun newLife :=
    .start new_life_initial
  have startable : HarmlessRun newLife .run := fun _ => .inl ⟨rfl, nofun, nofun, nofun⟩
  have started : ReachesUnder (lives .little kPoolCapacity) HarmlessRun newLife.started :=
    (reaches_run_alone moves begun startable rfl).2 _ rfl
  have ready : (lives .little kPoolCapacity).step newLife.started (.setUp true) =
      some (newLife.started.setUpStep true) := rfl
  have settled : ReachesUnder (lives .little kPoolCapacity) HarmlessRun
      (newLife.started.setUpStep true) :=
    started.step (show HarmlessRun _ (.setUp true) from trivial) ready
  obtain ⟨stopping, spinning, clears, turns, stopped, outside, rings, before, at_, handle, none_,
      after⟩ : ∃ stopping spinning,
      (newLife.started.setUpStep true).step (.thread .control .tick) = some stopping ∧
      stopping.entered.step (.thread .consumer .tick) = some spinning ∧
      stopping.engine.memory.running = false ∧ stopping.call = none ∧
      stopping.engine.ring = FramePool.initRings newLife.engine.ring ∧
      stopping.engine.consumer = .loopTest ∧
      spinning.call = some ⟨.init (.resetHead .free), stopping.engine⟩ ∧
      spinning.engine.memory.handleRunning = true ∧ spinning.rejections = [] ∧
      spinning.engine.consumer = .take :=
    ⟨_, _, rfl, rfl, rfl, rfl, rfl, rfl, rfl, rfl, rfl, rfl⟩
  have new : RingsNew stopping.engine.ring := by
    unfold RingsNew
    rw [rings]
    exact ⟨init_free_eq _, rfl, rfl⟩
  have called : ReachesUnder (lives .little kPoolCapacity) HarmlessRun stopping :=
    settled.step (show HarmlessRun _ (.thread .control .tick) from trivial) clears
  have enters : (lives .little kPoolCapacity).step stopping .run = some stopping.entered := by
    simp only [lives, Life.step, Life.runStep, outside]
  have harmless : HarmlessRun stopping .run := fun _ => .inr ⟨stopped, new⟩
  have entered : ReachesUnder (lives .little kPoolCapacity) HarmlessRun spinning :=
    (called.step harmless enters).step
      (show HarmlessRun _ (.thread .consumer .tick) from trivial) turns
  have refused := reaches_refused moves entered at_ handle
  let returned := (spinning.initialising stopping.engine
    (FramePool.initRings spinning.engine.ring) .done).refused stopping.engine
  have listed : returned.rejections = [(stopping.engine, returned.engine)] := by
    show spinning.rejections ++ _ = _
    rw [none_]
    rfl
  have member : (stopping.engine, returned.engine) ∈ returned.rejections := by
    rw [listed]
    exact List.mem_singleton.mpr rfl
  obtain ⟨same, placed⟩ := (rejected_run_keeps_engine refused).1 _ member
  exact ⟨returned, _, _, refused, listed, before, after, same, placed⟩

/-- The server has popped index 0 and is about to copy a datagram into its slot. -/
def slotTaken : List LifeLabel :=
  (ticks .server 1 ++ epollReply (.events (.socket false) []) ++ ticks .server 1 ++
    recvReply (.batch (List.replicate 44 7) []) ++ ticks .server 6).map fun label =>
      .thread label.1 label.2

/-- A second `run()` of a running engine returns false, with `running_` cleared and the slot
that the server holds in the free ring as well. -/
theorem rejected_run_breaks_engine :
    ∃ life before after, Reaches (lives .little kPoolCapacity) life ∧
      life.rejections = [(before, after)] ∧
      before.memory.running = true ∧ after.memory.running = false ∧ ¬ OnePlaceEach after := by
  have outcome : (runLabels (lives .little kPoolCapacity) startedLife slotTaken).map
      (fun life => (life.engine.memory.handleRunning, life.engine.memory.running,
        life.call.isNone, life.rejections.isEmpty, life.engine.server.held)) =
        some (true, true, true, true, [0]) := by
    decide +kernel
  obtain ⟨life, ran, seen⟩ := Option.map_eq_some_iff.mp outcome
  obtain ⟨handle, seen⟩ := Prod.mk.inj seen
  obtain ⟨running, seen⟩ := Prod.mk.inj seen
  obtain ⟨outside, seen⟩ := Prod.mk.inj seen
  obtain ⟨none_, held⟩ := Prod.mk.inj seen
  have reached : Reaches (lives .little kPoolCapacity) life := reaches_run started_life_reached ran
  have rejects : life.run = .rejected life.rejected := by
    unfold Life.run
    rw [if_pos handle]
  have rejected := (reaches_run_alone (fun _ _ => trivial) reached trivial
    (Option.isNone_iff_eq_none.mp outside)).1 _ rejects
  have listed : life.rejected.rejections = [(life.engine, life.rejected.engine)] := by
    show life.rejections ++ _ = _
    rw [List.isEmpty_iff.mp none_]
    rfl
  refine ⟨life.rejected, _, _, rejected, listed, running, rfl, ?_⟩
  intro placed
  have length := placed.length_eq.trans List.length_range
  have rings : life.rejected.engine.ring = FramePool.initRings life.engine.ring := rfl
  have free : (life.rejected.engine.ring .free).contents.length = kPoolCapacity.val := by
    rw [rings, (init_free life.engine.ring).1]
    exact List.length_range
  have server : life.rejected.engine.server.held.length = 1 := by
    rw [show life.rejected.engine.server.held = [0] from held]
    rfl
  rw [List.length_append, List.length_append, List.length_append, free, server] at length
  omega

end MarketDataEngine.EngineV1
