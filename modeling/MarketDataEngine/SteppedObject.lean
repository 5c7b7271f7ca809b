import MarketDataEngine.TransitionSystem

/-!
# Threads that call an object whose methods run in micro-steps

A program gives every thread a control location and says, for each location,
whether the thread has halted, calls the shared object, or reads and writes
the rest of the shared memory. The same program has two semantics. In the fine
one a call runs micro-step by micro-step and other threads interleave; in the
atomic one a call is a single transition of a specification object.

A `Linearization` says at which micro-step a call takes effect. Its theorem
`guarded_run_linearizes` maps every fine run in which conflicting calls never
overlap to an atomic run of the same program.
-/

namespace MarketDataEngine.SteppedObject

open MarketDataEngine.TransitionSystem

set_option autoImplicit false

structure MicroObject (Call : Type) (Ret : Call → Type) where
  State : Type
  Pc : Type
  /-- One micro-step of a call; `none` is a call that has not started. -/
  step : State → (call : Call) → Option Pc → State × (Pc ⊕ Ret call)

structure AtomicObject (Call : Type) (Ret : Call → Type) where
  State : Type
  exec : State → (call : Call) → State × Ret call

inductive Action (Call : Type) (Ret : Call → Type)
    (Memory Input Location : Type) where
  | halt
  | call (call : Call) (next : Ret call → Location)
  | memory (effect : Memory → Input → Option (Memory × Location))

structure Program (Thread Call : Type) (Ret : Call → Type)
    (Memory Input : Type) where
  Location : Thread → Type
  action : (thread : Thread) → Location thread →
    Action Call Ret Memory Input (Location thread)

section Semantics

variable {Thread Memory Input : Type} [DecidableEq Thread]
variable {Call : Type} {Ret : Call → Type}
variable {object : MicroObject Call Ret} {spec : AtomicObject Call Ret}
variable (program : Program Thread Call Ret Memory Input)

structure FineState (object : MicroObject Call Ret)
    (program : Program Thread Call Ret Memory Input) where
  shared : object.State
  memory : Memory
  location : (thread : Thread) → program.Location thread
  pc : Thread → Option object.Pc

structure AtomicState (spec : AtomicObject Call Ret)
    (program : Program Thread Call Ret Memory Input) where
  shared : spec.State
  memory : Memory
  location : (thread : Thread) → program.Location thread

/-- One micro-step of a thread's current call. A call that returns moves the
thread to the location its result selects. -/
def callStep (state : FineState object program) (thread : Thread)
    (call : Call) (next : Ret call → program.Location thread) :
    FineState object program :=
  let result := object.step state.shared call (state.pc thread)
  { shared := result.1
    memory := state.memory
    location := Function.update state.location thread
      (Sum.elim (fun _ => state.location thread) next result.2)
    pc := Function.update state.pc thread result.2.getLeft? }

def memoryStep (state : FineState object program) (thread : Thread)
    (memory : Memory) (location : program.Location thread) :
    FineState object program :=
  { state with
    memory := memory
    location := Function.update state.location thread location }

def fineStep (state : FineState object program) (label : Thread × Input) :
    Option (FineState object program) :=
  match program.action label.1 (state.location label.1) with
  | .halt => none
  | .memory effect =>
      (effect state.memory label.2).map fun result =>
        memoryStep program state label.1 result.1 result.2
  | .call call next => some (callStep program state label.1 call next)

/-- What an action does to the shared object and the memory when a call is one
transition, and where it leaves its thread. -/
def actionStep {Location : Type} (spec : AtomicObject Call Ret)
    (action : Action Call Ret Memory Input Location) (shared : spec.State)
    (memory : Memory) (input : Input) :
    Option (spec.State × Memory × Location) :=
  match action with
  | .halt => none
  | .memory effect =>
      (effect memory input).map fun result => (shared, result.1, result.2)
  | .call call next =>
      let result := spec.exec shared call
      some (result.1, memory, next result.2)

def atomicStep (state : AtomicState spec program) (label : Thread × Input) :
    Option (AtomicState spec program) :=
  match program.action label.1 (state.location label.1) with
  | .halt => none
  | .memory effect =>
      (effect state.memory label.2).map fun result =>
        { state with
          memory := result.1
          location := Function.update state.location label.1 result.2 }
  | .call call next =>
      let result := spec.exec state.shared call
      some { state with
        shared := result.1
        location := Function.update state.location label.1 (next result.2) }

/-- The atomic semantics moves one thread by its action and no other. -/
theorem atomic_step_eq_some {state next : AtomicState spec program}
    {label : Thread × Input} (taken : atomicStep program state label = some next) :
    ∃ location, actionStep spec (program.action label.1 (state.location label.1))
        state.shared state.memory label.2 =
          some (next.shared, next.memory, location) ∧
      next.location = Function.update state.location label.1 location := by
  unfold atomicStep at taken
  cases action : program.action label.1 (state.location label.1) with
  | halt => simp [action] at taken
  | memory effect =>
      simp only [action, Option.map_eq_some_iff] at taken
      obtain ⟨⟨memory, location⟩, result, rfl⟩ := taken
      exact ⟨location, by simp [actionStep, result], rfl⟩
  | call call nextLocation =>
      simp only [action, Option.some.injEq] at taken
      subst taken
      exact ⟨_, rfl, rfl⟩

theorem atomic_step_of_action {state : AtomicState spec program} {label : Thread × Input}
    {shared : spec.State} {memory : Memory} {location : program.Location label.1}
    (step : actionStep spec (program.action label.1 (state.location label.1)) state.shared
      state.memory label.2 = some (shared, memory, location)) :
    atomicStep program state label =
      some ⟨shared, memory, Function.update state.location label.1 location⟩ := by
  unfold atomicStep
  cases action : program.action label.1 (state.location label.1) with
  | halt =>
      rw [action] at step
      cases step
  | memory effect =>
      rw [action] at step
      obtain ⟨result, taken, same⟩ := Option.map_eq_some_iff.mp step
      cases same
      simp only [taken, Option.map_some]
  | call call nextLocation =>
      rw [action] at step
      cases step
      rfl

/-- The fine semantics leaves the other threads where they are and changes the memory only
by an effect of the thread that moves. -/
theorem fine_step_frame {state next : FineState object program} {label : Thread × Input}
    (taken : fineStep program state label = some next) :
    (∀ other, other ≠ label.1 → next.location other = state.location other) ∧
      ((∃ call after, program.action label.1 (state.location label.1) = .call call after ∧
          next.memory = state.memory) ∨ ∃ effect location,
        program.action label.1 (state.location label.1) = .memory effect ∧
          effect state.memory label.2 = some (next.memory, location) ∧
          next.location label.1 = location) := by
  unfold fineStep at taken
  cases action : program.action label.1 (state.location label.1) with
  | halt => simp [action] at taken
  | memory effect =>
      simp only [action, Option.map_eq_some_iff] at taken
      obtain ⟨⟨memory, location⟩, result, rfl⟩ := taken
      exact ⟨fun other apart => Function.update_of_ne apart _ _,
        .inr ⟨effect, location, rfl, result, Function.update_self _ _ _⟩⟩
  | call call nextLocation =>
      simp only [action, Option.some.injEq] at taken
      subst taken
      exact ⟨fun other apart => Function.update_of_ne apart _ _, .inl ⟨call, nextLocation, rfl, rfl⟩⟩

theorem fine_step_not_halted {state next : FineState object program} {label : Thread × Input}
    (taken : fineStep program state label = some next) :
    program.action label.1 (state.location label.1) ≠ .halt := by
  intro halted
  simp [fineStep, halted] at taken

/-- The same state with another memory. -/
def FineState.mapMemory {program : Program Thread Call Ret Memory Input} (map : Memory → Memory)
    (state : FineState object program) : FineState object program :=
  { state with memory := map state.memory }

/-- A change of the memory that every effect commutes with is not seen by the threads. -/
theorem fine_step_map_memory {map : Memory → Memory}
    (commutes : ∀ thread location effect, program.action thread location = .memory effect →
      ∀ memory input, effect (map memory) input =
        (effect memory input).map fun result => (map result.1, result.2))
    (state : FineState object program) (label : Thread × Input) :
    fineStep program (state.mapMemory map) label =
      (fineStep program state label).map (FineState.mapMemory map) := by
  unfold fineStep
  show (match program.action label.1 (state.location label.1) with
    | .halt => none
    | .memory effect => _
    | .call call next => _) = _
  cases action : program.action label.1 (state.location label.1) with
  | halt => rfl
  | call call next => rfl
  | memory effect =>
      show (effect (map state.memory) label.2).map _ =
        ((effect state.memory label.2).map _).map _
      rw [commutes _ _ effect action]
      cases effect state.memory label.2 with
      | none => rfl
      | some result => rfl

def fineSystem (start : FineState object program → Prop) :
    System (FineState object program) (Thread × Input) where
  start := start
  step := fineStep program

def atomicSystem (start : AtomicState spec program → Prop) :
    System (AtomicState spec program) (Thread × Input) where
  start := start
  step := atomicStep program

/-- A piece of a fine run during which `thread` stays inside one call: its
own steps and those of the others, none of them from outside the call. -/
def DuringCall (thread : Thread) (first last : FineState object program) : Prop :=
  ReachesUnder (fineSystem program (· = first))
    (fun state _ => (state.pc thread).isSome) last

end Semantics

/-- Where a call takes effect. `outcome` is the result a running call is
already bound to return; `abstract` is the specification state an object
state stands for. Each micro-step either changes neither, or it is the one
that fixes the outcome, and then it executes the specification (`decides`).
Calls that do not conflict leave each other's facts and outcomes alone
(`frame`). -/
structure Linearization {Call : Type} {Ret : Call → Type}
    (object : MicroObject Call Ret) (spec : AtomicObject Call Ret) where
  Conflict : Call → Call → Prop
  conflict_symm : ∀ {left right}, Conflict left right → Conflict right left
  Valid : object.State → Prop
  PcValid : object.State → Call → object.Pc → Prop
  abstract : object.State → spec.State
  outcome : object.State → (call : Call) → object.Pc →
    Option (Ret call)
  decides : ∀ (state : object.State) (call : Call)
      (pc : Option object.Pc),
    Valid state → (∀ current, pc = some current → PcValid state call current) →
    Valid (object.step state call pc).1 ∧
      (∀ current, (object.step state call pc).2 = .inl current →
        PcValid (object.step state call pc).1 call current) ∧
      ((abstract (object.step state call pc).1 = abstract state ∧
          Sum.elim (outcome (object.step state call pc).1 call) some
              (object.step state call pc).2 =
            pc.bind (outcome state call)) ∨
        (pc.bind (outcome state call) = none ∧
          ∃ value, Sum.elim (outcome (object.step state call pc).1 call) some
              (object.step state call pc).2 = some value ∧
            spec.exec (abstract state) call =
              (abstract (object.step state call pc).1, value)))
  frame : ∀ (state : object.State) (call : Call)
      (pc : Option object.Pc) (other : Call) (otherPc : object.Pc),
    Valid state → (∀ current, pc = some current → PcValid state call current) →
    PcValid state other otherPc → ¬ Conflict call other →
    PcValid (object.step state call pc).1 other otherPc ∧
      outcome (object.step state call pc).1 other otherPc =
        outcome state other otherPc

section Refinement

variable {Thread Memory Input : Type}
variable {Call : Type} {Ret : Call → Type}
variable {object : MicroObject Call Ret} {spec : AtomicObject Call Ret}
variable (program : Program Thread Call Ret Memory Input)
variable (linearization : Linearization object spec)

/-- The call a thread is in the middle of, with its micro-step counter. -/
def InProgress (state : FineState object program) (thread : Thread)
    (call : Call) (pc : object.Pc) : Prop :=
  (∃ next, program.action thread (state.location thread) = .call call next) ∧
    state.pc thread = some pc

/-- The discipline on the fine semantics: a call starts only while no other
thread is in the middle of a conflicting one. -/
def StartsAlone (state : FineState object program)
    (label : Thread × Input) : Prop :=
  state.pc label.1 = none →
    ∀ call next, program.action label.1 (state.location label.1) =
        .call call next →
      ∀ other otherCall otherPc, other ≠ label.1 →
        InProgress program state other otherCall otherPc →
        ¬ linearization.Conflict call otherCall

structure FineValid (state : FineState object program) : Prop where
  object_valid : linearization.Valid state.shared
  only_calls_run : ∀ thread pc, state.pc thread = some pc →
    ∃ call, InProgress program state thread call pc
  pc_valid : ∀ thread call pc, InProgress program state thread call pc →
    linearization.PcValid state.shared call pc
  apart : ∀ left right leftCall leftPc rightCall rightPc, left ≠ right →
    InProgress program state left leftCall leftPc →
    InProgress program state right rightCall rightPc →
    ¬ linearization.Conflict leftCall rightCall

/-- The location at which the atomic semantics already sees a thread: a call
whose outcome is fixed has returned there. -/
def decidedLocation (state : FineState object program) (thread : Thread) :
    program.Location thread :=
  match program.action thread (state.location thread), state.pc thread with
  | .call call next, some pc =>
      match linearization.outcome state.shared call pc with
      | some value => next value
      | none => state.location thread
  | _, _ => state.location thread

def abstractState (state : FineState object program) :
    AtomicState spec program where
  shared := linearization.abstract state.shared
  memory := state.memory
  location := decidedLocation program linearization state

variable {program} {linearization}

theorem decided_location_idle {state : FineState object program}
    {thread : Thread} (idle : state.pc thread = none) :
    decidedLocation program linearization state thread =
      state.location thread := by
  unfold decidedLocation
  rw [idle]
  split
  · rename_i impossible
    cases impossible
  · rfl

theorem decided_location_call {state : FineState object program}
    {thread : Thread} {call : Call}
    {next : Ret call → program.Location thread}
    (action : program.action thread (state.location thread) = .call call next) :
    decidedLocation program linearization state thread =
      match (state.pc thread).bind (linearization.outcome state.shared call) with
      | some value => next value
      | none => state.location thread := by
  unfold decidedLocation
  rw [action]
  cases state.pc thread with
  | none => rfl
  | some pc => rfl

/-- Either the atomic semantics sees a thread where it is, or the thread is in
a call that is bound to return a known value. -/
theorem decided_location_cases (linearization : Linearization object spec)
    (state : FineState object program) (thread : Thread) :
    decidedLocation program linearization state thread = state.location thread ∨
      ∃ call next pc value,
        program.action thread (state.location thread) = .call call next ∧
        state.pc thread = some pc ∧
        linearization.outcome state.shared call pc = some value ∧
        decidedLocation program linearization state thread = next value := by
  cases running : state.pc thread with
  | none => exact .inl (decided_location_idle running)
  | some pc =>
      cases action : program.action thread (state.location thread) with
      | halt => exact .inl (by simp only [decidedLocation, action])
      | memory effect => exact .inl (by simp only [decidedLocation, action])
      | call call next =>
          cases outcome : linearization.outcome state.shared call pc with
          | none =>
              exact .inl (by simp only [decidedLocation, action, running, outcome])
          | some value =>
              exact .inr ⟨call, next, pc, value, rfl, rfl, outcome,
                by simp only [decidedLocation, action, running, outcome]⟩

/-- A state in which no call is running. -/
theorem fine_valid_of_idle {state : FineState object program}
    (objectValid : linearization.Valid state.shared)
    (idle : ∀ thread, state.pc thread = none) :
    FineValid program linearization state where
  object_valid := objectValid
  only_calls_run := by
    intro thread pc running
    rw [idle thread] at running
    cases running
  pc_valid := by
    intro thread call pc progress
    have running := progress.2
    rw [idle thread] at running
    cases running
  apart := by
    intro left right leftCall leftPc rightCall rightPc _ progress
    have running := progress.2
    rw [idle left] at running
    cases running

theorem in_progress_of_untouched {state next : FineState object program}
    {thread : Thread} {call : Call} {pc : object.Pc}
    (sameLocation : next.location thread = state.location thread)
    (samePc : next.pc thread = state.pc thread)
    (progress : InProgress program next thread call pc) :
    InProgress program state thread call pc := by
  unfold InProgress at progress ⊢
  rwa [sameLocation, samePc] at progress

theorem decided_location_of_frame {state next : FineState object program}
    {thread : Thread}
    (sameLocation : next.location thread = state.location thread)
    (samePc : next.pc thread = state.pc thread)
    (sameOutcome : ∀ call pc, InProgress program state thread call pc →
      linearization.outcome next.shared call pc =
        linearization.outcome state.shared call pc) :
    decidedLocation program linearization next thread =
      decidedLocation program linearization state thread := by
  cases running : state.pc thread with
  | none =>
      rw [decided_location_idle (samePc.trans running),
        decided_location_idle running, sameLocation]
  | some pc =>
      cases action : program.action thread (state.location thread) with
      | halt => simp [decidedLocation, sameLocation, action]
      | memory effect => simp [decidedLocation, sameLocation, action]
      | call call next =>
          have outcome := sameOutcome call pc ⟨⟨next, action⟩, running⟩
          simp [decidedLocation, sameLocation, samePc, action, running, outcome]

theorem idle_of_memory_action {state : FineState object program}
    {thread : Thread}
    {effect : Memory → Input → Option (Memory × program.Location thread)}
    (valid : FineValid program linearization state)
    (action : program.action thread (state.location thread) = .memory effect) :
    state.pc thread = none := by
  cases running : state.pc thread with
  | none => rfl
  | some pc =>
      obtain ⟨call, ⟨next, isCall⟩, -⟩ := valid.only_calls_run thread pc running
      rw [action] at isCall
      cases isCall

/-- A thread starts a call alone, or is already in the middle of it and then
the invariant keeps conflicting calls away. -/
theorem alone_of_guard {state : FineState object program}
    {label : Thread × Input} {call : Call}
    {next : Ret call → program.Location label.1}
    (valid : FineValid program linearization state)
    (alone : StartsAlone program linearization state label)
    (action : program.action label.1 (state.location label.1) = .call call next) :
    ∀ other otherCall otherPc, other ≠ label.1 →
      InProgress program state other otherCall otherPc →
      ¬ linearization.Conflict call otherCall := by
  intro other otherCall otherPc different progress
  cases running : state.pc label.1 with
  | none => exact alone running call next action other otherCall otherPc different progress
  | some pc =>
      exact valid.apart label.1 other call pc otherCall otherPc (Ne.symm different)
        ⟨⟨next, action⟩, running⟩ progress

variable [DecidableEq Thread]

variable (linearization) in
theorem decided_location_after_call {state : FineState object program}
    {thread : Thread} {call : Call}
    {next : Ret call → program.Location thread}
    (action : program.action thread (state.location thread) = .call call next) :
    decidedLocation program linearization
        (callStep program state thread call next) thread =
      match Sum.elim
          (linearization.outcome
            (object.step state.shared call (state.pc thread)).1 call)
          some (object.step state.shared call (state.pc thread)).2 with
      | some value => next value
      | none => state.location thread := by
  cases result : (object.step state.shared call (state.pc thread)).2 with
  | inl pc =>
      have sameAction : program.action thread
          ((callStep program state thread call next).location thread) =
            .call call next := by
        simpa [callStep, result] using action
      rw [decided_location_call sameAction]
      simp [callStep, result]
  | inr value =>
      rw [decided_location_idle (by simp [callStep, result])]
      simp [callStep, result]

theorem call_step_valid {state : FineState object program} {thread : Thread}
    {call : Call} {next : Ret call → program.Location thread}
    (valid : FineValid program linearization state)
    (action : program.action thread (state.location thread) = .call call next)
    (alone : ∀ other otherCall otherPc, other ≠ thread →
      InProgress program state other otherCall otherPc →
      ¬ linearization.Conflict call otherCall) :
    FineValid program linearization
      (callStep program state thread call next) := by
  have current : ∀ pc, state.pc thread = some pc →
      linearization.PcValid state.shared call pc :=
    fun pc running => valid.pc_valid thread call pc ⟨⟨next, action⟩, running⟩
  obtain ⟨objectValid, pcValid, -⟩ := linearization.decides state.shared call
    (state.pc thread) valid.object_valid current
  have otherProgress : ∀ other otherCall otherPc, other ≠ thread →
      InProgress program (callStep program state thread call next)
        other otherCall otherPc →
      InProgress program state other otherCall otherPc := by
    intro other otherCall otherPc different progress
    exact in_progress_of_untouched (by simp [callStep, different])
      (by simp [callStep, different]) progress
  have ownProgress : ∀ ownCall ownPc,
      InProgress program (callStep program state thread call next)
        thread ownCall ownPc →
      ownCall = call ∧
        (object.step state.shared call (state.pc thread)).2 = .inl ownPc := by
    rintro ownCall ownPc ⟨⟨ownNext, ownAction⟩, running⟩
    cases result : (object.step state.shared call (state.pc thread)).2 with
    | inl pc =>
        simp only [callStep, result, Function.update_self, Sum.elim_inl,
          action, Action.call.injEq] at ownAction
        simp only [callStep, result, Function.update_self,
          Sum.getLeft?_inl, Option.some.injEq] at running
        exact ⟨ownAction.1.symm, by rw [running]⟩
    | inr value => simp [callStep, result] at running
  refine ⟨objectValid, ?_, ?_, ?_⟩
  · intro other pc running
    by_cases same : other = thread
    · subst same
      cases result : (object.step state.shared call (state.pc other)).2 with
      | inl ownPc =>
          refine ⟨call, ⟨next, ?_⟩, running⟩
          simpa [callStep, result] using action
      | inr value => simp [callStep, result] at running
    · have before : state.pc other = some pc := by
        simpa [callStep, same] using running
      obtain ⟨otherCall, ⟨otherNext, otherAction⟩, -⟩ :=
        valid.only_calls_run other pc before
      exact ⟨otherCall, ⟨otherNext, by simpa [callStep, same] using otherAction⟩,
        running⟩
  · intro other otherCall otherPc progress
    by_cases same : other = thread
    · subst same
      obtain ⟨rfl, result⟩ := ownProgress otherCall otherPc progress
      exact pcValid otherPc result
    · have before := otherProgress other otherCall otherPc same progress
      exact (linearization.frame state.shared call (state.pc thread) otherCall
        otherPc valid.object_valid current
        (valid.pc_valid other otherCall otherPc before)
        (alone other otherCall otherPc same before)).1
  · intro left right leftCall leftPc rightCall rightPc different leftRuns rightRuns
    by_cases leftSame : left = thread
    · subst leftSame
      obtain ⟨rfl, -⟩ := ownProgress leftCall leftPc leftRuns
      exact alone right rightCall rightPc (Ne.symm different)
        (otherProgress right rightCall rightPc (Ne.symm different) rightRuns)
    · have leftBefore := otherProgress left leftCall leftPc leftSame leftRuns
      by_cases rightSame : right = thread
      · subst rightSame
        obtain ⟨rfl, -⟩ := ownProgress rightCall rightPc rightRuns
        exact fun conflict => alone left leftCall leftPc leftSame leftBefore
          (linearization.conflict_symm conflict)
      · exact valid.apart left right leftCall leftPc rightCall rightPc different
          leftBefore (otherProgress right rightCall rightPc rightSame rightRuns)

theorem call_step_refines {state : FineState object program} {thread : Thread}
    {input : Input} {call : Call}
    {next : Ret call → program.Location thread}
    (valid : FineValid program linearization state)
    (action : program.action thread (state.location thread) = .call call next)
    (alone : ∀ other otherCall otherPc, other ≠ thread →
      InProgress program state other otherCall otherPc →
      ¬ linearization.Conflict call otherCall) :
    abstractState program linearization
        (callStep program state thread call next) =
        abstractState program linearization state ∨
      atomicStep program (abstractState program linearization state)
          (thread, input) =
        some (abstractState program linearization
          (callStep program state thread call next)) := by
  have current : ∀ pc, state.pc thread = some pc →
      linearization.PcValid state.shared call pc :=
    fun pc running => valid.pc_valid thread call pc ⟨⟨next, action⟩, running⟩
  obtain ⟨-, -, decision⟩ := linearization.decides state.shared call
    (state.pc thread) valid.object_valid current
  have others : ∀ other, other ≠ thread →
      decidedLocation program linearization
          (callStep program state thread call next) other =
        decidedLocation program linearization state other := by
    intro other different
    apply decided_location_of_frame
    · simp [callStep, different]
    · simp [callStep, different]
    · intro otherCall otherPc progress
      exact (linearization.frame state.shared call (state.pc thread) otherCall
        otherPc valid.object_valid current
        (valid.pc_valid other otherCall otherPc progress)
        (alone other otherCall otherPc different progress)).2
  have own := decided_location_after_call linearization action
  rcases decision with ⟨sameAbstract, sameOutcome⟩ | ⟨undecided, value, decided, exec⟩
  · left
    have sameLocation : decidedLocation program linearization
        (callStep program state thread call next) =
          decidedLocation program linearization state := by
      funext other
      by_cases same : other = thread
      · subst same
        rw [own, sameOutcome, decided_location_call action]
      · exact others other same
    unfold abstractState
    rw [sameLocation]
    simp only [callStep, sameAbstract]
  · right
    have before : decidedLocation program linearization state thread =
        state.location thread := by
      rw [decided_location_call action, undecided]
    have after : decidedLocation program linearization
        (callStep program state thread call next) =
          Function.update (decidedLocation program linearization state) thread
            (next value) := by
      funext other
      by_cases same : other = thread
      · subst same
        rw [own, decided, Function.update_self]
      · rw [others other same, Function.update_of_ne same]
    simp only [atomicStep, abstractState, before, action, exec, after]
    rfl

theorem memory_step_valid {state : FineState object program} {thread : Thread}
    {effect : Memory → Input → Option (Memory × program.Location thread)}
    (valid : FineValid program linearization state)
    (action : program.action thread (state.location thread) = .memory effect)
    (memory : Memory) (location : program.Location thread) :
    FineValid program linearization
      (memoryStep program state thread memory location) := by
  have idle := idle_of_memory_action valid action
  have before : ∀ other call pc, InProgress program
      (memoryStep program state thread memory location) other call pc →
      InProgress program state other call pc := by
    intro other call pc progress
    by_cases same : other = thread
    · subst same
      have running : state.pc other = some pc := progress.2
      rw [idle] at running
      cases running
    · exact in_progress_of_untouched
        (show (memoryStep program state thread memory location).location other =
          state.location other by simp [memoryStep, same]) rfl progress
  refine ⟨valid.object_valid, ?_, ?_, ?_⟩
  · intro other pc running
    have wasRunning : state.pc other = some pc := running
    obtain ⟨call, ⟨next, isCall⟩, -⟩ := valid.only_calls_run other pc wasRunning
    have different : other ≠ thread := by
      rintro rfl
      rw [idle] at wasRunning
      cases wasRunning
    exact ⟨call, ⟨next, by simpa [memoryStep, different] using isCall⟩, running⟩
  · intro other call pc progress
    exact valid.pc_valid other call pc (before other call pc progress)
  · intro left right leftCall leftPc rightCall rightPc different leftRuns rightRuns
    exact valid.apart left right leftCall leftPc rightCall rightPc different
      (before _ _ _ leftRuns) (before _ _ _ rightRuns)

theorem memory_step_refines {state : FineState object program}
    {thread : Thread} {input : Input}
    {effect : Memory → Input → Option (Memory × program.Location thread)}
    (valid : FineValid program linearization state)
    (action : program.action thread (state.location thread) = .memory effect)
    {memory : Memory} {location : program.Location thread}
    (result : effect state.memory input = some (memory, location)) :
    atomicStep program (abstractState program linearization state)
        (thread, input) =
      some (abstractState program linearization
        (memoryStep program state thread memory location)) := by
  have idle := idle_of_memory_action valid action
  have after : decidedLocation program linearization
      (memoryStep program state thread memory location) =
        Function.update (decidedLocation program linearization state) thread
          location := by
    funext other
    by_cases same : other = thread
    · subst same
      have stillIdle :
          (memoryStep program state other memory location).pc other = none := idle
      rw [decided_location_idle stillIdle]
      simp [memoryStep]
    · rw [Function.update_of_ne same]
      exact decided_location_of_frame (by simp [memoryStep, same]) rfl
        (fun _ _ _ => rfl)
  simp only [atomicStep, abstractState, decided_location_idle idle, action,
    result, Option.map_some, after]
  rfl

theorem fine_step_refines {state next : FineState object program}
    {label : Thread × Input}
    (valid : FineValid program linearization state)
    (alone : StartsAlone program linearization state label)
    (taken : fineStep program state label = some next) :
    FineValid program linearization next ∧
      (abstractState program linearization next =
          abstractState program linearization state ∨
        atomicStep program (abstractState program linearization state) label =
          some (abstractState program linearization next)) := by
  unfold fineStep at taken
  cases action : program.action label.1 (state.location label.1) with
  | halt => simp [action] at taken
  | memory effect =>
      simp only [action, Option.map_eq_some_iff] at taken
      obtain ⟨⟨memory, location⟩, result, rfl⟩ := taken
      exact ⟨memory_step_valid valid action memory location,
        .inr (memory_step_refines valid action result)⟩
  | call call nextLocation =>
      simp only [action, Option.some.injEq] at taken
      subst taken
      have apart := alone_of_guard valid alone action
      exact ⟨call_step_valid valid action apart,
        call_step_refines valid action apart⟩

/-- Every run in which conflicting calls never overlap is, call for call, a
run of the same program over the specification object. -/
theorem guarded_run_linearizes
    {fineStart : FineState object program → Prop}
    {atomicStart : AtomicState spec program → Prop}
    (initial : ∀ state, fineStart state →
      FineValid program linearization state ∧
        atomicStart (abstractState program linearization state))
    {state : FineState object program}
    (reached : ReachesUnder (fineSystem program fineStart)
      (StartsAlone program linearization) state) :
    FineValid program linearization state ∧
      Reaches (atomicSystem program atomicStart)
        (abstractState program linearization state) := by
  refine reaches_map (abstractState program linearization) initial ?_ reached
  intro state label next valid alone taken
  exact fine_step_refines valid alone taken

/-- A thread moves only by a memory step or by a call that returns, and in
both cases it is idle afterwards. -/
theorem moved_thread_idle {state next : FineState object program}
    {label : Thread × Input} {thread : Thread}
    (valid : FineValid program linearization state)
    (taken : fineStep program state label = some next)
    (moved : next.location thread ≠ state.location thread) :
    next.pc thread = none := by
  unfold fineStep at taken
  cases action : program.action label.1 (state.location label.1) with
  | halt => simp [action] at taken
  | memory effect =>
      simp only [action, Option.map_eq_some_iff] at taken
      obtain ⟨⟨memory, location⟩, result, rfl⟩ := taken
      by_cases same : thread = label.1
      · have idle := idle_of_memory_action valid action
        rw [← same] at idle
        exact idle
      · simp [memoryStep, same] at moved
  | call call nextLocation =>
      simp only [action, Option.some.injEq] at taken
      subst taken
      by_cases same : thread = label.1
      · subst same
        cases result : (object.step state.shared call (state.pc label.1)).2 with
        | inl pc => simp [callStep, result] at moved
        | inr value => simp [callStep, result]
      · simp [callStep, same] at moved

/-- A fact about the locations of the atomic semantics is a fact about the
locations of the fine one: a thread in the middle of a call stands where it
stood when it was idle. -/
theorem location_of_atomic
    {fineStart : FineState object program → Prop}
    {atomicStart : AtomicState spec program → Prop}
    (initial : ∀ state, fineStart state →
      FineValid program linearization state ∧
        atomicStart (abstractState program linearization state))
    (idleStart : ∀ state, fineStart state → ∀ thread, state.pc thread = none)
    {Fact : (thread : Thread) → program.Location thread → Prop}
    (above : ∀ state : AtomicState spec program,
      Reaches (atomicSystem program atomicStart) state →
      ∀ thread, Fact thread (state.location thread))
    {state : FineState object program}
    (reached : ReachesUnder (fineSystem program fineStart)
      (StartsAlone program linearization) state) (thread : Thread) :
    Fact thread (state.location thread) := by
  induction reached with
  | @start state start =>
      have seen := above _ (guarded_run_linearizes initial (.start start)).2 thread
      simp only [abstractState] at seen
      rwa [decided_location_idle (idleStart state start thread)] at seen
  | @step state next label prior allowed taken ih =>
      by_cases moved : next.location thread = state.location thread
      · rw [moved]
        exact ih
      · have valid := (guarded_run_linearizes initial prior).1
        have idle := moved_thread_idle valid taken moved
        have seen := above _
          (guarded_run_linearizes initial (.step prior allowed taken)).2 thread
        simp only [abstractState] at seen
        rwa [decided_location_idle idle] at seen

end Refinement

end MarketDataEngine.SteppedObject
