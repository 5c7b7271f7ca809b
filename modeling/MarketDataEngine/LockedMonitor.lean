import Mathlib.Data.Fintype.Basic
import MarketDataEngine.TransitionSystem

/-!
# Monitors with condition variables

A monitor is a state behind a lock. An operation is one locked section: it waits
on a condition variable, to be tried again after a wake-up, or it returns and
leaves a list of notifications that are issued one by one after the lock has been
released. `notify_one` wakes one of the threads that sleep on the variable, if
there is one; a thread may also wake up by itself.

A woken thread remembers who woke it until it has tried again. These threads, the
notifications still to come and the sleepers are what an argument about lost
wake-ups counts.
-/

namespace MarketDataEngine.LockedMonitor

open MarketDataEngine.TransitionSystem

set_option autoImplicit false

inductive Scope where
  | one
  | all
  deriving DecidableEq

inductive Outcome (Cond Result : Type) where
  | wait (cond : Cond)
  | finish (result : Result) (notifications : List (Scope × Cond))

/-- `locked` is the section of an operation. -/
structure Monitor (State Op Cond Result : Type) where
  locked : State → Op → State × Outcome Cond Result

/-- `outside []` is a thread between two calls. -/
inductive Location (Op Cond : Type) where
  | outside (pending : List (Scope × Cond))
  | entering (op : Op) (notified : Option Cond)
  | sleeping (op : Op) (cond : Cond)

inductive Move (Thread Op : Type) where
  | call (op : Op)
  | enter
  | wakeUp
  | notify (chosen : Option Thread)

/-- `returned` lists the calls that have returned, in the order of their sections. -/
structure Machine (Thread State Op Cond Result : Type) where
  shared : State
  location : Thread → Location Op Cond
  returned : List (Thread × Op × Result)

namespace Location

variable {Op Cond : Type} [DecidableEq Cond]

def sleepsOn (cond : Cond) : Location Op Cond → Bool
  | .sleeping _ other => decide (other = cond)
  | _ => false

def notifiedBy (cond : Cond) : Location Op Cond → Bool
  | .entering _ (some other) => decide (other = cond)
  | _ => false

def pending : Location Op Cond → List (Scope × Cond)
  | .outside pending => pending
  | _ => []

section Constructors

variable (op : Op) (cond other : Cond) (notified : Option Cond)
variable (notifications : List (Scope × Cond))

@[simp] theorem sleeps_on_outside :
    (outside notifications : Location Op Cond).sleepsOn cond = false := rfl

@[simp] theorem sleeps_on_entering : (entering op notified).sleepsOn cond = false := rfl

@[simp] theorem sleeps_on_sleeping :
    (sleeping op other).sleepsOn cond = decide (other = cond) := rfl

@[simp] theorem notified_by_outside :
    (outside notifications : Location Op Cond).notifiedBy cond = false := rfl

@[simp] theorem notified_by_entering_none : (entering op none).notifiedBy cond = false := rfl

@[simp] theorem notified_by_entering_some :
    (entering op (some other)).notifiedBy cond = decide (other = cond) := rfl

@[simp] theorem notified_by_sleeping : (sleeping op other).notifiedBy cond = false := rfl

omit [DecidableEq Cond] in
@[simp] theorem pending_outside :
    (outside notifications : Location Op Cond).pending = notifications := rfl

omit [DecidableEq Cond] in
@[simp] theorem pending_entering : (entering op notified).pending = [] := rfl

omit [DecidableEq Cond] in
@[simp] theorem pending_sleeping : (sleeping op other).pending = [] := rfl

end Constructors

/-- A notification of this variable reaches the thread. -/
def woken (cond : Cond) : Location Op Cond → Location Op Cond
  | .sleeping op other => if other = cond then .entering op (some cond) else .sleeping op other
  | location => location

end Location

section Semantics

variable {Thread State Op Cond Result : Type} [Fintype Thread] [DecidableEq Thread]
variable [DecidableEq Cond]
variable (monitor : Monitor State Op Cond Result)

namespace Machine

variable (machine : Machine Thread State Op Cond Result)

def move (thread : Thread) (location : Location Op Cond) :
    Machine Thread State Op Cond Result :=
  { machine with location := Function.update machine.location thread location }

def enter (thread : Thread) (op : Op) : Machine Thread State Op Cond Result :=
  match monitor.locked machine.shared op with
  | (shared, .wait cond) =>
      { machine with
        shared := shared
        location := Function.update machine.location thread (.sleeping op cond) }
  | (shared, .finish result notifications) =>
      { shared := shared
        location := Function.update machine.location thread (.outside notifications)
        returned := machine.returned ++ [(thread, op, result)] }

/-- `notify_one` chooses a sleeper, and none only if nobody sleeps. -/
def notifyOne (cond : Cond) (chosen : Option Thread) :
    Option (Machine Thread State Op Cond Result) :=
  match chosen with
  | some thread =>
      if (machine.location thread).sleepsOn cond then
        some (machine.move thread ((machine.location thread).woken cond))
      else none
  | none =>
      if ∀ thread, (machine.location thread).sleepsOn cond = false then some machine
      else none

def notifyAll (cond : Cond) : Machine Thread State Op Cond Result :=
  { machine with location := fun thread => (machine.location thread).woken cond }

end Machine

def step (machine : Machine Thread State Op Cond Result) (label : Thread × Move Thread Op) :
    Option (Machine Thread State Op Cond Result) :=
  match label.2, machine.location label.1 with
  | .call op, .outside [] => some (machine.move label.1 (.entering op none))
  | .enter, .entering op _ => some (machine.enter monitor label.1 op)
  | .wakeUp, .sleeping op _ => some (machine.move label.1 (.entering op none))
  | .notify chosen, .outside ((.one, cond) :: rest) =>
      (machine.move label.1 (.outside rest)).notifyOne cond chosen
  | .notify none, .outside ((.all, cond) :: rest) =>
      some ((machine.move label.1 (.outside rest)).notifyAll cond)
  | _, _ => none

/-- All threads are outside and nothing has been called. -/
def Start (initial : State → Prop) (machine : Machine Thread State Op Cond Result) : Prop :=
  initial machine.shared ∧ (∀ thread, machine.location thread = .outside []) ∧
    machine.returned = []

def system (initial : State → Prop) :
    System (Machine Thread State Op Cond Result) (Thread × Move Thread Op) where
  start := Start initial
  step := step monitor

/-- What a step can do, with the guard under which it does it. -/
inductive Stepped (machine next : Machine Thread State Op Cond Result) (thread : Thread) :
    Prop where
  | called (op : Op) (at_ : machine.location thread = .outside [])
      (moved : next = machine.move thread (.entering op none))
  | waited (op : Op) (notified : Option Cond) (shared : State) (cond : Cond)
      (at_ : machine.location thread = .entering op notified)
      (section_ : monitor.locked machine.shared op = (shared, .wait cond))
      (moved : next = { machine.move thread (.sleeping op cond) with shared := shared })
  | finished (op : Op) (notified : Option Cond) (shared : State) (result : Result)
      (notifications : List (Scope × Cond))
      (at_ : machine.location thread = .entering op notified)
      (section_ : monitor.locked machine.shared op =
        (shared, .finish result notifications))
      (moved : next = ⟨shared, (machine.move thread (.outside notifications)).location,
        machine.returned ++ [(thread, op, result)]⟩)
  | wokeUp (op : Op) (cond : Cond) (at_ : machine.location thread = .sleeping op cond)
      (moved : next = machine.move thread (.entering op none))
  | notifiedOne (cond : Cond) (rest : List (Scope × Cond)) (chosen : Thread) (op : Op)
      (at_ : machine.location thread = .outside ((.one, cond) :: rest))
      (other : chosen ≠ thread) (asleep : machine.location chosen = .sleeping op cond)
      (moved : next = (machine.move thread (.outside rest)).move chosen
        (.entering op (some cond)))
  | notifiedNobody (cond : Cond) (rest : List (Scope × Cond))
      (at_ : machine.location thread = .outside ((.one, cond) :: rest))
      (nobody : ∀ other, (machine.location other).sleepsOn cond = false)
      (moved : next = machine.move thread (.outside rest))
  | notifiedAll (cond : Cond) (rest : List (Scope × Cond))
      (at_ : machine.location thread = .outside ((.all, cond) :: rest))
      (moved : next = (machine.move thread (.outside rest)).notifyAll cond)

variable {monitor}

theorem sleeps_on_iff {location : Location Op Cond} {cond : Cond} :
    location.sleepsOn cond = true ↔ ∃ op, location = .sleeping op cond := by
  cases location with
  | outside pending => simp [Location.sleepsOn]
  | entering op notified => simp [Location.sleepsOn]
  | sleeping op other => simp [Location.sleepsOn]

theorem notified_of_notify_one {machine next : Machine Thread State Op Cond Result}
    {thread : Thread} {cond : Cond} {rest : List (Scope × Cond)} {chosen : Option Thread}
    (at_ : machine.location thread = .outside ((.one, cond) :: rest))
    (taken : (machine.move thread (.outside rest)).notifyOne cond chosen = some next) :
    Stepped monitor machine next thread := by
  have elsewhere : ∀ other, other ≠ thread →
      (machine.move thread (.outside rest)).location other = machine.location other :=
    fun other different => Function.update_of_ne different _ _
  have here : (machine.move thread (.outside rest)).location thread = .outside rest :=
    Function.update_self _ _ _
  unfold Machine.notifyOne at taken
  cases chosen with
  | some chosen =>
      simp only at taken
      split_ifs at taken with asleep
      have other : chosen ≠ thread := by
        rintro rfl
        rw [here] at asleep
        cases asleep
      rw [elsewhere chosen other] at asleep taken
      obtain ⟨op, sleeping⟩ := sleeps_on_iff.mp asleep
      have awake : (machine.location chosen).woken cond = .entering op (some cond) := by
        rw [sleeping]
        exact if_pos rfl
      rw [awake] at taken
      exact .notifiedOne cond rest chosen op at_ other sleeping (Option.some.inj taken).symm
  | none =>
      simp only at taken
      split_ifs at taken with nobody
      refine .notifiedNobody cond rest at_ ?_ (Option.some.inj taken).symm
      intro other
      by_cases same : other = thread
      · rw [same, at_]
        rfl
      · rw [← elsewhere other same]
        exact nobody other

theorem stepped_of_step {machine next : Machine Thread State Op Cond Result}
    {label : Thread × Move Thread Op} (taken : step monitor machine label = some next) :
    Stepped monitor machine next label.1 := by
  obtain ⟨thread, move⟩ := label
  unfold step at taken
  simp only at taken
  split at taken
  · next op at_ =>
      cases taken
      exact .called op at_ rfl
  · next op notified at_ =>
      cases taken
      unfold Machine.enter
      cases section_ : monitor.locked machine.shared op with
      | mk shared outcome =>
          cases outcome with
          | wait cond => exact .waited op notified shared cond at_ section_ rfl
          | finish result notifications =>
              exact .finished op notified shared result notifications at_ section_ rfl
  · next op cond at_ =>
      cases taken
      exact .wokeUp op cond at_ rfl
  · next chosen cond rest at_ =>
      exact notified_of_notify_one at_ taken
  · next cond rest at_ =>
      cases taken
      exact .notifiedAll cond rest at_ rfl
  · cases taken

/-- The same for the state behind the lock: only a section changes it or returns. -/
inductive SectionStep (monitor : Monitor State Op Cond Result)
    (machine next : Machine Thread State Op Cond Result) (thread : Thread) : Prop where
  | outside (shared : next.shared = machine.shared)
      (returned : next.returned = machine.returned)
  | waited (op : Op) (cond : Cond)
      (section_ : monitor.locked machine.shared op = (next.shared, .wait cond))
      (returned : next.returned = machine.returned)
  | finished (op : Op) (result : Result) (notifications : List (Scope × Cond))
      (section_ : monitor.locked machine.shared op =
        (next.shared, .finish result notifications))
      (returned : next.returned = machine.returned ++ [(thread, op, result)])

theorem section_of_step {machine next : Machine Thread State Op Cond Result}
    {label : Thread × Move Thread Op} (taken : step monitor machine label = some next) :
    SectionStep monitor machine next label.1 := by
  cases stepped_of_step taken with
  | waited op notified shared cond at_ section_ moved =>
      rw [moved]
      exact .waited op cond section_ rfl
  | finished op notified shared result notifications at_ section_ moved =>
      rw [moved]
      exact .finished op result notifications section_ rfl
  | _ =>
      rename_i moved
      rw [moved]
      exact .outside rfl rfl

/-! ## Steps that can be taken -/

section Enabled

variable (monitor) {machine : Machine Thread State Op Cond Result} {thread : Thread}

omit [Fintype Thread] [DecidableEq Cond] in
theorem Machine.move_location_self (location : Location Op Cond) :
    (machine.move thread location).location thread = location :=
  Function.update_self _ _ _

theorem step_call (op : Op) (at_ : machine.location thread = .outside []) :
    step monitor machine (thread, .call op) =
      some (machine.move thread (.entering op none)) := by
  unfold step
  simp only [at_]

theorem step_enter {op : Op} {notified : Option Cond}
    (at_ : machine.location thread = .entering op notified) :
    step monitor machine (thread, .enter) = some (machine.enter monitor thread op) := by
  unfold step
  simp only [at_]

theorem step_notify_nobody {cond : Cond} {rest : List (Scope × Cond)}
    (at_ : machine.location thread = .outside ((.one, cond) :: rest))
    (nobody : ∀ other, ((machine.move thread (.outside rest)).location other).sleepsOn cond =
      false) :
    step monitor machine (thread, .notify none) =
      some (machine.move thread (.outside rest)) := by
  unfold step
  simp only [at_, Machine.notifyOne]
  rw [if_pos nobody]

end Enabled

/-! ## Simulation -/

section Simulation

variable {Abstract : Type} {abstract : Monitor Abstract Op Cond Result}

/-- The machine over what its state stands for. -/
def Machine.mapShared (view : State → Abstract)
    (machine : Machine Thread State Op Cond Result) : Machine Thread Abstract Op Cond Result :=
  ⟨view machine.shared, machine.location, machine.returned⟩

/-- The sections agree on valid states: same outcome, and the states still match. -/
structure Simulates (monitor : Monitor State Op Cond Result)
    (abstract : Monitor Abstract Op Cond Result) (Valid : State → Prop)
    (view : State → Abstract) : Prop where
  valid : ∀ state op, Valid state → Valid (monitor.locked state op).1
  locked : ∀ state op, Valid state → abstract.locked (view state) op =
    (view (monitor.locked state op).1, (monitor.locked state op).2)

variable {Valid : State → Prop} {view : State → Abstract}

theorem notify_one_map (view : State → Abstract)
    (machine : Machine Thread State Op Cond Result) (cond : Cond) (chosen : Option Thread) :
    (machine.mapShared view).notifyOne cond chosen =
      (machine.notifyOne cond chosen).map (Machine.mapShared view) := by
  unfold Machine.notifyOne
  cases chosen with
  | some thread =>
      by_cases asleep : (machine.location thread).sleepsOn cond = true
      · simp only [Machine.mapShared, asleep, ↓reduceIte]
        rfl
      · simp only [Machine.mapShared, asleep, Bool.false_eq_true, ↓reduceIte]
        rfl
  | none =>
      by_cases nobody : ∀ thread, (machine.location thread).sleepsOn cond = false
      · simp only [Machine.mapShared, nobody, implies_true, ↓reduceIte]
        rfl
      · simp only [Machine.mapShared, nobody, ↓reduceIte]
        rfl

omit [Fintype Thread] [DecidableEq Cond] in
theorem enter_map (simulates : Simulates monitor abstract Valid view)
    {machine : Machine Thread State Op Cond Result} (valid : Valid machine.shared)
    (thread : Thread) (op : Op) :
    (machine.mapShared view).enter abstract thread op =
      (machine.enter monitor thread op).mapShared view := by
  have section_ := simulates.locked machine.shared op valid
  unfold Machine.enter
  rw [show (machine.mapShared view).shared = view machine.shared from rfl, section_]
  cases monitor.locked machine.shared op with
  | mk shared outcome => cases outcome <;> rfl

theorem step_map (simulates : Simulates monitor abstract Valid view)
    {machine next : Machine Thread State Op Cond Result} (valid : Valid machine.shared)
    {label : Thread × Move Thread Op} (taken : step monitor machine label = some next) :
    step abstract (machine.mapShared view) label = some (next.mapShared view) := by
  obtain ⟨thread, move⟩ := label
  unfold step at taken ⊢
  rw [show (machine.mapShared view).location = machine.location from rfl]
  simp only at taken ⊢
  split at taken
  · cases taken
    rfl
  · cases taken
    exact congrArg some (enter_map simulates valid _ _)
  · cases taken
    rfl
  · next chosen cond rest at_ =>
      have mapped := notify_one_map view (machine.move thread (.outside rest)) cond
        chosen
      rw [taken] at mapped
      exact mapped
  · cases taken
    rfl
  · cases taken

theorem step_valid (simulates : Simulates monitor abstract Valid view)
    {machine next : Machine Thread State Op Cond Result} (valid : Valid machine.shared)
    {label : Thread × Move Thread Op} (taken : step monitor machine label = some next) :
    Valid next.shared := by
  cases section_of_step taken with
  | outside shared returned =>
      rw [shared]
      exact valid
  | waited op cond section_ returned =>
      have kept := simulates.valid machine.shared op valid
      rw [section_] at kept
      exact kept
  | finished op result notifications section_ returned =>
      have kept := simulates.valid machine.shared op valid
      rw [section_] at kept
      exact kept

/-- Every run of the monitor is a run of the abstract one with the same calls, the
same sleepers and the same results. -/
theorem reaches_map_shared (simulates : Simulates monitor abstract Valid view)
    {initial : State → Prop} {abstractInitial : Abstract → Prop}
    (starts : ∀ state, initial state → Valid state ∧ abstractInitial (view state))
    {machine : Machine Thread State Op Cond Result}
    (reached : Reaches (system monitor initial) machine) :
    Valid machine.shared ∧
      Reaches (system abstract abstractInitial) (machine.mapShared view) := by
  let ValidMachine : Machine Thread State Op Cond Result → Prop :=
    fun machine => Valid machine.shared
  have initially : ∀ machine, Start initial machine → ValidMachine machine ∧
      Start abstractInitial (machine.mapShared view) := by
    rintro machine ⟨shared, locations, returned⟩
    obtain ⟨valid, mapped⟩ := starts machine.shared shared
    exact ⟨valid, mapped, locations, returned⟩
  have simulated : ∀ machine label next, ValidMachine machine → True →
      step monitor machine label = some next → ValidMachine next ∧
        (next.mapShared view = machine.mapShared view ∨
          step abstract (machine.mapShared view) label = some (next.mapShared view)) := by
    intro machine label next valid _ taken
    exact ⟨step_valid simulates valid taken, .inr (step_map simulates valid taken)⟩
  have mapped : ValidMachine machine ∧
      Reaches (system abstract abstractInitial) (machine.mapShared view) :=
    reaches_map (Machine.mapShared view) initially simulated reached
  exact mapped

end Simulation

end Semantics

end MarketDataEngine.LockedMonitor
