import Mathlib.Algebra.GroupWithZero.Nat
import Mathlib.Logic.Function.Basic
import Mathlib.Tactic.SplitIfs

/-!
# Guarded runs of a step function

A system is a set of start states and a partial step function: the label
carries everything that is chosen from outside (which thread moves, what the
environment answers), so a step is deterministic once its label is known.
`ReachesUnder` keeps only the runs whose every step met a guard in the state
before it; with the trivial guard it is ordinary reachability.
-/

namespace MarketDataEngine.TransitionSystem

set_option autoImplicit false

variable {State Label : Type}

structure System (State Label : Type) where
  start : State → Prop
  step : State → Label → Option State

inductive ReachesUnder (system : System State Label)
    (guard : State → Label → Prop) : State → Prop where
  | start {state : State} (initial : system.start state) :
      ReachesUnder system guard state
  | step {state next : State} {label : Label}
      (prior : ReachesUnder system guard state)
      (allowed : guard state label)
      (taken : system.step state label = some next) :
      ReachesUnder system guard next

def Reaches (system : System State Label) (state : State) : Prop :=
  ReachesUnder system (fun _ _ => True) state

def runLabels (system : System State Label) :
    State → List Label → Option State
  | state, [] => some state
  | state, label :: rest =>
      (system.step state label).bind fun next => runLabels system next rest

/-- A run that stops at the first step its check refuses. -/
def runChecked (system : System State Label) (check : State → Label → Bool) :
    State → List Label → Option State
  | state, [] => some state
  | state, label :: rest =>
      if check state label then
        (system.step state label).bind fun next => runChecked system check next rest
      else none

theorem reaches_start {system : System State Label} {state : State}
    (initial : system.start state) : Reaches system state :=
  .start initial

theorem reaches_step {system : System State Label} {state next : State}
    {label : Label} (prior : Reaches system state)
    (taken : system.step state label = some next) : Reaches system next :=
  .step prior trivial taken

theorem reaches_of_reaches_under {system : System State Label}
    {guard : State → Label → Prop} {state : State}
    (reached : ReachesUnder system guard state) : Reaches system state := by
  induction reached with
  | start initial => exact reaches_start initial
  | step prior allowed taken ih => exact reaches_step ih taken

theorem reaches_under_mono {system : System State Label}
    {guard weaker : State → Label → Prop}
    (implied : ∀ state label, guard state label → weaker state label)
    {state : State} (reached : ReachesUnder system guard state) :
    ReachesUnder system weaker state := by
  induction reached with
  | start initial => exact .start initial
  | step prior allowed taken ih => exact .step ih (implied _ _ allowed) taken

theorem reaches_run {system : System State Label} {state final : State}
    {labels : List Label} (reached : Reaches system state)
    (run : runLabels system state labels = some final) :
    Reaches system final := by
  induction labels generalizing state with
  | nil =>
      cases run
      exact reached
  | cons label rest ih =>
      simp only [runLabels, Option.bind_eq_some_iff] at run
      obtain ⟨next, taken, remaining⟩ := run
      exact ih (reaches_step reached taken) remaining

theorem reaches_under_run {system : System State Label}
    {guard : State → Label → Prop} {check : State → Label → Bool}
    (sound : ∀ state label, check state label = true → guard state label)
    {state final : State} {labels : List Label}
    (reached : ReachesUnder system guard state)
    (run : runChecked system check state labels = some final) :
    ReachesUnder system guard final := by
  induction labels generalizing state with
  | nil =>
      cases run
      exact reached
  | cons label rest ih =>
      unfold runChecked at run
      split_ifs at run with checked
      obtain ⟨next, taken, remaining⟩ := Option.bind_eq_some_iff.mp run
      exact ih (.step reached (sound state label checked) taken) remaining

/-- The invariant rule. The step obligation may use that the prior state is
itself reached by a guarded run, so invariants can be proved in layers. -/
theorem invariant_of_step {system : System State Label}
    {guard : State → Label → Prop} {Invariant : State → Prop}
    (initial : ∀ state, system.start state → Invariant state)
    (preserved : ∀ state label next, ReachesUnder system guard state →
      Invariant state → guard state label →
      system.step state label = some next → Invariant next)
    {state : State} (reached : ReachesUnder system guard state) :
    Invariant state := by
  induction reached with
  | start start => exact initial _ start
  | step prior allowed taken ih => exact preserved _ _ _ prior ih allowed taken

/-- A guard that every guarded-reachable state meets for every enabled label
excludes no run. -/
theorem reaches_under_of_automatic_guard {system : System State Label}
    {guard : State → Label → Prop}
    (automatic : ∀ state label next, ReachesUnder system guard state →
      system.step state label = some next → guard state label)
    {state : State} (reached : Reaches system state) :
    ReachesUnder system guard state := by
  induction reached with
  | start initial => exact .start initial
  | step prior _ taken ih => exact .step ih (automatic _ _ _ ih taken) taken

/-- Refinement by a mapping: each guarded step is either invisible above or
is the step with the same label there. `Valid` is the invariant of the lower
system that the mapping needs. -/
theorem reaches_map {Concrete Abstract : Type}
    {concrete : System Concrete Label} {abstract : System Abstract Label}
    {guard : Concrete → Label → Prop} {Valid : Concrete → Prop}
    (map : Concrete → Abstract)
    (initial : ∀ state, concrete.start state →
      Valid state ∧ abstract.start (map state))
    (simulated : ∀ state label next, Valid state → guard state label →
      concrete.step state label = some next →
      Valid next ∧ (map next = map state ∨
        abstract.step (map state) label = some (map next)))
    {state : Concrete} (reached : ReachesUnder concrete guard state) :
    Valid state ∧ Reaches abstract (map state) := by
  induction reached with
  | start start =>
      obtain ⟨valid, mapped⟩ := initial _ start
      exact ⟨valid, reaches_start mapped⟩
  | step prior allowed taken ih =>
      obtain ⟨valid, mapped⟩ := ih
      obtain ⟨nextValid, silent | visible⟩ := simulated _ _ _ valid allowed taken
      · exact ⟨nextValid, silent ▸ mapped⟩
      · exact ⟨nextValid, reaches_step mapped visible⟩

theorem run_labels_append {system : System State Label} {state middle final : State}
    {labels more : List Label} (run : runLabels system state labels = some middle)
    (later : runLabels system middle more = some final) :
    runLabels system state (labels ++ more) = some final := by
  induction labels generalizing state with
  | nil =>
      cases run
      exact later
  | cons label rest ih =>
      obtain ⟨next, taken, remaining⟩ := Option.bind_eq_some_iff.mp run
      rw [List.cons_append, runLabels, taken]
      exact ih remaining

/-- A change of state that every step commutes with carries whole runs over. -/
theorem run_labels_map {system : System State Label} {map : State → State}
    (commutes : ∀ state label, system.step (map state) label = (system.step state label).map map)
    (state : State) (labels : List Label) :
    runLabels system (map state) labels = (runLabels system state labels).map map := by
  induction labels generalizing state with
  | nil => rfl
  | cons label rest ih =>
      rw [runLabels, runLabels, commutes]
      cases system.step state label with
      | none => rfl
      | some next => exact ih next

/-- A run of these labels whose every step met the guard. -/
def RunsUnder (system : System State Label) (guard : State → Label → Prop) :
    State → List Label → State → Prop
  | state, [], final => final = state
  | state, label :: rest, final => guard state label ∧
      ∃ next, system.step state label = some next ∧ RunsUnder system guard next rest final

theorem runs_under_of_checked {system : System State Label}
    {guard : State → Label → Prop} {check : State → Label → Bool}
    (sound : ∀ state label, check state label = true → guard state label)
    {state final : State} {labels : List Label}
    (run : runChecked system check state labels = some final) :
    RunsUnder system guard state labels final := by
  induction labels generalizing state with
  | nil =>
      cases run
      rfl
  | cons label rest ih =>
      unfold runChecked at run
      split_ifs at run with checked
      obtain ⟨next, taken, remaining⟩ := Option.bind_eq_some_iff.mp run
      exact ⟨sound state label checked, next, taken, ih remaining⟩

/-- Two states that take the same steps, as long as the first meets the guard. -/
theorem runs_alike {system : System State Label} {guard : State → Label → Prop}
    {Related : State → State → Prop}
    (stepped : ∀ left right label next, Related left right → guard left label →
      system.step left label = some next →
      ∃ other, system.step right label = some other ∧ Related next other)
    {left right final : State} {labels : List Label} (related : Related left right)
    (run : RunsUnder system guard left labels final) :
    ∃ other, runLabels system right labels = some other ∧ Related final other := by
  induction labels generalizing left right with
  | nil =>
      obtain rfl : final = left := run
      exact ⟨right, rfl, related⟩
  | cons label rest ih =>
      obtain ⟨allowed, next, taken, remaining⟩ := run
      obtain ⟨other, follows, later⟩ := stepped left right label next related allowed taken
      obtain ⟨last, ran, alike⟩ := ih later remaining
      refine ⟨last, ?_, alike⟩
      rw [runLabels, follows]
      exact ran

/-- The steps of a run that the mapping lets see are a run above. -/
theorem run_labels_refine {Concrete Abstract : Type}
    {concrete : System Concrete Label} {abstract : System Abstract Label}
    {Valid : Concrete → Prop} (map : Concrete → Abstract)
    (simulated : ∀ state label next, Valid state → concrete.step state label = some next →
      Valid next ∧ (map next = map state ∨
        abstract.step (map state) label = some (map next)))
    {state final : Concrete} {labels : List Label} (valid : Valid state)
    (run : runLabels concrete state labels = some final) :
    ∃ visible, visible.Sublist labels ∧
      runLabels abstract (map state) visible = some (map final) := by
  induction labels generalizing state with
  | nil =>
      cases run
      exact ⟨[], .slnil, rfl⟩
  | cons label rest ih =>
      obtain ⟨next, taken, remaining⟩ := Option.bind_eq_some_iff.mp run
      obtain ⟨nextValid, moved⟩ := simulated state label next valid taken
      obtain ⟨visible, kept, above⟩ := ih nextValid remaining
      rcases moved with silent | stepped
      · rw [silent] at above
        exact ⟨visible, kept.cons label, above⟩
      · refine ⟨label :: visible, kept.cons_cons label, ?_⟩
        rw [runLabels, stepped]
        exact above

/-! ## Bounds -/

/-- A measure pays for the counted steps, and some labels pay in: a run has no more counted steps
than the measure it started with and what its labels paid in. -/
theorem counted_steps_le {system : System State Label} {Valid : State → Prop}
    {measure : State → Nat} {counted : Label → Bool} {gain : Label → Nat}
    (paid : ∀ state label next, Valid state → system.step state label = some next →
      Valid next ∧
        measure next + (if counted label then 1 else 0) ≤ measure state + gain label)
    {state final : State} {labels : List Label} (valid : Valid state)
    (run : runLabels system state labels = some final) :
    Valid final ∧
      labels.countP counted + measure final ≤ measure state + (labels.map gain).sum := by
  induction labels generalizing state with
  | nil =>
      cases run
      exact ⟨valid, by simp⟩
  | cons label rest ih =>
      obtain ⟨next, taken, remaining⟩ := Option.bind_eq_some_iff.mp run
      obtain ⟨nextValid, step⟩ := paid state label next valid taken
      obtain ⟨finalValid, later⟩ := ih nextValid remaining
      refine ⟨finalValid, ?_⟩
      rw [List.countP_cons, List.map_cons, List.sum_cons]
      omega

/-! ## Histories -/

section Histories

variable {Trace : Type}

/-- The system with a history beside its state, which every step may add to. -/
def traced (system : System State Label) (empty : Trace)
    (record : State → Label → State → Trace → Trace) : System (State × Trace) Label where
  start pair := system.start pair.1 ∧ pair.2 = empty
  step pair label := (system.step pair.1 label).map fun next =>
    (next, record pair.1 label next pair.2)

variable {system : System State Label} {empty : Trace}
variable {record : State → Label → State → Trace → Trace}

theorem traced_step_cases {pair next : State × Trace} {label : Label}
    (taken : (traced system empty record).step pair label = some next) :
    system.step pair.1 label = some next.1 ∧
      next.2 = record pair.1 label next.1 pair.2 := by
  obtain ⟨state, stepped, rfl⟩ := Option.map_eq_some_iff.mp taken
  exact ⟨stepped, rfl⟩

theorem reaches_of_traced {pair : State × Trace}
    (reached : Reaches (traced system empty record) pair) : Reaches system pair.1 := by
  induction reached with
  | start initial => exact reaches_start initial.1
  | step prior allowed taken ih => exact reaches_step ih (traced_step_cases taken).1

/-- A history hinders no run. -/
theorem traced_of_reaches {state : State} (reached : Reaches system state) :
    ∃ trace, Reaches (traced system empty record) (state, trace) := by
  induction reached with
  | start initial => exact ⟨empty, reaches_start ⟨initial, rfl⟩⟩
  | @step state next label prior allowed taken ih =>
      obtain ⟨trace, before⟩ := ih
      have recorded : (traced system empty record).step (state, trace) label =
          some (next, record state label next trace) :=
        Option.map_eq_some_iff.mpr ⟨next, taken, rfl⟩
      exact ⟨_, reaches_step before recorded⟩

end Histories

end MarketDataEngine.TransitionSystem
