import MarketDataEngine.TransitionSystem

/-!
# The reporter that `stop()` joins last

Behind the threads of an engine `stop()` joins its reporter. Between two reports the reporter
waits for a timer, or sleeps if there is none, and it looks at the flag before and behind the
wait. An engine is given by its system, by the flag, and by whether `stop()` has come to that
join; what holds of its runs once the flag is cleared is carried over to the engine with its
reporter.
-/

namespace MarketDataEngine.Engine

open MarketDataEngine.TransitionSystem

set_option autoImplicit false

/-- `left` are the accesses to the counters that are left of a report. -/
inductive ReporterPoint where
  | loopTest
  | wait
  | check
  | report (left : Nat)
  | leave
  | finished
  deriving DecidableEq

/-- What `read` on the timer answers. A sleep ends as `expired`. -/
inductive TimerReply where
  | expired
  | interrupted
  | failed

/-- What `stop()` does behind the join of the other threads. -/
inductive StopTail where
  | joinReporter
  | releasePool
  | returned
  deriving DecidableEq

/-- `accesses` are those of one report, and `releases` says whether `stop()` frees the pool. -/
structure ReportedEngine (State Label : Type) where
  system : System State Label
  running : State → Bool
  joined : State → Bool
  accesses : Nat
  releases : Bool

structure WithReporter (State : Type) where
  engine : State
  reporter : ReporterPoint
  tail : StopTail

inductive ReportedLabel (Label : Type) where
  | engine (label : Label)
  | reporter (reply : TimerReply)
  | stop

namespace ReporterPoint

/-- The line is logged with the last step of a report. -/
def step (accesses : Nat) (running : Bool) (reply : TimerReply) :
    ReporterPoint → Option ReporterPoint
  | .loopTest => some (if running then .wait else .leave)
  | .wait =>
      match reply with
      | .expired => some .check
      | .interrupted => some .loopTest
      | .failed => some .leave
  | .check => some (if running then .report accesses else .leave)
  | .report 0 => some .loopTest
  | .report (left + 1) => some (.report left)
  | .leave => some .finished
  | .finished => none

/-- The steps that are left once the flag is cleared. -/
def steps : ReporterPoint → Nat
  | .loopTest => 2
  | .wait => 3
  | .check => 2
  | .report left => left + 3
  | .leave => 1
  | .finished => 0

/-- No report makes more accesses than one makes. -/
def Within (accesses : Nat) : ReporterPoint → Prop
  | .report left => left ≤ accesses
  | _ => True

variable {accesses : Nat} {running : Bool} {reply : TimerReply} {point next : ReporterPoint}

theorem within_step (within : point.Within accesses)
    (taken : point.step accesses running reply = some next) : next.Within accesses := by
  cases point with
  | loopTest =>
      cases taken
      split_ifs
      · trivial
      · trivial
  | wait =>
      cases reply with
      | _ =>
          cases taken
          trivial
  | check =>
      cases taken
      split_ifs
      · exact Nat.le_refl _
      · trivial
  | report left =>
      cases left with
      | zero =>
          cases taken
          trivial
      | succ left =>
          cases taken
          exact Nat.le_of_succ_le within
  | leave =>
      cases taken
      trivial
  | finished => cases taken

theorem steps_step (taken : point.step accesses false reply = some next) :
    next.steps + 1 ≤ point.steps := by
  cases point with
  | wait =>
      cases reply with
      | expired =>
          cases taken
          exact Nat.le_refl _
      | interrupted =>
          cases taken
          exact Nat.le_refl _
      | failed =>
          cases taken
          exact Nat.le_succ _
  | report left =>
      cases left with
      | zero =>
          cases taken
          exact Nat.le_refl _
      | succ left =>
          cases taken
          exact Nat.le_refl _
  | finished => cases taken
  | _ =>
      cases taken
      exact Nat.le_refl _

theorem steps_le (within : point.Within accesses) : point.steps ≤ accesses + 3 := by
  cases point with
  | report left => exact Nat.add_le_add_right within 3
  | _ =>
      simp only [steps]
      omega

theorem moves (going : point ≠ .finished) :
    ∃ reply next, point.step accesses running reply = some next := by
  cases point with
  | report left =>
      cases left with
      | zero => exact ⟨.expired, _, rfl⟩
      | succ left => exact ⟨.expired, _, rfl⟩
  | finished => exact absurd rfl going
  | _ => exact ⟨.expired, _, rfl⟩

end ReporterPoint

def StopTail.steps : StopTail → Nat
  | .joinReporter => 2
  | .releasePool => 1
  | .returned => 0

section Reported

variable {State Label : Type} (reported : ReportedEngine State Label)

namespace WithReporter

def stopStep (state : WithReporter State) : Option (WithReporter State) :=
  match state.tail with
  | .joinReporter =>
      if reported.joined state.engine = true ∧ state.reporter = .finished then
        some { state with tail := if reported.releases then .releasePool else .returned }
      else none
  | .releasePool => some { state with tail := .returned }
  | .returned => none

def step (state : WithReporter State) : ReportedLabel Label → Option (WithReporter State)
  | .engine label => (reported.system.step state.engine label).map fun engine =>
      { state with engine := engine }
  | .reporter reply =>
      (state.reporter.step reported.accesses (reported.running state.engine) reply).map fun point =>
        { state with reporter := point }
  | .stop => state.stopStep reported

end WithReporter

def ReportedEngine.withReporter : System (WithReporter State) (ReportedLabel Label) where
  start state := reported.system.start state.engine ∧ state.reporter = .loopTest ∧
    state.tail = .joinReporter
  step := WithReporter.step reported

variable {reported}

/-- The engine takes its own steps; the reporter only reads the flag. -/
theorem engine_reached {state : WithReporter State}
    (reached : Reaches reported.withReporter state) :
    Reaches reported.system state.engine ∧ state.reporter.Within reported.accesses := by
  refine @invariant_of_step _ _ reported.withReporter (fun _ _ => True)
    (fun state => Reaches reported.system state.engine ∧
      state.reporter.Within reported.accesses) ?_ ?_ _ reached
  · rintro state ⟨start, reporter, -⟩
    rw [reporter]
    exact ⟨reaches_start start, trivial⟩
  · intro state label next _ ⟨engine, within⟩ _ taken
    cases label with
    | engine label =>
        obtain ⟨after, moved, rfl⟩ := Option.map_eq_some_iff.mp taken
        exact ⟨reaches_step engine moved, within⟩
    | reporter reply =>
        obtain ⟨point, moved, rfl⟩ := Option.map_eq_some_iff.mp taken
        exact ⟨engine, ReporterPoint.within_step within moved⟩
    | stop =>
        change state.stopStep reported = some next at taken
        unfold WithReporter.stopStep at taken
        split at taken
        · split_ifs at taken
          · cases taken
            exact ⟨engine, within⟩
          · cases taken
            exact ⟨engine, within⟩
        · cases taken
          exact ⟨engine, within⟩
        · cases taken

/-- `stop()` has returned and everything has ended. -/
def WithReporter.Over (state : WithReporter State) (ended : State → Prop) : Prop :=
  ended state.engine ∧ state.reporter = .finished ∧ state.tail = .returned

section Bound

variable {Down : State → Prop} {measure : State → Nat} {later : Label → Nat}

def laterReported (later : Label → Nat) : ReportedLabel Label → Nat
  | .engine label => later label
  | .reporter _ => 0
  | .stop => 0

def WithReporter.stepsLeft (measure : State → Nat) (state : WithReporter State) : Nat :=
  measure state.engine + state.reporter.steps + state.tail.steps

/-- What an engine's steps cost once its flag is cleared, those of the reporter and of the end
of `stop()` cost too. -/
theorem reported_step
    (paid : ∀ state label next, Down state → reported.system.step state label = some next →
      Down next ∧ measure next + 1 ≤ measure state + later label)
    (stopped : ∀ state, Down state → reported.running state = false)
    {state next : WithReporter State} {label : ReportedLabel Label} (down : Down state.engine)
    (taken : reported.withReporter.step state label = some next) :
    Down next.engine ∧
      next.stepsLeft measure + 1 ≤ state.stepsLeft measure + laterReported later label := by
  unfold WithReporter.stepsLeft
  cases label with
  | engine label =>
      obtain ⟨after, moved, rfl⟩ := Option.map_eq_some_iff.mp taken
      obtain ⟨downAfter, less⟩ := paid _ _ _ down moved
      refine ⟨downAfter, ?_⟩
      simp only [laterReported]
      omega
  | reporter reply =>
      obtain ⟨point, moved, rfl⟩ := Option.map_eq_some_iff.mp taken
      rw [stopped _ down] at moved
      have less := ReporterPoint.steps_step moved
      refine ⟨down, ?_⟩
      simp only [laterReported]
      omega
  | stop =>
      change state.stopStep reported = some next at taken
      unfold WithReporter.stopStep at taken
      split at taken
      · next joining =>
          split_ifs at taken
          · cases taken
            refine ⟨down, ?_⟩
            rw [joining]
            exact Nat.le_refl _
          · cases taken
            refine ⟨down, ?_⟩
            rw [joining]
            simp only [StopTail.steps, laterReported]
            omega
      · next releasing =>
          cases taken
          refine ⟨down, ?_⟩
          rw [releasing]
          exact Nat.le_refl _
      · cases taken

/-- With the flag cleared, a run of an engine with its reporter has no more steps than its
threads had left. -/
theorem reported_steps_le
    (paid : ∀ state label next, Down state → reported.system.step state label = some next →
      Down next ∧ measure next + 1 ≤ measure state + later label)
    (stopped : ∀ state, Down state → reported.running state = false)
    {state final : WithReporter State} {labels : List (ReportedLabel Label)}
    (reached : Reaches reported.withReporter state) (down : Down state.engine)
    (run : runLabels reported.withReporter state labels = some final) :
    labels.length ≤ measure state.engine + (reported.accesses + 5) +
      (labels.map (laterReported later)).sum := by
  have steps := (@counted_steps_le _ _ reported.withReporter (fun state => Down state.engine)
    (WithReporter.stepsLeft measure) (fun _ => true) (laterReported later)
    (fun _ _ _ down taken => reported_step paid stopped down taken) state final labels down run).2
  rw [List.countP_true] at steps
  have reporter := ReporterPoint.steps_le (engine_reached reached).2
  have tail : state.tail.steps ≤ 2 := by
    cases state.tail with
    | _ => decide
  unfold WithReporter.stepsLeft at steps
  omega

/-- Somebody can go on until everything has ended, if that is so of the engine. -/
theorem reported_moves {ended : State → Prop} {state : WithReporter State}
    (moves : ended state.engine ∨
      ∃ label next, reported.system.step state.engine label = some next)
    (joined : ended state.engine → reported.joined state.engine = true) :
    state.Over ended ∨ ∃ label next, reported.withReporter.step state label = some next := by
  rcases moves with gone | ⟨label, next, taken⟩
  · by_cases finished : state.reporter = .finished
    · cases tail : state.tail with
      | returned => exact .inl ⟨gone, finished, tail⟩
      | releasePool =>
          refine .inr ⟨.stop, { state with tail := .returned }, ?_⟩
          show state.stopStep reported = _
          rw [WithReporter.stopStep, tail]
      | joinReporter =>
          refine .inr ⟨.stop,
            { state with tail := if reported.releases then .releasePool else .returned }, ?_⟩
          show state.stopStep reported = _
          rw [WithReporter.stopStep, tail]
          exact if_pos ⟨joined gone, finished⟩
    · obtain ⟨reply, point, moved⟩ := @ReporterPoint.moves reported.accesses
        (reported.running state.engine) _ finished
      exact .inr ⟨.reporter reply, _, Option.map_eq_some_iff.mpr ⟨point, moved, rfl⟩⟩
  · exact .inr ⟨.engine label, _, Option.map_eq_some_iff.mpr ⟨next, taken, rfl⟩⟩

end Bound

end Reported

end MarketDataEngine.Engine
