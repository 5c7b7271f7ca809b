import Mathlib.Algebra.Order.Group.Nat
import MarketDataEngine.LatencyHistogram
import MarketDataEngine.TransitionSystem

/-!
# Latencies recorded while snapshots are taken

A step is one atomic operation of a call of `record_latency` or of the reporter's
`snapshot_latency`. Any number of calls may be under way; there is one reporter, so snapshots
follow each other. The calls and the snapshots stay in the state as histories.

Every count is in the counter, in the reporter's hands or in a snapshot, and what the counter
lost by wrapping is counted beside it. The maximum falls when it is taken, so what never falls
is the largest of the maxima taken and the one in the cell.
-/

namespace MarketDataEngine.EngineV2

open MarketDataEngine.TransitionSystem

set_option autoImplicit false

/-- Where a call of `record_latency` is, with its bucket counted. -/
inductive CallLocation where
  | addSample
  | loadMax
  | exchangeMax (current : UInt64)
  | returned
  deriving DecidableEq

/-- A call of `record_latency`. `side` is the number of snapshots that had taken the count of
its bucket before the call counted there. -/
structure RecordCall where
  latencyNs : UInt64
  side : Nat
  location : CallLocation

/-- Where `snapshot_latency` is, with the counts taken so far. -/
inductive ReporterLocation where
  | buckets (counts : List UInt64)
  | samples (counts : List UInt64)
  | max (counts : List UInt64) (samples : UInt64)

/-- A snapshot and the counts it was made from. -/
structure Taken where
  counts : List UInt64
  snap : LatencySnapshot

/-- `bucketWraps` and `sampleWraps` count how often a counter went from its largest value to
zero. -/
structure LatencyState where
  histogram : Histogram
  calls : List RecordCall
  reporter : ReporterLocation
  taken : List Taken
  bucketWraps : Nat → Nat
  sampleWraps : Nat

inductive LatencyLabel where
  | record (latencyNs : UInt64)
  | call (position : Nat) (spurious : Bool)
  | report

namespace ReporterLocation

def counts : ReporterLocation → List UInt64
  | .buckets counts => counts
  | .samples counts => counts
  | .max counts _ => counts

/-- The samples taken and not yet reported. -/
def samplesTaken : ReporterLocation → UInt64
  | .max _ sampled => sampled
  | _ => 0

end ReporterLocation

/-- One if the next increment wraps. -/
def wrapped (count : UInt64) : Nat := if count + 1 = 0 then 1 else 0

theorem add_one_wrapped (count : UInt64) :
    (count + 1).toNat + 2 ^ 64 * wrapped count = count.toNat + 1 := by
  have bound := count.toNat_lt
  unfold wrapped
  split_ifs with zero
  · have sum := congrArg UInt64.toNat zero
    rw [UInt64.toNat_add, UInt64.toNat_one, UInt64.toNat_zero] at sum
    rw [zero, UInt64.toNat_zero]
    omega
  · have sum : (count + 1).toNat ≠ 0 := by
      intro none_
      exact zero (UInt64.toNat_inj.mp none_)
    rw [UInt64.toNat_add, UInt64.toNat_one] at sum ⊢
    omega

namespace LatencyState

/-- How often the count of a bucket has been taken. -/
def bucketTaken (state : LatencyState) (bucket : Nat) : Nat :=
  state.taken.length + if bucket < state.reporter.counts.length then 1 else 0

def record (state : LatencyState) (latencyNs : UInt64) : LatencyState :=
  let bucket := bucketOf latencyNs
  { state with
    histogram := state.histogram.addBucket latencyNs
    calls := state.calls ++ [⟨latencyNs, state.bucketTaken bucket, .addSample⟩]
    bucketWraps := Function.update state.bucketWraps bucket
      (state.bucketWraps bucket + wrapped (state.histogram.buckets bucket)) }

end LatencyState

/-- The test of the loop, on the value that was loaded. -/
def maxTest (latencyNs current : UInt64) : CallLocation :=
  if current < latencyNs then .exchangeMax current else .returned

/-- A failed compare-exchange, for a reason or for none, loads the value that is there. -/
def callStep (histogram : Histogram) (latencyNs : UInt64) (location : CallLocation)
    (spurious : Bool) : Option (Histogram × CallLocation) :=
  match location with
  | .addSample => some (histogram.addSample, .loadMax)
  | .loadMax => some (histogram, maxTest latencyNs histogram.maxNs)
  | .exchangeMax current =>
      if histogram.maxNs = current ∧ spurious = false then
        some (histogram.storeMax latencyNs, .returned)
      else some (histogram, maxTest latencyNs histogram.maxNs)
  | .returned => none

namespace LatencyState

def callMoved (state : LatencyState) (position : Nat) (call : RecordCall)
    (moved : Histogram × CallLocation) : LatencyState :=
  { state with
    histogram := moved.1
    calls := state.calls.set position { call with location := moved.2 }
    sampleWraps := state.sampleWraps +
      if call.location = .addSample then wrapped state.histogram.samples else 0 }

/-- The exchange of the next cell. -/
def report (state : LatencyState) : LatencyState :=
  match state.reporter with
  | .buckets counts =>
      let extended := counts ++ [state.histogram.buckets counts.length]
      { state with
        histogram := state.histogram.clearBucket counts.length
        reporter := if extended.length < kLatencyBucketCount + 1 then .buckets extended
          else .samples extended }
  | .samples counts =>
      { state with
        histogram := state.histogram.clearSamples
        reporter := .max counts state.histogram.samples }
  | .max counts samples =>
      { state with
        histogram := state.histogram.storeMax 0
        reporter := .buckets []
        taken := state.taken ++
          [⟨counts, reportLatency counts samples state.histogram.maxNs⟩] }

def start : LatencyState := ⟨.empty, [], .buckets [], [], fun _ => 0, 0⟩

end LatencyState

def latencyStep (state : LatencyState) : LatencyLabel → Option LatencyState
  | .record latencyNs => some (state.record latencyNs)
  | .call position spurious =>
      (state.calls[position]?).bind fun call =>
        (callStep state.histogram call.latencyNs call.location spurious).map
          (state.callMoved position call)
  | .report => some state.report

/-- The engine starts with zeroed counters. -/
def latencySystem : System LatencyState LatencyLabel where
  start state := state = .start
  step := latencyStep

/-- Neither a call of `record_latency` nor one of `snapshot_latency` is under way. -/
def Quiescent (state : LatencyState) : Prop :=
  state.reporter = .buckets [] ∧ ∀ call ∈ state.calls, call.location = .returned

/-! ## What a step can do -/

def CallLocation.atMax : CallLocation → Bool
  | .loadMax => true
  | .exchangeMax _ => true
  | _ => false

/-- The operations of a call behind its first. -/
inductive CallMove (histogram : Histogram) (latencyNs : UInt64) :
    CallLocation → Histogram × CallLocation → Prop where
  | sample : CallMove histogram latencyNs .addSample (histogram.addSample, .loadMax)
  | retry {location : CallLocation} (atMax : location.atMax = true)
      (below : histogram.maxNs < latencyNs) :
      CallMove histogram latencyNs location (histogram, .exchangeMax histogram.maxNs)
  | enough {location : CallLocation} (atMax : location.atMax = true)
      (reached : latencyNs ≤ histogram.maxNs) :
      CallMove histogram latencyNs location (histogram, .returned)
  | store : CallMove histogram latencyNs (.exchangeMax histogram.maxNs)
      (histogram.storeMax latencyNs, .returned)

theorem call_move_of_test {histogram : Histogram} {latencyNs : UInt64} {location : CallLocation}
    (atMax : location.atMax = true) : CallMove histogram latencyNs location
      (histogram, maxTest latencyNs histogram.maxNs) := by
  unfold maxTest
  split_ifs with below
  · exact .retry atMax below
  · exact .enough atMax (UInt64.not_lt.mp below)

theorem call_move_of_step {histogram : Histogram} {latencyNs : UInt64}
    {location : CallLocation} {spurious : Bool} {moved : Histogram × CallLocation}
    (step : callStep histogram latencyNs location spurious = some moved) :
    CallMove histogram latencyNs location moved := by
  cases location with
  | addSample =>
      cases step
      exact .sample
  | loadMax =>
      cases step
      exact call_move_of_test rfl
  | exchangeMax current =>
      simp only [callStep] at step
      split_ifs at step with exchanged
      · cases step
        rw [← exchanged.1]
        exact .store
      · cases step
        exact call_move_of_test rfl
  | returned => cases step

/-- A step starts a call, moves one, or exchanges the next cell. -/
inductive LatencyMove (state : LatencyState) : LatencyLabel → LatencyState → Prop where
  | record (latencyNs : UInt64) :
      LatencyMove state (.record latencyNs) (state.record latencyNs)
  | call {position : Nat} {spurious : Bool} {call : RecordCall}
      {moved : Histogram × CallLocation} (found : state.calls[position]? = some call)
      (step : callStep state.histogram call.latencyNs call.location spurious = some moved) :
      LatencyMove state (.call position spurious) (state.callMoved position call moved)
  | report : LatencyMove state .report state.report

theorem latency_move_of_step {state next : LatencyState} {label : LatencyLabel}
    (taken : latencyStep state label = some next) : LatencyMove state label next := by
  cases label with
  | record latencyNs =>
      cases taken
      exact .record latencyNs
  | call position spurious =>
      obtain ⟨call, found, moves⟩ := Option.bind_eq_some_iff.mp taken
      obtain ⟨moved, step, rfl⟩ := Option.map_eq_some_iff.mp moves
      exact .call found step
  | report =>
      cases taken
      exact .report

/-! ## Conservation -/

namespace LatencyState

def latencies (state : LatencyState) : List Nat :=
  state.calls.map fun call => call.latencyNs.toNat

/-- What the snapshots have of a bucket. -/
def extracted (state : LatencyState) (bucket : Nat) : Nat :=
  (state.taken.map fun taken => (taken.counts.getD bucket 0).toNat).sum

def extractedSamples (state : LatencyState) : Nat :=
  (state.taken.map fun taken => taken.snap.samples.toNat).sum

/-- The largest of the maxima in the snapshots and in the cell. -/
def topNs (state : LatencyState) : Nat :=
  (state.taken.map fun taken => taken.snap.maxNs.toNat).foldr max
    state.histogram.maxNs.toNat

def unsampled (state : LatencyState) : Nat :=
  state.calls.countP fun call => decide (call.location = .addSample)

end LatencyState

theorem foldr_max_le_iff (values : List Nat) (base bound : Nat) :
    values.foldr max base ≤ bound ↔ base ≤ bound ∧ ∀ value ∈ values, value ≤ bound := by
  induction values with
  | nil => simp
  | cons value rest ih =>
      rw [List.foldr_cons, Nat.max_le, ih, List.forall_mem_cons]
      tauto

theorem foldr_max_base (values : List Nat) (base : Nat) :
    values.foldr max base = max (values.foldr max 0) base := by
  induction values with
  | nil => exact (Nat.zero_max base).symm
  | cons value rest ih => rw [List.foldr_cons, List.foldr_cons, ih, Nat.max_assoc]

theorem map_set_of_same {α β : Type} {f : α → β} {values : List α} {position : Nat}
    {value other : α} (found : values[position]? = some value) (same : f other = f value) :
    (values.set position other).map f = values.map f := by
  obtain ⟨inside, rfl⟩ := List.getElem?_eq_some_iff.mp found
  have inMap : position < (values.map f).length := by rwa [List.length_map]
  have entry : f values[position] = (values.map f)[position] := (List.getElem_map f).symm
  rw [List.map_set, same, entry]
  exact List.set_getElem_self inMap

theorem countP_set_add {α : Type} {test : α → Bool} {values : List α} {position : Nat}
    {value other : α} (found : values[position]? = some value) :
    (values.set position other).countP test + (if test value then 1 else 0) =
      values.countP test + if test other then 1 else 0 := by
  obtain ⟨inside, rfl⟩ := List.getElem?_eq_some_iff.mp found
  have counted := @List.boole_getElem_le_countP _ test values position inside
  rw [List.countP_set inside]
  omega

structure Conserved (state : LatencyState) : Prop where
  buckets : ∀ bucket, state.extracted bucket + (state.reporter.counts.getD bucket 0).toNat +
    (state.histogram.buckets bucket).toNat + 2 ^ 64 * state.bucketWraps bucket =
      state.latencies.countP fun latency => decide (bucketIndex latency = bucket)
  samples : state.extractedSamples + state.reporter.samplesTaken.toNat +
    state.histogram.samples.toNat + 2 ^ 64 * state.sampleWraps + state.unsampled =
      state.calls.length
  raised : ∀ call ∈ state.calls, call.location = .returned →
    call.latencyNs.toNat ≤ state.topNs
  attained : state.topNs = 0 ∨ state.topNs ∈ state.latencies
  below : ∀ call ∈ state.calls, ∀ current, call.location = .exchangeMax current →
    current < call.latencyNs

section Conservation

variable {state : LatencyState}

theorem conserved_start : Conserved .start := by
  constructor
  case buckets => exact fun _ => rfl
  case samples => rfl
  case raised =>
    intro call member
    cases member
  case attained => exact .inl rfl
  case below =>
    intro call member
    cases member

theorem conserved_record (conserved : Conserved state) (latencyNs : UInt64) :
    Conserved (state.record latencyNs) := by
  have latencies : (state.record latencyNs).latencies =
      state.latencies ++ [latencyNs.toNat] := List.map_append
  constructor
  case buckets =>
    intro bucket
    have before := conserved.buckets bucket
    have counted := Histogram.add_bucket_count state.histogram latencyNs bucket
    rw [latencies, List.countP_append, List.countP_singleton]
    simp only [LatencyState.record, bucket_of_eq, decide_eq_true_eq] at counted ⊢
    rw [counted]
    split_ifs with here
    · have sum := add_one_wrapped (state.histogram.buckets bucket)
      rw [here, Function.update_self]
      simp only [LatencyState.extracted] at before ⊢
      omega
    · rw [Function.update_of_ne (fun same => here same.symm), UInt64.add_zero]
      exact before
  case samples =>
    have before := conserved.samples
    simp only [LatencyState.record, LatencyState.unsampled, LatencyState.extractedSamples,
      Histogram.addBucket, List.length_append, List.length_singleton, List.countP_append,
      List.countP_singleton, decide_true, if_true] at before ⊢
    omega
  case raised =>
    intro call member returned
    rcases List.mem_append.mp member with earlier | newest
    · exact conserved.raised call earlier returned
    · rw [List.mem_singleton.mp newest] at returned
      cases returned
  case attained =>
    rw [latencies]
    exact conserved.attained.imp id (List.mem_append_left _)
  case below =>
    intro call member current at_
    rcases List.mem_append.mp member with earlier | newest
    · exact conserved.below call earlier current at_
    · rw [List.mem_singleton.mp newest] at at_
      cases at_

theorem top_ns_eq (state : LatencyState) : state.topNs =
    max ((state.taken.map fun taken => taken.snap.maxNs.toNat).foldr max 0)
      state.histogram.maxNs.toNat :=
  foldr_max_base _ _

section Calls

variable {position : Nat} {call : RecordCall} {moved : Histogram × CallLocation}

/-- What the move of a call has to show. -/
theorem conserved_moved (conserved : Conserved state)
    (found : state.calls[position]? = some call)
    (buckets : moved.1.buckets = state.histogram.buckets)
    (samples : state.extractedSamples + state.reporter.samplesTaken.toNat +
      moved.1.samples.toNat + 2 ^ 64 * (state.callMoved position call moved).sampleWraps +
      (state.callMoved position call moved).unsampled = state.calls.length)
    (kept : state.topNs ≤ (state.callMoved position call moved).topNs)
    (raised : moved.2 = .returned →
      call.latencyNs.toNat ≤ (state.callMoved position call moved).topNs)
    (attained : (state.callMoved position call moved).topNs = state.topNs ∨
      (state.callMoved position call moved).topNs = call.latencyNs.toNat)
    (below : ∀ current, moved.2 = .exchangeMax current → current < call.latencyNs) :
    Conserved (state.callMoved position call moved) := by
  have latencies : (state.callMoved position call moved).latencies = state.latencies :=
    map_set_of_same found rfl
  constructor
  case buckets =>
    intro bucket
    rw [latencies]
    simp only [LatencyState.callMoved, LatencyState.extracted]
    rw [buckets]
    exact conserved.buckets bucket
  case samples =>
    have length : (state.callMoved position call moved).calls.length = state.calls.length :=
      List.length_set
    rw [length]
    exact samples
  case raised =>
    intro other member returned
    rcases List.mem_or_eq_of_mem_set member with earlier | rfl
    · exact Nat.le_trans (conserved.raised other earlier returned) kept
    · exact raised returned
  case attained =>
    rw [latencies]
    rcases attained with same | stored
    · rw [same]
      exact conserved.attained
    · rw [stored]
      exact .inr (List.mem_map_of_mem (List.mem_of_getElem? found))
  case below =>
    intro other member current at_
    rcases List.mem_or_eq_of_mem_set member with earlier | rfl
    · exact conserved.below other earlier current at_
    · exact below current at_

/-- A move between two points behind the count of the sample. -/
theorem samples_of_sampled (conserved : Conserved state)
    (found : state.calls[position]? = some call) (before : call.location ≠ .addSample)
    (after : moved.2 ≠ .addSample) (samples : moved.1.samples = state.histogram.samples) :
    state.extractedSamples + state.reporter.samplesTaken.toNat + moved.1.samples.toNat +
      2 ^ 64 * (state.callMoved position call moved).sampleWraps +
      (state.callMoved position call moved).unsampled = state.calls.length := by
  have unsampled := @countP_set_add _ (fun call : RecordCall =>
    decide (call.location = .addSample)) _ _ _ { call with location := moved.2 } found
  simp only [decide_eq_true_eq, if_neg before, if_neg after, Nat.add_zero] at unsampled
  simp only [LatencyState.callMoved, LatencyState.unsampled, if_neg before, Nat.add_zero]
  rw [unsampled, samples]
  exact conserved.samples

theorem samples_of_add (conserved : Conserved state)
    (found : state.calls[position]? = some call) (before : call.location = .addSample) :
    state.extractedSamples + state.reporter.samplesTaken.toNat +
      state.histogram.addSample.samples.toNat + 2 ^ 64 *
        (state.callMoved position call (state.histogram.addSample, .loadMax)).sampleWraps +
      (state.callMoved position call (state.histogram.addSample, .loadMax)).unsampled =
        state.calls.length := by
  have unsampled := @countP_set_add _ (fun call : RecordCall =>
    decide (call.location = .addSample)) _ _ _ { call with location := .loadMax } found
  have sum := add_one_wrapped state.histogram.samples
  have samples := conserved.samples
  simp only [before, decide_true, if_true, reduceCtorEq, decide_false, Bool.false_eq_true,
    if_false, Nat.add_zero] at unsampled
  simp only [LatencyState.callMoved, LatencyState.unsampled, Histogram.addSample, before,
    if_true] at samples ⊢
  omega

theorem at_max_sampled {location : CallLocation} (atMax : location.atMax = true) :
    location ≠ .addSample := by
  rintro rfl
  cases atMax

/-- A move that leaves the maximum, and ends only if that is high enough. -/
theorem conserved_below_max (conserved : Conserved state)
    (found : state.calls[position]? = some call)
    (buckets : moved.1.buckets = state.histogram.buckets)
    (samples : state.extractedSamples + state.reporter.samplesTaken.toNat +
      moved.1.samples.toNat + 2 ^ 64 * (state.callMoved position call moved).sampleWraps +
      (state.callMoved position call moved).unsampled = state.calls.length)
    (kept : moved.1.maxNs = state.histogram.maxNs)
    (ends : moved.2 = .returned → call.latencyNs ≤ state.histogram.maxNs)
    (below : ∀ current, moved.2 = .exchangeMax current → current < call.latencyNs) :
    Conserved (state.callMoved position call moved) := by
  have top : (state.callMoved position call moved).topNs = state.topNs := by
    rw [top_ns_eq, top_ns_eq]
    simp only [LatencyState.callMoved]
    rw [kept]
  have cell : state.histogram.maxNs.toNat ≤ state.topNs := by
    rw [top_ns_eq]
    exact Nat.le_max_right _ _
  apply conserved_moved conserved found buckets samples
  case kept => exact Nat.le_of_eq top.symm
  case raised =>
    intro returned
    rw [top]
    exact Nat.le_trans (UInt64.le_iff_toNat_le.mp (ends returned)) cell
  case attained => exact .inl top
  case below => exact below

theorem conserved_call (conserved : Conserved state)
    (found : state.calls[position]? = some call)
    (move : CallMove state.histogram call.latencyNs call.location moved) :
    Conserved (state.callMoved position call moved) := by
  generalize at_ : call.location = location at move
  cases move with
  | sample =>
      have samples := samples_of_add conserved found at_
      exact conserved_below_max conserved found rfl samples rfl (fun returned => nomatch returned)
        (fun _ exchanging => nomatch exchanging)
  | retry atMax below =>
      rw [← at_] at atMax
      have samples := @samples_of_sampled _ _ _
        (state.histogram, .exchangeMax state.histogram.maxNs) conserved found
        (at_max_sampled atMax) (by simp) rfl
      apply conserved_below_max conserved found rfl samples rfl (fun returned => nomatch returned)
      intro current exchanging
      cases exchanging
      exact below
  | enough atMax reached =>
      rw [← at_] at atMax
      have samples := @samples_of_sampled _ _ _ (state.histogram, .returned) conserved found
        (at_max_sampled atMax) (by simp) rfl
      exact conserved_below_max conserved found rfl samples rfl (fun _ => reached)
        (fun _ exchanging => nomatch exchanging)
  | store =>
      have less := UInt64.lt_iff_toNat_lt.mp
        (conserved.below call (List.mem_of_getElem? found) _ at_)
      have top : (state.callMoved position call
          (state.histogram.storeMax call.latencyNs, .returned)).topNs =
            max state.topNs call.latencyNs.toNat := by
        rw [top_ns_eq, top_ns_eq]
        simp only [LatencyState.callMoved, Histogram.storeMax]
        omega
      have samples := @samples_of_sampled _ _ _
        (state.histogram.storeMax call.latencyNs, .returned) conserved found
        (by rw [at_]; simp) (by simp) rfl
      apply conserved_moved conserved found rfl samples
      case kept =>
        rw [top]
        exact Nat.le_max_left _ _
      case raised =>
        intro _
        rw [top]
        exact Nat.le_max_right _ _
      case attained =>
        rw [top]
        omega
      case below =>
        intro current exchanging
        cases exchanging

end Calls

theorem report_latency_samples (counts : List UInt64) (samples maxNs : UInt64) :
    (reportLatency counts samples maxNs).samples = samples := by
  unfold reportLatency
  split_ifs <;> rfl

theorem report_latency_max (counts : List UInt64) (samples maxNs : UInt64) :
    (reportLatency counts samples maxNs).maxNs = maxNs := by
  unfold reportLatency
  split_ifs <;> rfl

theorem getD_append_single (counts : List UInt64) (count : UInt64) (bucket : Nat) :
    (counts ++ [count]).getD bucket 0 =
      if bucket = counts.length then count else counts.getD bucket 0 := by
  rw [List.getD_eq_getElem?_getD, List.getD_eq_getElem?_getD]
  split_ifs with last
  · rw [last, List.getElem?_concat_length, Option.getD_some]
  · rcases Nat.lt_or_gt_of_ne last with inside | outside
    · rw [List.getElem?_append_left inside]
    · rw [List.getElem?_eq_none (by rw [List.length_append]; exact outside),
        List.getElem?_eq_none (Nat.le_of_lt outside)]

/-- The exchange of a bucket moves its count into the reporter's hands. -/
theorem conserved_take_bucket (conserved : Conserved state) {counts : List UInt64}
    (at_ : state.reporter = .buckets counts) {reporter : ReporterLocation}
    (taken : reporter.counts = counts ++ [state.histogram.buckets counts.length])
    (untaken : reporter.samplesTaken = 0) :
    Conserved { state with
      histogram := state.histogram.clearBucket counts.length
      reporter := reporter } := by
  constructor
  case buckets =>
    intro bucket
    have before := conserved.buckets bucket
    rw [at_] at before
    simp only [taken, getD_append_single, Histogram.clearBucket]
    simp only [LatencyState.extracted, LatencyState.latencies, ReporterLocation.counts]
      at before ⊢
    split_ifs with here
    · subst here
      have absent : counts.getD counts.length 0 = 0 := by
        rw [List.getD_eq_getElem?_getD, List.getElem?_eq_none (Nat.le_refl _), Option.getD_none]
      rw [absent, UInt64.toNat_zero] at before
      rw [Function.update_self, UInt64.toNat_zero]
      omega
    · rw [Function.update_of_ne here]
      exact before
  case samples =>
    have before := conserved.samples
    rw [at_] at before
    rw [untaken]
    exact before
  case raised => exact conserved.raised
  case attained => exact conserved.attained
  case below => exact conserved.below

theorem conserved_take_samples (conserved : Conserved state) {counts : List UInt64}
    (at_ : state.reporter = .samples counts) :
    Conserved { state with
      histogram := state.histogram.clearSamples
      reporter := .max counts state.histogram.samples } := by
  constructor
  case buckets =>
    have before := conserved.buckets
    rw [at_] at before
    exact before
  case samples =>
    have before := conserved.samples
    rw [at_] at before
    simp only [LatencyState.extractedSamples, LatencyState.unsampled,
      ReporterLocation.samplesTaken, Histogram.clearSamples, UInt64.toNat_zero] at before ⊢
    omega
  case raised => exact conserved.raised
  case attained => exact conserved.attained
  case below => exact conserved.below

theorem conserved_take_max (conserved : Conserved state) {counts : List UInt64}
    {samples : UInt64} (at_ : state.reporter = .max counts samples) :
    Conserved { state with
      histogram := state.histogram.storeMax 0
      reporter := .buckets []
      taken := state.taken ++
        [⟨counts, reportLatency counts samples state.histogram.maxNs⟩] } := by
  have top : ({ state with
      histogram := state.histogram.storeMax 0
      reporter := .buckets []
      taken := state.taken ++
        [⟨counts, reportLatency counts samples state.histogram.maxNs⟩] } :
      LatencyState).topNs = state.topNs := by
    simp only [LatencyState.topNs, Histogram.storeMax, List.map_append, List.map_cons,
      List.map_nil, List.foldr_append, List.foldr_cons, List.foldr_nil, report_latency_max,
      UInt64.toNat_zero, Nat.max_zero]
  constructor
  case buckets =>
    intro bucket
    have before := conserved.buckets bucket
    rw [at_] at before
    simp only [LatencyState.extracted, LatencyState.latencies, ReporterLocation.counts,
      List.map_append, List.map_cons, List.map_nil, List.sum_append, List.sum_singleton,
      List.getD_nil, UInt64.toNat_zero, Histogram.storeMax] at before ⊢
    omega
  case samples =>
    have before := conserved.samples
    rw [at_] at before
    simp only [LatencyState.extractedSamples, LatencyState.unsampled,
      ReporterLocation.samplesTaken, List.map_append, List.map_cons, List.map_nil,
      List.sum_append, List.sum_singleton, report_latency_samples, UInt64.toNat_zero,
      Histogram.storeMax] at before ⊢
    omega
  case raised =>
    rw [top]
    exact conserved.raised
  case attained =>
    rw [top]
    exact conserved.attained
  case below => exact conserved.below

theorem conserved_report (conserved : Conserved state) : Conserved state.report := by
  unfold LatencyState.report
  cases at_ : state.reporter with
  | buckets counts =>
      apply conserved_take_bucket conserved at_
      · split_ifs <;> rfl
      · split_ifs <;> rfl
  | samples counts => exact conserved_take_samples conserved at_
  | max counts samples => exact conserved_take_max conserved at_

theorem conserved_of_reaches (reached : Reaches latencySystem state) : Conserved state := by
  refine invariant_of_step ?_ ?_ reached
  · rintro state rfl
    exact conserved_start
  · intro state label next _ conserved _ taken
    cases latency_move_of_step taken with
    | record latencyNs => exact conserved_record conserved latencyNs
    | call found step => exact conserved_call conserved found (call_move_of_step step)
    | report => exact conserved_report conserved

/-- Between calls, no count is lost or counted twice, but for what a counter of 64 bits loses
by wrapping, and the largest maximum reported or in the cell is the longest latency. -/
theorem latencies_conserved (state : LatencyState) (reached : Reaches latencySystem state)
    (quiescent : Quiescent state) :
    (∀ bucket, bucket ≤ kLatencyBucketCount →
      (state.taken.map fun taken => (taken.counts.getD bucket 0).toNat).sum +
        (state.histogram.buckets bucket).toNat + 2 ^ 64 * state.bucketWraps bucket =
          state.calls.countP fun call => decide (bucketOf call.latencyNs = bucket)) ∧
      (state.taken.map fun taken => taken.snap.samples.toNat).sum +
        state.histogram.samples.toNat + 2 ^ 64 * state.sampleWraps = state.calls.length ∧
      (state.taken.map fun taken => taken.snap.maxNs.toNat).foldr max
        state.histogram.maxNs.toNat =
          (state.calls.map fun call => call.latencyNs.toNat).foldr max 0 := by
  have conserved := conserved_of_reaches reached
  obtain ⟨idle, returned⟩ := quiescent
  refine ⟨?_, ?_, ?_⟩
  · intro bucket _
    have balance := conserved.buckets bucket
    rw [idle, LatencyState.latencies, List.countP_map] at balance
    simp only [ReporterLocation.counts, List.getD_nil, UInt64.toNat_zero, Nat.add_zero,
      Function.comp_def, ← bucket_of_eq] at balance
    exact balance
  · have balance := conserved.samples
    have none_ : state.unsampled = 0 := by
      apply List.countP_eq_zero.mpr
      intro call member unsampled
      rw [returned call member] at unsampled
      cases of_decide_eq_true unsampled
    rw [idle, none_] at balance
    exact balance
  · apply Nat.le_antisymm
    · rcases conserved.attained with zero | member
      · exact Nat.le_trans (Nat.le_of_eq zero) (Nat.zero_le _)
      · exact ((foldr_max_le_iff _ _ _).mp (Nat.le_refl _)).2 _ member
    · rw [foldr_max_le_iff]
      refine ⟨Nat.zero_le _, ?_⟩
      intro latency member
      obtain ⟨call, inCalls, rfl⟩ := List.mem_map.mp member
      exact conserved.raised call inCalls (returned call inCalls)

end Conservation

/-! ## A call that runs undisturbed -/

theorem set_last {α : Type} (values : List α) (value later : α) :
    (values ++ [value]).set values.length later = values ++ [later] := by
  rw [List.set_append_right _ _ (Nat.le_refl _), Nat.sub_self]
  rfl

/-- The state differs from the first one by one call more and by the histogram. -/
structure LastCall (first : LatencyState) (call : RecordCall) (histogram : Histogram)
    (state : LatencyState) : Prop where
  reporter : state.reporter = first.reporter
  taken : state.taken = first.taken
  calls : state.calls = first.calls ++ [call]
  histogram : state.histogram = histogram

section Undisturbed

variable {guard : LatencyState → LatencyLabel → Prop} {first state : LatencyState}
variable {latencyNs : UInt64} {side : Nat} {location : CallLocation} {histogram : Histogram}

theorem reaches_last_call (reached : ReachesUnder latencySystem guard state)
    (at_ : LastCall first ⟨latencyNs, side, location⟩ histogram state) {spurious : Bool}
    (allowed : guard state (.call first.calls.length spurious))
    {moved : Histogram × CallLocation}
    (step : callStep histogram latencyNs location spurious = some moved) :
    ∃ next, ReachesUnder latencySystem guard next ∧
      LastCall first ⟨latencyNs, side, moved.2⟩ moved.1 next := by
  have taken : latencySystem.step state (.call first.calls.length spurious) =
      some (state.callMoved first.calls.length ⟨latencyNs, side, location⟩ moved) := by
    simp only [latencySystem, latencyStep, at_.calls, List.getElem?_concat_length,
      Option.bind_some, at_.histogram, step, Option.map_some]
  refine ⟨_, .step reached allowed taken, at_.reporter, at_.taken, ?_, rfl⟩
  simp only [LatencyState.callMoved, at_.calls, set_last]

/-- The loop on the maximum, with a number of failures for no reason. -/
theorem reaches_raise (reached : ReachesUnder latencySystem guard state)
    (below : histogram.maxNs < latencyNs)
    (at_ : LastCall first ⟨latencyNs, side, .exchangeMax histogram.maxNs⟩ histogram state)
    (moves : ∀ other location cells spurious,
      LastCall first ⟨latencyNs, side, location⟩ cells other →
        guard other (.call first.calls.length spurious)) (failures : Nat) :
    ∃ next, ReachesUnder latencySystem guard next ∧
      LastCall first ⟨latencyNs, side, .returned⟩ (histogram.raiseMax latencyNs failures)
        next := by
  induction failures generalizing state with
  | zero =>
      have stored : callStep histogram latencyNs (.exchangeMax histogram.maxNs) false =
          some (histogram.storeMax latencyNs, .returned) := if_pos ⟨rfl, rfl⟩
      rw [Histogram.raiseMax, if_pos below]
      exact reaches_last_call reached at_ (moves _ _ _ _ at_) stored
  | succ failures ih =>
      have failed : callStep histogram latencyNs (.exchangeMax histogram.maxNs) true =
          some (histogram, .exchangeMax histogram.maxNs) := by
        simp only [callStep, maxTest, if_pos below, reduceCtorEq, and_false, if_false]
      obtain ⟨again, later, atAgain⟩ := reaches_last_call reached at_ (moves _ _ _ _ at_) failed
      rw [Histogram.raiseMax, if_pos below]
      exact ih later atAgain

/-- Undisturbed, the atomic operations of a call are `recordLatency`. -/
theorem reaches_record (reached : ReachesUnder latencySystem guard first)
    (latencyNs : UInt64) (failures : Nat) (starts : guard first (.record latencyNs))
    (moves : ∀ other location cells spurious,
      LastCall first ⟨latencyNs, first.bucketTaken (bucketOf latencyNs), location⟩ cells other →
        guard other (.call first.calls.length spurious)) :
    ∃ next, ReachesUnder latencySystem guard next ∧
      LastCall first ⟨latencyNs, first.bucketTaken (bucketOf latencyNs), .returned⟩
        (first.histogram.recordLatency latencyNs failures) next := by
  have counted : ReachesUnder latencySystem guard (first.record latencyNs) :=
    .step reached starts rfl
  have atCounted : LastCall first
      ⟨latencyNs, first.bucketTaken (bucketOf latencyNs), .addSample⟩
      (first.histogram.addBucket latencyNs) (first.record latencyNs) := ⟨rfl, rfl, rfl, rfl⟩
  obtain ⟨sampled, reachedSampled, atSampled⟩ :=
    @reaches_last_call _ _ _ _ _ _ _ counted atCounted false (moves _ _ _ _ atCounted) _ rfl
  obtain ⟨loaded, reachedLoaded, atLoaded⟩ :=
    @reaches_last_call _ _ _ _ _ _ _ reachedSampled atSampled false (moves _ _ _ _ atSampled) _
      rfl
  unfold Histogram.recordLatency
  by_cases below : (first.histogram.addBucket latencyNs).addSample.maxNs < latencyNs
  · rw [maxTest, if_pos below] at atLoaded
    exact reaches_raise reachedLoaded below atLoaded moves failures
  · rw [maxTest, if_neg below] at atLoaded
    have kept : (first.histogram.addBucket latencyNs).addSample.raiseMax latencyNs failures =
        (first.histogram.addBucket latencyNs).addSample := by
      cases failures <;> exact if_neg below
    rw [kept]
    exact ⟨loaded, reachedLoaded, atLoaded⟩

end Undisturbed

/-! ## A snapshot that nothing comes between -/

section Sweeps

variable {guard : LatencyState → LatencyLabel → Prop}

/-- The histogram from which the buckets behind the given number were taken. -/
def Histogram.clearedFrom (histogram : Histogram) (number : Nat) : Histogram :=
  { histogram with buckets := fun bucket =>
      if number ≤ bucket ∧ bucket < kLatencyBucketCount + 1 then 0
      else histogram.buckets bucket }

theorem cleared_from_clear (histogram : Histogram) {number : Nat}
    (inside : number < kLatencyBucketCount + 1) :
    (histogram.clearBucket number).clearedFrom (number + 1) = histogram.clearedFrom number := by
  simp only [Histogram.clearedFrom, Histogram.clearBucket, Histogram.mk.injEq, and_true]
  funext bucket
  by_cases here : bucket = number
  · subst here
    rw [Function.update_self, ite_self, if_pos ⟨Nat.le_refl _, inside⟩]
  · rw [Function.update_of_ne here]
    have same : number + 1 ≤ bucket ↔ number ≤ bucket := by omega
    simp only [same]

theorem cleared_from_end (histogram : Histogram) :
    histogram.clearedFrom (kLatencyBucketCount + 1) = histogram := by
  unfold Histogram.clearedFrom
  congr
  funext bucket
  exact if_neg fun both => Nat.not_lt_of_le both.1 both.2

/-- The loop over the buckets while no call moves. -/
theorem reaches_sweep (remaining : Nat) {state : LatencyState} {counts : List UInt64}
    (reached : ReachesUnder latencySystem guard state)
    (reports : ∀ other : LatencyState, other.calls = state.calls → guard other .report)
    (at_ : state.reporter = .buckets counts)
    (length : counts.length + (remaining + 1) = kLatencyBucketCount + 1) :
    ∃ next, ReachesUnder latencySystem guard next ∧
      next.reporter = .samples (counts ++
        (List.range' counts.length (remaining + 1)).map state.histogram.buckets) ∧
      next.calls = state.calls ∧ next.taken = state.taken ∧
      next.histogram = state.histogram.clearedFrom counts.length := by
  have stepped : ReachesUnder latencySystem guard state.report :=
    .step reached (reports state rfl) rfl
  induction remaining generalizing state counts with
  | zero =>
      have after : state.report = { state with
          histogram := state.histogram.clearBucket counts.length
          reporter := .samples (counts ++ [state.histogram.buckets counts.length]) } := by
        unfold LatencyState.report
        rw [at_]
        simp only [List.length_append, List.length_singleton]
        rw [if_neg (by omega)]
      rw [after] at stepped
      refine ⟨_, stepped, rfl, rfl, rfl, ?_⟩
      have cleared := @cleared_from_clear state.histogram counts.length (by omega)
      rw [length, cleared_from_end] at cleared
      exact cleared
  | succ remaining ih =>
      have after : state.report = { state with
          histogram := state.histogram.clearBucket counts.length
          reporter := .buckets (counts ++ [state.histogram.buckets counts.length]) } := by
        unfold LatencyState.report
        rw [at_]
        simp only [List.length_append, List.length_singleton]
        rw [if_pos (by omega)]
      rw [after] at stepped
      obtain ⟨next, later, reporter, calls, taken, histogram⟩ :=
        @ih _ (counts ++ [state.histogram.buckets counts.length]) stepped reports rfl
          (by rw [List.length_append, List.length_singleton]; omega)
          (.step stepped (reports _ rfl) rfl)
      rw [List.length_append, List.length_singleton] at reporter histogram
      refine ⟨next, later, ?_, calls, taken, ?_⟩
      · rw [reporter, List.append_assoc, List.range'_succ (s := counts.length)]
        congr 2
        rw [List.singleton_append, List.map_cons]
        congr 1
        apply List.map_congr_left
        intro bucket member
        apply Function.update_of_ne
        have bound := (List.mem_range'_1.mp member).1
        omega
      · rw [histogram]
        exact cleared_from_clear state.histogram (by omega)

theorem reaches_snapshot {state : LatencyState} {counts : List UInt64} {remaining : Nat}
    (reached : ReachesUnder latencySystem guard state)
    (reports : ∀ other : LatencyState, other.calls = state.calls → guard other .report)
    (at_ : state.reporter = .buckets counts)
    (length : counts.length + (remaining + 1) = kLatencyBucketCount + 1) :
    ∃ next taken, ReachesUnder latencySystem guard next ∧
      next.reporter = .buckets [] ∧ next.calls = state.calls ∧
      next.taken = state.taken ++ [taken] ∧
      taken.snap = reportLatency (counts ++
          (List.range' counts.length (remaining + 1)).map state.histogram.buckets)
        state.histogram.samples state.histogram.maxNs ∧
      next.histogram =
        (state.histogram.clearedFrom counts.length).clearSamples.storeMax 0 := by
  obtain ⟨swept, reachedSwept, reporter, calls, taken, histogram⟩ :=
    reaches_sweep remaining reached reports at_ length
  generalize counts ++ (List.range' counts.length (remaining + 1)).map
    state.histogram.buckets = all at reporter ⊢
  have stepped : ReachesUnder latencySystem guard swept.report :=
    .step reachedSwept (reports swept calls) rfl
  have sampled : swept.report = { swept with
      histogram := swept.histogram.clearSamples
      reporter := .max all swept.histogram.samples } := by
    unfold LatencyState.report
    rw [reporter]
  rw [sampled] at stepped
  have finished := ReachesUnder.step stepped (reports _ calls) (show latencySystem.step
    { swept with
      histogram := swept.histogram.clearSamples
      reporter := .max all swept.histogram.samples } .report = some _ from rfl)
  refine ⟨_, ⟨all, reportLatency all swept.histogram.samples swept.histogram.maxNs⟩, finished,
    rfl, calls, ?_, ?_, ?_⟩
  · rw [← taken]
    rfl
  · rw [histogram]
    rfl
  · rw [← histogram]
    rfl

/-- Undisturbed, the exchanges of a snapshot are `snapshotLatency`. -/
theorem reaches_snapshot_latency {state : LatencyState}
    (reached : ReachesUnder latencySystem guard state)
    (reports : ∀ other : LatencyState, other.calls = state.calls → guard other .report)
    (at_ : state.reporter = .buckets []) :
    ∃ next taken, ReachesUnder latencySystem guard next ∧
      next.reporter = .buckets [] ∧ next.calls = state.calls ∧
      next.taken = state.taken ++ [taken] ∧
      (taken.snap, next.histogram) = state.histogram.snapshotLatency := by
  obtain ⟨next, taken, later, idle, calls, all, snap, histogram⟩ :=
    @reaches_snapshot _ _ _ kLatencyBucketCount reached reports at_ (Nat.zero_add _)
  refine ⟨next, taken, later, idle, calls, all, ?_⟩
  rw [Histogram.snapshot_latency_eq, snap, histogram, List.range_eq_range']
  simp [Histogram.clearedFrom, Histogram.clearSamples, Histogram.storeMax]

end Sweeps

/-! ## A snapshot cut by a call -/

section Split

variable {guard : LatencyState → LatencyLabel → Prop}

/-- One latency of 500 ns is recorded. A second call falls between the exchange of its bucket and
that of the samples. -/
theorem reaches_split_snapshot
    (begins : ∀ state latencyNs, (∀ call ∈ state.calls, call.location = .returned) →
      guard state (.record latencyNs))
    (moves : ∀ state position spurious, guard state (.call position spurious))
    (reports : ∀ state, guard state .report) :
    ∃ state taken, ReachesUnder latencySystem guard state ∧ Quiescent state ∧
      state.taken = [taken] ∧ taken.snap = reportLatency (1 :: List.replicate 20000 0) 2 500 ∧
      state.calls.map RecordCall.latencyNs = [500, 500] ∧ state.histogram.buckets 0 = 1 := by
  have started : ReachesUnder latencySystem guard LatencyState.start := .start rfl
  obtain ⟨first, reached, last⟩ := reaches_record started 500 0
    (begins _ _ fun _ member => nomatch member) (fun _ _ _ _ _ => moves _ _ _)
  have histogram : first.histogram = ⟨Function.update (fun _ => 0) 0 1, 1, 500⟩ :=
    last.histogram
  have exchanged : ReachesUnder latencySystem guard first.report :=
    @ReachesUnder.step _ _ _ _ _ _ LatencyLabel.report reached (reports first) rfl
  have between : first.report = { first with
      histogram := first.histogram.clearBucket 0
      reporter := .buckets [1] } := by
    unfold LatencyState.report
    rw [last.reporter, histogram]
    rfl
  rw [between] at exchanged
  have returned : ∀ call ∈ first.calls, call.location = .returned := by
    rw [last.calls]
    exact List.forall_mem_singleton.mpr rfl
  obtain ⟨second, again, later⟩ := reaches_record exchanged 500 0 (begins _ _ returned)
    (fun _ _ _ _ _ => moves _ _ _)
  have counters : second.histogram = ⟨Function.update
      (Function.update (Function.update (fun _ => 0) 0 1) 0 0) 0 1, 2, 500⟩ := by
    rw [later.histogram, histogram]
    rfl
  obtain ⟨state, taken, snapped, idle, calls, all, snap, cleared⟩ :=
    @reaches_snapshot _ _ _ 19999 again (fun _ _ => reports _) later.reporter rfl
  have both : state.calls = first.calls ++ [_] := calls.trans later.calls
  have quiescent : Quiescent state := by
    refine ⟨idle, ?_⟩
    rw [both]
    intro call member
    rcases List.mem_append.mp member with earlier | this
    · exact returned call earlier
    · rw [List.mem_singleton.mp this]
  have rest : (List.range' 1 20000).map second.histogram.buckets = List.replicate 20000 0 := by
    rw [List.eq_replicate_iff]
    refine ⟨by rw [List.length_map, List.length_range'], ?_⟩
    intro count inMap
    obtain ⟨bucket, inRange, rfl⟩ := List.mem_map.mp inMap
    have positive : bucket ≠ 0 := by
      have bound := (List.mem_range'_1.mp inRange).1
      omega
    rw [counters]
    simp only [Function.update_of_ne positive]
  refine ⟨state, taken, snapped, quiescent, ?_, ?_, ?_, ?_⟩
  · rw [all, later.taken, last.taken]
    rfl
  · rw [snap, ← rest, counters]
    rfl
  · rw [both, last.calls]
    rfl
  · rw [cleared, counters]
    rfl

end Split

/-- The count of the second call stays in its bucket while the snapshot takes both samples. -/
theorem split_snapshot_conserved :
    ∃ state taken, Reaches latencySystem state ∧ Quiescent state ∧ state.taken = [taken] ∧
      (taken.counts.getD 0 0).toNat = 1 ∧ (state.histogram.buckets 0).toNat = 1 ∧
      taken.snap.samples.toNat = 2 ∧ state.histogram.samples.toNat = 0 ∧
      taken.snap.maxNs.toNat = 500 ∧ state.histogram.maxNs.toNat ≤ 500 := by
  obtain ⟨state, taken, reached, quiescent, all, snap, calls, residual⟩ :=
    @reaches_split_snapshot (fun _ _ => True) (fun _ _ _ => trivial) (fun _ _ _ => trivial)
      (fun _ => trivial)
  obtain ⟨buckets, samples, longest⟩ := latencies_conserved state reached quiescent
  have recorded : (state.calls.countP fun call => decide (bucketOf call.latencyNs = 0)) = 2 := by
    have mapped := congrArg (List.countP fun latencyNs => decide (bucketOf latencyNs = 0)) calls
    rw [List.countP_map] at mapped
    exact mapped
  have two : state.calls.length = 2 := by
    have mapped := congrArg List.length calls
    rw [List.length_map] at mapped
    exact mapped
  have bucket := buckets 0 (Nat.zero_le _)
  rw [all, recorded, residual] at bucket
  rw [all, two] at samples
  have extracted : taken.snap.samples.toNat = 2 := by
    rw [snap, report_latency_samples]
    rfl
  have top : taken.snap.maxNs.toNat = 500 := by
    rw [snap, report_latency_max]
    rfl
  have one : (state.histogram.buckets 0).toNat = 1 := by
    rw [residual]
    rfl
  simp only [List.map_cons, List.map_nil, List.sum_cons, List.sum_nil, UInt64.reduceToNat] at bucket
  simp only [List.map_cons, List.map_nil, List.sum_cons, List.sum_nil, extracted] at samples
  rw [all] at longest
  have recordedTop : (state.calls.map fun call => call.latencyNs.toNat).foldr max 0 = 500 := by
    have mapped := congrArg (List.map UInt64.toNat) calls
    rw [List.map_map] at mapped
    exact congrArg (List.foldr max 0) mapped
  have below : state.histogram.maxNs.toNat ≤ 500 := by
    rw [recordedTop] at longest
    simp only [List.map_cons, List.map_nil, List.foldr_cons, List.foldr_nil] at longest
    omega
  exact ⟨state, taken, reached, quiescent, all, by omega, one, extracted, by omega, top, below⟩

/-! ## Counters that wrap -/

/-- One call after the other records zero. -/
theorem zeros_recorded (count : Nat) : ∃ state, Reaches latencySystem state ∧
    state.reporter = .buckets [] ∧ state.taken = [] ∧
    state.calls = List.replicate count ⟨0, 0, .returned⟩ ∧
    state.histogram.buckets 0 = UInt64.ofNat count := by
  induction count with
  | zero => exact ⟨.start, reaches_start rfl, rfl, rfl, rfl, rfl⟩
  | succ count ih =>
      obtain ⟨state, reached, idle, taken, calls, bucket⟩ := ih
      have side : state.bucketTaken (bucketOf 0) = 0 := by
        rw [LatencyState.bucketTaken, idle, taken]
        rfl
      obtain ⟨next, later, last⟩ :=
        reaches_record reached 0 0 trivial (fun _ _ _ _ _ => trivial)
      refine ⟨next, later, last.reporter.trans idle, last.taken.trans taken, ?_, ?_⟩
      · rw [last.calls, calls, side, List.replicate_succ']
      · rw [last.histogram, Histogram.record_latency_buckets, Histogram.add_bucket_count,
          UInt64.ofNat_add, ← bucket]
        rfl

/-- After `2 ^ 64` calls the counters read as if there had been none. -/
theorem bucket_count_lost_by_wrapping :
    ¬ ∀ state, Reaches latencySystem state → Quiescent state →
      ∀ bucket, bucket ≤ kLatencyBucketCount →
        (state.taken.map fun taken => (taken.counts.getD bucket 0).toNat).sum +
          (state.histogram.buckets bucket).toNat =
            state.calls.countP fun call => decide (bucketOf call.latencyNs = bucket) := by
  intro conserved
  obtain ⟨state, reached, idle, taken, calls, bucket⟩ := zeros_recorded (2 ^ 64)
  have quiescent : Quiescent state := by
    refine ⟨idle, ?_⟩
    rw [calls]
    intro call member
    rw [List.eq_of_mem_replicate member]
  have balance := conserved state reached quiescent 0 (Nat.zero_le _)
  have recorded : (state.calls.countP fun call =>
      decide (bucketOf call.latencyNs = 0)) = 2 ^ 64 := by
    rw [calls]
    exact List.countP_replicate.trans (if_pos rfl)
  have counter : (state.histogram.buckets 0).toNat = 0 := by
    rw [bucket]
    rfl
  rw [taken, recorded, counter] at balance
  cases balance

end MarketDataEngine.EngineV2
