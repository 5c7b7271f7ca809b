import MarketDataEngine.LatencyRecording

/-!
# On which side of a snapshot a call is

A snapshot takes its counters one after the other, so a call of `record_latency` may have its
sample in a snapshot that came too late, or too early, for its bucket or its maximum. A run
has whole recordings if each call is on one side of each snapshot with all three.

The buckets are always those of the calls in front of the next exchange. With whole recordings
the samples are those of the same calls.
-/

namespace MarketDataEngine.EngineV2

open MarketDataEngine.TransitionSystem

set_option autoImplicit false

namespace LatencyState

/-- How often the samples have been taken. -/
def sampleTaken (state : LatencyState) : Nat :=
  state.taken.length + match state.reporter with
    | .max _ _ => 1
    | _ => 0

/-- The number of calls whose bucket the snapshot of that number takes. -/
def onSide (state : LatencyState) (side : Nat) : Nat :=
  state.calls.countP fun call => decide (call.side = side)

/-- Those of them that count in one bucket. -/
def inBucket (state : LatencyState) (bucket side : Nat) : Nat :=
  state.calls.countP fun call => decide (bucketOf call.latencyNs = bucket ∧ call.side = side)

/-- Those of them whose sample is counted. -/
def sampledOn (state : LatencyState) (side : Nat) : Nat :=
  state.calls.countP fun call => decide (call.side = side ∧ call.location ≠ .addSample)

end LatencyState

/-- A call counts its sample, and ends at the maximum, in front of the same snapshot as its
bucket; a snapshot takes the samples, and the maximum, behind the calls whose buckets it
took. -/
def WholeRecordings (state : LatencyState) : LatencyLabel → Prop
  | .record _ => True
  | .call position spurious => ∀ call, state.calls[position]? = some call →
      (call.location = .addSample → call.side = state.sampleTaken) ∧
        ∀ moved, callStep state.histogram call.latencyNs call.location spurious = some moved →
          moved.2 = .returned → call.side = state.taken.length
  | .report =>
      match state.reporter with
      | .buckets _ => True
      | .samples _ => ∀ call ∈ state.calls, call.location = .addSample →
          call.side ≠ state.taken.length
      | .max _ _ => ∀ call ∈ state.calls, call.location ≠ .returned →
          call.side ≠ state.taken.length

/-- The ranks of the samples of one snapshot are computed without overflow. -/
def FewSamples (state : LatencyState) : LatencyLabel → Prop
  | .record latencyNs =>
      (state.onSide (state.bucketTaken (bucketOf latencyNs)) + 1) * 999 + 999 < 2 ^ 64
  | _ => True

theorem bucket_of_le (latencyNs : UInt64) : bucketOf latencyNs ≤ kLatencyBucketCount :=
  Nat.min_le_right _ _

/-! ## The buckets -/

/-- The reporter leaves the loop over the buckets behind the last one. -/
def ReporterLocation.Sized : ReporterLocation → Prop
  | .buckets counts => counts.length < kLatencyBucketCount + 1
  | .samples counts => counts.length = kLatencyBucketCount + 1
  | .max counts _ => counts.length = kLatencyBucketCount + 1

structure BucketSides (state : LatencyState) : Prop where
  length : state.reporter.Sized
  sided : ∀ call ∈ state.calls, call.side ≤ state.bucketTaken (bucketOf call.latencyNs)
  cell : ∀ bucket, bucket ≤ kLatencyBucketCount → state.histogram.buckets bucket =
    UInt64.ofNat (state.inBucket bucket (state.bucketTaken bucket))
  held : ∀ bucket count, state.reporter.counts[bucket]? = some count →
    count = UInt64.ofNat (state.inBucket bucket state.taken.length)

section Buckets

variable {state : LatencyState}

theorem in_bucket_record (state : LatencyState) (latencyNs : UInt64) (bucket side : Nat) :
    (state.record latencyNs).inBucket bucket side = state.inBucket bucket side +
      if bucketOf latencyNs = bucket ∧ state.bucketTaken (bucketOf latencyNs) = side then 1
      else 0 := by
  simp only [LatencyState.inBucket, LatencyState.record, List.countP_append,
    List.countP_singleton, decide_eq_true_eq]

theorem bucket_sides_start : BucketSides .start := by
  constructor
  case length => exact Nat.succ_pos _
  case sided =>
    intro call member
    cases member
  case cell => exact fun _ _ => rfl
  case held =>
    intro bucket count found
    cases found

theorem bucket_sides_record (sides : BucketSides state) (latencyNs : UInt64) :
    BucketSides (state.record latencyNs) := by
  constructor
  case length => exact sides.length
  case sided =>
    intro call member
    rcases List.mem_append.mp member with earlier | newest
    · exact sides.sided call earlier
    · rw [List.mem_singleton.mp newest]
      exact Nat.le_refl _
  case cell =>
    intro bucket inside
    have counted := Histogram.add_bucket_count state.histogram latencyNs bucket
    rw [← bucket_of_eq, sides.cell bucket inside] at counted
    refine counted.trans ?_
    show _ = UInt64.ofNat ((state.record latencyNs).inBucket bucket (state.bucketTaken bucket))
    rw [in_bucket_record, UInt64.ofNat_add]
    by_cases here : bucketOf latencyNs = bucket
    · rw [if_pos here, if_pos ⟨here, congrArg state.bucketTaken here⟩]
      rfl
    · rw [if_neg here, if_neg fun both => here both.1]
      rfl
  case held =>
    intro bucket count found
    rw [sides.held bucket count found]
    show _ = UInt64.ofNat ((state.record latencyNs).inBucket bucket state.taken.length)
    rw [in_bucket_record, if_neg]
    · rfl
    · rintro ⟨rfl, same⟩
      have inside : bucketOf latencyNs < state.reporter.counts.length :=
        (List.getElem?_eq_some_iff.mp found).1
      rw [LatencyState.bucketTaken, if_pos inside] at same
      omega

theorem countP_set_same {α : Type} {test : α → Bool} {values : List α} {position : Nat}
    {value other : α} (found : values[position]? = some value)
    (same : test other = test value) :
    (values.set position other).countP test = values.countP test := by
  have balance := @countP_set_add _ test _ _ _ other found
  rw [same] at balance
  omega

theorem bucket_sides_call (sides : BucketSides state) {position : Nat} {call : RecordCall}
    {moved : Histogram × CallLocation} (found : state.calls[position]? = some call)
    (buckets : moved.1.buckets = state.histogram.buckets) :
    BucketSides (state.callMoved position call moved) := by
  have inBucket : ∀ bucket side, (state.callMoved position call moved).inBucket bucket side =
      state.inBucket bucket side := fun _ _ => countP_set_same found rfl
  constructor
  case length => exact sides.length
  case sided =>
    intro other member
    rcases List.mem_or_eq_of_mem_set member with earlier | rfl
    · exact sides.sided other earlier
    · exact sides.sided call (List.mem_of_getElem? found)
  case cell =>
    intro bucket inside
    rw [inBucket]
    exact (congrFun buckets bucket).trans (sides.cell bucket inside)
  case held =>
    intro bucket count member
    rw [inBucket]
    exact sides.held bucket count member

theorem bucket_sides_take_bucket (sides : BucketSides state) {counts : List UInt64}
    (at_ : state.reporter = .buckets counts) {reporter : ReporterLocation}
    (taken : reporter.counts = counts ++ [state.histogram.buckets counts.length])
    (length : reporter.Sized) :
    BucketSides { state with
      histogram := state.histogram.clearBucket counts.length
      reporter := reporter } := by
  have inside : counts.length < kLatencyBucketCount + 1 := by
    have before := sides.length
    rw [at_] at before
    exact before
  have takenBefore : ∀ bucket, state.bucketTaken bucket = state.taken.length +
      if bucket < counts.length then 1 else 0 := by
    intro bucket
    rw [LatencyState.bucketTaken, at_]
    rfl
  have takenAfter : ∀ bucket, ({ state with
      histogram := state.histogram.clearBucket counts.length
      reporter := reporter } : LatencyState).bucketTaken bucket = state.taken.length +
        if bucket < counts.length + 1 then 1 else 0 := by
    intro bucket
    rw [LatencyState.bucketTaken, taken, List.length_append, List.length_singleton]
  constructor
  case length => exact length
  case sided =>
    intro call member
    have before := sides.sided call member
    rw [takenBefore] at before
    rw [takenAfter]
    split_ifs at before ⊢ <;> omega
  case cell =>
    intro bucket bounded
    rw [takenAfter]
    simp only [Histogram.clearBucket]
    by_cases here : bucket = counts.length
    · rw [here, Function.update_self, if_pos (Nat.lt_succ_self _)]
      have none_ : state.inBucket counts.length (state.taken.length + 1) = 0 := by
        apply List.countP_eq_zero.mpr
        intro call member both
        obtain ⟨same, later⟩ := of_decide_eq_true both
        have side := sides.sided call member
        rw [same, takenBefore, if_neg (Nat.lt_irrefl _)] at side
        omega
      exact (congrArg UInt64.ofNat none_).symm
    · have same : bucket < counts.length + 1 ↔ bucket < counts.length := by omega
      rw [Function.update_of_ne here, sides.cell bucket bounded, takenBefore]
      simp only [same]
      rfl
  case held =>
    intro bucket count found
    rw [taken] at found
    rcases Nat.lt_or_ge bucket counts.length with earlier | later
    · rw [List.getElem?_append_left earlier] at found
      have before := sides.held bucket count
      rw [at_] at before
      exact before found
    · have last : bucket = counts.length := by
        have bound := (List.getElem?_eq_some_iff.mp found).1
        rw [List.length_append, List.length_singleton] at bound
        omega
      subst last
      rw [List.getElem?_concat_length] at found
      cases found
      rw [sides.cell counts.length (Nat.le_of_lt_succ inside), takenBefore,
        if_neg (Nat.lt_irrefl _)]
      rfl

/-- Behind the buckets, their counts are in the reporter's hands. -/
theorem bucket_taken_of_length {bucket : Nat} (inside : bucket ≤ kLatencyBucketCount)
    (length : state.reporter.counts.length = kLatencyBucketCount + 1) :
    state.bucketTaken bucket = state.taken.length + 1 := by
  rw [LatencyState.bucketTaken, length, if_pos (Nat.lt_succ_of_le inside)]

theorem bucket_sides_take_samples (sides : BucketSides state) {counts : List UInt64}
    (at_ : state.reporter = .samples counts) :
    BucketSides { state with
      histogram := state.histogram.clearSamples
      reporter := .max counts state.histogram.samples } := by
  obtain ⟨length, sided, cell, held⟩ := sides
  unfold LatencyState.bucketTaken at sided cell
  rw [at_] at length sided cell held
  exact ⟨length, sided, cell, held⟩

theorem bucket_sides_take_max (sides : BucketSides state) {counts : List UInt64}
    {samples : UInt64} (at_ : state.reporter = .max counts samples) (snap : LatencySnapshot) :
    BucketSides { state with
      histogram := state.histogram.storeMax 0
      reporter := .buckets []
      taken := state.taken ++ [⟨counts, snap⟩] } := by
  have length : state.reporter.counts.length = kLatencyBucketCount + 1 := by
    have before := sides.length
    rw [at_] at before ⊢
    exact before
  have takenAfter : ∀ bucket, ({ state with
      histogram := state.histogram.storeMax 0
      reporter := .buckets []
      taken := state.taken ++ [⟨counts, snap⟩] } : LatencyState).bucketTaken bucket =
        state.taken.length + 1 := by
    intro bucket
    rw [LatencyState.bucketTaken, List.length_append]
    rfl
  constructor
  case length => exact Nat.succ_pos _
  case sided =>
    intro call member
    rw [takenAfter, ← bucket_taken_of_length (bucket_of_le call.latencyNs) length]
    exact sides.sided call member
  case cell =>
    intro bucket inside
    rw [takenAfter, ← bucket_taken_of_length inside length]
    exact sides.cell bucket inside
  case held =>
    intro bucket count found
    cases found

end Buckets

/-! ## The samples -/

structure SampleSides (state : LatencyState) : Prop where
  cell : state.histogram.samples = UInt64.ofNat (state.sampledOn state.sampleTaken)
  held : ∀ counts samples, state.reporter = .max counts samples →
    samples = UInt64.ofNat (state.onSide state.taken.length)
  waiting : ∀ call ∈ state.calls, call.location = .addSample → state.sampleTaken ≤ call.side
  ahead : ∀ call ∈ state.calls, state.sampleTaken < call.side → call.location = .addSample

section Samples

variable {state : LatencyState}

theorem sample_taken_le_bucket_taken (sides : BucketSides state) (latencyNs : UInt64) :
    state.sampleTaken ≤ state.bucketTaken (bucketOf latencyNs) := by
  have length := sides.length
  unfold LatencyState.sampleTaken LatencyState.bucketTaken
  cases at_ : state.reporter with
  | buckets counts => exact Nat.le_add_right _ _
  | samples counts => exact Nat.le_add_right _ _
  | max counts samples =>
      rw [at_] at length
      have inside : bucketOf latencyNs < (ReporterLocation.max counts samples).counts.length :=
        Nat.lt_of_lt_of_eq (Nat.lt_succ_of_le (bucket_of_le latencyNs)) length.symm
      rw [if_pos inside]

theorem sample_sides_start : SampleSides .start := by
  constructor
  case cell => rfl
  case held =>
    intro counts samples at_
    cases at_
  case waiting =>
    intro call member
    cases member
  case ahead =>
    intro call member
    cases member

theorem sample_sides_record (buckets : BucketSides state) (sides : SampleSides state)
    (latencyNs : UInt64) : SampleSides (state.record latencyNs) := by
  have later := sample_taken_le_bucket_taken buckets latencyNs
  constructor
  case cell =>
    have unsampled : (state.record latencyNs).sampledOn state.sampleTaken =
        state.sampledOn state.sampleTaken := by
      simp [LatencyState.sampledOn, LatencyState.record]
    exact sides.cell.trans (congrArg UInt64.ofNat unsampled.symm)
  case held =>
    intro counts samples at_
    have behind : state.sampleTaken = state.taken.length + 1 := by
      have before : state.reporter = .max counts samples := at_
      rw [LatencyState.sampleTaken, before]
    have same : (state.record latencyNs).onSide state.taken.length =
        state.onSide state.taken.length := by
      have other : ¬ state.bucketTaken (bucketOf latencyNs) = state.taken.length := by omega
      simp [LatencyState.onSide, LatencyState.record, other]
    exact (sides.held counts samples at_).trans (congrArg UInt64.ofNat same.symm)
  case waiting =>
    intro call member unsampled
    rcases List.mem_append.mp member with earlier | newest
    · exact sides.waiting call earlier unsampled
    · rw [List.mem_singleton.mp newest]
      exact later
  case ahead =>
    intro call member before
    rcases List.mem_append.mp member with earlier | newest
    · exact sides.ahead call earlier before
    · rw [List.mem_singleton.mp newest]

theorem on_side_moved {position : Nat} {call : RecordCall}
    (found : state.calls[position]? = some call) (moved : Histogram × CallLocation)
    (side : Nat) : (state.callMoved position call moved).onSide side = state.onSide side :=
  countP_set_same found rfl

theorem sample_sides_add (sides : SampleSides state) {position : Nat} {call : RecordCall}
    (found : state.calls[position]? = some call) (unsampled : call.location = .addSample)
    (inFront : call.side = state.sampleTaken) :
    SampleSides (state.callMoved position call (state.histogram.addSample, .loadMax)) := by
  constructor
  case cell =>
    have counted := @countP_set_add _ (fun call : RecordCall => decide
      (call.side = state.sampleTaken ∧ call.location ≠ .addSample)) _ _ _
      { call with location := .loadMax } found
    have before : decide (call.side = state.sampleTaken ∧ call.location ≠ .addSample) =
        false := by simp [unsampled]
    have after : decide (call.side = state.sampleTaken ∧
        CallLocation.loadMax ≠ .addSample) = true := by simp [inFront]
    simp only [before, after, Bool.false_eq_true, if_false, if_true, Nat.add_zero] at counted
    show state.histogram.samples + 1 = UInt64.ofNat _
    rw [sides.cell]
    refine Eq.trans ?_ (congrArg UInt64.ofNat counted.symm)
    rw [UInt64.ofNat_add]
    rfl
  case held =>
    intro counts samples at_
    rw [sides.held counts samples at_]
    exact congrArg UInt64.ofNat (on_side_moved found _ _).symm
  case waiting =>
    intro other member location
    rcases List.mem_or_eq_of_mem_set member with earlier | rfl
    · exact sides.waiting other earlier location
    · cases location
  case ahead =>
    intro other member before
    rcases List.mem_or_eq_of_mem_set member with earlier | rfl
    · exact sides.ahead other earlier before
    · exact absurd before (by simp only [inFront]; exact Nat.lt_irrefl _)

/-- A move of a call whose sample is counted. -/
theorem sample_sides_moved (sides : SampleSides state) {position : Nat} {call : RecordCall}
    {moved : Histogram × CallLocation} (found : state.calls[position]? = some call)
    (before : call.location ≠ .addSample) (after : moved.2 ≠ .addSample)
    (samples : moved.1.samples = state.histogram.samples) :
    SampleSides (state.callMoved position call moved) := by
  constructor
  case cell =>
    refine samples.trans (sides.cell.trans (congrArg UInt64.ofNat ?_))
    symm
    apply countP_set_same found
    simp only [before, after, ne_eq, not_false_eq_true, and_true]
  case held =>
    intro counts samples at_
    rw [sides.held counts samples at_]
    exact congrArg UInt64.ofNat (on_side_moved found _ _).symm
  case waiting =>
    intro other member location
    rcases List.mem_or_eq_of_mem_set member with earlier | rfl
    · exact sides.waiting other earlier location
    · exact absurd location after
  case ahead =>
    intro other member later
    rcases List.mem_or_eq_of_mem_set member with earlier | rfl
    · exact sides.ahead other earlier later
    · exact absurd (sides.ahead call (List.mem_of_getElem? found) later) before

theorem sample_sides_take_bucket (sides : SampleSides state) {counts : List UInt64}
    (at_ : state.reporter = .buckets counts) {reporter : ReporterLocation}
    (untaken : ∀ counts samples, reporter ≠ .max counts samples) :
    SampleSides { state with
      histogram := state.histogram.clearBucket counts.length
      reporter := reporter } := by
  have same : ({ state with
      histogram := state.histogram.clearBucket counts.length
      reporter := reporter } : LatencyState).sampleTaken = state.sampleTaken := by
    unfold LatencyState.sampleTaken
    rw [at_]
    cases reporter with
    | max counts samples => exact absurd rfl (untaken counts samples)
    | _ => rfl
  constructor
  case cell =>
    rw [same]
    exact sides.cell
  case held =>
    intro counts samples atMax
    exact absurd atMax (untaken counts samples)
  case waiting =>
    rw [same]
    exact sides.waiting
  case ahead =>
    rw [same]
    exact sides.ahead

theorem sample_sides_take_samples (sides : SampleSides state) {counts : List UInt64}
    (at_ : state.reporter = .samples counts)
    (whole : ∀ call ∈ state.calls, call.location = .addSample →
      call.side ≠ state.taken.length) :
    SampleSides { state with
      histogram := state.histogram.clearSamples
      reporter := .max counts state.histogram.samples } := by
  have before : state.sampleTaken = state.taken.length := by
    simp only [LatencyState.sampleTaken, at_, Nat.add_zero]
  have cell := sides.cell
  have waiting := sides.waiting
  have ahead := sides.ahead
  rw [before] at cell waiting ahead
  constructor
  case cell =>
    have none_ : state.sampledOn (state.taken.length + 1) = 0 := by
      apply List.countP_eq_zero.mpr
      intro call member both
      obtain ⟨side, sampled⟩ := of_decide_eq_true both
      exact sampled (ahead call member (by omega))
    exact (congrArg UInt64.ofNat none_).symm
  case held =>
    intro taken samples atMax
    cases atMax
    refine cell.trans (congrArg UInt64.ofNat ?_)
    apply List.countP_congr
    intro call member
    rw [decide_eq_true_iff, decide_eq_true_iff]
    constructor
    · exact fun both => both.1
    · exact fun side => ⟨side, fun unsampled => whole call member unsampled side⟩
  case waiting =>
    intro call member unsampled
    exact Nat.lt_of_le_of_ne (waiting call member unsampled)
      (whole call member unsampled).symm
  case ahead =>
    intro call member later
    exact ahead call member (Nat.lt_of_succ_lt later)

theorem sample_sides_take_max (sides : SampleSides state) {counts : List UInt64}
    {samples : UInt64} (at_ : state.reporter = .max counts samples) (snap : LatencySnapshot) :
    SampleSides { state with
      histogram := state.histogram.storeMax 0
      reporter := .buckets []
      taken := state.taken ++ [⟨counts, snap⟩] } := by
  have same : ({ state with
      histogram := state.histogram.storeMax 0
      reporter := .buckets []
      taken := state.taken ++ [⟨counts, snap⟩] } : LatencyState).sampleTaken =
        state.sampleTaken := by
    simp only [LatencyState.sampleTaken, at_, List.length_append, List.length_singleton]
  constructor
  case cell =>
    rw [same]
    exact sides.cell
  case held =>
    intro later sampled atMax
    cases atMax
  case waiting =>
    rw [same]
    exact sides.waiting
  case ahead =>
    rw [same]
    exact sides.ahead

end Samples

end MarketDataEngine.EngineV2
