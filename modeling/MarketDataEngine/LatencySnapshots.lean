import MarketDataEngine.LatencySides

/-!
# Order of the reported quantiles

With whole recordings a snapshot is that of the calls on its side, as if taken undisturbed, and
its quantiles are ordered. Without, the rank of a quantile may lie behind all counts, and the
maximum in its place be smaller than the quantiles below.
-/

namespace MarketDataEngine.EngineV2

open MarketDataEngine.TransitionSystem

set_option autoImplicit false

/-! ## The maximum -/

/-- The latencies with the sides of their calls. -/
def LatencyState.sided (state : LatencyState) : List (UInt64 × Nat) :=
  state.calls.map fun call => (call.latencyNs, call.side)

structure MaxSides (state : LatencyState) : Prop where
  waiting : ∀ call ∈ state.calls, call.location ≠ .returned → state.taken.length ≤ call.side
  ahead : ∀ call ∈ state.calls, state.taken.length < call.side → call.location ≠ .returned
  above : ∀ call ∈ state.calls, call.side = state.taken.length → call.location = .returned →
    call.latencyNs ≤ state.histogram.maxNs
  attained : state.histogram.maxNs = 0 ∨
    (state.histogram.maxNs, state.taken.length) ∈ state.sided

section Maximum

variable {state : LatencyState}

theorem max_sides_start : MaxSides .start := by
  constructor
  case attained => exact .inl rfl
  all_goals
    intro call member
    cases member

theorem max_sides_record (sides : MaxSides state) (latencyNs : UInt64) :
    MaxSides (state.record latencyNs) := by
  constructor
  case waiting =>
    intro call member unreturned
    rcases List.mem_append.mp member with earlier | newest
    · exact sides.waiting call earlier unreturned
    · rw [List.mem_singleton.mp newest]
      exact Nat.le_add_right _ _
  case ahead =>
    intro call member later
    rcases List.mem_append.mp member with earlier | newest
    · exact sides.ahead call earlier later
    · rw [List.mem_singleton.mp newest]
      exact fun returned => nomatch returned
  case above =>
    intro call member side returned
    rcases List.mem_append.mp member with earlier | newest
    · exact sides.above call earlier side returned
    · rw [List.mem_singleton.mp newest] at returned
      cases returned
  case attained =>
    apply sides.attained.imp id
    intro member
    rw [LatencyState.sided, LatencyState.record, List.map_append]
    exact List.mem_append_left _ member

/-- What the move of a call has to show: the maximum does not fall, and a call that ends is in
front of the next snapshot, with its latency not above the maximum. -/
theorem max_sides_moved (sides : MaxSides state) {position : Nat} {call : RecordCall}
    {moved : Histogram × CallLocation} (found : state.calls[position]? = some call)
    (running : call.location ≠ .returned)
    (kept : state.histogram.maxNs ≤ moved.1.maxNs)
    (whole : moved.2 = .returned → call.side = state.taken.length)
    (raised : moved.2 = .returned → call.latencyNs ≤ moved.1.maxNs)
    (stored : moved.1.maxNs = state.histogram.maxNs ∨
      moved.2 = .returned ∧ moved.1.maxNs = call.latencyNs) :
    MaxSides (state.callMoved position call moved) := by
  have member := List.mem_of_getElem? found
  have sided : (state.callMoved position call moved).sided = state.sided :=
    map_set_of_same found rfl
  constructor
  case waiting =>
    intro other inSet unreturned
    rcases List.mem_or_eq_of_mem_set inSet with earlier | rfl
    · exact sides.waiting other earlier unreturned
    · exact sides.waiting call member running
  case ahead =>
    intro other inSet later
    rcases List.mem_or_eq_of_mem_set inSet with earlier | rfl
    · exact sides.ahead other earlier later
    · intro returned
      exact Nat.ne_of_gt later (whole returned)
  case above =>
    intro other inSet side returned
    rcases List.mem_or_eq_of_mem_set inSet with earlier | rfl
    · exact UInt64.le_trans (sides.above other earlier side returned) kept
    · exact raised returned
  case attained =>
    rw [sided]
    rcases stored with same | ⟨returned, stored⟩
    · show moved.1.maxNs = 0 ∨ (moved.1.maxNs, state.taken.length) ∈ state.sided
      rw [same]
      exact sides.attained
    · apply Or.inr
      show (moved.1.maxNs, state.taken.length) ∈ state.sided
      rw [stored, ← whole returned]
      exact List.mem_map_of_mem member

theorem max_sides_call (sides : MaxSides state) (conserved : Conserved state) {position : Nat}
    {call : RecordCall} {moved : Histogram × CallLocation}
    (found : state.calls[position]? = some call)
    (move : CallMove state.histogram call.latencyNs call.location moved)
    (whole : moved.2 = .returned → call.side = state.taken.length) :
    MaxSides (state.callMoved position call moved) := by
  have running : call.location ≠ .returned := by
    intro returned
    rw [returned] at move
    cases move with
    | retry atMax below => cases atMax
    | enough atMax reached => cases atMax
  have below := conserved.below call (List.mem_of_getElem? found)
  generalize at_ : call.location = location at move below
  cases move with
  | sample =>
      exact max_sides_moved sides found running (UInt64.le_refl _) whole
        (fun returned => nomatch returned) (.inl rfl)
  | retry atMax less =>
      exact max_sides_moved sides found running (UInt64.le_refl _) whole
        (fun returned => nomatch returned) (.inl rfl)
  | enough atMax reached =>
      exact max_sides_moved sides found running (UInt64.le_refl _) whole (fun _ => reached)
        (.inl rfl)
  | store =>
      exact max_sides_moved sides found running (UInt64.le_of_lt (below _ rfl)) whole
        (fun _ => UInt64.le_refl _) (.inr ⟨rfl, rfl⟩)

theorem max_sides_take_max (sides : MaxSides state) {counts : List UInt64}
    (whole : ∀ call ∈ state.calls, call.location ≠ .returned → call.side ≠ state.taken.length)
    (snap : LatencySnapshot) :
    MaxSides { state with
      histogram := state.histogram.storeMax 0
      reporter := .buckets []
      taken := state.taken ++ [⟨counts, snap⟩] } := by
  have length : (state.taken ++ [(⟨counts, snap⟩ : Taken)]).length =
      state.taken.length + 1 := by
    rw [List.length_append, List.length_singleton]
  constructor
  case waiting =>
    intro call member unreturned
    rw [length]
    exact Nat.lt_of_le_of_ne (sides.waiting call member unreturned)
      (whole call member unreturned).symm
  case ahead =>
    intro call member later
    rw [length] at later
    exact sides.ahead call member (Nat.lt_of_succ_lt later)
  case above =>
    intro call member side returned
    rw [length] at side
    exact absurd returned (sides.ahead call member (by omega))
  case attained => exact .inl rfl

end Maximum

/-! ## The snapshot of a side -/

def LatencyState.sideLatencies (state : LatencyState) (side : Nat) : List Nat :=
  (state.calls.filter fun call => decide (call.side = side)).map fun call =>
    call.latencyNs.toNat

section Sides

variable {state : LatencyState}

theorem side_latencies_length (state : LatencyState) (side : Nat) :
    (state.sideLatencies side).length = state.onSide side := by
  rw [LatencyState.sideLatencies, List.length_map, LatencyState.onSide,
    List.countP_eq_length_filter]

theorem side_latencies_count (state : LatencyState) (bucket side : Nat) :
    (state.sideLatencies side).countP (fun latency => decide (bucketIndex latency = bucket)) =
      state.inBucket bucket side := by
  rw [LatencyState.sideLatencies, List.countP_map, List.countP_filter, LatencyState.inBucket]
  apply List.countP_congr
  intro call _
  simp [bucket_of_eq]

theorem in_bucket_le (state : LatencyState) (bucket side : Nat) :
    state.inBucket bucket side ≤ state.onSide side := by
  rw [← side_latencies_count, ← side_latencies_length]
  exact List.countP_le_length

/-- What the reporter has in its hands when it takes the maximum is a summary of the calls in
front of it. -/
theorem summary_of_sides (buckets : BucketSides state) (samples : SampleSides state)
    (maximum : MaxSides state) {counts : List UInt64} {sampled : UInt64}
    (at_ : state.reporter = .max counts sampled)
    (whole : ∀ call ∈ state.calls, call.location ≠ .returned → call.side ≠ state.taken.length)
    (few : state.onSide state.taken.length < 2 ^ 64) :
    Summarises (state.sideLatencies state.taken.length) counts sampled
      state.histogram.maxNs := by
  have above : ∀ latency ∈ state.sideLatencies state.taken.length,
      latency ≤ state.histogram.maxNs.toNat := by
    intro latency member
    obtain ⟨call, inSide, rfl⟩ := List.mem_map.mp member
    obtain ⟨inCalls, sameSide⟩ := List.mem_filter.mp inSide
    have side := of_decide_eq_true sameSide
    have returned : call.location = .returned := by
      by_contra running
      exact whole call inCalls running side
    exact UInt64.le_iff_toNat_le.mp (maximum.above call inCalls side returned)
  constructor
  case length =>
    have length := buckets.length
    rw [at_] at length
    exact length
  case counted =>
    intro bucket count found
    have held := buckets.held bucket count
    rw [at_] at held
    rw [held found, side_latencies_count]
    exact UInt64.toNat_ofNat_of_lt' (Nat.lt_of_le_of_lt (in_bucket_le state _ _) few)
  case sampled =>
    rw [samples.held counts sampled at_, side_latencies_length]
    exact UInt64.toNat_ofNat_of_lt' few
  case above => exact above
  case attained =>
    intro nonempty
    rcases maximum.attained with zero | member
    · obtain ⟨latency, rest, split⟩ := List.exists_cons_of_ne_nil nonempty
      have inSide : latency ∈ state.sideLatencies state.taken.length := by
        rw [split]
        exact List.mem_cons_self
      have bounded := above latency inSide
      rw [zero, UInt64.toNat_zero, Nat.le_zero] at bounded
      rw [zero, UInt64.toNat_zero, ← bounded]
      exact inSide
    · obtain ⟨call, inCalls, same⟩ := List.mem_map.mp member
      obtain ⟨latency, side⟩ := Prod.mk.inj same
      rw [← latency]
      exact List.mem_map_of_mem (List.mem_filter.mpr ⟨inCalls, decide_eq_true side⟩)

end Sides

/-! ## Whole runs -/

def LatencySnapshot.Ordered (snap : LatencySnapshot) : Prop :=
  snap.samples ≠ 0 → snap.p50Ns ≤ snap.p99Ns ∧ snap.p99Ns ≤ snap.p999Ns

structure Sided (state : LatencyState) : Prop where
  buckets : BucketSides state
  samples : SampleSides state
  maximum : MaxSides state
  few : ∀ side, state.onSide side * 999 + 999 < 2 ^ 64
  ordered : ∀ taken ∈ state.taken, taken.snap.Ordered

section Runs

variable {state : LatencyState}

theorem sided_start : Sided .start := by
  refine ⟨bucket_sides_start, sample_sides_start, max_sides_start, ?_, ?_⟩
  · intro side
    show 0 * 999 + 999 < 2 ^ 64
    decide
  · intro taken member
    cases member

theorem sided_record (sides : Sided state) {latencyNs : UInt64}
    (few : FewSamples state (.record latencyNs)) : Sided (state.record latencyNs) := by
  refine ⟨bucket_sides_record sides.buckets latencyNs,
    sample_sides_record sides.buckets sides.samples latencyNs,
    max_sides_record sides.maximum latencyNs, ?_, sides.ordered⟩
  intro side
  have added : (state.record latencyNs).onSide side = state.onSide side +
      if state.bucketTaken (bucketOf latencyNs) = side then 1 else 0 := by
    simp only [LatencyState.onSide, LatencyState.record, List.countP_append,
      List.countP_singleton, decide_eq_true_eq]
  rw [added]
  split_ifs with here
  · rw [← here]
    exact few
  · exact sides.few side

theorem sided_call (sides : Sided state) (conserved : Conserved state) {position : Nat}
    {spurious : Bool} {call : RecordCall} {moved : Histogram × CallLocation}
    (found : state.calls[position]? = some call)
    (step : callStep state.histogram call.latencyNs call.location spurious = some moved)
    (whole : WholeRecordings state (.call position spurious)) :
    Sided (state.callMoved position call moved) := by
  obtain ⟨inFront, ends⟩ := whole call found
  have move := call_move_of_step step
  have maximum := max_sides_call sides.maximum conserved found move (ends moved step)
  have few : ∀ side, (state.callMoved position call moved).onSide side * 999 + 999 < 2 ^ 64 := by
    intro side
    rw [on_side_moved found]
    exact sides.few side
  generalize at_ : call.location = location at move
  cases move with
  | sample =>
      exact ⟨bucket_sides_call sides.buckets found rfl,
        sample_sides_add sides.samples found at_ (inFront at_), maximum, few, sides.ordered⟩
  | retry atMax less =>
      rw [← at_] at atMax
      exact ⟨bucket_sides_call sides.buckets found rfl,
        sample_sides_moved sides.samples found (at_max_sampled atMax) (by simp) rfl, maximum,
        few, sides.ordered⟩
  | enough atMax reached =>
      rw [← at_] at atMax
      exact ⟨bucket_sides_call sides.buckets found rfl,
        sample_sides_moved sides.samples found (at_max_sampled atMax) (by simp) rfl, maximum,
        few, sides.ordered⟩
  | store =>
      exact ⟨bucket_sides_call sides.buckets found rfl,
        sample_sides_moved sides.samples found (by rw [at_]; simp) (by simp) rfl, maximum,
        few, sides.ordered⟩

/-- The snapshot that is taken is that of the calls in front of it. -/
theorem ordered_of_sides (sides : Sided state) {counts : List UInt64} {sampled : UInt64}
    (at_ : state.reporter = .max counts sampled)
    (whole : ∀ call ∈ state.calls, call.location ≠ .returned →
      call.side ≠ state.taken.length) :
    (reportLatency counts sampled state.histogram.maxNs).Ordered := by
  intro nonzero
  rw [report_latency_samples] at nonzero
  have few := sides.few state.taken.length
  have summary := summary_of_sides sides.buckets sides.samples sides.maximum at_ whole (by omega)
  have reported := report_of_summary summary ?_ (by rwa [side_latencies_length])
  · exact ⟨reported.p50_le_p99, reported.p99_le_p999⟩
  · intro none_
    have length := summary.sampled
    rw [none_] at length
    exact nonzero (UInt64.toNat_inj.mp length)

theorem sided_report (sides : Sided state) (whole : WholeRecordings state .report) :
    Sided state.report := by
  unfold WholeRecordings at whole
  unfold LatencyState.report
  cases at_ : state.reporter with
  | buckets counts =>
      rw [at_] at whole
      have length := sides.buckets.length
      rw [at_] at length
      refine ⟨bucket_sides_take_bucket sides.buckets at_ ?_ ?_,
        sample_sides_take_bucket sides.samples at_ ?_, ⟨sides.maximum.waiting,
          sides.maximum.ahead, sides.maximum.above, sides.maximum.attained⟩, sides.few,
        sides.ordered⟩
      · split_ifs <;> rfl
      · split_ifs with more
        · exact more
        · simp only [List.length_append, List.length_singleton] at more
          simp only [ReporterLocation.Sized, List.length_append, List.length_singleton] at length ⊢
          omega
      · intro other sampled atMax
        split_ifs at atMax
  | samples counts =>
      rw [at_] at whole
      exact ⟨bucket_sides_take_samples sides.buckets at_,
        sample_sides_take_samples sides.samples at_ whole, ⟨sides.maximum.waiting,
          sides.maximum.ahead, sides.maximum.above, sides.maximum.attained⟩, sides.few,
        sides.ordered⟩
  | max counts sampled =>
      rw [at_] at whole
      refine ⟨bucket_sides_take_max sides.buckets at_ _, sample_sides_take_max sides.samples at_ _,
        max_sides_take_max sides.maximum whole _, sides.few, ?_⟩
      intro taken member
      rcases List.mem_append.mp member with earlier | newest
      · exact sides.ordered taken earlier
      · rw [List.mem_singleton.mp newest]
        exact ordered_of_sides sides at_ whole

/-- The quantiles of every snapshot are ordered, in every run with whole recordings and few
samples. -/
theorem quantiles_ordered (state : LatencyState)
    (reached : ReachesUnder latencySystem
      (fun state label => WholeRecordings state label ∧ FewSamples state label) state) :
    ∀ taken ∈ state.taken, taken.snap.Ordered := by
  have sides : Sided state := by
    refine invariant_of_step ?_ ?_ reached
    · rintro state rfl
      exact sided_start
    · intro state label next prior sides allowed taken
      have conserved := conserved_of_reaches (reaches_of_reaches_under prior)
      cases latency_move_of_step taken with
      | record latencyNs => exact sided_record sides allowed.2
      | call found step => exact sided_call sides conserved found step allowed.1
      | report => exact sided_report sides allowed.1
  exact sides.ordered

end Runs

/-! ## Snapshots between calls, and one that is not -/

/-- Between its calls the consumer leaves every recording whole. -/
theorem whole_between_calls {state : LatencyState}
    (returned : ∀ call ∈ state.calls, call.location = .returned) :
    WholeRecordings state .report := by
  unfold WholeRecordings
  cases state.reporter with
  | buckets counts => trivial
  | samples counts =>
      intro call member unsampled
      rw [returned call member] at unsampled
      cases unsampled
  | max counts sampled =>
      intro call member running
      exact absurd (returned call member) running

/-- While the first snapshot takes buckets, a call on its side is whole. -/
theorem whole_in_first_sweep {first other : LatencyState} {call : RecordCall}
    {histogram : Histogram} {counts : List UInt64} (none_ : first.taken = [])
    (sweeping : first.reporter = .buckets counts) (side : call.side = 0)
    (at_ : LastCall first call histogram other) (spurious : Bool) :
    WholeRecordings other (.call first.calls.length spurious) := by
  intro found member
  rw [at_.calls, List.getElem?_concat_length] at member
  cases member
  have length : other.taken.length = 0 := by
    rw [at_.taken, none_]
    rfl
  constructor
  · intro _
    rw [LatencyState.sampleTaken, at_.reporter, sweeping, length, side]
    rfl
  · intro _ _ _
    rw [length, side]

/-- A latency of 1500 ns is recorded between the exchanges of the first bucket and the second. -/
theorem undisturbed_snapshot_ordered :
    ∃ state taken, ReachesUnder latencySystem
        (fun state label => WholeRecordings state label ∧ FewSamples state label) state ∧
      state.calls.map RecordCall.latencyNs = [500, 1500] ∧
      taken ∈ state.taken ∧ taken.snap.samples = 2 ∧ taken.snap.p50Ns ≤ taken.snap.p99Ns ∧
      taken.snap.p99Ns ≤ taken.snap.p999Ns := by
  have started : ReachesUnder latencySystem
      (fun state label => WholeRecordings state label ∧ FewSamples state label) .start :=
    .start rfl
  have few : FewSamples .start (.record 500) := by
    show (0 + 1) * 999 + 999 < 2 ^ 64
    decide
  obtain ⟨first, reached, last⟩ := reaches_record started 500 0 ⟨trivial, few⟩
    fun _ _ _ _ at_ => ⟨whole_in_first_sweep rfl rfl rfl at_ _, trivial⟩
  have histogram : first.histogram = ⟨Function.update (fun _ => 0) 0 1, 1, 500⟩ :=
    last.histogram
  obtain ⟨swept, exchanged, sweeping, same, none_, one⟩ : ∃ swept, ReachesUnder latencySystem
      (fun state label => WholeRecordings state label ∧ FewSamples state label) swept ∧
      swept.reporter = .buckets [1] ∧ swept.calls = first.calls ∧ swept.taken = [] ∧
      swept.histogram.samples = 1 := by
    have whole : WholeRecordings first .report := by
      rw [WholeRecordings, last.reporter]
      trivial
    have exchanged := reached.step (show WholeRecordings first .report ∧ FewSamples first .report
      from ⟨whole, trivial⟩) rfl
    have between : first.report = { first with
        histogram := first.histogram.clearBucket 0
        reporter := .buckets [1] } := by
      unfold LatencyState.report
      rw [last.reporter, histogram]
      rfl
    rw [between] at exchanged
    exact ⟨_, exchanged, rfl, rfl, last.taken, congrArg Histogram.samples histogram⟩
  have side : swept.bucketTaken (bucketOf 1500) = 0 := by
    rw [LatencyState.bucketTaken, none_, sweeping]
    rfl
  have fewAgain : FewSamples swept (.record 1500) := by
    show (swept.onSide (swept.bucketTaken (bucketOf 1500)) + 1) * 999 + 999 < 2 ^ 64
    have counted : swept.onSide (swept.bucketTaken (bucketOf 1500)) ≤ 1 := by
      refine Nat.le_trans List.countP_le_length ?_
      rw [same, last.calls]
      exact Nat.le_refl _
    omega
  obtain ⟨second, again, later⟩ := reaches_record exchanged 1500 0 ⟨trivial, fewAgain⟩
    fun _ _ _ _ at_ => ⟨whole_in_first_sweep none_ sweeping side at_ _, trivial⟩
  have whole : ∀ other : LatencyState, other.calls = second.calls →
      WholeRecordings other .report ∧ FewSamples other .report := by
    intro other same_
    refine ⟨whole_between_calls ?_, trivial⟩
    rw [same_, later.calls, same, last.calls]
    intro call member
    rcases List.mem_cons.mp member with rfl | member
    · rfl
    · rw [List.mem_singleton.mp member]
  obtain ⟨state, taken, snapped, -, calls, all, snap, -⟩ :=
    @reaches_snapshot _ _ _ 19999 again whole (later.reporter.trans sweeping) rfl
  have member : taken ∈ state.taken := by
    rw [all]
    exact List.mem_append_right _ List.mem_cons_self
  have samples : taken.snap.samples = 2 := by
    rw [snap, report_latency_samples, later.histogram, Histogram.record_latency_samples, one]
    rfl
  have recorded : state.calls.map RecordCall.latencyNs = [500, 1500] := by
    rw [calls, later.calls, same, last.calls]
    rfl
  have ordered := quantiles_ordered state snapped taken member (by rw [samples]; decide)
  exact ⟨state, taken, snapped, recorded, member, samples, ordered.1, ordered.2⟩

/-- One thread calls `record_latency`, so a call starts when those before have returned. -/
def OneConsumer (state : LatencyState) : LatencyLabel → Prop
  | .record _ => ∀ call ∈ state.calls, call.location = .returned
  | _ => True

theorem scan_counts_zeros {target seen : UInt64} (maxNs : UInt64) (short : seen < target)
    (count bucket : Nat) :
    scanCounts target maxNs bucket seen (List.replicate count 0) = maxNs := by
  induction count generalizing bucket with
  | zero => rfl
  | succ count ih =>
      rw [List.replicate_succ, scanCounts, UInt64.add_zero, if_neg (UInt64.not_le.mpr short)]
      exact ih (bucket + 1)

/-- Two samples, of which only one is in the counts. -/
theorem report_of_split_samples (count : Nat) :
    (reportLatency (1 :: List.replicate count 0) 2 500).p50Ns = 1000 ∧
      (reportLatency (1 :: List.replicate count 0) 2 500).p99Ns = 500 := by
  constructor
  · rfl
  · show scanCounts (quantileTarget 2 99 100) 500 0 0 (1 :: List.replicate count 0) = 500
    rw [scanCounts, if_neg (by decide)]
    exact scan_counts_zeros 500 (by decide) count 1

/-- A second call of 500 ns falls between the exchange of its bucket and that of the samples:
the median is the edge of the first bucket, and the rank above it is behind all counts. -/
theorem quantiles_out_of_order :
    ¬ ∀ state, ReachesUnder latencySystem OneConsumer state →
      ∀ taken ∈ state.taken, taken.snap.samples ≠ 0 →
        taken.snap.p50Ns ≤ taken.snap.p99Ns ∧ taken.snap.p99Ns ≤ taken.snap.p999Ns := by
  intro ordered
  obtain ⟨state, taken, snapped, -, all, reported, -, -⟩ :=
    @reaches_split_snapshot OneConsumer (fun _ _ returned => returned) (fun _ _ _ => trivial)
      (fun _ => trivial)
  have member : taken ∈ state.taken := by
    rw [all]
    exact List.mem_cons_self
  obtain ⟨median, high⟩ := report_of_split_samples 20000
  have samples : taken.snap.samples ≠ 0 := by
    rw [reported, report_latency_samples]
    decide
  have wrong := (ordered state snapped taken member samples).1
  rw [reported, median, high] at wrong
  exact absurd wrong (by decide)

end MarketDataEngine.EngineV2
