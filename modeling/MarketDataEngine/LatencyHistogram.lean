import Mathlib.Algebra.Order.Floor.Div
import Mathlib.Data.List.MinMax
import Mathlib.Logic.Function.Basic
import MarketDataEngine.OrderStatistics

/-!
# The latency histogram of engine v2

`record_latency` counts a latency in its bucket and raises the maximum; `snapshot_latency`
takes the counters, leaves zeros, and reads quantiles off the cumulative counts. Here the two
run one after the other. The operations on single cells are those that the threads interleave.
-/

namespace MarketDataEngine.EngineV2

open MarketDataEngine.OrderStatistics

set_option autoImplicit false

def kLatencyBucketWidthNs : UInt64 := 1000

def kLatencyBucketCount : Nat := 20000

/-- `latency_buckets_`, `latency_samples_` and `latency_max_ns_`. -/
structure Histogram where
  buckets : Nat → UInt64
  samples : UInt64
  maxNs : UInt64

structure LatencySnapshot where
  samples : UInt64
  p50Ns : UInt64
  p99Ns : UInt64
  p999Ns : UInt64
  maxNs : UInt64
  overflow : UInt64

/-- The bucket of a latency; the last one takes what is too long for the others. -/
def bucketOf (latencyNs : UInt64) : Nat :=
  min (latencyNs / kLatencyBucketWidthNs).toNat kLatencyBucketCount

namespace Histogram

def empty : Histogram := ⟨fun _ => 0, 0, 0⟩

def addBucket (histogram : Histogram) (latencyNs : UInt64) : Histogram :=
  let bucket := bucketOf latencyNs
  { histogram with
    buckets := Function.update histogram.buckets bucket (histogram.buckets bucket + 1) }

def addSample (histogram : Histogram) : Histogram :=
  { histogram with samples := histogram.samples + 1 }

def storeMax (histogram : Histogram) (ns : UInt64) : Histogram :=
  { histogram with maxNs := ns }

def clearBucket (histogram : Histogram) (bucket : Nat) : Histogram :=
  { histogram with buckets := Function.update histogram.buckets bucket 0 }

def clearSamples (histogram : Histogram) : Histogram := { histogram with samples := 0 }

/-- The loop on `latency_max_ns_` while nobody else stores there. The weak compare-exchange
may fail for no reason, and then loads the same value again. -/
def raiseMax (histogram : Histogram) (latencyNs : UInt64) : Nat → Histogram
  | 0 => if histogram.maxNs < latencyNs then histogram.storeMax latencyNs else histogram
  | failures + 1 =>
      if histogram.maxNs < latencyNs then raiseMax histogram latencyNs failures
      else histogram

def recordLatency (histogram : Histogram) (latencyNs : UInt64) (failures : Nat) :
    Histogram :=
  (histogram.addBucket latencyNs).addSample.raiseMax latencyNs failures

/-- One call after the other, each with the number of times its compare-exchange fails. -/
def recordAll (histogram : Histogram) (calls : List (UInt64 × Nat)) : Histogram :=
  calls.foldl (fun current call => current.recordLatency call.1 call.2) histogram

def exchangeBuckets (histogram : Histogram) : List UInt64 × Histogram :=
  (List.range (kLatencyBucketCount + 1)).foldl
    (fun state bucket => (state.1 ++ [state.2.buckets bucket], state.2.clearBucket bucket))
    ([], histogram)

end Histogram

/-- The loop of `quantile_ns` from bucket `bucket` on. -/
def scanCounts (target maxNs : UInt64) : Nat → UInt64 → List UInt64 → UInt64
  | _, _, [] => maxNs
  | bucket, seen, count :: rest =>
      if target ≤ seen + count then
        if kLatencyBucketCount ≤ bucket then maxNs
        else (UInt64.ofNat bucket + 1) * kLatencyBucketWidthNs
      else scanCounts target maxNs (bucket + 1) (seen + count) rest

def quantileTarget (samples numerator denominator : UInt64) : UInt64 :=
  max 1 ((samples * numerator + denominator - 1) / denominator)

def quantileNs (counts : List UInt64) (samples maxNs numerator denominator : UInt64) :
    UInt64 :=
  scanCounts (quantileTarget samples numerator denominator) maxNs 0 0 counts

/-- What `snapshot_latency` returns for the values it took from the counters. -/
def reportLatency (counts : List UInt64) (samples maxNs : UInt64) : LatencySnapshot :=
  let snap : LatencySnapshot :=
    ⟨samples, 0, 0, 0, maxNs, counts.getD kLatencyBucketCount 0⟩
  if samples = 0 then snap
  else { snap with
    p50Ns := quantileNs counts samples maxNs 50 100
    p99Ns := quantileNs counts samples maxNs 99 100
    p999Ns := quantileNs counts samples maxNs 999 1000 }

def Histogram.snapshotLatency (histogram : Histogram) : LatencySnapshot × Histogram :=
  let taken := histogram.exchangeBuckets
  (reportLatency taken.1 taken.2.samples taken.2.maxNs,
    { taken.2 with samples := 0, maxNs := 0 })

/-! ## What the counters say about the latencies -/

/-- The bucket of a latency, as a class of natural numbers. -/
def bucketIndex (latencyNs : Nat) : Nat := min (latencyNs / 1000) kLatencyBucketCount

theorem bucket_of_eq (latencyNs : UInt64) : bucketOf latencyNs = bucketIndex latencyNs.toNat := by
  unfold bucketOf bucketIndex
  rw [UInt64.toNat_div]
  rfl

theorem bucket_index_monotone : Monotone bucketIndex := by
  intro smaller larger ordered
  have quotients : smaller / 1000 ≤ larger / 1000 := Nat.div_le_div_right ordered
  unfold bucketIndex
  omega

/-- The counts, the number of samples and the maximum are those of the latencies. -/
structure Summarises (latencies : List Nat) (counts : List UInt64) (samples maxNs : UInt64) :
    Prop where
  length : counts.length = kLatencyBucketCount + 1
  counted : ∀ bucket count, counts[bucket]? = some count →
    count.toNat = latencies.countP fun latency => decide (bucketIndex latency = bucket)
  sampled : samples.toNat = latencies.length
  above : ∀ latency ∈ latencies, latency ≤ maxNs.toNat
  attained : latencies ≠ [] → maxNs.toNat ∈ latencies

/-! ## Quantiles -/

/-- What is reported for a latency of the wanted rank. -/
def edgeNs (maxNs : UInt64) (latency : Nat) : UInt64 :=
  if kLatencyBucketCount ≤ bucketIndex latency then maxNs
  else (UInt64.ofNat (bucketIndex latency) + 1) * kLatencyBucketWidthNs

theorem edge_ns_of_long {maxNs : UInt64} {latency : Nat} (long : 20000000 ≤ latency) :
    edgeNs maxNs latency = maxNs := by
  apply if_pos
  unfold bucketIndex kLatencyBucketCount
  omega

theorem edge_ns_of_short (maxNs : UInt64) {latency : Nat} (short : latency < 20000000) :
    (edgeNs maxNs latency).toNat = (latency / 1000 + 1) * 1000 := by
  have quotient : latency / 1000 < 20000 := by omega
  have bucket : bucketIndex latency = latency / 1000 := Nat.min_eq_left (Nat.le_of_lt quotient)
  have edge : edgeNs maxNs latency =
      (UInt64.ofNat (latency / 1000) + 1) * kLatencyBucketWidthNs := by
    rw [edgeNs, bucket]
    exact if_neg (Nat.not_le_of_lt quotient)
  rw [edge, UInt64.toNat_mul, UInt64.toNat_add, UInt64.toNat_ofNat', UInt64.toNat_one]
  have width : kLatencyBucketWidthNs.toNat = 1000 := rfl
  rw [width]
  omega

/-- Longer latencies have later edges, as the maximum is at least as long as any. -/
theorem edge_ns_mono {maxNs : UInt64} {latency longer : Nat} (ordered : latency ≤ longer)
    (bounded : longer ≤ maxNs.toNat) : edgeNs maxNs latency ≤ edgeNs maxNs longer := by
  rw [UInt64.le_iff_toNat_le]
  by_cases long : 20000000 ≤ longer
  · rw [edge_ns_of_long long]
    by_cases alsoLong : 20000000 ≤ latency
    · rw [edge_ns_of_long alsoLong]
    · rw [edge_ns_of_short maxNs (Nat.lt_of_not_le alsoLong)]
      omega
  · have short : latency < 20000000 := by omega
    rw [edge_ns_of_short maxNs short, edge_ns_of_short maxNs (Nat.lt_of_not_le long)]
    have quotients : latency / 1000 ≤ longer / 1000 := Nat.div_le_div_right ordered
    omega

/-- The scan stops at the bucket of the latency of the wanted rank. -/
theorem scan_counts_eq {latencies : List Nat} {rank latency : Nat}
    (found : orderStatistic latencies rank = some latency) {target : UInt64}
    (wanted : target.toNat = rank) (few : latencies.length < 2 ^ 64) (maxNs : UInt64)
    {bucket : Nat} {seen : UInt64} {rest : List UInt64}
    (before : seen.toNat =
      latencies.countP fun entry => decide (bucketIndex entry < bucket))
    (counted : ∀ offset count, rest[offset]? = some count → count.toNat =
      latencies.countP fun entry => decide (bucketIndex entry = bucket + offset))
    (length : bucket + rest.length = kLatencyBucketCount + 1)
    (reached : bucket ≤ bucketIndex latency) :
    scanCounts target maxNs bucket seen rest = edgeNs maxNs latency := by
  induction rest generalizing bucket seen with
  | nil =>
      have last : bucketIndex latency ≤ kLatencyBucketCount := Nat.min_le_right _ _
      rw [List.length_nil] at length
      omega
  | cons count rest ih =>
      have current := counted 0 count rfl
      have cumulative := countP_lt_succ bucketIndex latencies bucket
      have total : (seen + count).toNat =
          latencies.countP fun entry => decide (bucketIndex entry < bucket + 1) := by
        have bounded := List.countP_le_length
          (p := fun entry => decide (bucketIndex entry < bucket + 1)) (l := latencies)
        rw [UInt64.toNat_add, before, current, Nat.add_zero, ← cumulative]
        exact Nat.mod_eq_of_lt (Nat.lt_of_le_of_lt bounded few)
      have stops : target ≤ seen + count ↔ bucketIndex latency ≤ bucket := by
        rw [UInt64.le_iff_toNat_le, wanted, total]
        exact class_le_iff_rank_le found bucket_index_monotone bucket
      rw [scanCounts]
      split_ifs with stop overflow
      · have here : bucketIndex latency = bucket := Nat.le_antisymm (stops.mp stop) reached
        rw [edgeNs, here, if_pos overflow]
      · have here : bucketIndex latency = bucket := Nat.le_antisymm (stops.mp stop) reached
        rw [edgeNs, here, if_neg overflow]
      · apply ih total
        · intro offset later member
          rw [counted (offset + 1) later member, Nat.add_right_comm, Nat.add_assoc]
        · rw [List.length_cons] at length
          omega
        · exact Nat.lt_of_not_le (fun stopped => stop (stops.mpr stopped))

/-- The sum may wrap before one is subtracted; the difference does not. -/
theorem quantile_target_eq {samples numerator denominator : UInt64}
    (sampled : 0 < samples.toNat) (positive : 0 < numerator.toNat)
    (divides : 0 < denominator.toNat)
    (fits : samples.toNat * numerator.toNat + (denominator.toNat - 1) < 2 ^ 64) :
    (quantileTarget samples numerator denominator).toNat =
      samples.toNat * numerator.toNat ⌈/⌉ denominator.toNat := by
  have product : 0 < samples.toNat * numerator.toNat := Nat.mul_pos sampled positive
  have difference : samples * numerator + denominator - 1 =
      samples * numerator + (denominator - 1) := by grind
  have one : (denominator - 1).toNat = denominator.toNat - 1 := by
    apply UInt64.toNat_sub_of_le
    rw [UInt64.le_iff_toNat_le]
    exact divides
  have quotient : ((samples * numerator + denominator - 1) / denominator).toNat =
      samples.toNat * numerator.toNat ⌈/⌉ denominator.toNat := by
    rw [difference, UInt64.toNat_div, UInt64.toNat_add, UInt64.toNat_mul, one,
      Nat.ceilDiv_eq_add_pred_div]
    congr 1
    omega
  have atLeast : (1 : UInt64) ≤ (samples * numerator + denominator - 1) / denominator := by
    rw [UInt64.le_iff_toNat_le, quotient, Nat.ceilDiv_eq_add_pred_div]
    apply (Nat.le_div_iff_mul_le divides).mpr
    rw [UInt64.toNat_one]
    omega
  have larger : quantileTarget samples numerator denominator =
      (samples * numerator + denominator - 1) / denominator := by
    unfold quantileTarget
    exact if_pos atLeast
  rw [larger, quotient]

/-- The reported value lies behind the latency of rank `⌈q * N⌉`, by at most the width of a
bucket, or is the maximum if that latency is too long for the buckets. -/
def QuantileOf (latencies : List Nat) (numerator denominator : Nat) (maxNs reported : UInt64) :
    Prop :=
  ∃ latency,
    orderStatistic latencies (latencies.length * numerator ⌈/⌉ denominator) = some latency ∧
      (latency < 20000000 → latency < reported.toNat ∧ reported.toNat ≤ latency + 1000) ∧
      (20000000 ≤ latency → reported = maxNs)

section Reports

variable {latencies : List Nat} {counts : List UInt64} {samples maxNs : UInt64}

theorem quantile_ns_eq (summary : Summarises latencies counts samples maxNs)
    {numerator denominator : UInt64} (positive : 0 < numerator.toNat)
    (proper : numerator.toNat ≤ denominator.toNat) (nonempty : latencies ≠ [])
    (fits : latencies.length * numerator.toNat + (denominator.toNat - 1) < 2 ^ 64) :
    ∃ latency, orderStatistic latencies
        (latencies.length * numerator.toNat ⌈/⌉ denominator.toNat) = some latency ∧
      quantileNs counts samples maxNs numerator denominator = edgeNs maxNs latency := by
  have some_ : 0 < latencies.length := List.length_pos_iff.mpr nonempty
  have divides : 0 < denominator.toNat := Nat.lt_of_lt_of_le positive proper
  have few : latencies.length < 2 ^ 64 := by
    have product : latencies.length * 1 ≤ latencies.length * numerator.toNat :=
      Nat.mul_le_mul_left _ positive
    omega
  rw [← summary.sampled] at fits some_
  have target := quantile_target_eq some_ positive divides fits
  have ranked : 0 < samples.toNat * numerator.toNat ⌈/⌉ denominator.toNat ∧
      samples.toNat * numerator.toNat ⌈/⌉ denominator.toNat ≤ latencies.length := by
    rw [Nat.ceilDiv_eq_add_pred_div, ← summary.sampled]
    have product := Nat.mul_pos some_ positive
    have scaled : samples.toNat * numerator.toNat ≤ samples.toNat * denominator.toNat :=
      Nat.mul_le_mul_left _ proper
    constructor
    · apply Nat.div_pos _ divides
      omega
    · apply Nat.le_of_lt_succ
      rw [Nat.div_lt_iff_lt_mul divides, Nat.succ_mul]
      omega
  obtain ⟨latency, found⟩ := order_statistic_exists ranked.1 ranked.2
  rw [← summary.sampled]
  refine ⟨latency, found, ?_⟩
  apply scan_counts_eq found target few maxNs
  · rw [UInt64.toNat_zero]
    symm
    apply List.countP_eq_zero.mpr
    intro entry _
    simp
  · intro offset count member
    rw [summary.counted offset count member, Nat.zero_add]
  · rw [summary.length, Nat.zero_add]
  · exact Nat.zero_le _

theorem quantile_of_edge {numerator denominator latency : Nat}
    (found : orderStatistic latencies
      (latencies.length * numerator ⌈/⌉ denominator) = some latency) :
    QuantileOf latencies numerator denominator maxNs (edgeNs maxNs latency) := by
  refine ⟨latency, found, ?_, ?_⟩
  · intro short
    rw [edge_ns_of_short maxNs short]
    omega
  · exact fun long => edge_ns_of_long long

/-- The report of a summary that is not of nothing. -/
structure Reported (latencies : List Nat) (snap : LatencySnapshot) : Prop where
  samples : snap.samples.toNat = latencies.length
  maximum : latencies.max? = some snap.maxNs.toNat
  overflow : snap.overflow.toNat =
    latencies.countP fun latency => decide (20000000 ≤ latency)
  p50 : QuantileOf latencies 50 100 snap.maxNs snap.p50Ns
  p99 : QuantileOf latencies 99 100 snap.maxNs snap.p99Ns
  p999 : QuantileOf latencies 999 1000 snap.maxNs snap.p999Ns
  p50_le_p99 : snap.p50Ns ≤ snap.p99Ns
  p99_le_p999 : snap.p99Ns ≤ snap.p999Ns

theorem overflow_eq (summary : Summarises latencies counts samples maxNs) :
    (counts.getD kLatencyBucketCount 0).toNat =
      latencies.countP fun latency => decide (20000000 ≤ latency) := by
  have inside : kLatencyBucketCount < counts.length := by
    rw [summary.length]
    exact Nat.lt_succ_self _
  rw [List.getD_eq_getElem?_getD, List.getElem?_eq_getElem inside, Option.getD_some,
    summary.counted kLatencyBucketCount _ (List.getElem?_eq_getElem inside)]
  apply List.countP_congr
  intro latency _
  rw [decide_eq_true_iff, decide_eq_true_iff]
  unfold bucketIndex kLatencyBucketCount
  omega

theorem report_of_summary (summary : Summarises latencies counts samples maxNs)
    (nonempty : latencies ≠ []) (few : latencies.length * 999 + 999 < 2 ^ 64) :
    Reported latencies (reportLatency counts samples maxNs) := by
  obtain ⟨median, foundMedian, p50⟩ := @quantile_ns_eq _ _ _ _ summary 50 100 (by decide)
    (by decide) nonempty (by
      rw [show (50 : UInt64).toNat = 50 from rfl, show (100 : UInt64).toNat = 100 from rfl]
      omega)
  obtain ⟨high, foundHigh, p99⟩ := @quantile_ns_eq _ _ _ _ summary 99 100 (by decide)
    (by decide) nonempty (by
      rw [show (99 : UInt64).toNat = 99 from rfl, show (100 : UInt64).toNat = 100 from rfl]
      omega)
  obtain ⟨top, foundTop, p999⟩ := @quantile_ns_eq _ _ _ _ summary 999 1000 (by decide)
    (by decide) nonempty (by
      rw [show (999 : UInt64).toNat = 999 from rfl, show (1000 : UInt64).toNat = 1000 from rfl]
      omega)
  have sampled : ¬ samples = 0 := by
    intro none_
    have length := summary.sampled
    rw [none_, UInt64.toNat_zero] at length
    exact nonempty (List.eq_nil_of_length_eq_zero length.symm)
  have ranks : latencies.length * 50 ⌈/⌉ 100 ≤ latencies.length * 99 ⌈/⌉ 100 ∧
      latencies.length * 99 ⌈/⌉ 100 ≤ latencies.length * 999 ⌈/⌉ 1000 := by
    rw [Nat.ceilDiv_eq_add_pred_div, Nat.ceilDiv_eq_add_pred_div, Nat.ceilDiv_eq_add_pred_div]
    omega
  unfold reportLatency
  rw [if_neg sampled, p50, p99, p999]
  constructor
  case samples => exact summary.sampled
  case maximum =>
    rw [List.max?_eq_some_iff]
    exact ⟨summary.attained nonempty, summary.above⟩
  case overflow => exact overflow_eq summary
  case p50 => exact quantile_of_edge foundMedian
  case p99 => exact quantile_of_edge foundHigh
  case p999 => exact quantile_of_edge foundTop
  case p50_le_p99 =>
    exact edge_ns_mono (order_statistic_mono foundMedian ranks.1 foundHigh)
      (summary.above high (order_statistic_mem foundHigh))
  case p99_le_p999 =>
    exact edge_ns_mono (order_statistic_mono foundHigh ranks.2 foundTop)
      (summary.above top (order_statistic_mem foundTop))

end Reports

/-! ## Recording -/

namespace Histogram

theorem raise_max_eq (histogram : Histogram) (latencyNs : UInt64) (failures : Nat) :
    histogram.raiseMax latencyNs failures =
      histogram.storeMax
        (if histogram.maxNs < latencyNs then latencyNs else histogram.maxNs) := by
  induction failures with
  | zero =>
      unfold raiseMax
      split_ifs <;> rfl
  | succ failures ih =>
      unfold raiseMax
      rw [ih]
      split_ifs <;> rfl

/-- The histogram of the latencies, in the width of its counters. -/
structure Holds (latencies : List Nat) (histogram : Histogram) : Prop where
  buckets : ∀ bucket, histogram.buckets bucket = UInt64.ofNat
    (latencies.countP fun latency => decide (bucketIndex latency = bucket))
  samples : histogram.samples = UInt64.ofNat latencies.length
  above : ∀ latency ∈ latencies, latency ≤ histogram.maxNs.toNat
  attained : latencies ≠ [] → histogram.maxNs.toNat ∈ latencies
  unset : latencies = [] → histogram.maxNs = 0

theorem holds_empty : Holds [] empty := by
  constructor
  case buckets => exact fun _ => rfl
  case samples => rfl
  case above =>
    intro latency member
    cases member
  case attained => exact fun nonempty => absurd rfl nonempty
  case unset => exact fun _ => rfl

theorem record_latency_buckets (histogram : Histogram) (latencyNs : UInt64) (failures : Nat) :
    (histogram.recordLatency latencyNs failures).buckets =
      (histogram.addBucket latencyNs).buckets := by
  rw [recordLatency, raise_max_eq]
  rfl

theorem record_latency_samples (histogram : Histogram) (latencyNs : UInt64) (failures : Nat) :
    (histogram.recordLatency latencyNs failures).samples = histogram.samples + 1 := by
  rw [recordLatency, raise_max_eq]
  rfl

theorem record_latency_max (histogram : Histogram) (latencyNs : UInt64) (failures : Nat) :
    (histogram.recordLatency latencyNs failures).maxNs.toNat =
      max histogram.maxNs.toNat latencyNs.toNat := by
  rw [recordLatency, raise_max_eq]
  show (if histogram.maxNs < latencyNs then latencyNs else histogram.maxNs).toNat = _
  split_ifs with raised
  · rw [UInt64.lt_iff_toNat_lt] at raised
    omega
  · rw [UInt64.lt_iff_toNat_lt] at raised
    omega

theorem add_bucket_count (histogram : Histogram) (latencyNs : UInt64) (bucket : Nat) :
    (histogram.addBucket latencyNs).buckets bucket = histogram.buckets bucket +
      if bucketIndex latencyNs.toNat = bucket then 1 else 0 := by
  simp only [addBucket, bucket_of_eq]
  split_ifs with here
  · rw [← here, Function.update_self]
  · rw [Function.update_of_ne (fun same => here same.symm), UInt64.add_zero]

theorem holds_record {latencies : List Nat} {histogram : Histogram}
    (holds : Holds latencies histogram) (latencyNs : UInt64) (failures : Nat) :
    Holds (latencies ++ [latencyNs.toNat]) (histogram.recordLatency latencyNs failures) := by
  constructor
  case buckets =>
    intro bucket
    rw [record_latency_buckets, add_bucket_count, holds.buckets bucket, List.countP_append,
      List.countP_singleton, UInt64.ofNat_add]
    simp only [decide_eq_true_eq]
    split_ifs <;> rfl
  case samples =>
    rw [record_latency_samples, holds.samples, List.length_append, UInt64.ofNat_add]
    rfl
  case above =>
    intro latency member
    rw [record_latency_max]
    rcases List.mem_append.mp member with earlier | newest
    · exact Nat.le_trans (holds.above latency earlier) (Nat.le_max_left _ _)
    · rw [List.mem_singleton.mp newest]
      exact Nat.le_max_right _ _
  case attained =>
    intro _
    rw [record_latency_max]
    rcases Nat.le_total histogram.maxNs.toNat latencyNs.toNat with raised | kept
    · rw [Nat.max_eq_right raised]
      exact List.mem_append_right _ List.mem_cons_self
    · rw [Nat.max_eq_left kept]
      by_cases first : latencies = []
      · have unset := holds.unset first
        rw [unset, UInt64.toNat_zero, Nat.le_zero] at kept
        rw [unset, UInt64.toNat_zero, ← kept]
        exact List.mem_append_right _ List.mem_cons_self
      · exact List.mem_append_left _ (holds.attained first)
  case unset =>
    intro none_
    exact absurd none_ (List.append_ne_nil_of_right_ne_nil _ (List.cons_ne_nil _ _))

theorem holds_record_all {latencies : List Nat} {histogram : Histogram}
    (holds : Holds latencies histogram) (calls : List (UInt64 × Nat)) :
    Holds (latencies ++ calls.map fun call => call.1.toNat) (histogram.recordAll calls) := by
  induction calls generalizing latencies histogram with
  | nil =>
      rw [List.map_nil, List.append_nil]
      exact holds
  | cons call rest ih =>
      have later := ih (holds_record holds call.1 call.2)
      rw [List.append_assoc] at later
      exact later

/-! ## Taking the counters -/

theorem exchange_buckets_prefix (histogram : Histogram) (count : Nat) :
    (List.range count).foldl
      (fun state bucket => (state.1 ++ [state.2.buckets bucket], state.2.clearBucket bucket))
      (([] : List UInt64), histogram) =
        ((List.range count).map histogram.buckets,
          { histogram with buckets := fun bucket =>
              if bucket < count then 0 else histogram.buckets bucket }) := by
  induction count with
  | zero => rfl
  | succ count ih =>
      rw [List.range_succ, List.foldl_append, ih, List.map_append]
      simp only [List.foldl_cons, List.foldl_nil, List.map_cons, List.map_nil, Nat.lt_irrefl,
        if_false, clearBucket]
      congr 2
      funext bucket
      by_cases last : bucket = count
      · rw [last, Function.update_self, if_pos (Nat.lt_succ_self _)]
      · rw [Function.update_of_ne last]
        have same : bucket < count ↔ bucket < count + 1 := by omega
        simp only [same]

theorem exchange_buckets_eq (histogram : Histogram) :
    histogram.exchangeBuckets =
      ((List.range (kLatencyBucketCount + 1)).map histogram.buckets,
        { histogram with buckets := fun bucket =>
            if bucket < kLatencyBucketCount + 1 then 0 else histogram.buckets bucket }) :=
  exchange_buckets_prefix histogram (kLatencyBucketCount + 1)

theorem snapshot_latency_eq (histogram : Histogram) :
    histogram.snapshotLatency =
      (reportLatency ((List.range (kLatencyBucketCount + 1)).map histogram.buckets)
          histogram.samples histogram.maxNs,
        ⟨fun bucket => if bucket < kLatencyBucketCount + 1 then 0 else histogram.buckets bucket,
          0, 0⟩) := by
  simp only [snapshotLatency, exchange_buckets_eq]

theorem summarises_of_holds {latencies : List Nat} {histogram : Histogram}
    (holds : Holds latencies histogram) (few : latencies.length < 2 ^ 64) :
    Summarises latencies ((List.range (kLatencyBucketCount + 1)).map histogram.buckets)
      histogram.samples histogram.maxNs := by
  constructor
  case length => rw [List.length_map, List.length_range]
  case counted =>
    intro bucket count found
    rw [List.getElem?_map] at found
    obtain ⟨index, inRange, rfl⟩ := Option.map_eq_some_iff.mp found
    obtain ⟨bounded, rfl⟩ := List.getElem?_eq_some_iff.mp inRange
    rw [List.getElem_range, holds.buckets bucket]
    exact UInt64.toNat_ofNat_of_lt' (Nat.lt_of_le_of_lt List.countP_le_length few)
  case sampled =>
    rw [holds.samples]
    exact UInt64.toNat_ofNat_of_lt' few
  case above => exact holds.above
  case attained => exact holds.attained

/-- Beyond the last bucket nothing is counted, so nothing is left. -/
theorem cleared_of_holds {latencies : List Nat} {histogram : Histogram}
    (holds : Holds latencies histogram) : histogram.snapshotLatency.2 = empty := by
  rw [snapshot_latency_eq]
  simp only [empty, Histogram.mk.injEq, and_true]
  funext bucket
  split_ifs with inside
  · rfl
  · rw [holds.buckets bucket, List.countP_eq_zero.mpr]
    · rfl
    · intro latency _ here
      have bounded : bucketIndex latency ≤ kLatencyBucketCount := Nat.min_le_right _ _
      have same := of_decide_eq_true here
      omega

/-- A snapshot of an undisturbed histogram: the counts and the maximum are those of the
latencies recorded, the quantiles are off by at most the width of a bucket and ordered, and
the histogram is empty afterwards. -/
theorem latency_quantiles_correct (calls : List (UInt64 × Nat)) (recorded : calls ≠ [])
    (few : calls.length * 999 + 999 < 2 ^ 64) :
    Reported (calls.map fun call => call.1.toNat)
        (empty.recordAll calls).snapshotLatency.1 ∧
      (empty.recordAll calls).snapshotLatency.2 = empty := by
  have holds := holds_record_all holds_empty calls
  rw [List.nil_append] at holds
  refine ⟨?_, cleared_of_holds holds⟩
  have length : (calls.map fun call => call.1.toNat).length = calls.length :=
    List.length_map _
  have summary := summarises_of_holds holds (by omega)
  have reported := report_of_summary summary (by simpa using recorded) (by rwa [length])
  simp only [snapshot_latency_eq]
  exact reported

/-- One latency of 500 ns, whose compare-exchange fails twice, and one too long for the
buckets. -/
theorem two_latencies_reported :
    Reported [500, 30000000]
      (empty.recordAll [(500, 2), (30000000, 0)]).snapshotLatency.1 ∧
      (empty.recordAll [(500, 2), (30000000, 0)]).snapshotLatency.2 = empty :=
  latency_quantiles_correct [(500, 2), (30000000, 0)] (List.cons_ne_nil _ _) (by decide)

end Histogram

end MarketDataEngine.EngineV2
