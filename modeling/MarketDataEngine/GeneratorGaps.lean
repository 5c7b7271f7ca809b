import MarketDataEngine.GeneratorV2
import MarketDataEngine.LinearCongruential

/-!
# Which gap settings ever produce a gap

As long as no gap comes, every slot draws twice, once for the gap and once for
the message, so the gap draws are the random numbers at odd places. The low bit
of the generator alternates: all gap draws of a run have the parity that the seed
does not have, and within `2 ^ 31` slots they meet all numbers of that parity.
-/

namespace MarketDataEngine.GeneratorV2

open MarketDataEngine.Protocol MarketDataEngine.LinearCongruential

set_option autoImplicit false

/-- The recurrence of `next_rand`. -/
def draw (rngState : UInt32) : UInt32 := rngState * 1664525 + 1013904223

theorem next_rand_eq (generator : Generator) :
    generator.nextRand =
      (draw generator.rngState, { generator with rngState := draw generator.rngState }) := by
  cases generator
  rfl

theorem make_message_rng_state (generator : Generator) :
    generator.makeMessage.2.rngState = draw generator.rngState := by
  cases generator
  rfl

/-! ## The draws of a run -/

/-- `r % gap_mod < gap_span`. -/
def hitsGap (args : RunArgs) (r : UInt32) : Prop :=
  r % args.gapMod.toUInt32 < args.gapSpan.toUInt32

/-- The slots that take the gap branch. -/
def gapSlots (args : RunArgs) : Nat → Generator → Nat
  | 0, _ => 0
  | slots + 1, generator =>
      (if (slot args generator).1.isNone then 1 else 0) +
        gapSlots args slots (slot args generator).2

/-- Every other slot makes a message. -/
theorem fill_batch_gap_slots (args : RunArgs) (slots : Nat) (generator : Generator) :
    (fillBatch args slots generator).1.length + gapSlots args slots generator = slots := by
  induction slots generalizing generator with
  | zero => rfl
  | succ slots ih =>
      have rest := ih (slot args generator).2
      rw [fill_batch_succ, List.length_append, gapSlots]
      cases (slot args generator).1 with
      | none =>
          simp only [Option.toList_none, List.length_nil, Option.isNone_none, ↓reduceIte]
          omega
      | some msg =>
          simp only [Option.toList_some, List.length_singleton, Option.isNone_some,
            Bool.false_eq_true, ↓reduceIte]
          omega

theorem slot_of_hit {args : RunArgs} (inject : args.injectGap = true)
    {generator : Generator} (hit : hitsGap args (draw generator.rngState)) :
    (slot args generator).1 = none := by
  have drawn : generator.nextRand.1 = draw generator.rngState := by rw [next_rand_eq]
  simp only [hitsGap, ← drawn] at hit
  simp only [slot, inject, hit, ↓reduceIte]

/-- A slot without a gap draws a second time, for its message. -/
theorem slot_of_miss {args : RunArgs} (inject : args.injectGap = true)
    {generator : Generator} (miss : ¬ hitsGap args (draw generator.rngState)) :
    (slot args generator).1.isNone = false ∧
      (slot args generator).2.rngState = draw (draw generator.rngState) := by
  have drawn : generator.nextRand.1 = draw generator.rngState := by rw [next_rand_eq]
  have state : generator.nextRand.2.rngState = draw generator.rngState := by
    rw [next_rand_eq]
  simp only [hitsGap, ← drawn] at miss
  simp only [slot, inject, miss, ↓reduceIte]
  refine ⟨rfl, ?_⟩
  rw [make_message_rng_state, state]

theorem gap_slots_eq_zero_iff {args : RunArgs} (inject : args.injectGap = true)
    (slots : Nat) (generator : Generator) :
    gapSlots args slots generator = 0 ↔
      ∀ earlier < slots, ¬ hitsGap args (draw^[2 * earlier + 1] generator.rngState) := by
  induction slots generalizing generator with
  | zero =>
      refine ⟨fun _ earlier impossible => ?_, fun _ => rfl⟩
      omega
  | succ slots ih =>
      by_cases hit : hitsGap args (draw generator.rngState)
      · rw [gapSlots, slot_of_hit inject hit]
        simp only [Option.isNone_none, ↓reduceIte]
        constructor
        · intro impossible
          omega
        · intro misses
          exact absurd hit (misses 0 (Nat.succ_pos slots))
      · obtain ⟨made, state⟩ := slot_of_miss inject hit
        have shifted : ∀ earlier, draw^[2 * earlier + 1] (draw (draw generator.rngState)) =
            draw^[2 * (earlier + 1) + 1] generator.rngState := by
          intro earlier
          rw [show 2 * (earlier + 1) + 1 = 2 * earlier + 1 + 2 by omega,
            Function.iterate_add_apply draw (2 * earlier + 1) 2]
          rfl
        rw [gapSlots, made, if_neg Bool.false_ne_true, Nat.zero_add, ih, state]
        constructor
        · intro misses earlier below
          cases earlier with
          | zero => exact hit
          | succ earlier =>
              rw [← shifted]
              exact misses earlier (by omega)
        · intro misses earlier below
          rw [shifted]
          exact misses (earlier + 1) (by omega)

/-! ## The orbit -/

theorem draw_to_nat (rngState : UInt32) :
    (draw rngState).toNat = (rngState.toNat * 1664525 + 1013904223) % 2 ^ 32 := by
  rw [draw, UInt32.toNat_add, UInt32.toNat_mul]
  simp only [UInt32.reduceToNat]
  omega

/-- The generator computes the affine map modulo `2 ^ 32`. -/
theorem draw_iterate (steps : Nat) (rngState : UInt32) :
    (2 : ℤ) ^ 32 ∣ ((draw^[steps] rngState).toNat : ℤ) -
      (affine 1664525 1013904223)^[steps] rngState.toNat := by
  induction steps with
  | zero => simp
  | succ steps ih =>
      obtain ⟨quotient, exact_⟩ := ih
      rw [Function.iterate_succ_apply', Function.iterate_succ_apply', draw_to_nat, affine]
      omega

theorem draw_period (steps : Nat) (rngState : UInt32) :
    draw^[steps] rngState = rngState ↔ 2 ^ 32 ∣ steps := by
  have congruent := draw_iterate steps rngState
  have bound := (draw^[steps] rngState).toNat_lt
  have startBound := rngState.toNat_lt
  rw [← pow_dvd_iterate_sub_iff (a := 1664525) (c := 1013904223) (by decide) (by decide)
    (by decide) 32 steps rngState.toNat, ← UInt32.toNat_inj]
  constructor
  · intro same
    omega
  · intro divides
    omega

theorem draw_covers (rngState target : UInt32) :
    ∃ steps < 2 ^ 32, draw^[steps] rngState = target := by
  obtain ⟨steps, below, divides⟩ := orbit_covers (a := 1664525) (c := 1013904223) (by decide)
    (by decide) (by decide) 32 rngState.toNat target.toNat
  have congruent := draw_iterate steps rngState
  have bound := (draw^[steps] rngState).toNat_lt
  have targetBound := target.toNat_lt
  refine ⟨steps, below, UInt32.toNat_inj.mp ?_⟩
  omega

theorem draw_parity (steps : Nat) (rngState : UInt32) :
    (draw^[steps] rngState).toNat % 2 = (rngState.toNat + steps) % 2 := by
  induction steps with
  | zero => rfl
  | succ steps ih =>
      rw [Function.iterate_succ_apply', draw_to_nat]
      omega

/-! ## Targets at odd places -/

/-- A number of the parity that the seed does not have is met at an odd place. -/
theorem draw_covers_odd {rngState target : UInt32}
    (parity : (rngState.toNat + target.toNat) % 2 = 1) :
    ∃ earlier < 2 ^ 31, draw^[2 * earlier + 1] rngState = target := by
  obtain ⟨steps, below, met⟩ := draw_covers rngState target
  have low := draw_parity steps rngState
  rw [met] at low
  refine ⟨steps / 2, by omega, ?_⟩
  rw [show 2 * (steps / 2) + 1 = steps by omega, met]

/-- The largest `int` leaves out the last odd place, where one number is met. -/
theorem draw_covers_early {rngState target : UInt32}
    (parity : (rngState.toNat + target.toNat) % 2 = 1) (apart : draw target ≠ rngState) :
    ∃ earlier < 2 ^ 31 - 1, draw^[2 * earlier + 1] rngState = target := by
  obtain ⟨earlier, below, met⟩ := draw_covers_odd parity
  refine ⟨earlier, ?_, met⟩
  by_contra late
  have last : 2 * earlier + 1 + 1 = 2 ^ 32 := by omega
  apply apart
  rw [← met, ← Function.iterate_succ_apply' draw, Nat.succ_eq_add_one, last,
    draw_period]

theorem draw_injective : Function.Injective draw := by
  intro first second same
  have around : ∀ rngState, draw^[2 ^ 32 - 1] (draw rngState) = rngState := by
    intro rngState
    rw [← Function.iterate_succ_apply draw, draw_period]
    exact ⟨1, by norm_num⟩
  rw [← around first, same, around]

/-- The positive range of `gap_mod` and `gap_span`. -/
theorem to_nat_of_pos {value : Int32} (positive : 0 < value) :
    0 < value.toUInt32.toNat ∧ value.toUInt32.toNat < 2 ^ 31 ∧
      (value.toUInt32.toNat : Int) = value.toInt := by
  have above := value.toInt_lt
  rw [Int32.lt_iff_toInt_lt] at positive
  have unsigned : (0 : Int32) ≤ value := by
    rw [Int32.le_iff_toInt_le]
    exact Int.le_of_lt positive
  have same : value.toUInt32.toNat = value.toInt.toNat := by
    rw [Int32.toNat_toUInt32_of_le unsigned, ← Int32.toNat_toInt]
  have zero : (0 : Int32).toInt = 0 := rfl
  rw [zero] at positive
  omega

/-- The settings under which a gap comes: an odd seed, a span of two or more, or an odd
`gap_mod`. With an odd `gap_mod` alone and no second odd multiple of it below `2 ^ 32`,
the seed must not be the number drawn after `gap_mod`. -/
def ReachesGap (args : RunArgs) : Prop :=
  args.startSeed.toInt % 2 = 1 ∨ 2 ≤ args.gapSpan.toInt ∨
    args.gapMod.toInt % 2 = 1 ∧
      ¬ (2 ^ 32 ≤ 3 * args.gapMod.toInt ∧ args.startSeed.toUInt32 = draw args.gapMod.toUInt32)

instance (args : RunArgs) : Decidable (ReachesGap args) :=
  inferInstanceAs (Decidable (_ ∨ _ ∨ _))

theorem RunArgs.start_seed_pos (args : RunArgs) : 0 < args.startSeed := by
  unfold RunArgs.startSeed
  split_ifs with negative
  · decide
  · exact Int32.not_le.mp negative

section Targets

variable {args : RunArgs} (modPositive : 0 < args.gapMod) (spanPositive : 0 < args.gapSpan)
include modPositive spanPositive

theorem hits_gap_iff (r : UInt32) :
    hitsGap args r ↔ r.toNat % args.gapMod.toInt.toNat < args.gapSpan.toInt.toNat := by
  obtain ⟨-, -, modValue⟩ := to_nat_of_pos modPositive
  obtain ⟨-, -, spanValue⟩ := to_nat_of_pos spanPositive
  rw [hitsGap, UInt32.lt_iff_toNat_lt, UInt32.toNat_mod, ← modValue, ← spanValue,
    Int.toNat_natCast, Int.toNat_natCast]

/-- Two numbers that hit are enough: not both are met at the last odd place. -/
theorem hit_of_two {rngState : UInt32} {first second : Nat} (below : second < 2 ^ 32)
    (apart : first < second)
    (firstParity : (rngState.toNat + first) % 2 = 1)
    (secondParity : (rngState.toNat + second) % 2 = 1)
    (firstHit : first % args.gapMod.toInt.toNat < args.gapSpan.toInt.toNat)
    (secondHit : second % args.gapMod.toInt.toNat < args.gapSpan.toInt.toNat) :
    ∃ earlier < 2 ^ 31 - 1, hitsGap args (draw^[2 * earlier + 1] rngState) := by
  have firstValue : (UInt32.ofNat first).toNat = first :=
    UInt32.toNat_ofNat_of_lt' (lt_trans apart below)
  have secondValue : (UInt32.ofNat second).toNat = second := UInt32.toNat_ofNat_of_lt' below
  by_cases last : draw (UInt32.ofNat first) = rngState
  · have other : draw (UInt32.ofNat second) ≠ rngState := by
      intro same
      have equal := draw_injective (last.trans same.symm)
      rw [← UInt32.toNat_inj, firstValue, secondValue] at equal
      omega
    obtain ⟨earlier, early, met⟩ := draw_covers_early (by rw [secondValue]; exact secondParity)
      other
    refine ⟨earlier, early, ?_⟩
    rw [met, hits_gap_iff modPositive spanPositive, secondValue]
    exact secondHit
  · obtain ⟨earlier, early, met⟩ := draw_covers_early (by rw [firstValue]; exact firstParity)
      last
    refine ⟨earlier, early, ?_⟩
    rw [met, hits_gap_iff modPositive spanPositive, firstValue]
    exact firstHit

theorem reaches_gap_of_hit {earlier : Nat} (early : earlier < 2 ^ 31 - 1)
    (hit : hitsGap args (draw^[2 * earlier + 1] args.startSeed.toUInt32)) :
    ReachesGap args := by
  obtain ⟨modLow, -, modValue⟩ := to_nat_of_pos modPositive
  obtain ⟨spanLow, -, spanValue⟩ := to_nat_of_pos spanPositive
  obtain ⟨-, -, seedValue⟩ := to_nat_of_pos args.start_seed_pos
  have parity := draw_parity (2 * earlier + 1) args.startSeed.toUInt32
  have bound := (draw^[2 * earlier + 1] args.startSeed.toUInt32).toNat_lt
  by_cases oddSeed : args.startSeed.toInt % 2 = 1
  · exact .inl oddSeed
  by_cases wide : 2 ≤ args.gapSpan.toInt
  · exact .inr (.inl wide)
  -- An even seed draws odd numbers, and a span of one leaves the multiples of `gap_mod`.
  rw [hits_gap_iff modPositive spanPositive, ← modValue, Int.toNat_natCast,
    show args.gapSpan.toInt.toNat = 1 by omega, Nat.lt_one_iff] at hit
  obtain ⟨factor, product⟩ := Nat.dvd_of_mod_eq_zero hit
  have odd : args.gapMod.toUInt32.toNat * factor % 2 = 1 := by omega
  rw [← Nat.odd_iff, Nat.odd_mul, Nat.odd_iff, Nat.odd_iff] at odd
  refine .inr (.inr ⟨by omega, ?_⟩)
  rintro ⟨large, seed⟩
  have single : factor = 1 := by
    by_contra more
    have three := Nat.mul_le_mul_left args.gapMod.toUInt32.toNat (show 3 ≤ factor by omega)
    omega
  rw [single, Nat.mul_one, UInt32.toNat_inj] at product
  have around := Function.iterate_succ_apply' draw (2 * earlier + 1) args.startSeed.toUInt32
  rw [product, ← seed, draw_period] at around
  have := Nat.le_of_dvd (by omega) around
  omega

theorem hit_of_reaches_gap (reaches : ReachesGap args) :
    ∃ earlier < 2 ^ 31 - 1,
      hitsGap args (draw^[2 * earlier + 1] args.startSeed.toUInt32) := by
  obtain ⟨modLow, modHigh, modValue⟩ := to_nat_of_pos modPositive
  obtain ⟨spanLow, -, spanValue⟩ := to_nat_of_pos spanPositive
  obtain ⟨-, -, seedValue⟩ := to_nat_of_pos args.start_seed_pos
  have modulus : args.gapMod.toInt.toNat = args.gapMod.toUInt32.toNat := by omega
  by_cases oddSeed : args.startSeed.toInt % 2 = 1
  · apply @hit_of_two args modPositive spanPositive _ 0 (2 * args.gapMod.toInt.toNat)
    all_goals first | omega | skip
    · rw [Nat.zero_mod]
      omega
    · rw [Nat.mul_mod_left]
      omega
  by_cases wide : 2 ≤ args.gapSpan.toInt
  · have small := Nat.mod_le 1 args.gapMod.toInt.toNat
    apply @hit_of_two args modPositive spanPositive _ 1 (1 + 2 * args.gapMod.toInt.toNat)
    all_goals first | omega | skip
    rw [Nat.add_mul_mod_self_right]
    omega
  obtain ⟨oddMod, unblocked⟩ : args.gapMod.toInt % 2 = 1 ∧ _ :=
    (reaches.resolve_left oddSeed).resolve_left wide
  by_cases large : 2 ^ 32 ≤ 3 * args.gapMod.toInt
  · have apart : draw args.gapMod.toUInt32 ≠ args.startSeed.toUInt32 := by
      intro same
      exact unblocked ⟨large, same.symm⟩
    obtain ⟨earlier, early, met⟩ := draw_covers_early (by omega) apart
    refine ⟨earlier, early, ?_⟩
    rw [met, hits_gap_iff modPositive spanPositive, modulus, Nat.mod_self]
    omega
  · apply @hit_of_two args modPositive spanPositive _ args.gapMod.toInt.toNat
      (3 * args.gapMod.toInt.toNat)
    all_goals first | omega | skip
    · rw [Nat.mod_self]
      omega
    · rw [Nat.mul_mod_left]
      omega

end Targets

/-! ## Gap injection -/

/-- Some positive `count` gives a run with a slot that makes no message, whatever the
rate, the burst size and the sender, as long as it takes every batch. -/
def InjectsGap (args : RunArgs) : Prop :=
  ∃ count : Int32, 0 < count ∧
    ∀ (Sender : Type) (sendFrames : Sender → List Frame → Int × Sender) (order : ByteOrder)
      (uninitialised : Frame) (fd : Sender → Int) (rate burstSize : Int32) (now : Int)
      (generator : Generator) (sender : Sender), Accepts sendFrames → ¬ fd sender < 0 →
        ((run sendFrames order uninitialised fd
          { args with count := count, rate := rate, burstSize := burstSize } now generator
          sender).batches.flatten.length : Int) < count.toInt

theorem injects_gap_iff_hit (args : RunArgs) (inject : args.injectGap = true) :
    InjectsGap args ↔ ∃ earlier < 2 ^ 31 - 1,
      hitsGap args (draw^[2 * earlier + 1] args.startSeed.toUInt32) := by
  -- The number of messages is that of the slots without a gap, for every sender.
  have counted : ∀ (count rate burstSize : Int32) (generator : Generator), 0 < count →
      (((feed { args with count := count, rate := rate, burstSize := burstSize }
        generator).length : Int) < count.toInt ↔ ∃ earlier < count.toInt.toNat,
          hitsGap args (draw^[2 * earlier + 1] args.startSeed.toUInt32)) := by
    intro count rate burstSize generator positive
    let chosen : RunArgs := { args with count := count, rate := rate, burstSize := burstSize }
    let seeded : Generator :=
      { generator with running := true, rngState := args.startSeed.toUInt32, seq := 0 }
    have total := fill_batch_gap_slots chosen count.toInt.toNat seeded
    have same : feed chosen generator = (fillBatch chosen count.toInt.toNat seeded).1 := rfl
    rw [Int32.lt_iff_toInt_lt] at positive
    have zero : (0 : Int32).toInt = 0 := rfl
    have hit : gapSlots chosen count.toInt.toNat seeded ≠ 0 ↔
        ∃ earlier < count.toInt.toNat,
          hitsGap args (draw^[2 * earlier + 1] args.startSeed.toUInt32) := by
      rw [Ne, @gap_slots_eq_zero_iff chosen inject]
      push Not
      exact Iff.rfl
    rw [← hit, same]
    clear hit
    omega
  constructor
  · rintro ⟨count, positive, always⟩
    have once := always Unit (fun sender frames => (frames.length, sender)) .little
      (Vector.replicate _ 0) (fun _ => 0) 0 0 0 .constructed () (fun _ _ => rfl) (by decide)
    rw [(run_messages _ _ (fun _ _ => rfl) _ _ _ _ _ (by decide)).2,
      counted count 0 0 _ positive] at once
    obtain ⟨earlier, below, hit⟩ := once
    have above := count.toInt_lt
    exact ⟨earlier, by omega, hit⟩
  · rintro ⟨earlier, below, hit⟩
    refine ⟨2147483647, by decide, ?_⟩
    intro Sender sendFrames order uninitialised fd rate burstSize now generator sender accepts
      opened
    rw [(run_messages order uninitialised accepts fd _ now generator sender opened).2,
      counted _ rate burstSize generator (by decide)]
    exact ⟨earlier, by simpa using below, hit⟩

/-- Gap injection is vacuous for some settings, and exactly for those outside
`ReachesGap`. -/
theorem injects_gap_iff (args : RunArgs) (modPositive : 0 < args.gapMod)
    (spanPositive : 0 < args.gapSpan) : InjectsGap args ↔ ReachesGap args := by
  rw [injects_gap_iff_hit args (decide_eq_true ⟨modPositive, spanPositive⟩)]
  constructor
  · rintro ⟨earlier, early, hit⟩
    exact reaches_gap_of_hit modPositive spanPositive early hit
  · exact hit_of_reaches_gap modPositive spanPositive

/-- With the shipped defaults but an odd seed. -/
theorem odd_seed_injects_gap :
    let args : RunArgs := ⟨30000000, 50000, 43, 1000, 1, 1⟩
    0 < args.gapMod ∧ 0 < args.gapSpan ∧ InjectsGap args := by
  refine ⟨by decide, by decide, ?_⟩
  rw [injects_gap_iff _ (by decide) (by decide)]
  exact .inl (by decide)

/-- The shipped defaults: seed 42, `gap_mod` 1000 and `gap_span` 1 give no gap in a run
of any length. -/
theorem default_settings_never_gap :
    let args : RunArgs := ⟨30000000, 50000, 42, 1000, 1, 1⟩
    0 < args.gapMod ∧ 0 < args.gapSpan ∧ ¬ InjectsGap args := by
  refine ⟨by decide, by decide, ?_⟩
  rw [injects_gap_iff_hit _ (by decide)]
  rintro ⟨earlier, early, hit⟩
  have reaches := reaches_gap_of_hit (by decide) (by decide) early hit
  revert reaches
  decide

end MarketDataEngine.GeneratorV2
