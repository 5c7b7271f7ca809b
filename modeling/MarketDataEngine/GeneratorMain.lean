import MarketDataEngine.GeneratorSending

/-!
# The generator's `main`

`main` reads the arguments of `Generator::run` from the environment. The length of the run
is a product of two of them in 32 bits, where overflow is undefined; the model lets it wrap
and asks of every signed intermediate, taken as an integer, whether it is in its type. What
the loop of `run` computes from then on is small: the deadline is the interval times the
slots behind it, however they are cut into bursts.

The addresses, the ports and the buffer size belong to the sender, and the log is left out.
-/

namespace MarketDataEngine.GeneratorV2

open MarketDataEngine.Protocol MarketDataEngine.Net

set_option autoImplicit false

def FitsInt (value : Int) : Prop := -2 ^ 31 ≤ value ∧ value < 2 ^ 31

def FitsNanoseconds (value : Int) : Prop := -2 ^ 63 ≤ value ∧ value < 2 ^ 63

instance (value : Int) : Decidable (FitsInt value) := inferInstanceAs (Decidable (_ ∧ _))

theorem to_int_mul_of_fits {left right : Int32} (fits : FitsInt (left.toInt * right.toInt)) :
    (left * right).toInt = left.toInt * right.toInt := by
  rw [Int32.toInt_mul]
  obtain ⟨low, high⟩ := fits
  exact Int.bmod_eq_of_le (by omega) (by omega)

/-! ## The environment -/

inductive Variable where
  | rate
  | durationS
  | count
  | seed
  | gapMod
  | gapSpan
  | burstSize
  deriving DecidableEq

abbrev Environment := Variable → Option (List Char)

/-- The digits of a decimal number, all of them and at least one. -/
def decimal (digits : List Char) : Option Nat :=
  if digits ≠ [] ∧ digits.all Char.isDigit then
    some (digits.foldl (fun value digit => value * 10 + (digit.toNat - '0'.toNat)) 0)
  else none

def inInt (value : Int) : Option Int32 :=
  if FitsInt value then some (Int32.ofInt value) else none

/-- `std::from_chars` into an `int`, with `ec == std::errc{}` and `ptr == end`. -/
def fromChars : List Char → Option Int32
  | '-' :: digits => (decimal digits).bind fun magnitude => inInt (-magnitude)
  | digits => (decimal digits).bind fun magnitude => inInt magnitude

def envInt (environment : Environment) (name : Variable) (fallback : Int32) : Int32 :=
  match environment name with
  | some (first :: rest) => (fromChars (first :: rest)).getD fallback
  | _ => fallback

/-! ## The arguments of the run -/

def rateOf (environment : Environment) : Int32 := envInt environment .rate 50000

def durationOf (environment : Environment) : Int32 := envInt environment .durationS 600

def runLength (rate durationS : Int32) : Int32 :=
  if 0 < rate then rate * durationS else 100000

def mainArgs (environment : Environment) : RunArgs where
  count := envInt environment .count
    (runLength (rateOf environment) (durationOf environment))
  rate := rateOf environment
  seed := envInt environment .seed 42
  gapMod := envInt environment .gapMod 1000
  gapSpan := envInt environment .gapSpan 1
  burstSize := envInt environment .burstSize 1

/-! ## The turns of the loop -/

section Turns

variable {Sender : Type} (sendFrames : Sender → List Frame → Int × Sender)
variable (order : ByteOrder) (uninitialised : Frame)

/-- One turn of the burst loop: the slots before it, its own, and the deadline it sleeps
until. The unpaced loop has none, and neither has a turn whose burst is not sent. -/
structure Turn where
  produced : Int
  slots : Int
  deadline : Option Int

/-- `next += interval * slots`, in the paced loop. -/
def pacedNext (args : RunArgs) (next slots : Int) : Int :=
  match args.interval with
  | some interval => next + interval * slots
  | none => next

/-- The turns that `burstLoop` makes from a state. -/
def burstTurns (args : RunArgs) (state : LoopState Sender) : List Turn :=
  if _more : state.produced < args.count.toInt then
    let slots := slotsOf args state.produced
    let (batch, generator) := fillBatch args slots.toNat state.generator
    let (failure, sender) :=
      sendOrFail sendFrames order uninitialised state.sender batch slots.toNat
    match failure with
    | some _ => [⟨state.produced, slots, none⟩]
    | none =>
        let next := pacedNext args state.next slots
        ⟨state.produced, slots, args.interval.map fun _ => next⟩ ::
          burstTurns args
            { generator := generator
              produced := state.produced + slots
              next := next
              sender := sender
              batches := state.batches ++ [batch] }
  else []
  termination_by (args.count.toInt - state.produced).toNat
  decreasing_by
    have positive := args.start_burst_pos
    simp only [slotsOf]
    omega

/-- The turns of a run, from the state `run` starts its loop in. -/
def runTurns (args : RunArgs) (now : Int) (generator : Generator) (sender : Sender) :
    List Turn :=
  burstTurns sendFrames order uninitialised args
    ⟨{ generator with running := true, rngState := args.startSeed.toUInt32, seq := 0 }, 0, now,
      sender, []⟩

def coveredSlots (turns : List Turn) : Int := (turns.map Turn.slots).sum

theorem slots_of_bounds {args : RunArgs} {produced : Int} (more : produced < args.count.toInt) :
    0 < slotsOf args produced ∧ produced + slotsOf args produced ≤ args.count.toInt := by
  have positive := args.start_burst_pos
  simp only [slotsOf]
  omega

theorem covered_slots_cons (turn : Turn) (rest : List Turn) :
    coveredSlots (turn :: rest) = turn.slots + coveredSlots rest :=
  List.sum_cons

variable {sendFrames order uninitialised}

/-- A turn ends the loop or leaves the rest of it to a later state; the turns of the loop
are listed one by one. -/
theorem burst_turn {args : RunArgs} {state : LoopState Sender}
    (more : state.produced < args.count.toInt) :
    ((burstLoop sendFrames order uninitialised args state).1.isSome ∧
        burstTurns sendFrames order uninitialised args state =
          [⟨state.produced, slotsOf args state.produced, none⟩]) ∨
      ∃ later : LoopState Sender,
        later.produced = state.produced + slotsOf args state.produced ∧
        later.next = pacedNext args state.next (slotsOf args state.produced) ∧
        burstLoop sendFrames order uninitialised args state =
          burstLoop sendFrames order uninitialised args later ∧
        burstTurns sendFrames order uninitialised args state =
          ⟨state.produced, slotsOf args state.produced, args.interval.map fun _ => later.next⟩ ::
            burstTurns sendFrames order uninitialised args later := by
  rw [burstLoop, dif_pos more, burstTurns, dif_pos more]
  cases sent : (sendOrFail sendFrames order uninitialised state.sender
      (fillBatch args (slotsOf args state.produced).toNat state.generator).1
      (slotsOf args state.produced).toNat).1 with
  | some failure =>
      left
      simp only [sent]
      exact ⟨rfl, trivial⟩
  | none =>
      right
      simp only [sent]
      exact ⟨_, rfl, rfl, rfl, rfl⟩

/-- A loop that is not stopped by a failed send covers all slots that were left. -/
theorem covered_slots_eq (args : RunArgs) (state : LoopState Sender)
    (inside : state.produced ≤ args.count.toInt)
    (unfailed : (burstLoop sendFrames order uninitialised args state).1 = none) :
    coveredSlots (burstTurns sendFrames order uninitialised args state) =
      args.count.toInt - state.produced := by
  induction left_ : (args.count.toInt - state.produced).toNat using Nat.strong_induction_on
    generalizing state with
  | _ left_ ih =>
      by_cases more : state.produced < args.count.toInt
      · have bounds := slots_of_bounds more
        rcases @burst_turn _ sendFrames order uninitialised _ _ more with
          ⟨failed, -⟩ | ⟨later, produced, -, loop, turns⟩
        · rw [unfailed] at failed
          cases failed
        · rw [loop] at unfailed
          have rest := ih _ (by omega) later (by omega) unfailed rfl
          rw [turns, covered_slots_cons, rest, produced]
          show slotsOf args state.produced + _ = _
          omega
      · rw [burstTurns, dif_neg more]
        show (0 : Int) = _
        omega

theorem paced_next_add (args : RunArgs) (now first second : Int) :
    pacedNext args (pacedNext args now first) second = pacedNext args now (first + second) := by
  unfold pacedNext
  cases args.interval with
  | none => rfl
  | some interval =>
      show now + interval * first + interval * second = now + interval * (first + second)
      rw [Int.mul_add, Int.add_assoc]

/-- Where a turn lies in a run: inside the count, with its deadline on the clock. -/
structure Turn.Placed (args : RunArgs) (now : Int) (turn : Turn) : Prop where
  begun : 0 ≤ turn.produced
  some_ : 0 < turn.slots
  ended : turn.produced + turn.slots ≤ args.count.toInt
  deadline : ∀ deadline, turn.deadline = some deadline →
    deadline = pacedNext args now (turn.produced + turn.slots)

theorem burst_turns_placed {args : RunArgs} {now : Int} {state : LoopState Sender}
    (begun : 0 ≤ state.produced) (onTime : state.next = pacedNext args now state.produced) :
    ∀ turn ∈ burstTurns sendFrames order uninitialised args state, turn.Placed args now := by
  induction left_ : (args.count.toInt - state.produced).toNat using Nat.strong_induction_on
    generalizing state with
  | _ left_ ih =>
      by_cases more : state.produced < args.count.toInt
      · have bounds := slots_of_bounds more
        rcases @burst_turn _ sendFrames order uninitialised _ _ more with
          ⟨-, turns⟩ | ⟨later, produced, next, -, turns⟩
        · rw [turns]
          intro turn member
          obtain rfl := List.mem_singleton.mp member
          refine ⟨begun, bounds.1, bounds.2, ?_⟩
          intro deadline impossible
          cases impossible
        · have laterNext : later.next = pacedNext args now later.produced := by
            rw [next, onTime, paced_next_add, produced]
          rw [turns]
          intro turn member
          rcases List.mem_cons.mp member with rfl | rest
          · refine ⟨begun, bounds.1, bounds.2, ?_⟩
            intro deadline slept
            obtain ⟨_, -, rfl⟩ := Option.map_eq_some_iff.mp slept
            rw [laterNext, produced]
          · exact ih _ (by omega) (by omega) laterNext rfl turn rest
      · rw [burstTurns, dif_neg more]
        intro turn impossible
        cases impossible

/-- The signed intermediates of a turn are in their types: `count - produced`, `++produced`,
`interval * slots` and the deadline as an offset from the clock's first reading. -/
structure Turn.Fits (args : RunArgs) (now : Int) (turn : Turn) : Prop where
  remaining : FitsInt (args.count.toInt - turn.produced)
  produced : ∀ slot, 0 ≤ slot → slot ≤ turn.slots → FitsInt (turn.produced + slot)
  paced : ∀ interval deadline, args.interval = some interval →
    turn.deadline = some deadline →
      FitsNanoseconds (interval * turn.slots) ∧ FitsNanoseconds (deadline - now)

theorem interval_bounds {args : RunArgs} {interval : Int} (paced : args.interval = some interval) :
    0 ≤ interval ∧ interval ≤ 1000000000 := by
  unfold RunArgs.interval at paced
  split_ifs at paced with unpaced
  cases paced
  have positive : 0 < args.rate.toInt := by
    rw [Int32.le_iff_toInt_le] at unpaced
    exact Int.not_le.mp unpaced
  exact ⟨Int.ediv_nonneg (by decide) (Int.le_of_lt positive), Int.ediv_le_self _ (by decide)⟩

/-- An interval times at most `2 ^ 31` slots. -/
theorem fits_paced {interval slots : Int} (bounds : 0 ≤ interval ∧ interval ≤ 1000000000)
    (some_ : 0 ≤ slots) (few : slots < 2 ^ 31) : FitsNanoseconds (interval * slots) := by
  have low : 0 ≤ interval * slots := Int.mul_nonneg bounds.1 some_
  have high : interval * slots ≤ 1000000000 * slots :=
    Int.mul_le_mul_of_nonneg_right bounds.2 some_
  constructor
  · omega
  · omega

theorem turn_fits {args : RunArgs} {now : Int} {turn : Turn} (placed : turn.Placed args now) :
    turn.Fits args now := by
  have count := args.count.toInt_lt
  have begun := placed.begun
  have some_ := placed.some_
  have ended := placed.ended
  refine ⟨⟨by omega, by omega⟩, ?_, ?_⟩
  · intro slot low high
    exact ⟨by omega, by omega⟩
  · intro interval deadline paced slept
    have bounds := interval_bounds paced
    refine ⟨fits_paced bounds (by omega) (by omega), ?_⟩
    have offset : deadline - now = interval * (turn.produced + turn.slots) := by
      rw [placed.deadline deadline slept, pacedNext, paced]
      exact add_sub_cancel_left _ _
    rw [offset]
    exact fits_paced bounds (by omega) (by omega)

/-- What `main` asks of its arithmetic: every signed intermediate is in its type, and a
paced run takes `rate * duration_s` slots with a deadline for each of them that does not
depend on the bursts. -/
structure PacedAsIntended (environment : Environment) (fd : Sender → Int) (now : Int)
    (generator : Generator) (sender : Sender)
    (sendFrames : Sender → List Frame → Int × Sender) (order : ByteOrder)
    (uninitialised : Frame) : Prop where
  product : 0 < rateOf environment →
    FitsInt ((rateOf environment).toInt * (durationOf environment).toInt)
  turns : ∀ turn ∈ runTurns sendFrames order uninitialised (mainArgs environment) now generator
    sender, turn.Fits (mainArgs environment) now
  covered : 0 < rateOf environment → 0 < durationOf environment →
    (run sendFrames order uninitialised fd (mainArgs environment) now generator sender).ok =
      true →
    coveredSlots (runTurns sendFrames order uninitialised (mainArgs environment) now generator
      sender) = (rateOf environment).toInt * (durationOf environment).toInt
  deadlines : 0 < rateOf environment → 0 < durationOf environment →
    ∀ turn ∈ runTurns sendFrames order uninitialised (mainArgs environment) now generator
      sender, ∀ deadline, turn.deadline = some deadline →
      deadline = now + (turn.produced + turn.slots) * (1000000000 / (rateOf environment).toInt)

end Turns

theorem main_count {environment : Environment} (unset : environment .count = none) :
    (mainArgs environment).count =
      runLength (rateOf environment) (durationOf environment) := by
  simp only [mainArgs, envInt, unset]

section Main

variable {environment : Environment}

theorem positive_to_int {value : Int32} (positive : 0 < value) : 0 < value.toInt := by
  rw [Int32.lt_iff_toInt_lt] at positive
  exact positive

/-- A product that is an `int` is the length of the run. -/
theorem main_count_product (unset : environment .count = none)
    (positive : 0 < rateOf environment)
    (fits : FitsInt ((rateOf environment).toInt * (durationOf environment).toInt)) :
    (mainArgs environment).count.toInt =
      (rateOf environment).toInt * (durationOf environment).toInt := by
  rw [main_count unset, runLength, if_pos positive]
  exact to_int_mul_of_fits fits

theorem main_interval (positive : 0 < rateOf environment) :
    (mainArgs environment).interval =
      some (1000000000 / (rateOf environment).toInt) :=
  if_neg (Int32.not_le.mpr positive)

variable {Sender : Type} {sendFrames : Sender → List Frame → Int × Sender}
variable {order : ByteOrder} {uninitialised : Frame}

theorem run_turns_placed (args : RunArgs) (now : Int) (generator : Generator) (sender : Sender) :
    ∀ turn ∈ runTurns sendFrames order uninitialised args now generator sender,
      turn.Placed args now := by
  apply burst_turns_placed (Int.le_refl 0)
  unfold pacedNext
  split
  · simp
  · rfl

/-- A run that returns true covers its count. -/
theorem run_turns_covered {fd : Sender → Int} {args : RunArgs} {now : Int}
    {generator : Generator} {sender : Sender} (opened : ¬ fd sender < 0)
    (positive : 0 < args.count.toInt)
    (ok : (run sendFrames order uninitialised fd args now generator sender).ok = true) :
    coveredSlots (runTurns sendFrames order uninitialised args now generator sender) =
      args.count.toInt := by
  have counted : ¬ args.count ≤ 0 := by
    rw [Int32.le_iff_toInt_le]
    exact Int.not_le.mpr positive
  rw [run, if_neg opened, if_neg counted] at ok
  have covered := covered_slots_eq args
    ⟨{ generator with running := true, rngState := args.startSeed.toUInt32, seq := 0 }, 0, now,
      sender, []⟩ (Int.le_of_lt positive) (Option.isNone_iff_eq_none.mp ok)
  rw [runTurns, covered, Int.sub_zero]

end Main

/-- With the run length unset, the arithmetic is sound exactly if the product is an `int`. -/
theorem paced_as_intended_iff {Sender : Type} (sendFrames : Sender → List Frame → Int × Sender)
    (order : ByteOrder) (uninitialised : Frame) (fd : Sender → Int) (environment : Environment)
    (unset : environment .count = none) (now : Int) (generator : Generator) (sender : Sender)
    (opened : ¬ fd sender < 0) :
    PacedAsIntended environment fd now generator sender sendFrames order uninitialised ↔
      rateOf environment ≤ 0 ∨
        FitsInt ((rateOf environment).toInt * (durationOf environment).toInt) := by
  have placed := @run_turns_placed _ sendFrames order uninitialised (mainArgs environment) now
    generator sender
  constructor
  · intro intended
    by_cases positive : 0 < rateOf environment
    · exact .inr (intended.product positive)
    · exact .inl (Int32.not_lt.mp positive)
  · intro small
    have product : 0 < rateOf environment →
        FitsInt ((rateOf environment).toInt * (durationOf environment).toInt) := by
      intro positive
      rcases small with negative | fits
      · exact absurd positive (Int32.not_lt.mpr negative)
      · exact fits
    refine ⟨product, fun turn member => turn_fits (placed turn member), ?_, ?_⟩
    · intro positive lasting ok
      have count := main_count_product unset positive (product positive)
      have some_ : 0 < (mainArgs environment).count.toInt := by
        rw [count]
        exact Int.mul_pos (positive_to_int positive) (positive_to_int lasting)
      rw [run_turns_covered opened some_ ok, count]
    · intro positive _ turn member deadline slept
      rw [(placed turn member).deadline deadline slept, pacedNext, main_interval positive]
      show now + _ * _ = _
      rw [Int.mul_comm]

/-- Nothing is set: fifty thousand slots a second for ten minutes. -/
def tenMinuteSoak : Environment := fun _ => none

def takesAll (_ : Unit) (frames : List Frame) : Int × Unit := (frames.length, ())

theorem ten_minute_soak_paced :
    ¬ rateOf tenMinuteSoak ≤ 0 ∧
      PacedAsIntended tenMinuteSoak (fun _ => 3) 0 .constructed () takesAll .little
        (Vector.replicate kWireSize 0) := by
  refine ⟨by decide, ?_⟩
  rw [paced_as_intended_iff takesAll .little _ (fun _ => 3) tenMinuteSoak rfl 0 .constructed ()
    (by decide)]
  exact .inr (by decide)

/-- Fifty thousand slots a second for fifty thousand seconds. -/
def longSoak : Environment
  | .durationS => some ['5', '0', '0', '0', '0']
  | _ => none

/-- The product is negative as an `int`: the run sends nothing and reports success. -/
theorem long_soak_overflows :
    (run takesAll .little (Vector.replicate kWireSize 0) (fun _ => 3) (mainArgs longSoak) 0
        .constructed ()).ok = true ∧
      (run takesAll .little (Vector.replicate kWireSize 0) (fun _ => 3) (mainArgs longSoak) 0
        .constructed ()).batches = [] ∧
      ¬ PacedAsIntended longSoak (fun _ => 3) 0 .constructed () takesAll .little
        (Vector.replicate kWireSize 0) := by
  have none_ : (mainArgs longSoak).count ≤ 0 := by decide
  rw [run, if_neg (by decide), if_pos none_]
  refine ⟨rfl, rfl, ?_⟩
  intro intended
  have fits := intended.product (by decide)
  revert fits
  decide

end MarketDataEngine.GeneratorV2
