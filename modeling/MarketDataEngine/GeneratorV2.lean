import MarketDataEngine.WireCodec

/-!
# The feed generator, version 2

`Generator::run` with its burst loop, the gap injection and the pacing. The
arguments are 32-bit integers and `seq_` and `rng_state_` wrap as in the source.
`produced` and the deadline are signed in the source, where overflow is
undefined; here they are integers. The UDP sender is a parameter: it takes the
encoded frames of a batch and answers how many of them it sent.

The two loops of `run`, without and with a rate, differ in the pacing alone and
are one definition with the interval as an option.
-/

namespace MarketDataEngine.GeneratorV2

open MarketDataEngine.Protocol

set_option autoImplicit false

structure Generator where
  running : Bool
  symbolCount : UInt32
  rngState : UInt32
  seq : UInt64
  deriving DecidableEq

namespace Generator

def constructed : Generator := ⟨false, 1, 1, 0⟩

def nextRand (generator : Generator) : UInt32 × Generator :=
  let rngState := generator.rngState * 1664525 + 1013904223
  (rngState, { generator with rngState := rngState })

def makeMessage (generator : Generator) : MarketDataMsg × Generator :=
  let (r, generator) := generator.nextRand
  let sym := if generator.symbolCount = 0 then 1 else r % generator.symbolCount + 1
  let seq := generator.seq
  let ts := seq.toInt64
  let bid : Int64 := 10 + (r % 991).toUInt64.toInt64
  let ask := bid + 1
  let size := (1 + r % 100).toInt32
  (⟨seq, sym, ts, bid, ask, size, size + 1⟩, { generator with seq := seq + 1 })

-- On an open record the kernel would compare the random states first, in unary.
@[simp] theorem next_rand_seq (generator : Generator) :
    generator.nextRand.2.seq = generator.seq := by
  cases generator
  rfl

@[simp] theorem make_message_seq_num (generator : Generator) :
    generator.makeMessage.1.seqNum = generator.seq := by
  cases generator
  rfl

@[simp] theorem make_message_seq (generator : Generator) :
    generator.makeMessage.2.seq = generator.seq + 1 := by
  cases generator
  rfl

end Generator

structure RunArgs where
  count : Int32
  rate : Int32
  seed : Int32
  gapMod : Int32
  gapSpan : Int32
  burstSize : Int32

namespace RunArgs

variable (args : RunArgs)

def injectGap : Bool := decide (0 < args.gapMod ∧ 0 < args.gapSpan)

/-- The seed after the test for a positive one. -/
def startSeed : Int32 := if args.seed ≤ 0 then 1 else args.seed

def startBurst : Int32 := if args.burstSize ≤ 0 then 1 else args.burstSize

/-- Nanoseconds between two slots, for a positive rate. -/
def interval : Option Int :=
  if args.rate ≤ 0 then none else some (1000000000 / args.rate.toInt)

theorem start_burst_pos : 0 < args.startBurst.toInt := by
  unfold startBurst
  split_ifs with negative
  · decide
  · rw [Int32.le_iff_toInt_le] at negative
    exact Int.not_le.mp negative

end RunArgs

/-! ## Filling a batch -/

/-- `static_cast<uint64_t>(gap_span) + 1`. -/
def gapJump (args : RunArgs) : UInt64 := args.gapSpan.toInt64.toUInt64 + 1

/-- One turn of the inner loop. A gap slot makes no message. -/
def slot (args : RunArgs) (generator : Generator) : Option MarketDataMsg × Generator :=
  if args.injectGap then
    let (r, generator) := generator.nextRand
    if r % args.gapMod.toUInt32 < args.gapSpan.toUInt32 then
      (none, { generator with seq := generator.seq + gapJump args })
    else
      let (msg, generator) := generator.makeMessage
      (some msg, generator)
  else
    let (msg, generator) := generator.makeMessage
    (some msg, generator)

def fillBatch (args : RunArgs) : Nat → Generator → List MarketDataMsg × Generator
  | 0, generator => ([], generator)
  | slots + 1, generator =>
      let (made, generator) := slot args generator
      let (batch, generator) := fillBatch args slots generator
      (made.toList ++ batch, generator)

theorem fill_batch_succ (args : RunArgs) (slots : Nat) (generator : Generator) :
    (fillBatch args (slots + 1) generator).1 =
      (slot args generator).1.toList ++
        (fillBatch args slots (slot args generator).2).1 := rfl

/-! ## Sending -/

/-- What `log_send_failure` is told: the sequence number at index `sent` of the
batch, if there is one, and the slots of the burst. -/
structure SendFailure where
  failedSeq : Option UInt64
  attemptedPackets : Nat

section Sending

variable {Sender : Type} (sendFrames : Sender → List Frame → Int × Sender)
variable (order : ByteOrder) (uninitialised : Frame)

def sendBatch (sender : Sender) (batch : List MarketDataMsg) : Int × Sender :=
  sendFrames sender (batch.map (encode order uninitialised))

def sendOrFail (sender : Sender) (batch : List MarketDataMsg) (slotsRequested : Nat) :
    Option SendFailure × Sender :=
  if batch = [] then (none, sender)
  else
    let (sent, sender) := sendBatch sendFrames order uninitialised sender batch
    if sent = batch.length then (none, sender)
    else
      let failedSeq := if 0 ≤ sent then (batch[sent.toNat]?).map MarketDataMsg.seqNum
        else none
      (some ⟨failedSeq, slotsRequested⟩, sender)

/-- The locals of `run`. `batches` is the history of the batches built. -/
structure LoopState (Sender : Type) where
  generator : Generator
  produced : Int
  next : Int
  sender : Sender
  batches : List (List MarketDataMsg)

def slotsOf (args : RunArgs) (produced : Int) : Int :=
  min args.startBurst.toInt (args.count.toInt - produced)

def burstLoop (args : RunArgs) (state : LoopState Sender) :
    Option SendFailure × LoopState Sender :=
  if _more : state.produced < args.count.toInt then
    let slots := slotsOf args state.produced
    let (batch, generator) := fillBatch args slots.toNat state.generator
    let (failure, sender) :=
      sendOrFail sendFrames order uninitialised state.sender batch slots.toNat
    let state' : LoopState Sender :=
      { generator := generator
        produced := state.produced + slots
        next := state.next
        sender := sender
        batches := state.batches ++ [batch] }
    match failure with
    | some failure => (some failure, state')
    | none =>
        burstLoop args
          { state' with
            next := match args.interval with
              | some interval => state'.next + interval * slots
              | none => state'.next }
  else (none, state)
  termination_by (args.count.toInt - state.produced).toNat
  decreasing_by
    have positive := args.start_burst_pos
    simp only [slotsOf]
    omega

structure RunResult (Sender : Type) where
  ok : Bool
  failure : Option SendFailure
  generator : Generator
  sender : Sender
  next : Int
  batches : List (List MarketDataMsg)

/-- `fd` is the descriptor of the sender and `now` the reading of the clock. -/
def run (fd : Sender → Int) (args : RunArgs) (now : Int) (generator : Generator)
    (sender : Sender) : RunResult Sender :=
  if fd sender < 0 then ⟨false, none, generator, sender, now, []⟩
  else if args.count ≤ 0 then ⟨true, none, generator, sender, now, []⟩
  else
    let generator := { generator with
      running := true, rngState := args.startSeed.toUInt32, seq := 0 }
    let (failure, state) := burstLoop sendFrames order uninitialised args
      ⟨generator, 0, now, sender, []⟩
    { ok := failure.isNone
      failure := failure
      generator := { state.generator with running := false }
      sender := state.sender
      next := state.next
      batches := state.batches }

/-! ## One list of messages, however it is cut -/

theorem fill_batch_add (args : RunArgs) (first second : Nat) (generator : Generator) :
    fillBatch args (first + second) generator =
      ((fillBatch args first generator).1 ++
          (fillBatch args second (fillBatch args first generator).2).1,
        (fillBatch args second (fillBatch args first generator).2).2) := by
  induction first generalizing generator with
  | zero => simp [fillBatch]
  | succ first ih => simp [Nat.succ_add, fillBatch, ih]

/-- The sender takes every batch as a whole. -/
def Accepts : Prop := ∀ sender frames, (sendFrames sender frames).1 = frames.length

variable {sendFrames}

theorem send_or_fail_accepted (accepts : Accepts sendFrames) (sender : Sender)
    (batch : List MarketDataMsg) (slotsRequested : Nat) :
    (sendOrFail sendFrames order uninitialised sender batch slotsRequested).1 = none := by
  have sent := accepts sender (batch.map (encode order uninitialised))
  rw [List.length_map] at sent
  by_cases empty : batch = []
  · rw [sendOrFail, if_pos empty]
  · simp only [sendOrFail, sendBatch, if_neg empty, sent, ↓reduceIte]

theorem burst_loop_accepted (accepts : Accepts sendFrames) (args : RunArgs)
    (state : LoopState Sender) :
    (burstLoop sendFrames order uninitialised args state).1 = none ∧
      (burstLoop sendFrames order uninitialised args state).2.batches.flatten =
        state.batches.flatten ++
          (fillBatch args (args.count.toInt - state.produced).toNat state.generator).1 ∧
      (burstLoop sendFrames order uninitialised args state).2.generator =
        (fillBatch args (args.count.toInt - state.produced).toNat state.generator).2 := by
  fun_induction burstLoop sendFrames order uninitialised args state with
  | case1 state more slots batch generator filled sender later failure sending =>
      have unfailed := send_or_fail_accepted order uninitialised accepts state.sender batch
        slots.toNat
      rw [sending] at unfailed
      cases unfailed
  | case2 state more slots batch generator filled sender later sending ih =>
      have positive := args.start_burst_pos
      have bounds : 0 < slots ∧ slots ≤ args.count.toInt - state.produced := by
        simp only [slots, slotsOf]
        omega
      have cut : (args.count.toInt - state.produced).toNat =
          slots.toNat + (args.count.toInt - (state.produced + slots)).toNat := by
        omega
      simp only [later] at ih ⊢
      refine ⟨ih.1, ?_, ?_⟩
      · rw [ih.2.1, cut, fill_batch_add, filled]
        simp [List.append_assoc]
      · rw [ih.2.2, cut, fill_batch_add, filled]
  | case3 state done =>
      have nothing : (args.count.toInt - state.produced).toNat = 0 := by omega
      rw [nothing]
      simp [fillBatch]

/-- The messages of a run: those of `count` slots in a row from the seeded state. -/
def feed (args : RunArgs) (generator : Generator) : List MarketDataMsg :=
  (fillBatch args args.count.toInt.toNat
    { generator with running := true, rngState := args.startSeed.toUInt32, seq := 0 }).1

theorem run_messages (accepts : Accepts sendFrames) (fd : Sender → Int) (args : RunArgs)
    (now : Int) (generator : Generator) (sender : Sender) (opened : ¬ fd sender < 0) :
    (run sendFrames order uninitialised fd args now generator sender).ok = true ∧
      (run sendFrames order uninitialised fd args now generator sender).batches.flatten =
        feed args generator := by
  by_cases empty : args.count ≤ 0
  · have nothing : args.count.toInt.toNat = 0 := by
      rw [Int32.le_iff_toInt_le] at empty
      exact Int.toNat_of_nonpos empty
    simp only [run, if_neg opened, if_pos empty, feed, nothing, fillBatch]
    exact ⟨trivial, rfl⟩
  · obtain ⟨unfailed, flat, -⟩ := burst_loop_accepted order uninitialised accepts args
      ⟨{ generator with running := true, rngState := args.startSeed.toUInt32, seq := 0 },
        0, now, sender, []⟩
    simp only [run, if_neg opened, if_neg empty, feed]
    refine ⟨?_, ?_⟩
    · rw [unfailed]
      rfl
    · rw [flat]
      simp

/-! ## One turn of the loop -/

variable {order uninitialised}

/-- What the loop has behind a batch. -/
def LoopState.after (args : RunArgs) (state : LoopState Sender) (sender : Sender) :
    LoopState Sender :=
  let slots := slotsOf args state.produced
  let filled := fillBatch args slots.toNat state.generator
  { generator := filled.2
    produced := state.produced + slots
    next := match args.interval with
      | some interval => state.next + interval * slots
      | none => state.next
    sender := sender
    batches := state.batches ++ [filled.1] }

theorem burst_loop_sent {args : RunArgs} {state : LoopState Sender} {sender : Sender}
    (more : state.produced < args.count.toInt)
    (tried : sendOrFail sendFrames order uninitialised state.sender
      (fillBatch args (slotsOf args state.produced).toNat state.generator).1
      (slotsOf args state.produced).toNat = (none, sender)) :
    burstLoop sendFrames order uninitialised args state =
      burstLoop sendFrames order uninitialised args (state.after args sender) := by
  rw [burstLoop, dif_pos more]
  simp only [tried]
  rfl

theorem burst_loop_short {args : RunArgs} {state : LoopState Sender} {sender : Sender}
    {failure : SendFailure} (more : state.produced < args.count.toInt)
    (tried : sendOrFail sendFrames order uninitialised state.sender
      (fillBatch args (slotsOf args state.produced).toNat state.generator).1
      (slotsOf args state.produced).toNat = (some failure, sender)) :
    (burstLoop sendFrames order uninitialised args state).1 = some failure ∧
      (burstLoop sendFrames order uninitialised args state).2.sender = sender := by
  rw [burstLoop, dif_pos more]
  simp only [tried, and_self]

end Sending

/-! ## Sequence numbers -/

theorem gap_jump_to_nat {args : RunArgs} (positive : 0 < args.gapSpan) :
    ((gapJump args).toNat : Int) = args.gapSpan.toInt + 1 := by
  have above := args.gapSpan.toInt_lt
  rw [Int32.lt_iff_toInt_lt] at positive
  have zero : (0 : Int32).toInt = 0 := rfl
  have wide : (0 : Int64) ≤ args.gapSpan.toInt64 := by
    rw [Int64.le_iff_toInt_le, Int32.toInt_toInt64]
    exact Int.le_of_lt positive
  have value : args.gapSpan.toInt64.toUInt64.toNat = args.gapSpan.toInt.toNat := by
    rw [Int64.toNat_toUInt64_of_le wide, ← Int64.toNat_toInt, Int32.toInt_toInt64]
  rw [gapJump, UInt64.toNat_add, value]
  simp only [UInt64.reduceToNat]
  omega

theorem gap_jump_bounds {args : RunArgs} (positive : 0 < args.gapSpan) :
    0 < (gapJump args).toNat ∧ (gapJump args).toNat ≤ 2 ^ 31 := by
  have value := gap_jump_to_nat positive
  have above := args.gapSpan.toInt_lt
  rw [Int32.lt_iff_toInt_lt] at positive
  have zero : (0 : Int32).toInt = 0 := rfl
  omega

/-- A slot either jumps over a gap or uses up one sequence number. -/
theorem slot_cases (args : RunArgs) (generator : Generator) :
    (0 < args.gapSpan ∧ (slot args generator).1 = none ∧
        (slot args generator).2.seq = generator.seq + gapJump args) ∨
      ∃ msg, (slot args generator).1 = some msg ∧ msg.seqNum = generator.seq ∧
        (slot args generator).2.seq = generator.seq + 1 := by
  by_cases inject : args.injectGap = true
  · have positive : 0 < args.gapSpan := (of_decide_eq_true inject).2
    by_cases gap : generator.nextRand.1 % args.gapMod.toUInt32 < args.gapSpan.toUInt32
    · left
      simp [slot, inject, gap, positive]
    · right
      simp [slot, inject, gap]
  · right
    simp [slot, inject]

theorem slot_seq (args : RunArgs) (generator : Generator)
    (room : generator.seq.toNat + 2 ^ 31 < 2 ^ 64) :
    generator.seq.toNat < (slot args generator).2.seq.toNat ∧
      (slot args generator).2.seq.toNat ≤ generator.seq.toNat + 2 ^ 31 ∧
      ∀ msg, (slot args generator).1 = some msg → msg.seqNum = generator.seq := by
  obtain ⟨positive, made, after⟩ | ⟨msg, made, seqNum, after⟩ := slot_cases args generator
  · have jump := gap_jump_bounds positive
    rw [after, made, UInt64.toNat_add]
    refine ⟨by omega, by omega, ?_⟩
    intro msg impossible
    cases impossible
  · rw [after, made, UInt64.toNat_add]
    simp only [UInt64.reduceToNat]
    refine ⟨by omega, by omega, ?_⟩
    rintro _ ⟨⟩
    exact seqNum

/-- No slot jumps further than `2 ^ 31`, so sequence numbers increase as long as
there is room for that much at every slot. -/
theorem fill_batch_seq (args : RunArgs) (slots : Nat) (generator : Generator)
    (room : generator.seq.toNat + slots * 2 ^ 31 < 2 ^ 64) :
    ((fillBatch args slots generator).1.map MarketDataMsg.seqNum).Pairwise (· < ·) ∧
      ∀ msg ∈ (fillBatch args slots generator).1,
        generator.seq.toNat ≤ msg.seqNum.toNat ∧
          msg.seqNum.toNat < generator.seq.toNat + slots * 2 ^ 31 := by
  induction slots generalizing generator with
  | zero => simp [fillBatch]
  | succ slots ih =>
      obtain ⟨grows, bounded, seqNums⟩ := slot_seq args generator (by omega)
      obtain ⟨increasing, inside⟩ := ih (slot args generator).2 (by omega)
      rw [fill_batch_succ]
      constructor
      · rw [List.map_append, List.pairwise_append]
        refine ⟨?_, increasing, ?_⟩
        · cases (slot args generator).1 with
          | none => exact .nil
          | some msg => exact List.pairwise_singleton _ _
        · intro earlier first later rest
          obtain ⟨made, isMade, rfl⟩ := List.mem_map.mp first
          obtain ⟨msg, member, rfl⟩ := List.mem_map.mp rest
          rw [seqNums made (Option.mem_toList.mp isMade), UInt64.lt_iff_toNat_lt]
          exact lt_of_lt_of_le grows (inside msg member).1
      · intro msg member
        rcases List.mem_append.mp member with first | rest
        · rw [seqNums msg (Option.mem_toList.mp first)]
          omega
        · obtain ⟨low, high⟩ := inside msg rest
          omega

theorem fill_batch_length (args : RunArgs) (slots : Nat) (generator : Generator) :
    (fillBatch args slots generator).1.length ≤ slots := by
  induction slots generalizing generator with
  | zero => simp [fillBatch]
  | succ slots ih =>
      have made : (slot args generator).1.toList.length ≤ 1 := by
        cases (slot args generator).1 <;> simp
      have rest := ih (slot args generator).2
      rw [fill_batch_succ, List.length_append]
      omega

/-- A run stays far below the top of the 64-bit range. -/
theorem feed_seq (args : RunArgs) (generator : Generator) :
    ((feed args generator).map MarketDataMsg.seqNum).Pairwise (· < ·) ∧
      (feed args generator).length < 2 ^ 31 ∧
      ∀ msg ∈ feed args generator, msg.seqNum.toNat < 2 ^ 62 := by
  have count : args.count.toInt.toNat < 2 ^ 31 := by
    have above := args.count.toInt_lt
    omega
  obtain ⟨increasing, inside⟩ := fill_batch_seq args args.count.toInt.toNat
    { generator with running := true, rngState := args.startSeed.toUInt32, seq := 0 }
    (by simp only [UInt64.reduceToNat]; omega)
  refine ⟨increasing, lt_of_le_of_lt (fill_batch_length _ _ _) count, ?_⟩
  intro msg member
  have bound := (inside msg member).2
  simp only [UInt64.reduceToNat] at bound
  omega

end MarketDataEngine.GeneratorV2
