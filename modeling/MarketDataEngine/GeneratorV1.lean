import MarketDataEngine.GeneratorV2

/-!
# The feed generator, version 1, and its agreement with version 2

The first generator sends each message as soon as it is made. Its two loops
differ in the pacing, which is an option here as in version 2; a gap slot of the
paced loop waits as well. The client socket is a parameter that takes one encoded
frame and answers whether it was sent.

`Agrees` relates the members that both versions have. A slot keeps it, so a run
does, whatever the rates and the burst size are.
-/

namespace MarketDataEngine.GeneratorV1

open MarketDataEngine.Protocol

set_option autoImplicit false

structure Client where
  fd : Int
  connected : Bool

structure Generator where
  client : Client
  symbolCount : UInt32
  rngState : UInt32
  seq : UInt64

namespace Generator

def constructed : Generator := ⟨⟨-1, false⟩, 1, 1, 0⟩

/-- `connect` on a socket that could be opened. -/
def connect (generator : Generator) (fd : Int) : Generator :=
  { generator with client := ⟨fd, true⟩ }

def nextRand (generator : Generator) : UInt32 × Generator :=
  let rngState := generator.rngState * 1664525 + 1013904223
  (rngState, { generator with rngState := rngState })

def makeMessage (generator : Generator) : MarketDataMsg × Generator :=
  let (r, generator) := generator.nextRand
  let sym := if generator.symbolCount = 0 then 1 else r % generator.symbolCount + 1
  let seq := generator.seq
  let ts := seq.toInt64
  let bid : Int64 := 10 + (r % 991).toUInt64.toInt64
  let ask := bid + 1
  let size := (1 + r % 100).toInt32
  (⟨seq, sym, ts, bid, ask, size, size + 1⟩, { generator with seq := seq + 1 })

/-- `!client_.connected || client_.fd < 0`. -/
def unusable (generator : Generator) : Bool :=
  !generator.client.connected || decide (generator.client.fd < 0)

theorem unusable_of_client {left right : Generator} (same : left.client = right.client) :
    left.unusable = right.unusable := by
  rw [unusable, unusable, same]

theorem unusable_skip (generator : Generator) (seq : UInt64) :
    { generator with seq := seq }.unusable = generator.unusable := by
  rw [unusable, unusable]

-- On an open record the kernel would compare the random states first, in unary.
theorem client_next_rand (generator : Generator) :
    generator.nextRand.2.client = generator.client := by
  cases generator
  rfl

theorem client_make_message (generator : Generator) :
    generator.makeMessage.2.client = generator.client := by
  cases generator
  rfl

end Generator

structure RunArgs where
  count : Int32
  rate : Int32
  seed : Int32
  gapMod : Int32
  gapSpan : Int32

namespace RunArgs

variable (args : RunArgs)

def injectGap : Bool := decide (0 < args.gapMod ∧ 0 < args.gapSpan)

def startSeed : Int32 := if args.seed ≤ 0 then 1 else args.seed

def interval : Option Int :=
  if args.rate ≤ 0 then none else some (1000000000 / args.rate.toInt)

/-- The same call with a burst size and a rate of version 2. -/
def toV2 (rate burstSize : Int32) : GeneratorV2.RunArgs :=
  ⟨args.count, rate, args.seed, args.gapMod, args.gapSpan, burstSize⟩

end RunArgs

/-- The locals of `run`. `sent` is the history of the messages handed to `send`
that were sent. -/
structure LoopState (Net : Type) where
  generator : Generator
  next : Int
  net : Net
  sent : List MarketDataMsg

section Running

variable {Net : Type} (sendEncodedFrame : Net → Frame → Bool × Net)
variable (order : ByteOrder) (uninitialised : Frame)

def send (generator : Generator) (net : Net) (msg : MarketDataMsg) : Bool × Net :=
  if generator.unusable then (false, net)
  else sendEncodedFrame net (encode order uninitialised msg)

/-- `next += interval` of the paced loop. -/
def pace (args : RunArgs) (next : Int) : Int :=
  match args.interval with
  | some interval => next + interval
  | none => next

def sendNext (args : RunArgs) (state : LoopState Net) : Bool × LoopState Net :=
  let (msg, generator) := state.generator.makeMessage
  let (ok, net) := send sendEncodedFrame order uninitialised generator state.net msg
  if ok then
    (true, ⟨generator, pace args state.next, net, state.sent ++ [msg]⟩)
  else (false, { state with generator := generator, net := net })

def slotTurn (args : RunArgs) (state : LoopState Net) : Bool × LoopState Net :=
  if args.injectGap then
    let (r, generator) := state.generator.nextRand
    if r % args.gapMod.toUInt32 < args.gapSpan.toUInt32 then
      let seq := generator.seq + (args.gapSpan.toInt64.toUInt64 + 1)
      (true, { state with
        generator := { generator with seq := seq }, next := pace args state.next })
    else sendNext sendEncodedFrame order uninitialised args
      { state with generator := generator }
  else sendNext sendEncodedFrame order uninitialised args state

/-- The loop over the slots; a failed send ends it. -/
def slotLoop (args : RunArgs) : Nat → LoopState Net → Bool × LoopState Net
  | 0, state => (true, state)
  | slots + 1, state =>
      let (ok, state) := slotTurn sendEncodedFrame order uninitialised args state
      if ok then slotLoop args slots state else (false, state)

/-- `now` is the reading of the clock. -/
def run (args : RunArgs) (now : Int) (generator : Generator) (net : Net) :
    Bool × LoopState Net :=
  if generator.unusable then (false, ⟨generator, now, net, []⟩)
  else if args.count ≤ 0 then (true, ⟨generator, now, net, []⟩)
  else
    let generator := { generator with rngState := args.startSeed.toUInt32, seq := 0 }
    slotLoop sendEncodedFrame order uninitialised args args.count.toInt.toNat
      ⟨generator, now, net, []⟩

end Running

/-! ## In step with version 2 -/

/-- What both versions keep. -/
structure Agrees (first : Generator) (second : GeneratorV2.Generator) : Prop where
  symbol_count : first.symbolCount = second.symbolCount
  rng_state : first.rngState = second.rngState
  seq : first.seq = second.seq

theorem agrees_next_rand {first : Generator} {second : GeneratorV2.Generator}
    (agrees : Agrees first second) :
    first.nextRand.1 = second.nextRand.1 ∧ Agrees first.nextRand.2 second.nextRand.2 := by
  cases first
  cases second
  obtain ⟨symbols, rng, seq⟩ := agrees
  cases symbols
  cases rng
  cases seq
  exact ⟨rfl, rfl, rfl, rfl⟩

theorem agrees_make_message {first : Generator} {second : GeneratorV2.Generator}
    (agrees : Agrees first second) :
    first.makeMessage.1 = second.makeMessage.1 ∧
      Agrees first.makeMessage.2 second.makeMessage.2 := by
  cases first
  cases second
  obtain ⟨symbols, rng, seq⟩ := agrees
  cases symbols
  cases rng
  cases seq
  exact ⟨rfl, rfl, rfl, rfl⟩

theorem agrees_skip {first : Generator} {second : GeneratorV2.Generator}
    (agrees : Agrees first second) (jump : UInt64) :
    Agrees { first with seq := first.seq + jump } { second with seq := second.seq + jump } := by
  cases first
  cases second
  obtain ⟨symbols, rng, seq⟩ := agrees
  cases symbols
  cases rng
  cases seq
  exact ⟨rfl, rfl, rfl⟩

section Accepted

variable {Net : Type} {sendEncodedFrame : Net → Frame → Bool × Net}

/-- The client sends every frame. -/
def Accepts (sendEncodedFrame : Net → Frame → Bool × Net) : Prop :=
  ∀ net frame, (sendEncodedFrame net frame).1 = true

/-- Version 1 has gone as far as version 2: the same messages and the same state. -/
structure InStep (state : LoopState Net) (sent : List MarketDataMsg)
    (second : GeneratorV2.Generator) : Prop where
  usable : state.generator.unusable = false
  messages : state.sent = sent
  agrees : Agrees state.generator second

theorem send_next_in_step (accepts : Accepts sendEncodedFrame) (order : ByteOrder)
    (uninitialised : Frame) (args : RunArgs) {state : LoopState Net}
    {sent : List MarketDataMsg} {second : GeneratorV2.Generator}
    (inStep : InStep state sent second) :
    (sendNext sendEncodedFrame order uninitialised args state).1 = true ∧
      InStep (sendNext sendEncodedFrame order uninitialised args state).2
        (sent ++ [second.makeMessage.1]) second.makeMessage.2 := by
  obtain ⟨usable, messages, agrees⟩ := inStep
  obtain ⟨sameMessage, after⟩ := agrees_make_message agrees
  have ready : state.generator.makeMessage.2.unusable = false := by
    rw [Generator.unusable_of_client (Generator.client_make_message _)]
    exact usable
  have taken : (send sendEncodedFrame order uninitialised state.generator.makeMessage.2
      state.net state.generator.makeMessage.1).1 = true := by
    rw [send, ready, if_neg Bool.false_ne_true]
    exact accepts _ _
  simp only [sendNext, taken, ↓reduceIte]
  refine ⟨trivial, ready, ?_, after⟩
  rw [messages, sameMessage]

theorem slot_turn_in_step (accepts : Accepts sendEncodedFrame) (order : ByteOrder)
    (uninitialised : Frame) (args : RunArgs) (rate burstSize : Int32)
    {state : LoopState Net} {sent : List MarketDataMsg} {second : GeneratorV2.Generator}
    (inStep : InStep state sent second) :
    (slotTurn sendEncodedFrame order uninitialised args state).1 = true ∧
      InStep (slotTurn sendEncodedFrame order uninitialised args state).2
        (sent ++ (GeneratorV2.slot (args.toV2 rate burstSize) second).1.toList)
        (GeneratorV2.slot (args.toV2 rate burstSize) second).2 := by
  have sameTest : (args.toV2 rate burstSize).injectGap = args.injectGap := rfl
  by_cases inject : args.injectGap = true
  · obtain ⟨sameDraw, after⟩ := agrees_next_rand inStep.agrees
    have drawn : InStep { state with generator := state.generator.nextRand.2 } sent
        second.nextRand.2 := by
      refine ⟨?_, inStep.messages, after⟩
      rw [Generator.unusable_of_client (Generator.client_next_rand _)]
      exact inStep.usable
    by_cases gap : second.nextRand.1 % args.gapMod.toUInt32 < args.gapSpan.toUInt32
    · have slot : GeneratorV2.slot (args.toV2 rate burstSize) second = (none,
          { second.nextRand.2 with
            seq := second.nextRand.2.seq + GeneratorV2.gapJump (args.toV2 rate burstSize) }) := by
        rw [GeneratorV2.slot, sameTest, if_pos inject]
        exact if_pos gap
      have jump : args.gapSpan.toInt64.toUInt64 + 1 =
          GeneratorV2.gapJump (args.toV2 rate burstSize) := rfl
      rw [slot]
      simp only [slotTurn, inject, sameDraw, gap, jump, ↓reduceIte]
      have skipped := agrees_skip after (GeneratorV2.gapJump (args.toV2 rate burstSize))
      refine ⟨trivial, ?_, ?_, skipped⟩
      · rw [Generator.unusable_skip]
        exact drawn.usable
      · rw [Option.toList_none, List.append_nil]
        exact inStep.messages
    · have slot : GeneratorV2.slot (args.toV2 rate burstSize) second =
          (some second.nextRand.2.makeMessage.1, second.nextRand.2.makeMessage.2) := by
        rw [GeneratorV2.slot, sameTest, if_pos inject]
        exact if_neg gap
      rw [slot]
      simp only [slotTurn, inject, sameDraw, gap, ↓reduceIte]
      exact send_next_in_step accepts order uninitialised args drawn
  · have slot : GeneratorV2.slot (args.toV2 rate burstSize) second =
        (some second.makeMessage.1, second.makeMessage.2) := by
      rw [GeneratorV2.slot, sameTest, if_neg inject]
    rw [slot, slotTurn, if_neg inject]
    exact send_next_in_step accepts order uninitialised args inStep

theorem slot_loop_in_step (accepts : Accepts sendEncodedFrame) (order : ByteOrder)
    (uninitialised : Frame) (args : RunArgs) (rate burstSize : Int32) (slots : Nat)
    {state : LoopState Net} {sent : List MarketDataMsg} {second : GeneratorV2.Generator}
    (inStep : InStep state sent second) :
    (slotLoop sendEncodedFrame order uninitialised args slots state).1 = true ∧
      InStep (slotLoop sendEncodedFrame order uninitialised args slots state).2
        (sent ++ (GeneratorV2.fillBatch (args.toV2 rate burstSize) slots second).1)
        (GeneratorV2.fillBatch (args.toV2 rate burstSize) slots second).2 := by
  induction slots generalizing state sent second with
  | zero =>
      refine ⟨rfl, inStep.usable, ?_, inStep.agrees⟩
      rw [GeneratorV2.fillBatch, List.append_nil]
      exact inStep.messages
  | succ slots ih =>
      obtain ⟨ok, after⟩ :=
        slot_turn_in_step accepts order uninitialised args rate burstSize inStep
      have rest := ih after
      rw [List.append_assoc] at rest
      simp only [slotLoop, ok, ↓reduceIte]
      exact rest

end Accepted

/-- The feed of a run depends on count, seed and gap settings alone. -/
theorem feeds_agree {Net Sender : Type} {sendEncodedFrame : Net → Frame → Bool × Net}
    {sendFrames : Sender → List Frame → Int × Sender}
    (takesFrames : Accepts sendEncodedFrame) (takesBatches : GeneratorV2.Accepts sendFrames)
    (firstOrder secondOrder : ByteOrder) (firstUninitialised secondUninitialised : Frame)
    (args : RunArgs) (rate burstSize : Int32) (firstNow secondNow : Int)
    (net : Net) (sender : Sender) (clientFd : Int) (clientOpen : 0 ≤ clientFd)
    (fd : Sender → Int) (opened : 0 ≤ fd sender) :
    let first := run sendEncodedFrame firstOrder firstUninitialised args firstNow
      (Generator.constructed.connect clientFd) net
    let second := GeneratorV2.run sendFrames secondOrder secondUninitialised fd
      (args.toV2 rate burstSize) secondNow .constructed sender
    first.1 = true ∧ second.ok = true ∧
      first.2.sent = second.batches.flatten ∧
      first.2.generator.rngState = second.generator.rngState ∧
      first.2.generator.seq = second.generator.seq := by
  intro first second
  have firstUsable : (Generator.constructed.connect clientFd).unusable = false := by
    have notNegative : ¬ clientFd < 0 := by omega
    simp [Generator.unusable, Generator.connect, notNegative]
  have secondUsable : ¬ fd sender < 0 := by omega
  by_cases empty : args.count ≤ 0
  · have firstRun : first =
        (true, ⟨Generator.constructed.connect clientFd, firstNow, net, []⟩) := by
      simp only [first, run, firstUsable, Bool.false_eq_true, ↓reduceIte, if_pos empty]
    have secondRun : second = ⟨true, none, .constructed, sender, secondNow, []⟩ := by
      have sameCount : (args.toV2 rate burstSize).count ≤ 0 := empty
      simp only [second, GeneratorV2.run, if_neg secondUsable, if_pos sameCount]
    rw [firstRun, secondRun]
    exact ⟨rfl, rfl, rfl, rfl, rfl⟩
  · have sameCount : ¬ (args.toV2 rate burstSize).count ≤ 0 := empty
    have started : InStep
        (⟨{ Generator.constructed.connect clientFd with
            rngState := args.startSeed.toUInt32, seq := 0 }, firstNow, net, []⟩ : LoopState Net)
        [] { GeneratorV2.Generator.constructed with
          running := true, rngState := (args.toV2 rate burstSize).startSeed.toUInt32, seq := 0 } :=
      ⟨firstUsable, rfl, rfl, rfl, rfl⟩
    obtain ⟨firstOk, finished⟩ := slot_loop_in_step takesFrames firstOrder firstUninitialised
      args rate burstSize args.count.toInt.toNat started
    obtain ⟨unfailed, flat, generator⟩ := GeneratorV2.burst_loop_accepted secondOrder
      secondUninitialised takesBatches (args.toV2 rate burstSize)
      ⟨{ GeneratorV2.Generator.constructed with
          running := true, rngState := (args.toV2 rate burstSize).startSeed.toUInt32, seq := 0 },
        0, secondNow, sender, []⟩
    have slots : ((args.toV2 rate burstSize).count.toInt - 0).toNat =
        args.count.toInt.toNat := by
      rw [Int.sub_zero]
      rfl
    rw [slots] at flat generator
    simp only [first, second, run, GeneratorV2.run, firstUsable, Bool.false_eq_true, ↓reduceIte,
      if_neg empty, if_neg secondUsable, if_neg sameCount]
    refine ⟨firstOk, ?_, ?_, ?_, ?_⟩
    · rw [unfailed]
      rfl
    · rw [flat]
      exact finished.messages
    · rw [generator]
      exact finished.agrees.rng_state
    · rw [generator]
      exact finished.agrees.seq

/-- Six slots from seed 1: paced one by one, and unpaced in bursts of four. -/
theorem six_slots_agree :
    let first := run (fun (_ : Unit) _ => (true, ())) .little (Vector.replicate kWireSize 0)
      ⟨6, 50, 1, 3, 1⟩ 0 (Generator.constructed.connect 3) ()
    let second := GeneratorV2.run (fun (_ : Unit) frames => (frames.length, ())) .big
      (Vector.replicate kWireSize 1) (fun _ => 4) ⟨6, 0, 1, 3, 1, 4⟩ 7 .constructed ()
    first.2.sent.map (fun msg => msg.seqNum.toNat) = [4, 5, 8] ∧
      first.2.sent = second.batches.flatten := by
  intro first second
  have takesFrames : Accepts fun (_ : Unit) (_ : Frame) => (true, ()) := fun _ _ => rfl
  have takesBatches : GeneratorV2.Accepts fun (_ : Unit) (frames : List Frame) =>
    ((frames.length : Int), ()) := fun _ _ => rfl
  have agree := feeds_agree takesFrames takesBatches .little .big
    (Vector.replicate kWireSize 0) (Vector.replicate kWireSize 1) ⟨6, 50, 1, 3, 1⟩ 0 4 0 7 () ()
    3 (by decide) (fun _ => 4) (by decide)
  exact ⟨by decide +kernel, agree.2.2.1⟩

end MarketDataEngine.GeneratorV1
