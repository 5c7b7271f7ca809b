import Mathlib.Data.List.ReduceOption
import MarketDataEngine.GeneratorV1
import MarketDataEngine.SequenceTracker

/-!
# How many sequence numbers a gap slot skips

A gap slot adds `gap_span + 1` to `seq_`, and `make_message` has already moved
`seq_` past the message before it. So a gap slot skips one number more than the
comment above the addition says. A run that ends early has made a prefix of the
same slots, so the statements are about every run, whatever the network does.
-/

namespace MarketDataEngine.GeneratorV2

open MarketDataEngine.Protocol MarketDataEngine.Engine

set_option autoImplicit false

/-- What the slots make, one by one. -/
def slotMessages (args : RunArgs) : Nat → Generator → List (Option MarketDataMsg)
  | 0, _ => []
  | slots + 1, generator =>
      (slot args generator).1 :: slotMessages args slots (slot args generator).2

theorem slot_messages_reduce (args : RunArgs) (slots : Nat) (generator : Generator) :
    (slotMessages args slots generator).reduceOption =
      (fillBatch args slots generator).1 := by
  induction slots generalizing generator with
  | zero => rfl
  | succ slots ih =>
      rw [slotMessages, fill_batch_succ, ← ih]
      cases (slot args generator).1 with
      | none => rw [List.reduceOption_cons_of_none, Option.toList_none, List.nil_append]
      | some msg =>
          rw [List.reduceOption_cons_of_some, Option.toList_some, List.singleton_append]

/-- `first` and `second` are made one after the other, with `gaps` gap slots in between. -/
def Separated (made : List (Option MarketDataMsg)) (first : MarketDataMsg) (gaps : Nat)
    (second : MarketDataMsg) : Prop :=
  ∃ before after, made =
    before ++ some first :: (List.replicate gaps none ++ some second :: after)

/-! ## The numbers skipped -/

theorem seq_after_gaps {args : RunArgs} {slots : Nat} {generator : Generator} {gaps : Nat}
    {second : MarketDataMsg} {after : List (Option MarketDataMsg)}
    (made : slotMessages args slots generator =
      List.replicate gaps none ++ some second :: after)
    (room : generator.seq.toNat + slots * 2 ^ 31 < 2 ^ 64) :
    (second.seqNum.toNat : Int) =
      generator.seq.toNat + gaps * (args.gapSpan.toInt + 1) := by
  induction gaps generalizing slots generator with
  | zero =>
      cases slots with
      | zero => cases made
      | succ slots =>
          rw [slotMessages, List.replicate_zero, List.nil_append, List.cons.injEq] at made
          rw [(slot_seq args generator (by omega)).2.2 second made.1]
          simp
  | succ gaps ih =>
      cases slots with
      | zero => cases made
      | succ slots =>
          rw [slotMessages, List.replicate_succ, List.cons_append, List.cons.injEq] at made
          obtain ⟨skipped, rest⟩ := made
          obtain ⟨spanPositive, -, seq⟩ | ⟨msg, isMade, -⟩ := slot_cases args generator
          · have jump := gap_jump_to_nat spanPositive
            have bounds := gap_jump_bounds spanPositive
            have moved : (slot args generator).2.seq.toNat =
                generator.seq.toNat + (gapJump args).toNat := by
              rw [seq, UInt64.toNat_add, Nat.mod_eq_of_lt]
              omega
            rw [ih rest (by omega), moved]
            push_cast
            rw [jump]
            ring
          · rw [skipped] at isMade
            cases isMade

theorem separated_cons {args : RunArgs} {slots : Nat} {generator : Generator}
    {first second : MarketDataMsg} {gaps : Nat}
    (separated : Separated (slotMessages args (slots + 1) generator) first gaps second) :
    (∃ after, (slot args generator).1 = some first ∧
        slotMessages args slots (slot args generator).2 =
          List.replicate gaps none ++ some second :: after) ∨
      Separated (slotMessages args slots (slot args generator).2) first gaps second := by
  obtain ⟨before, after, made⟩ := separated
  rw [slotMessages] at made
  cases before with
  | nil =>
      left
      rw [List.nil_append, List.cons.injEq] at made
      exact ⟨after, made⟩
  | cons earlier before =>
      right
      rw [List.cons_append, List.cons.injEq] at made
      exact ⟨before, after, made.2⟩

theorem seq_of_separated {args : RunArgs} {slots : Nat} {generator : Generator}
    {first second : MarketDataMsg} {gaps : Nat}
    (separated : Separated (slotMessages args slots generator) first gaps second)
    (room : generator.seq.toNat + slots * 2 ^ 31 < 2 ^ 64) :
    (second.seqNum.toNat : Int) =
      first.seqNum.toNat + 1 + gaps * (args.gapSpan.toInt + 1) := by
  induction slots generalizing generator with
  | zero =>
      obtain ⟨before, after, made⟩ := separated
      simp [slotMessages] at made
  | succ slots ih =>
      have grown := slot_seq args generator (by omega)
      rcases separated_cons separated with ⟨after, isFirst, made⟩ | later
      · have firstSeq := grown.2.2 first isFirst
        obtain ⟨-, none_, -⟩ | ⟨msg, -, -, seq⟩ := slot_cases args generator
        · rw [isFirst] at none_
          cases none_
        · have moved : (slot args generator).2.seq.toNat = generator.seq.toNat + 1 := by
            rw [seq, UInt64.toNat_add, UInt64.toNat_one, Nat.mod_eq_of_lt]
            omega
          rw [seq_after_gaps made (by omega), firstSeq, moved]
          push_cast
          ring
      · exact ih later (by omega)

/-! ## The gap an engine reports -/

/-- A gap slot skips `gap_span` numbers: the second of two consecutive messages stands as far
behind the first, and an engine that has taken the first reports that gap. -/
def SkipsSpan (gapSpan : Int32) (first : MarketDataMsg) (gaps : Nat)
    (second : MarketDataMsg) : Prop :=
  (second.seqNum.toNat : Int) - first.seqNum.toNat - 1 = gaps * gapSpan.toInt ∧
    ∀ tracker : SequenceTracker, (tracker.verdict first.seqNum).accepted = true →
      (((tracker.observe first.seqNum).verdict second.seqNum).missing.toNat : Int) =
        gaps * gapSpan.toInt

theorem missing_of_ahead {tracker : SequenceTracker} {first second : UInt64}
    (taken : (tracker.verdict first).accepted = true) (ahead : first < second) :
    ((tracker.observe first).verdict second).missing.toNat =
      second.toNat - first.toNat - 1 := by
  have bound := second.toNat_lt
  rw [UInt64.lt_iff_toNat_lt] at ahead
  have next : (first + 1).toNat = first.toNat + 1 := by
    rw [UInt64.toNat_add, UInt64.toNat_one, Nat.mod_eq_of_lt]
    omega
  rw [SequenceTracker.observe_accepted taken]
  by_cases adjacent : second = first + 1
  · have inOrder : SequenceTracker.verdict ⟨first + 1, true⟩ second = .inOrder := by
      simp [SequenceTracker.verdict, adjacent]
    rw [inOrder, adjacent, next]
    simp [Verdict.missing]
  · have apart : second.toNat ≠ first.toNat + 1 := by
      intro same
      apply adjacent
      rw [← UInt64.toNat_inj, next, same]
    have above : first + 1 < second := by
      rw [UInt64.lt_iff_toNat_lt, next]
      omega
    have gap : SequenceTracker.verdict ⟨first + 1, true⟩ second =
        .gap (second - (first + 1)) := by
      simp [SequenceTracker.verdict, adjacent, above]
    rw [gap, Verdict.missing, UInt64.toNat_sub_of_le _ _ (UInt64.le_of_lt above), next]
    omega

theorem skips_span_iff {gapSpan : Int32} {first second : MarketDataMsg} {gaps : Nat}
    (apart : (second.seqNum.toNat : Int) =
      first.seqNum.toNat + 1 + gaps * (gapSpan.toInt + 1)) :
    SkipsSpan gapSpan first gaps second ↔ gaps = 0 := by
  have skipped : (second.seqNum.toNat : Int) - first.seqNum.toNat - 1 =
      gaps * gapSpan.toInt + gaps := by
    rw [apart]
    ring
  constructor
  · intro skips
    have claimed := skips.1
    omega
  · intro none_
    subst none_
    refine ⟨by simpa using skipped, ?_⟩
    intro tracker taken
    have ahead : first.seqNum < second.seqNum := by
      rw [UInt64.lt_iff_toNat_lt]
      omega
    rw [missing_of_ahead taken ahead]
    simp only [Nat.cast_zero, Int.zero_mul, Int.zero_add] at skipped ⊢
    omega

/-! ## The slots of a run -/

/-- The state from which a run draws its slots. -/
def seeded (args : RunArgs) (symbolCount : UInt32) : Generator :=
  ⟨true, symbolCount, args.startSeed.toUInt32, 0⟩

/-- `made` are the slots of a run that has generated these messages. -/
def MadeBy (args : RunArgs) (symbolCount : UInt32) (generated : List MarketDataMsg)
    (made : List (Option MarketDataMsg)) : Prop :=
  ∃ slots ≤ args.count.toInt.toNat,
    made = slotMessages args slots (seeded args symbolCount) ∧ made.reduceOption = generated

theorem made_by_fill_batch {args : RunArgs} {symbolCount : UInt32} {slots : Nat}
    {generated : List MarketDataMsg} (below : slots ≤ args.count.toInt.toNat)
    (filled : (fillBatch args slots (seeded args symbolCount)).1 = generated) :
    MadeBy args symbolCount generated (slotMessages args slots (seeded args symbolCount)) := by
  refine ⟨slots, below, rfl, ?_⟩
  rw [slot_messages_reduce, filled]

theorem skips_span_of_made {args : RunArgs} {symbolCount : UInt32}
    {generated : List MarketDataMsg} {made : List (Option MarketDataMsg)}
    (madeBy : MadeBy args symbolCount generated made) {first second : MarketDataMsg} {gaps : Nat}
    (separated : Separated made first gaps second) :
    SkipsSpan args.gapSpan first gaps second ↔ gaps = 0 := by
  obtain ⟨slots, below, rfl, -⟩ := madeBy
  have above := args.count.toInt_lt
  have room : (seeded args symbolCount).seq.toNat + slots * 2 ^ 31 < 2 ^ 64 := by
    simp only [seeded, UInt64.toNat_zero]
    omega
  exact skips_span_iff (seq_of_separated separated room)

section Running

variable {Sender : Type} (sendFrames : Sender → List Frame → Int × Sender)
variable (order : ByteOrder) (uninitialised : Frame)

/-- The loop fills its batches from consecutive slots, however a send ends. -/
theorem burst_loop_slots (args : RunArgs) (state : LoopState Sender) :
    ∃ slots ≤ (args.count.toInt - state.produced).toNat,
      (burstLoop sendFrames order uninitialised args state).2.batches.flatten =
        state.batches.flatten ++ (fillBatch args slots state.generator).1 := by
  fun_induction burstLoop sendFrames order uninitialised args state with
  | case1 state more slots batch generator filled sender later failure sending =>
      refine ⟨slots.toNat, ?_, ?_⟩
      · simp only [slots, slotsOf]
        omega
      · rw [filled]
        simp [later]
  | case2 state more slots batch generator filled sender later sending ih =>
      have positive := args.start_burst_pos
      have bounds : 0 < slots ∧ slots ≤ args.count.toInt - state.produced := by
        simp only [slots, slotsOf]
        omega
      obtain ⟨rest, below, flat⟩ := ih
      simp only [later] at below flat ⊢
      refine ⟨slots.toNat + rest, by omega, ?_⟩
      rw [flat, fill_batch_add, filled]
      simp [List.append_assoc]
  | case3 state done => exact ⟨0, Nat.zero_le _, by simp [fillBatch]⟩

theorem run_made (fd : Sender → Int) (args : RunArgs) (now : Int) (generator : Generator)
    (sender : Sender) :
    ∃ made, MadeBy args generator.symbolCount
      (run sendFrames order uninitialised fd args now generator sender).batches.flatten
      made := by
  by_cases closed : fd sender < 0
  · rw [run, if_pos closed]
    exact ⟨_, made_by_fill_batch (Nat.zero_le _) rfl⟩
  by_cases empty : args.count ≤ 0
  · rw [run, if_neg closed, if_pos empty]
    exact ⟨_, made_by_fill_batch (Nat.zero_le _) rfl⟩
  obtain ⟨slots, below, flat⟩ := burst_loop_slots sendFrames order uninitialised args
    ⟨seeded args generator.symbolCount, 0, now, sender, []⟩
  rw [Int.sub_zero] at below
  rw [run, if_neg closed, if_neg empty]
  exact ⟨_, made_by_fill_batch below flat.symm⟩

end Running

end MarketDataEngine.GeneratorV2

namespace MarketDataEngine.GeneratorV1

open MarketDataEngine.Protocol MarketDataEngine.Engine

section Running

variable {Net : Type} (sendEncodedFrame : Net → Frame → Bool × Net)
variable (order : ByteOrder) (uninitialised : Frame)

/-- What a turn does that makes `made` and goes on from `second`: if it fails, the message
is unsent. -/
def Made (sent : List MarketDataMsg) (turn : Bool × LoopState Net)
    (made : Option MarketDataMsg) (second : GeneratorV2.Generator) : Prop :=
  turn.1 = true ∧ turn.2.sent = sent ++ made.toList ∧ Agrees turn.2.generator second ∨
    turn.1 = false ∧ turn.2.sent = sent ∧ made.isSome

theorem send_next_made (args : RunArgs) {state : LoopState Net}
    {second : GeneratorV2.Generator} (agrees : Agrees state.generator second) :
    Made state.sent (sendNext sendEncodedFrame order uninitialised args state)
      (some second.makeMessage.1) second.makeMessage.2 := by
  obtain ⟨sameMessage, after⟩ := agrees_make_message agrees
  cases sent : (send sendEncodedFrame order uninitialised state.generator.makeMessage.2
      state.net state.generator.makeMessage.1).1 with
  | true =>
      left
      simp only [sendNext, sent, ↓reduceIte, Option.toList_some, ← sameMessage]
      exact ⟨trivial, trivial, after⟩
  | false =>
      right
      simp [sendNext, sent]

theorem slot_turn_made (args : RunArgs) (rate burstSize : Int32) {state : LoopState Net}
    {second : GeneratorV2.Generator} (agrees : Agrees state.generator second) :
    Made state.sent (slotTurn sendEncodedFrame order uninitialised args state)
      (GeneratorV2.slot (args.toV2 rate burstSize) second).1
      (GeneratorV2.slot (args.toV2 rate burstSize) second).2 := by
  have sameTest : (args.toV2 rate burstSize).injectGap = args.injectGap := rfl
  by_cases inject : args.injectGap = true
  · obtain ⟨sameDraw, after⟩ := agrees_next_rand agrees
    by_cases gap : second.nextRand.1 % args.gapMod.toUInt32 < args.gapSpan.toUInt32
    · have slot : GeneratorV2.slot (args.toV2 rate burstSize) second = (none,
          { second.nextRand.2 with
            seq := second.nextRand.2.seq + GeneratorV2.gapJump (args.toV2 rate burstSize) }) := by
        rw [GeneratorV2.slot, sameTest, if_pos inject]
        exact if_pos gap
      left
      rw [slot]
      simp only [slotTurn, inject, sameDraw, gap, ↓reduceIte, Option.toList_none,
        List.append_nil]
      exact ⟨trivial, trivial, agrees_skip after _⟩
    · have slot : GeneratorV2.slot (args.toV2 rate burstSize) second =
          (some second.nextRand.2.makeMessage.1, second.nextRand.2.makeMessage.2) := by
        rw [GeneratorV2.slot, sameTest, if_pos inject]
        exact if_neg gap
      have sending := @send_next_made Net sendEncodedFrame order uninitialised args
        { state with generator := state.generator.nextRand.2 } _ after
      rw [slot]
      simp only [slotTurn, inject, sameDraw, gap, ↓reduceIte]
      exact sending
  · have slot : GeneratorV2.slot (args.toV2 rate burstSize) second =
        (some second.makeMessage.1, second.makeMessage.2) := by
      rw [GeneratorV2.slot, sameTest, if_neg inject]
    rw [slot, slotTurn, if_neg inject]
    exact send_next_made sendEncodedFrame order uninitialised args agrees

theorem slot_loop_made (args : RunArgs) (rate burstSize : Int32) (slots : Nat)
    {state : LoopState Net} {second : GeneratorV2.Generator}
    (agrees : Agrees state.generator second) :
    ∃ taken ≤ slots, ∃ unsent : Option MarketDataMsg,
      state.sent ++ (GeneratorV2.fillBatch (args.toV2 rate burstSize) taken second).1 =
          (slotLoop sendEncodedFrame order uninitialised args slots state).2.sent ++
            unsent.toList ∧
        ((slotLoop sendEncodedFrame order uninitialised args slots state).1 = true →
          unsent = none) := by
  induction slots generalizing state second with
  | zero =>
      refine ⟨0, Nat.le_refl _, none, ?_, fun _ => rfl⟩
      rw [GeneratorV2.fillBatch, slotLoop, Option.toList_none]
  | succ slots ih =>
      rcases slot_turn_made sendEncodedFrame order uninitialised args rate burstSize agrees with
        ⟨ok, sent, after⟩ | ⟨failed, sent, isSome⟩
      · obtain ⟨taken, below, unsent, rest, whole⟩ := ih after
        simp only [slotLoop, ok, ↓reduceIte]
        refine ⟨taken + 1, by omega, unsent, ?_, whole⟩
        rw [GeneratorV2.fill_batch_succ, ← List.append_assoc, ← sent]
        exact rest
      · simp only [slotLoop, failed, Bool.false_eq_true, ↓reduceIte]
        refine ⟨1, by omega, (GeneratorV2.slot (args.toV2 rate burstSize) second).1, ?_,
          False.elim⟩
        rw [sent, GeneratorV2.fill_batch_succ, GeneratorV2.fillBatch, List.append_nil]

theorem run_made (args : RunArgs) (rate burstSize : Int32) (now : Int) (generator : Generator)
    (net : Net) :
    let finished := run sendEncodedFrame order uninitialised args now generator net
    ∃ (unsent : Option MarketDataMsg) (made : List (Option MarketDataMsg)),
      (finished.1 = true → unsent = none) ∧
        GeneratorV2.MadeBy (args.toV2 rate burstSize) generator.symbolCount
          (finished.2.sent ++ unsent.toList) made := by
  intro finished
  have nothing : GeneratorV2.MadeBy (args.toV2 rate burstSize) generator.symbolCount [] _ :=
    GeneratorV2.made_by_fill_batch (Nat.zero_le _) rfl
  by_cases unusable : generator.unusable = true
  · have ended : finished = (false, ⟨generator, now, net, []⟩) := if_pos unusable
    rw [ended]
    exact ⟨none, _, fun _ => rfl, nothing⟩
  by_cases empty : args.count ≤ 0
  · have ended : finished = (true, ⟨generator, now, net, []⟩) :=
      (if_neg unusable).trans (if_pos empty)
    rw [ended]
    exact ⟨none, _, fun _ => rfl, nothing⟩
  let start : Generator := { generator with rngState := args.startSeed.toUInt32, seq := 0 }
  have looped : finished = slotLoop sendEncodedFrame order uninitialised args
      args.count.toInt.toNat ⟨start, now, net, []⟩ := (if_neg unusable).trans (if_neg empty)
  have started : Agrees (⟨start, now, net, []⟩ : LoopState Net).generator
      (GeneratorV2.seeded (args.toV2 rate burstSize) generator.symbolCount) := ⟨rfl, rfl, rfl⟩
  obtain ⟨taken, below, unsent, rest, whole⟩ := slot_loop_made sendEncodedFrame order
    uninitialised args rate burstSize args.count.toInt.toNat started
  rw [← looped] at rest whole
  exact ⟨unsent, _, whole, GeneratorV2.made_by_fill_batch below rest⟩

end Running

/-! ## Every run, of either version -/

/-- A gap slot skips `gap_span + 1` numbers: two consecutive messages stand apart as the
comments say exactly when no gap slot lies between them. -/
theorem skips_span_iff_no_gap_slot {Net Sender : Type}
    (sendEncodedFrame : Net → Frame → Bool × Net)
    (sendFrames : Sender → List Frame → Int × Sender) (order : ByteOrder)
    (uninitialised : Frame) (args : RunArgs) (rate burstSize : Int32) (now : Int)
    (first : Generator) (second : GeneratorV2.Generator) (net : Net) (sender : Sender)
    (fd : Sender → Int) :
    (let finished := run sendEncodedFrame order uninitialised args now first net
      ∃ (unsent : Option MarketDataMsg) (made : List (Option MarketDataMsg)),
        (finished.1 = true → unsent = none) ∧
          GeneratorV2.MadeBy (args.toV2 rate burstSize) first.symbolCount
            (finished.2.sent ++ unsent.toList) made ∧
          ∀ earlier gaps later, GeneratorV2.Separated made earlier gaps later →
            (GeneratorV2.SkipsSpan args.gapSpan earlier gaps later ↔ gaps = 0)) ∧
      ∃ made : List (Option MarketDataMsg),
        GeneratorV2.MadeBy (args.toV2 rate burstSize) second.symbolCount
          (GeneratorV2.run sendFrames order uninitialised fd (args.toV2 rate burstSize) now
            second sender).batches.flatten made ∧
          ∀ earlier gaps later, GeneratorV2.Separated made earlier gaps later →
            (GeneratorV2.SkipsSpan args.gapSpan earlier gaps later ↔ gaps = 0) := by
  constructor
  · intro finished
    obtain ⟨unsent, made, whole, madeBy⟩ := run_made sendEncodedFrame order uninitialised args
      rate burstSize now first net
    refine ⟨unsent, made, whole, madeBy, ?_⟩
    intro earlier gaps later separated
    exact GeneratorV2.skips_span_of_made madeBy separated
  · obtain ⟨made, madeBy⟩ := GeneratorV2.run_made sendFrames order uninitialised fd
      (args.toV2 rate burstSize) now second sender
    refine ⟨made, madeBy, ?_⟩
    intro earlier gaps later separated
    exact GeneratorV2.skips_span_of_made madeBy separated

/-- Six slots from seed 1 with a span of one: the message after 5 has the number 8. -/
theorem one_gap_slot_skips_two :
    let first := run (fun (_ : Unit) _ => (true, ())) .little (Vector.replicate kWireSize 0)
      ⟨6, 50, 1, 3, 1⟩ 0 (Generator.constructed.connect 3) ()
    let second := GeneratorV2.run (fun (_ : Unit) frames => (frames.length, ())) .little
      (Vector.replicate kWireSize 0) (fun _ => 4) ⟨6, 0, 1, 3, 1, 4⟩ 0 .constructed ()
    ∃ made earlier later,
      GeneratorV2.MadeBy ⟨6, 0, 1, 3, 1, 4⟩ 1 first.2.sent made ∧
        GeneratorV2.MadeBy ⟨6, 0, 1, 3, 1, 4⟩ 1 second.batches.flatten made ∧
        GeneratorV2.Separated made earlier 1 later ∧
        earlier.seqNum = 5 ∧ later.seqNum = 8 ∧
        ¬ GeneratorV2.SkipsSpan 1 earlier 1 later := by
  intro first second
  let args : GeneratorV2.RunArgs := ⟨6, 0, 1, 3, 1, 4⟩
  have takesBatches : GeneratorV2.Accepts fun (_ : Unit) (frames : List Frame) =>
    ((frames.length : Int), ()) := fun _ _ => rfl
  have flat : second.batches.flatten = GeneratorV2.feed args .constructed :=
    (GeneratorV2.run_messages _ _ takesBatches _ args 0 .constructed () (by decide)).2
  have sent : first.2.sent = GeneratorV2.feed args .constructed := by decide +kernel
  have madeBy : GeneratorV2.MadeBy args 1 (GeneratorV2.feed args .constructed)
      (GeneratorV2.slotMessages args 6 (GeneratorV2.seeded args 1)) :=
    GeneratorV2.made_by_fill_batch (Nat.le_refl _) rfl
  refine ⟨GeneratorV2.slotMessages args 6 (GeneratorV2.seeded args 1), ⟨5, 1, 5, 595, 596, 48, 49⟩,
    ⟨8, 1, 8, 247, 248, 9, 10⟩, ?_, ?_, ?_, rfl, rfl, ?_⟩
  · rw [sent]
    exact madeBy
  · rw [flat]
    exact madeBy
  · refine ⟨[none, none, some ⟨4, 1, 4, 80, 81, 66, 67⟩], [], ?_⟩
    decide +kernel
  · intro skips
    exact absurd skips.1 (by decide)

end MarketDataEngine.GeneratorV1
