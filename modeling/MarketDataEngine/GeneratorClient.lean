import MarketDataEngine.GeneratorSending
import MarketDataEngine.GeneratorV1

/-!
# Both generators over their sockets

The first generator sends through a connected UDP client, with one call of `send` for each
message. A short count or an error other than `EINTR` ends its run. The second generator
submits batches and retries. Where a kernel stops taking datagrams is therefore different
for the two, but what each has handed over is a prefix of one feed, and `run` returns true
exactly if that prefix is the whole feed.
-/

namespace MarketDataEngine.GeneratorV1

open MarketDataEngine.Protocol MarketDataEngine.Net
open MarketDataEngine.GeneratorV2 (txFrame Socket carrier fillBatch)

set_option autoImplicit false

/-! ## The client -/

/-- The loop of `send_bytes` around `send`. -/
def sendLoop (kernel : DatagramKernel) (frame : TxFrame) : Bool × DatagramKernel :=
  match _answered : kernel.sendto ⟨frame, none⟩ with
  | (.count n, next) => (decide (n = frame.len.toNat), next)
  | (.error .eintr, next) => sendLoop next frame
  | (.error _, next) => (false, next)
termination_by kernel.answers.settled
decreasing_by
  exact SendKernel.settled_of_interrupted_sendto _answered

def Client.sendBytes (client : Client) (kernel : DatagramKernel) (frame : TxFrame) :
    Bool × DatagramKernel :=
  if !client.connected || decide (client.fd < 0) || frame.data.isNone then (false, kernel)
  else if frame.len = 0 then (true, kernel)
  else sendLoop kernel frame

def Client.sendEncodedFrame (client : Client) (kernel : DatagramKernel) (frame : Frame) :
    Bool × DatagramKernel :=
  client.sendBytes kernel (txFrame frame)

/-- The datagram of a message on a connected socket. -/
def datagram (order : ByteOrder) (uninitialised : Frame) (msg : MarketDataMsg) : TxDatagram :=
  ⟨txFrame (encode order uninitialised msg), none⟩

theorem send_loop_accepted (kernel : DatagramKernel) {frame : TxFrame} (some_ : frame.len ≠ 0) :
    (sendLoop kernel frame).2.accepted =
      kernel.accepted ++ if (sendLoop kernel frame).1 then [⟨frame, none⟩] else [] := by
  have positive : 0 < frame.len.toNat := by
    rw [Nat.pos_iff_ne_zero, ne_eq, ← UInt64.toNat_zero, UInt64.toNat_inj]
    exact some_
  fun_induction sendLoop kernel frame with
  | case1 kernel n next answered =>
      unfold SendKernel.sendto at answered
      split at answered
      · cases answered
        simp
      · next less decided =>
          cases answered
          have short : ¬ min less (frame.len.toNat - 1) = frame.len.toNat := by omega
          simp [short]
      · cases answered
  | case2 kernel next answered ih =>
      rw [ih]
      unfold SendKernel.sendto at answered
      split at answered
      · cases answered
      · cases answered
      · cases answered
        rfl
  | case3 kernel errno next uninterrupted answered =>
      unfold SendKernel.sendto at answered
      split at answered
      · cases answered
      · cases answered
      · cases answered
        simp

theorem send_encoded_frame_loop {client : Client} (connected : client.connected = true)
    (opened : ¬ client.fd < 0) (kernel : DatagramKernel) (frame : Frame) :
    client.sendEncodedFrame kernel frame = sendLoop kernel (txFrame frame) := by
  have some_ : (txFrame frame).len ≠ 0 := by
    simp only [txFrame]
    decide
  have ready : (!client.connected || decide (client.fd < 0) ||
      (txFrame frame).data.isNone) = false := by
    simp [connected, opened, txFrame]
  rw [Client.sendEncodedFrame, Client.sendBytes, ready, if_neg Bool.false_ne_true, if_neg some_]

theorem send_encoded_frame_accepted {client : Client} (connected : client.connected = true)
    (opened : ¬ client.fd < 0) (kernel : DatagramKernel) (frame : Frame) :
    (client.sendEncodedFrame kernel frame).2.accepted =
      kernel.accepted ++
        if (client.sendEncodedFrame kernel frame).1 then [⟨txFrame frame, none⟩] else [] := by
  rw [send_encoded_frame_loop connected opened]
  apply send_loop_accepted
  simp only [txFrame]
  decide

theorem send_encoded_frame_whole {client : Client} (connected : client.connected = true)
    (opened : ¬ client.fd < 0) {kernel : DatagramKernel} (decided : kernel.answers.next = .whole)
    (frame : Frame) :
    client.sendEncodedFrame kernel frame =
      (true, ⟨kernel.answers.rest, kernel.accepted ++ [⟨txFrame frame, none⟩]⟩) := by
  have answered : kernel.sendto ⟨txFrame frame, none⟩ = (.count (txFrame frame).len.toNat,
      ⟨kernel.answers.rest, kernel.accepted ++ [⟨txFrame frame, none⟩]⟩) := by
    simp only [SendKernel.sendto, decided]
  rw [send_encoded_frame_loop connected opened, sendLoop]
  split
  · next n after same =>
      rw [answered] at same
      cases same
      rw [decide_eq_true rfl]
  · next after same =>
      rw [answered] at same
      cases same
  · next errno after _ same =>
      rw [answered] at same
      cases same

theorem send_encoded_frame_refused {client : Client} (connected : client.connected = true)
    (opened : ¬ client.fd < 0) {kernel : DatagramKernel}
    (decided : kernel.answers.next = .error .other) (frame : Frame) :
    client.sendEncodedFrame kernel frame = (false, ⟨kernel.answers.rest, kernel.accepted⟩) := by
  have answered : kernel.sendto ⟨txFrame frame, none⟩ = (.error .other,
      ⟨kernel.answers.rest, kernel.accepted⟩) := by
    simp only [SendKernel.sendto, decided]
  rw [send_encoded_frame_loop connected opened, sendLoop]
  split
  · next n after same =>
      rw [answered] at same
      cases same
  · next after same =>
      rw [answered] at same
      cases same
  · next errno after _ same =>
      rw [answered] at same
      cases same
      rfl

/-! ## A slot that may fail -/

section Slots

variable {Net : Type} (sendEncodedFrame : Net → Frame → Bool × Net)
variable (order : ByteOrder) (uninitialised : Frame) (args : RunArgs)

/-- What a turn did, for the message that version 2 makes of the same slot. -/
structure Turned (state : LoopState Net) (made : Option MarketDataMsg)
    (second : GeneratorV2.Generator) (turn : Bool × LoopState Net) : Prop where
  client : turn.2.generator.client = state.generator.client
  agrees : Agrees turn.2.generator second
  skipped : made = none → turn.1 = true ∧ turn.2.net = state.net
  sent : ∀ msg, made = some msg →
    (turn.1, turn.2.net) = sendEncodedFrame state.net (encode order uninitialised msg)

-- The generator is a variable here: on the one that `make_message` leaves, the kernel would
-- compare random states.
theorem turned_of_attempt {state : LoopState Net} {made : MarketDataMsg}
    {second : GeneratorV2.Generator} {generator : Generator} (next : Int)
    (client : generator.client = state.generator.client) (agrees : Agrees generator second) :
    let attempt := sendEncodedFrame state.net (encode order uninitialised made)
    Turned sendEncodedFrame order uninitialised state (some made) second
      (if attempt.1 then (true, ⟨generator, next, attempt.2, state.sent ++ [made]⟩)
      else (false, { state with generator := generator, net := attempt.2 })) := by
  intro attempt
  cases taken : attempt.1 with
  | false =>
      rw [if_neg Bool.false_ne_true]
      refine ⟨client, agrees, ?_, ?_⟩
      · intro impossible
        cases impossible
      · rintro _ ⟨⟩
        exact Prod.ext taken.symm rfl
  | true =>
      rw [if_pos rfl]
      refine ⟨client, agrees, ?_, ?_⟩
      · intro impossible
        cases impossible
      · rintro _ ⟨⟩
        exact Prod.ext taken.symm rfl

theorem turned_of_skip {state : LoopState Net} {second : GeneratorV2.Generator}
    {generator : Generator} (next : Int)
    (client : generator.client = state.generator.client) (agrees : Agrees generator second) :
    Turned sendEncodedFrame order uninitialised state none second
      (true, { state with generator := generator, next := next }) := by
  refine ⟨client, agrees, ?_, ?_⟩
  · intro
    exact ⟨rfl, rfl⟩
  · rintro _ ⟨⟩

theorem turned_of_drawn {state : LoopState Net} {made : Option MarketDataMsg}
    {second : GeneratorV2.Generator} {generator : Generator} {turn : Bool × LoopState Net}
    (client : generator.client = state.generator.client)
    (turned : Turned sendEncodedFrame order uninitialised { state with generator := generator }
      made second turn) :
    Turned sendEncodedFrame order uninitialised state made second turn :=
  ⟨turned.client.trans client, turned.agrees, turned.skipped, turned.sent⟩

theorem client_skip (generator : Generator) (seq : UInt64) :
    { generator with seq := seq }.client = generator.client := by
  cases generator
  rfl

theorem send_next_turned {state : LoopState Net} {second : GeneratorV2.Generator}
    (usable : state.generator.unusable = false) (agrees : Agrees state.generator second) :
    Turned sendEncodedFrame order uninitialised state (some second.makeMessage.1)
      second.makeMessage.2 (sendNext sendEncodedFrame order uninitialised args state) := by
  obtain ⟨sameMessage, after⟩ := agrees_make_message agrees
  have sameClient := Generator.client_make_message state.generator
  have ready : state.generator.makeMessage.2.unusable = false := by
    rw [Generator.unusable_of_client sameClient]
    exact usable
  simp only [sendNext, send, ready, Bool.false_eq_true, ↓reduceIte, sameMessage]
  exact turned_of_attempt sendEncodedFrame order uninitialised _ sameClient after

theorem slot_turn_turned (rate burstSize : Int32) {state : LoopState Net}
    {second : GeneratorV2.Generator} (usable : state.generator.unusable = false)
    (agrees : Agrees state.generator second) :
    Turned sendEncodedFrame order uninitialised state
      (GeneratorV2.slot (args.toV2 rate burstSize) second).1
      (GeneratorV2.slot (args.toV2 rate burstSize) second).2
      (slotTurn sendEncodedFrame order uninitialised args state) := by
  have sameTest : (args.toV2 rate burstSize).injectGap = args.injectGap := rfl
  by_cases inject : args.injectGap = true
  · obtain ⟨sameDraw, after⟩ := agrees_next_rand agrees
    have sameClient := Generator.client_next_rand state.generator
    by_cases gap : second.nextRand.1 % args.gapMod.toUInt32 < args.gapSpan.toUInt32
    · have slot : GeneratorV2.slot (args.toV2 rate burstSize) second = (none,
          { second.nextRand.2 with
            seq := second.nextRand.2.seq + GeneratorV2.gapJump (args.toV2 rate burstSize) }) := by
        rw [GeneratorV2.slot, sameTest, if_pos inject]
        exact if_pos gap
      have jump : args.gapSpan.toInt64.toUInt64 + 1 =
          GeneratorV2.gapJump (args.toV2 rate burstSize) := rfl
      rw [slot]
      simp only [slotTurn, inject, sameDraw, gap, jump, ↓reduceIte]
      have skipped := agrees_skip after (GeneratorV2.gapJump (args.toV2 rate burstSize))
      refine turned_of_skip sendEncodedFrame order uninitialised _ ?_ skipped
      rw [client_skip]
      exact sameClient
    · have slot : GeneratorV2.slot (args.toV2 rate burstSize) second =
          (some second.nextRand.2.makeMessage.1, second.nextRand.2.makeMessage.2) := by
        rw [GeneratorV2.slot, sameTest, if_pos inject]
        exact if_neg gap
      rw [slot]
      simp only [slotTurn, inject, sameDraw, gap, ↓reduceIte]
      have drawn : ({ state with generator := state.generator.nextRand.2 } :
          LoopState Net).generator.unusable = false := by
        rw [Generator.unusable_of_client sameClient]
        exact usable
      have turned := send_next_turned sendEncodedFrame order uninitialised args drawn after
      exact turned_of_drawn sendEncodedFrame order uninitialised sameClient turned
  · have slot : GeneratorV2.slot (args.toV2 rate burstSize) second =
        (some second.makeMessage.1, second.makeMessage.2) := by
      rw [GeneratorV2.slot, sameTest, if_neg inject]
    rw [slot, slotTurn, if_neg inject]
    exact send_next_turned sendEncodedFrame order uninitialised args usable agrees

end Slots

/-! ## A prefix of the feed -/

section Client

variable (order : ByteOrder) (uninitialised : Frame) (args : RunArgs)

/-- The messages handed over between two kernels are the first `taken` of these. -/
def HandsOver (kernel : DatagramKernel) (feed : List MarketDataMsg) (ok : Bool)
    (after : DatagramKernel) (taken : Nat) : Prop :=
  taken ≤ feed.length ∧ (ok = true ↔ taken = feed.length) ∧
    after.accepted = kernel.accepted ++ (feed.take taken).map (datagram order uninitialised)

theorem usable_cases {generator : Generator} (usable : generator.unusable = false) :
    generator.client.connected = true ∧ ¬ generator.client.fd < 0 := by
  simpa [Generator.unusable] using usable

theorem slot_turn_hands_over (rate burstSize : Int32) {state : LoopState DatagramKernel}
    {second : GeneratorV2.Generator} (usable : state.generator.unusable = false)
    (agrees : Agrees state.generator second) :
    let turn := slotTurn state.generator.client.sendEncodedFrame order uninitialised args state
    let made := (GeneratorV2.slot (args.toV2 rate burstSize) second).1.toList
    ∃ taken, HandsOver order uninitialised state.net made turn.1 turn.2.net taken := by
  intro turn made
  obtain ⟨connected, opened⟩ := usable_cases usable
  have turned := slot_turn_turned state.generator.client.sendEncodedFrame order uninitialised
    args rate burstSize usable agrees
  cases slot : (GeneratorV2.slot (args.toV2 rate burstSize) second).1 with
  | none =>
      obtain ⟨ok, net⟩ := turned.skipped slot
      refine ⟨0, ?_, ?_, ?_⟩
      · exact Nat.zero_le _
      · simp [made, slot, turn, ok]
      · simp [turn, net]
  | some msg =>
      have sent := turned.sent msg slot
      have accepted := send_encoded_frame_accepted connected opened state.net
        (encode order uninitialised msg)
      rw [← sent] at accepted
      cases ok : turn.1 with
      | false =>
          refine ⟨0, Nat.zero_le _, ?_, ?_⟩
          · simp [made, slot]
          · simpa [turn, ok] using accepted
      | true =>
          refine ⟨1, ?_, ?_, ?_⟩
          · simp [made, slot]
          · simp [made, slot]
          · simpa [turn, ok, made, slot, datagram] using accepted

theorem slot_loop_hands_over (rate burstSize : Int32) (client : Client) (slots : Nat)
    {state : LoopState DatagramKernel} {second : GeneratorV2.Generator}
    (usable : state.generator.unusable = false) (same : state.generator.client = client)
    (agrees : Agrees state.generator second) :
    let loop := slotLoop client.sendEncodedFrame order uninitialised args slots state
    let feed := (fillBatch (args.toV2 rate burstSize) slots second).1
    ∃ taken, HandsOver order uninitialised state.net feed loop.1 loop.2.net taken := by
  subst same
  induction slots generalizing state second with
  | zero => exact ⟨0, Nat.zero_le _, by simp [slotLoop, fillBatch], by simp [slotLoop]⟩
  | succ slots ih =>
      have turned := slot_turn_turned state.generator.client.sendEncodedFrame order
        uninitialised args rate burstSize usable agrees
      obtain ⟨first, fits, ok, accepted⟩ :=
        slot_turn_hands_over order uninitialised args rate burstSize usable agrees
      rw [GeneratorV2.fill_batch_succ, slotLoop]
      generalize slotTurn state.generator.client.sendEncodedFrame order uninitialised args
        state = turn at turned ok accepted ⊢
      cases went : turn.1 with
      | false =>
          -- The message of this slot was refused, so the rest of the feed is not even made.
          have stopped : ¬ first =
              (GeneratorV2.slot (args.toV2 rate burstSize) second).1.toList.length := by
            intro whole
            rw [ok.mpr whole] at went
            cases went
          refine ⟨first, ?_, ?_, ?_⟩
          · rw [List.length_append]
            omega
          · simp only [went, Bool.false_eq_true, ↓reduceIte, false_iff, List.length_append]
            omega
          · simp only [went, Bool.false_eq_true, ↓reduceIte]
            rw [accepted, List.take_append_of_le_length fits]
      | true =>
          have whole := ok.mp went
          have stillUsable : turn.2.generator.unusable = false := by
            rw [Generator.unusable_of_client turned.client]
            exact usable
          obtain ⟨later, fitsLater, okLater, acceptedLater⟩ := ih stillUsable turned.agrees
          rw [turned.client] at okLater acceptedLater
          refine ⟨first + later, ?_, ?_, ?_⟩
          · rw [List.length_append]
            omega
          · simp only [went, ↓reduceIte, List.length_append]
            rw [okLater]
            omega
          · simp only [went, ↓reduceIte]
            rw [acceptedLater, accepted, whole, List.take_length, List.take_length_add_append,
              List.map_append, List.append_assoc]

theorem run_hands_over (rate burstSize : Int32) (now : Int) {generator : Generator}
    (usable : generator.unusable = false) {second : GeneratorV2.Generator}
    (symbols : generator.symbolCount = second.symbolCount) (kernel : DatagramKernel) :
    let finished := run generator.client.sendEncodedFrame order uninitialised args now generator
      kernel
    let feed := GeneratorV2.feed (args.toV2 rate burstSize) second
    ∃ taken, HandsOver order uninitialised kernel feed finished.1 finished.2.net taken := by
  intro finished feed
  by_cases empty : args.count ≤ 0
  · have nothing : feed = [] := by
      have slots : (args.toV2 rate burstSize).count.toInt.toNat = 0 := by
        rw [Int32.le_iff_toInt_le] at empty
        exact Int.toNat_of_nonpos empty
      simp only [feed, GeneratorV2.feed, slots, fillBatch]
    have ended : finished = (true, ⟨generator, now, kernel, []⟩) := by
      simp only [finished, run, usable, Bool.false_eq_true, ↓reduceIte, if_pos empty]
    rw [ended, nothing]
    exact ⟨0, Nat.le_refl 0, by simp, by simp⟩
  · have looped : finished = slotLoop generator.client.sendEncodedFrame order uninitialised args
        args.count.toInt.toNat
        ⟨{ generator with rngState := args.startSeed.toUInt32, seq := 0 }, now, kernel, []⟩ := by
      simp only [finished, run, usable, Bool.false_eq_true, ↓reduceIte, if_neg empty]
    rw [looped]
    exact @slot_loop_hands_over order uninitialised args rate burstSize generator.client _
      ⟨{ generator with rngState := args.startSeed.toUInt32, seq := 0 }, now, kernel, []⟩
      { second with
        running := true, rngState := (args.toV2 rate burstSize).startSeed.toUInt32, seq := 0 }
      usable rfl ⟨symbols, rfl, rfl⟩

end Client

end MarketDataEngine.GeneratorV1

namespace MarketDataEngine.GeneratorV2

open MarketDataEngine.Protocol MarketDataEngine.Net

/-! ## The batches of a run are cut from one feed -/

section Batches

variable {Sender : Type} (sendFrames : Sender → List Frame → Int × Sender)
variable (order : ByteOrder) (uninitialised : Frame)

theorem slots_left {args : RunArgs} {produced : Int} (more : produced < args.count.toInt) :
    (args.count.toInt - produced).toNat = (slotsOf args produced).toNat +
      (args.count.toInt - (produced + slotsOf args produced)).toNat := by
  have positive := args.start_burst_pos
  simp only [slotsOf]
  omega

/-- Also the batches of a loop that a short send has ended. -/
theorem burst_loop_built (args : RunArgs) (state : LoopState Sender) :
    ∃ unmade,
      (burstLoop sendFrames order uninitialised args state).2.batches.flatten ++ unmade =
        state.batches.flatten ++
          (fillBatch args (args.count.toInt - state.produced).toNat state.generator).1 ∧
      ((burstLoop sendFrames order uninitialised args state).1 = none → unmade = []) := by
  fun_induction burstLoop sendFrames order uninitialised args state with
  | case1 state more slots batch generator filled sender later failure sending =>
      have cut : (args.count.toInt - state.produced).toNat =
          slots.toNat + (args.count.toInt - (state.produced + slots)).toNat := slots_left more
      refine ⟨(fillBatch args (args.count.toInt - (state.produced + slots)).toNat
        generator).1, ?_, ?_⟩
      · rw [cut, fill_batch_add, filled]
        simp [later, List.append_assoc]
      · intro impossible
        cases impossible
  | case2 state more slots batch generator filled sender later sending ih =>
      have cut : (args.count.toInt - state.produced).toNat =
          slots.toNat + (args.count.toInt - (state.produced + slots)).toNat := slots_left more
      obtain ⟨unmade, built, complete⟩ := ih
      refine ⟨unmade, ?_, complete⟩
      rw [built, cut, fill_batch_add, filled]
      simp [later, List.append_assoc]
  | case3 state done =>
      have nothing : (args.count.toInt - state.produced).toNat = 0 := by omega
      refine ⟨[], ?_, fun _ => rfl⟩
      rw [nothing]
      simp [fillBatch]

theorem run_built (fd : Sender → Int) (args : RunArgs) (now : Int) (generator : Generator)
    (sender : Sender) (opened : 0 ≤ fd sender) :
    let finished := run sendFrames order uninitialised fd args now generator sender
    ∃ unmade, finished.batches.flatten ++ unmade = feed args generator ∧
      (finished.failure = none → unmade = []) := by
  intro finished
  have notClosed : ¬ fd sender < 0 := by omega
  by_cases empty : args.count ≤ 0
  · have slots : args.count.toInt.toNat = 0 := by
      rw [Int32.le_iff_toInt_le] at empty
      exact Int.toNat_of_nonpos empty
    refine ⟨[], ?_, fun _ => rfl⟩
    simp only [finished, run, if_neg notClosed, if_pos empty, feed, slots, fillBatch,
      List.flatten_nil, List.append_nil]
  · obtain ⟨unmade, built, complete⟩ := burst_loop_built sendFrames order uninitialised args
      ⟨{ generator with running := true, rngState := args.startSeed.toUInt32, seq := 0 },
        0, now, sender, []⟩
    simp only [finished, run, if_neg notClosed, if_neg empty, feed]
    rw [Int.sub_zero, List.flatten_nil, List.nil_append] at built
    exact ⟨unmade, built, complete⟩

end Batches

/-- The place of a message of one batch in the whole feed. -/
theorem place_in_feed {earlier batch later : List MarketDataMsg} {sent : Nat}
    (inRange : sent < batch.length) :
    let messages := earlier ++ (batch ++ later)
    earlier.length + sent < messages.length ∧
      messages.take (earlier.length + sent) = earlier ++ batch.take sent ∧
      messages[earlier.length + sent]? = some (batch.get ⟨sent, inRange⟩) := by
  intro messages
  refine ⟨?_, ?_, ?_⟩
  · rw [List.length_append, List.length_append]
    omega
  · rw [List.take_length_add_append, List.take_append_of_le_length (Nat.le_of_lt inRange)]
  · rw [List.getElem?_append_right (Nat.le_add_right _ _), Nat.add_sub_cancel_left,
      List.getElem?_append_left inRange, List.getElem?_eq_getElem inRange]
    rfl

theorem run_hands_over_feed (order : ByteOrder) (uninitialised : Frame) (args : RunArgs)
    (now : Int) (generator : Generator) (socket : Socket) (opened : 0 ≤ socket.fd) :
    let finished := run Socket.sendFrames order uninitialised Socket.fd args now generator
      socket
    let messages := feed args generator
    ∃ taken ≤ messages.length,
      (finished.ok = true ↔ taken = messages.length) ∧
      finished.sender.2.accepted = socket.2.accepted ++
        (messages.take taken).map (carrier order uninitialised socket) ∧
      finished.failure.bind SendFailure.failedSeq =
        messages[taken]?.map MarketDataMsg.seqNum := by
  intro finished messages
  obtain ⟨ok, ended⟩ := run_ended order uninitialised args now generator socket opened
  obtain ⟨unmade, built, complete⟩ :=
    run_built Socket.sendFrames order uninitialised Socket.fd args now generator socket opened
  change finished.ok = _ at ok
  change Ended order uninitialised socket [] finished.failure finished.batches _ at ended
  change finished.batches.flatten ++ unmade = messages at built
  change finished.failure = none → _ at complete
  cases failed : finished.failure with
  | none =>
      rw [failed] at ok ended
      rw [complete failed, List.append_nil] at built
      generalize finished.batches = batches at ended built
      cases ended with
      | sent carried =>
          rw [List.nil_append] at built
          refine ⟨messages.length, Nat.le_refl _, ?_, ?_, ?_⟩
          · simp [ok]
          · rw [carried.accepted, built, List.take_length]
          · simp
  | some failure =>
      rw [failed] at ok ended
      generalize finished.batches = batches at ended built
      cases ended with
      | @failed earlier batch _ before _ sent carried stopped =>
          have inRange := stopped.in_range
          have whole := carries_append carried stopped.carried
          rw [List.nil_append, List.flatten_append, List.flatten_singleton,
            List.append_assoc] at built
          obtain ⟨before_, taken, next⟩ :
              earlier.flatten.length + sent < messages.length ∧
                messages.take (earlier.flatten.length + sent) =
                  earlier.flatten ++ batch.take sent ∧
                messages[earlier.flatten.length + sent]? =
                  some (batch.get ⟨sent, inRange⟩) := by
            rw [← built]
            exact place_in_feed inRange
          refine ⟨earlier.flatten.length + sent, Nat.le_of_lt before_, ?_, ?_, ?_⟩
          · simp only [ok, Option.isNone_some, Bool.false_eq_true, false_iff]
            omega
          · rw [whole.accepted, taken]
          · rw [next, Option.bind_some, stopped.reported, Option.map_some]

/-- Rate and burst size are not part of the feed. -/
theorem fill_batch_pacing {args other : RunArgs} (gapMod : args.gapMod = other.gapMod)
    (gapSpan : args.gapSpan = other.gapSpan) (slots : Nat) (generator : Generator) :
    fillBatch args slots generator = fillBatch other slots generator := by
  have sameSlot : slot args = slot other := by
    cases args
    cases other
    cases gapMod
    cases gapSpan
    rfl
  induction slots generalizing generator with
  | zero => rfl
  | succ slots ih => simp only [fillBatch, sameSlot, ih]

end MarketDataEngine.GeneratorV2

namespace MarketDataEngine.GeneratorV1

open MarketDataEngine.Protocol MarketDataEngine.Net
open MarketDataEngine.GeneratorV2 (txFrame Socket carrier feed SendFailure)

/-- The messages of a call, which neither the version nor the pacing is part of. -/
def RunArgs.messages (args : RunArgs) (symbolCount : UInt32) : List MarketDataMsg :=
  feed (args.toV2 0 1) { GeneratorV2.Generator.constructed with symbolCount := symbolCount }

theorem messages_eq_feed (args : RunArgs) (rate burstSize : Int32)
    (second : GeneratorV2.Generator) :
    args.messages second.symbolCount = feed (args.toV2 rate burstSize) second := by
  have pacing := @GeneratorV2.fill_batch_pacing (args.toV2 0 1) (args.toV2 rate burstSize) rfl rfl
  rw [RunArgs.messages, feed, feed, pacing]
  rfl

/-- Over any two kernels, both versions hand over a prefix of the same messages, and return
true exactly if it is all of them; version 2 reports the first message left behind. -/
theorem one_feed_whatever_is_refused (order : ByteOrder) (uninitialised : Frame) (args : RunArgs)
    (rate burstSize : Int32) (firstNow secondNow : Int) (first : Generator)
    (usable : first.unusable = false) (kernel : DatagramKernel)
    (second : GeneratorV2.Generator) (symbols : first.symbolCount = second.symbolCount)
    (socket : Socket) (opened : 0 ≤ socket.fd) :
    let messages := args.messages first.symbolCount
    let one := run first.client.sendEncodedFrame order uninitialised args firstNow first kernel
    let two := GeneratorV2.run Socket.sendFrames order uninitialised Socket.fd
      (args.toV2 rate burstSize) secondNow second socket
    ∃ byOne ≤ messages.length, ∃ byTwo ≤ messages.length,
      (one.1 = true ↔ byOne = messages.length) ∧
      one.2.net.accepted = kernel.accepted ++
        (messages.take byOne).map (datagram order uninitialised) ∧
      (two.ok = true ↔ byTwo = messages.length) ∧
      two.sender.2.accepted = socket.2.accepted ++
        (messages.take byTwo).map (carrier order uninitialised socket) ∧
      two.failure.bind SendFailure.failedSeq =
        messages[byTwo]?.map MarketDataMsg.seqNum := by
  intro messages one two
  have same : messages = feed (args.toV2 rate burstSize) second := by
    simp only [messages, symbols]
    exact messages_eq_feed args rate burstSize second
  obtain ⟨byOne, fitsOne, okOne, acceptedOne⟩ :=
    run_hands_over order uninitialised args rate burstSize firstNow usable symbols kernel
  obtain ⟨byTwo, fitsTwo, okTwo, acceptedTwo, reported⟩ :=
    GeneratorV2.run_hands_over_feed order uninitialised (args.toV2 rate burstSize) secondNow
      second socket opened
  rw [← same] at fitsOne okOne acceptedOne fitsTwo okTwo acceptedTwo reported
  exact ⟨byOne, fitsOne, byTwo, fitsTwo, okOne, acceptedOne, okTwo, acceptedTwo, reported⟩

/-- A call whose first datagram is taken and whose second one is refused, without gaps. -/
theorem run_refused_after_first {order : ByteOrder} {uninitialised : Frame} {args : RunArgs}
    (ungapped : args.injectGap = false) (two : 2 ≤ args.count.toInt) (now : Int)
    {generator : Generator} (usable : generator.unusable = false) {kernel : DatagramKernel}
    (takes : kernel.answers.answer 0 = .whole)
    (refuses : kernel.answers.answer 1 = .error .other) :
    let finished := run generator.client.sendEncodedFrame order uninitialised args now generator
      kernel
    finished.1 = false ∧ finished.2.net.accepted.length = kernel.accepted.length + 1 := by
  intro finished
  obtain ⟨connected, opened⟩ := usable_cases usable
  obtain ⟨slots, enough⟩ : ∃ slots, args.count.toInt.toNat = slots + 2 :=
    ⟨args.count.toInt.toNat - 2, by omega⟩
  have some_ : ¬ args.count ≤ 0 := by
    rw [Int32.le_iff_toInt_le]
    exact Int.not_le.mpr (Int.lt_of_lt_of_le (by decide) two)
  have looped : finished = slotLoop generator.client.sendEncodedFrame order uninitialised args
      (slots + 2) ⟨{ generator with rngState := args.startSeed.toUInt32, seq := 0 }, now, kernel,
        []⟩ := by
    simp only [finished, run, usable, Bool.false_eq_true, ↓reduceIte, if_neg some_, enough]
  have made : ∀ second, GeneratorV2.slot (args.toV2 0 1) second =
      (some second.makeMessage.1, second.makeMessage.2) := by
    intro second
    rw [GeneratorV2.slot, show (args.toV2 0 1).injectGap = false from ungapped,
      if_neg Bool.false_ne_true]
  generalize started : ({ generator with rngState := args.startSeed.toUInt32, seq := 0 } :
    Generator) = begun at looped
  have client : begun.client = generator.client := by rw [← started]
  let second : GeneratorV2.Generator := ⟨true, begun.symbolCount, begun.rngState, begun.seq⟩
  have ready : begun.unusable = false := by
    rw [Generator.unusable_of_client client]
    exact usable
  have first := @slot_turn_turned _ generator.client.sendEncodedFrame order uninitialised args 0 1
    ⟨begun, now, kernel, []⟩ second ready ⟨rfl, rfl, rfl⟩
  rw [looped, slotLoop]
  generalize slotTurn generator.client.sendEncodedFrame order uninitialised args
    ⟨begun, now, kernel, []⟩ = turn at first ⊢
  have sent := first.sent second.makeMessage.1 (by rw [made])
  rw [send_encoded_frame_whole connected opened takes] at sent
  obtain ⟨ok, net⟩ := Prod.mk.inj sent
  simp only [ok, ↓reduceIte]
  have readyNext : turn.2.generator.unusable = false := by
    rw [Generator.unusable_of_client (first.client.trans client)]
    exact usable
  have last := @slot_turn_turned _ generator.client.sendEncodedFrame order uninitialised args 0 1
    turn.2 _ readyNext first.agrees
  rw [slotLoop]
  generalize slotTurn generator.client.sendEncodedFrame order uninitialised args turn.2 =
    again at last ⊢
  have stopped := last.sent _ (by rw [made])
  have refusesNext : turn.2.net.answers.next = .error .other := by
    rw [net]
    exact refuses
  rw [send_encoded_frame_refused connected opened refusesNext] at stopped
  obtain ⟨failed, netAfter⟩ := Prod.mk.inj stopped
  simp only [failed, Bool.false_eq_true, ↓reduceIte, true_and]
  rw [netAfter, net]
  exact List.length_append

/-- Two batches of two of which the second is refused, beside a client that is refused its
second datagram. -/
theorem refused_at_different_places :
    let client : Generator := Generator.constructed.connect 3
    let batches : BatchKernel := ⟨(AnswerStream.Answers.always (.error .other)
      (by decide)).before (.accept 1), []⟩
    let datagrams : DatagramKernel := ⟨(AnswerStream.Answers.always (.error .other)
      (by decide)).before .whole, []⟩
    let socket : Socket := (⟨5, true, ⟨0, 0⟩, ⟨0, 0, 0, 0⟩⟩, batches)
    let messages := RunArgs.messages ⟨4, 50, 7, 0, 1⟩ 1
    let two := GeneratorV2.run Socket.sendFrames .little (Vector.replicate kWireSize 0) Socket.fd
      ⟨4, 0, 7, 0, 1, 2⟩ 0 .constructed socket
    client.unusable = false ∧ 0 ≤ socket.fd ∧ messages.length = 4 ∧
      (run client.client.sendEncodedFrame .little (Vector.replicate kWireSize 0)
        ⟨4, 50, 7, 0, 1⟩ 0 client datagrams).2.net.accepted.length = 1 ∧
      two.sender.2.accepted.length = 2 ∧
      two.failure.bind SendFailure.failedSeq = some 2 ∧
      ∃ byTwo ≤ messages.length,
        two.failure.bind SendFailure.failedSeq = messages[byTwo]?.map MarketDataMsg.seqNum := by
  intro client batches datagrams socket messages two
  have usable : client.unusable = false := by decide
  have opened : 0 ≤ socket.fd := by decide
  obtain ⟨_, _, byTwo, fits, _, _, _, _, reported⟩ :=
    one_feed_whatever_is_refused .little (Vector.replicate kWireSize 0) ⟨4, 50, 7, 0, 1⟩ 0 2 0 0
      client usable datagrams .constructed rfl socket opened
  obtain ⟨-, failed, accepted⟩ := @GeneratorV2.run_refused_after_batch .little
    (Vector.replicate kWireSize 0) socket opened ⟨4, 0, 7, 0, 1, 2⟩ 0 .constructed 1 rfl rfl _ _
    rfl rfl (by decide) (by decide) (by decide)
  refine ⟨usable, opened, by decide +kernel, ?_, ?_, failed, byTwo, fits, reported⟩
  · obtain ⟨-, taken⟩ := @run_refused_after_first .little (Vector.replicate kWireSize 0)
      ⟨4, 50, 7, 0, 1⟩ rfl (by decide) 0 client usable datagrams rfl rfl
    rw [taken]
    rfl
  · rw [accepted]
    rfl

end MarketDataEngine.GeneratorV1
