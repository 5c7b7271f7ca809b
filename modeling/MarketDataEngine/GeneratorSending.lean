import MarketDataEngine.GeneratorV2
import MarketDataEngine.UdpSender

/-!
# A run of the generator over its sender

`Generator::run` with the UDP sender in place of the parameter. `send_batch` answers `-1`
for a closed descriptor or a null pointer only, and a run meets neither: the descriptor is
tested first and a batch that is sent has a message. So the index behind a short send is
the number of messages taken, which is in range.
-/

namespace MarketDataEngine.GeneratorV2

open MarketDataEngine.Protocol MarketDataEngine.Net

set_option autoImplicit false

/-- `TxFrame{.data = encoded[i].data(), .len = encoded[i].size()}`. -/
def txFrame (frame : Frame) : TxFrame := ⟨some frame.toList, UInt64.ofNat kWireSize⟩

abbrev Socket := Sender × BatchKernel

def Socket.fd (socket : Socket) : Int := socket.1.fd

def Socket.sendFrames (socket : Socket) (frames : List Frame) : Int × Socket :=
  socket.1.sendBatch socket.2 (.array (frames.map txFrame))

variable (order : ByteOrder) (uninitialised : Frame)

/-- The datagram that carries a message. -/
def carrier (socket : Socket) (msg : MarketDataMsg) : TxDatagram :=
  socket.1.datagram (txFrame (encode order uninitialised msg))

/-- From here to there, exactly these messages were handed to the kernel, in this order. -/
structure Carries (socket : Socket) (msgs : List MarketDataMsg) (after : Socket) : Prop where
  fd : after.fd = socket.fd
  datagram : after.1.datagram = socket.1.datagram
  accepted : after.2.accepted =
    socket.2.accepted ++ msgs.map (carrier order uninitialised socket)

variable {order uninitialised}

theorem carries_nothing (socket : Socket) : Carries order uninitialised socket [] socket :=
  ⟨rfl, rfl, (List.append_nil _).symm⟩

theorem carries_append {socket middle after : Socket} {first second : List MarketDataMsg}
    (earlier : Carries order uninitialised socket first middle)
    (later : Carries order uninitialised middle second after) :
    Carries order uninitialised socket (first ++ second) after := by
  have same : carrier order uninitialised middle = carrier order uninitialised socket := by
    funext msg
    rw [carrier, earlier.datagram, carrier]
  refine ⟨later.fd.trans earlier.fd, later.datagram.trans earlier.datagram, ?_⟩
  rw [later.accepted, earlier.accepted, same, List.map_append, List.append_assoc]

variable (order uninitialised)

/-- An open sender takes a prefix of the batch and says how long it is. -/
theorem send_batch_carries {socket : Socket} (opened : 0 ≤ socket.fd)
    (batch : List MarketDataMsg) :
    ∃ sent : Nat, sent ≤ batch.length ∧
      (sendBatch Socket.sendFrames order uninitialised socket batch).1 = sent ∧
      Carries order uninitialised socket (batch.take sent)
        (sendBatch Socket.sendFrames order uninitialised socket batch).2 := by
  let frames := (batch.map (encode order uninitialised)).map txFrame
  have looped := Sender.send_batch_opened opened socket.2 frames
  obtain ⟨sent, total, handed⟩ :=
    Sender.send_remaining_hands_over socket.1 socket.2 frames 0 (Nat.zero_le _)
  rw [Nat.zero_add] at total
  rw [List.drop_zero] at handed
  have fits := handed.fits
  simp only [frames, List.length_map] at fits
  refine ⟨sent, fits, ?_, ?_⟩
  · simp only [sendBatch, Socket.sendFrames]
    rw [looped, total]
  · simp only [sendBatch, Socket.sendFrames]
    rw [looped]
    refine ⟨handed.fd, handed.datagram, ?_⟩
    rw [handed.accepted]
    simp only [frames, List.map_map, ← List.map_take]
    rfl

/-- A short send of an open sender: the index is in range and names the first message that
was not taken. -/
structure StoppedAt (socket : Socket) (batch : List MarketDataMsg) (failure : SendFailure)
    (after : Socket) (sent : Nat) : Prop where
  in_range : sent < batch.length
  reported : failure.failedSeq = some (batch.get ⟨sent, in_range⟩).seqNum
  carried : Carries order uninitialised socket (batch.take sent) after

theorem send_or_fail_cases {socket : Socket} (opened : 0 ≤ socket.fd)
    (batch : List MarketDataMsg) (slotsRequested : Nat) :
    let tried := sendOrFail Socket.sendFrames order uninitialised socket batch slotsRequested
    (tried.1 = none ∧ Carries order uninitialised socket batch tried.2) ∨
      ∃ failure sent, tried.1 = some failure ∧
        StoppedAt order uninitialised socket batch failure tried.2 sent := by
  intro tried
  by_cases empty : batch = []
  · have nothing : tried = (none, socket) := if_pos empty
    left
    rw [nothing, empty]
    exact ⟨rfl, carries_nothing socket⟩
  obtain ⟨sent, fits, returned, carried⟩ :=
    send_batch_carries order uninitialised opened batch
  by_cases whole : sent = batch.length
  · have all : tried = (none,
        (sendBatch Socket.sendFrames order uninitialised socket batch).2) := by
      simp only [tried, sendOrFail, if_neg empty, returned, whole, ↓reduceIte]
    left
    rw [all]
    rw [whole, List.take_length] at carried
    exact ⟨rfl, carried⟩
  · have short : ((sent : Int) = batch.length) = False := by
      rw [Int.ofNat_inj, eq_iff_iff, iff_false]
      exact whole
    have inRange : sent < batch.length := by omega
    have failed : tried = (some ⟨some (batch.get ⟨sent, inRange⟩).seqNum, slotsRequested⟩,
        (sendBatch Socket.sendFrames order uninitialised socket batch).2) := by
      simp only [tried, sendOrFail, if_neg empty, returned, short, ↓reduceIte,
        Int.natCast_nonneg, Int.toNat_natCast, List.getElem?_eq_getElem inRange,
        Option.map_some, List.get_eq_getElem]
    right
    rw [failed]
    exact ⟨_, sent, rfl, inRange, rfl, carried⟩

/-- How a loop ends that has built further batches. -/
inductive Ended (socket : Socket) (built : List (List MarketDataMsg)) :
    Option SendFailure → List (List MarketDataMsg) → Socket → Prop where
  | sent {batches : List (List MarketDataMsg)} {after : Socket}
      (carried : Carries order uninitialised socket batches.flatten after) :
      Ended socket built none (built ++ batches) after
  | failed {earlier : List (List MarketDataMsg)} {batch : List MarketDataMsg}
      {failure : SendFailure} {before after : Socket} {sent : Nat}
      (carried : Carries order uninitialised socket earlier.flatten before)
      (stopped : StoppedAt order uninitialised before batch failure after sent) :
      Ended socket built (some failure) (built ++ (earlier ++ [batch])) after

variable {order uninitialised}

theorem ended_after_batch {socket middle after : Socket} {built : List (List MarketDataMsg)}
    {batch : List MarketDataMsg} {failure : Option SendFailure}
    {batches : List (List MarketDataMsg)}
    (carried : Carries order uninitialised socket batch middle)
    (rest : Ended order uninitialised middle (built ++ [batch]) failure batches after) :
    Ended order uninitialised socket built failure batches after := by
  cases rest with
  | @sent later _ carriedLater =>
      have whole := carries_append carried carriedLater
      rw [← List.flatten_cons] at whole
      rw [List.append_assoc, List.singleton_append]
      exact .sent whole
  | @failed earlier last failure before _ sent carriedLater stopped =>
      have whole := carries_append carried carriedLater
      rw [← List.flatten_cons] at whole
      rw [List.append_assoc, List.singleton_append, ← List.cons_append]
      exact .failed whole stopped

variable (order uninitialised)

theorem burst_loop_ended (args : RunArgs) (state : LoopState Socket)
    (opened : 0 ≤ state.sender.fd) :
    let ended := burstLoop Socket.sendFrames order uninitialised args state
    Ended order uninitialised state.sender state.batches ended.1 ended.2.batches
      ended.2.sender := by
  fun_induction burstLoop Socket.sendFrames order uninitialised args state with
  | case1 state more slots batch generator filled sender later failure sending =>
      have tried := send_or_fail_cases order uninitialised opened batch slots.toNat
      simp only [sending] at tried
      rcases tried with ⟨impossible, -⟩ | ⟨reported, sent, same, stopped⟩
      · cases impossible
      · cases same
        exact @Ended.failed order uninitialised _ _ [] _ _ _ _ sent
          (carries_nothing state.sender) stopped
  | case2 state more slots batch generator filled sender later sending ih =>
      have tried := send_or_fail_cases order uninitialised opened batch slots.toNat
      simp only [sending] at tried
      rcases tried with ⟨-, carried⟩ | ⟨_, _, impossible, -⟩
      · have stillOpen : 0 ≤ sender.fd := by
          rw [carried.fd]
          exact opened
        exact ended_after_batch carried (ih stillOpen)
      · cases impossible
  | case3 state done =>
      have nothing := @Ended.sent order uninitialised state.sender state.batches [] _
        (carries_nothing state.sender)
      rw [List.append_nil] at nothing
      exact nothing

theorem run_ended (args : RunArgs) (now : Int) (generator : Generator) (socket : Socket)
    (opened : 0 ≤ socket.fd) :
    let finished := run Socket.sendFrames order uninitialised Socket.fd args now generator
      socket
    finished.ok = finished.failure.isNone ∧
      Ended order uninitialised socket [] finished.failure finished.batches
        finished.sender := by
  intro finished
  have notClosed : ¬ socket.fd < 0 := by omega
  by_cases empty : args.count ≤ 0
  · have nothing : finished = ⟨true, none, generator, socket, now, []⟩ :=
      (if_neg notClosed).trans (if_pos empty)
    rw [nothing]
    exact ⟨rfl, @Ended.sent order uninitialised socket [] [] _ (carries_nothing socket)⟩
  · have looped : finished = _ := (if_neg notClosed).trans (if_neg empty)
    rw [looped]
    exact ⟨rfl, burst_loop_ended order uninitialised args
      ⟨{ generator with running := true, rngState := args.startSeed.toUInt32, seq := 0 },
        0, now, socket, []⟩ opened⟩

/-- A run over an open sender hands over what it has generated. If a send is short, the
index is in range, the number reported is that of the first message not handed over, and
the messages in front of it were handed over. -/
theorem run_fails_cleanly (args : RunArgs) (now : Int) (generator : Generator)
    (socket : Socket) (opened : 0 ≤ socket.fd) :
    let finished := run Socket.sendFrames order uninitialised Socket.fd args now generator
      socket
    (finished.ok = true ∧ finished.failure = none ∧
        finished.sender.2.accepted = socket.2.accepted ++
          finished.batches.flatten.map (carrier order uninitialised socket)) ∨
      (finished.ok = false ∧ ∃ (failure : SendFailure) (earlier : List (List MarketDataMsg))
        (batch : List MarketDataMsg) (sent : Nat) (inRange : sent < batch.length),
        finished.failure = some failure ∧ finished.batches = earlier ++ [batch] ∧
          failure.failedSeq = some (batch.get ⟨sent, inRange⟩).seqNum ∧
          finished.sender.2.accepted = socket.2.accepted ++
            (earlier.flatten ++ batch.take sent).map (carrier order uninitialised socket)) := by
  intro finished
  obtain ⟨ok, ended⟩ := run_ended order uninitialised args now generator socket opened
  cases failed : finished.failure with
  | none =>
      left
      rw [failed] at ok ended
      generalize finished.batches = batches at ended ⊢
      cases ended with
      | sent carried => exact ⟨ok, rfl, carried.accepted⟩
  | some failure =>
      right
      rw [failed] at ok ended
      refine ⟨ok, failure, ?_⟩
      generalize finished.batches = batches at ended ⊢
      cases ended with
      | @failed earlier batch _ before _ sent carried stopped =>
          have whole := carries_append carried stopped.carried
          exact ⟨earlier, batch, sent, stopped.in_range, rfl, rfl, stopped.reported,
            whole.accepted⟩

variable {order uninitialised}

theorem tx_frames_valid (batch : List MarketDataMsg) :
    ∀ frame ∈ (batch.map (encode order uninitialised)).map txFrame, frame.invalid = false := by
  intro frame member
  obtain ⟨encoded, -, rfl⟩ := List.mem_map.mp member
  rfl

/-- The kernel takes the whole batch in one call. -/
theorem send_or_fail_whole {socket : Socket} (opened : 0 ≤ socket.fd) {batch : List MarketDataMsg}
    (present : batch ≠ []) {more : Nat} (decided : socket.2.answers.next = .accept more)
    (fits : batch.length ≤ more + 1) (slotsRequested : Nat) :
    ∃ after, sendOrFail Socket.sendFrames order uninitialised socket batch slotsRequested =
        (none, after) ∧
      Carries order uninitialised socket batch after ∧
      after.2.answers = socket.2.answers.rest := by
  have offered : (batch.map (encode order uninitialised)).map txFrame ≠ [] := by
    simpa using present
  have sent := Sender.send_batch_whole opened decided (by simpa using fits)
    (tx_frames_valid batch) offered
  have counted := Sender.count_packets socket.1
    ((batch.map (encode order uninitialised)).map txFrame)
  have result : sendBatch Socket.sendFrames order uninitialised socket batch = _ := sent
  refine ⟨(sendBatch Socket.sendFrames order uninitialised socket batch).2, ?_, ?_, ?_⟩
  · simp only [sendOrFail, if_neg present, result, List.length_map, ↓reduceIte]
  · rw [result]
    refine ⟨counted.1, counted.2.1, ?_⟩
    simp only [List.map_map]
    rfl
  · rw [result]

/-- The kernel takes nothing. -/
theorem send_or_fail_refused {socket : Socket} (opened : 0 ≤ socket.fd)
    {batch : List MarketDataMsg} (present : batch ≠ [])
    (decided : socket.2.answers.next = .error .other) (slotsRequested : Nat) :
    ∃ after, sendOrFail Socket.sendFrames order uninitialised socket batch slotsRequested =
        (some ⟨batch[0]?.map MarketDataMsg.seqNum, slotsRequested⟩, after) ∧
      after.2.accepted = socket.2.accepted := by
  have offered : (batch.map (encode order uninitialised)).map txFrame ≠ [] := by
    simpa using present
  have sent := Sender.send_batch_refused opened decided (tx_frames_valid batch) offered
  have result : sendBatch Socket.sendFrames order uninitialised socket batch = _ := sent
  have short : ((0 : Int) = batch.length) = False := by
    have some_ := List.length_pos_iff.mpr present
    rw [eq_iff_iff, iff_false]
    omega
  refine ⟨(sendBatch Socket.sendFrames order uninitialised socket batch).2, ?_, ?_⟩
  · simp only [sendOrFail, if_neg present, result, short, ↓reduceIte]
    rfl
  · rw [result]


/-- A run whose first batch is taken and whose second one is refused. -/
theorem run_refused_after_batch {socket : Socket} (opened : 0 ≤ socket.fd) {args : RunArgs}
    (now : Int) {generator : Generator} {more : Nat}
    (accepts : socket.2.answers.answer 0 = .accept more)
    (refuses : socket.2.answers.answer 1 = .error .other)
    {first second : List MarketDataMsg × Generator}
    (filled : fillBatch args (slotsOf args 0).toNat
      { generator with running := true, rngState := args.startSeed.toUInt32, seq := 0 } = first)
    (refilled : fillBatch args (slotsOf args (slotsOf args 0)).toNat first.2 = second)
    (counted : 0 < args.count.toInt ∧ slotsOf args 0 < args.count.toInt)
    (present : first.1 ≠ [] ∧ second.1 ≠ []) (fits : first.1.length ≤ more + 1) :
    let finished := run Socket.sendFrames order uninitialised Socket.fd args now generator socket
    finished.ok = false ∧
      finished.failure.bind SendFailure.failedSeq = second.1[0]?.map MarketDataMsg.seqNum ∧
      finished.sender.2.accepted =
        socket.2.accepted ++ first.1.map (carrier order uninitialised socket) := by
  intro finished
  obtain ⟨after, sent, carried, answers⟩ := @send_or_fail_whole order uninitialised socket opened
    first.1 present.1 more accepts fits (slotsOf args 0).toNat
  have still : 0 ≤ after.fd := by
    rw [carried.fd]
    exact opened
  have refusesNext : after.2.answers.next = .error .other := by
    rw [answers]
    exact refuses
  obtain ⟨last, failed, accepted⟩ := @send_or_fail_refused order uninitialised after still
    second.1 present.2 refusesNext (slotsOf args (slotsOf args 0)).toNat
  rw [← filled] at sent
  have turned := @burst_loop_sent _ Socket.sendFrames order uninitialised args
    ⟨{ generator with running := true, rngState := args.startSeed.toUInt32, seq := 0 }, 0, now,
      socket, []⟩ after counted.1 sent
  generalize same : LoopState.after args _ after = state at turned
  have produced : state.produced = slotsOf args 0 := by
    rw [← same]
    exact Int.zero_add _
  have generated : state.generator = first.2 := by
    rw [← same, ← filled]
    rfl
  have sender : state.sender = after := by
    rw [← same]
    rfl
  rw [← refilled, ← sender, ← generated, ← produced] at failed
  obtain ⟨short, ended⟩ := burst_loop_short (by rw [produced]; exact counted.2) failed
  rw [← turned] at short ended
  have notClosed : ¬ socket.fd < 0 := by omega
  have some_ : ¬ args.count ≤ 0 := by
    rw [Int32.le_iff_toInt_le]
    exact Int.not_le.mpr counted.1
  have looped : finished = _ := (if_neg notClosed).trans (if_neg some_)
  rw [looped]
  refine ⟨?_, ?_, ?_⟩
  · simp only [short, Option.isNone_some]
  · simp only [short, Option.bind_some]
    rw [produced, generated, refilled]
  · simp only [ended]
    rw [accepted, carried.accepted]

/-- Three slots to a sender whose second call finds the buffer gone for good: the first two
messages are handed over, and the third is reported. -/
theorem failing_buffer_stops_cleanly :
    let kernel : BatchKernel := ⟨((AnswerStream.Answers.always (.error .other)
      (by decide)).before (.accept 4)), []⟩
    let socket : Socket := (⟨5, true, ⟨0, 0⟩, ⟨0, 0, 0, 0⟩⟩, kernel)
    let finished := run Socket.sendFrames .little (Vector.replicate kWireSize 0) Socket.fd
      ⟨3, 0, 1, 0, 1, 2⟩ 0 .constructed socket
    0 ≤ socket.fd ∧ finished.ok = false ∧ finished.sender.2.accepted.length = 2 ∧
      ∃ failure, finished.failure = some failure ∧ failure.failedSeq = some 2 := by
  intro kernel socket finished
  have opened : 0 ≤ socket.fd := by decide
  obtain ⟨fails, reported, accepted⟩ := @run_refused_after_batch .little
    (Vector.replicate kWireSize 0) socket opened ⟨3, 0, 1, 0, 1, 2⟩ 0 .constructed 4 rfl rfl _ _
    rfl rfl (by decide) (by decide) (by decide)
  obtain ⟨ok, -⟩ | ⟨ok, failure, -, -, -, -, failed, -⟩ := run_fails_cleanly .little
    (Vector.replicate kWireSize 0) ⟨3, 0, 1, 0, 1, 2⟩ 0 .constructed socket opened
  · exact absurd (fails.symm.trans ok) Bool.false_ne_true
  · refine ⟨opened, ok, ?_, failure, failed, ?_⟩
    · rw [accepted]
      rfl
    · rw [failed] at reported
      exact reported

end MarketDataEngine.GeneratorV2
