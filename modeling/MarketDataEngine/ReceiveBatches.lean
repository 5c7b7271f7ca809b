import MarketDataEngine.ReceiverObjects

/-!
# Receiving one by one and in batches

`receive_one` and `receive_batch` over a socket with a queue of datagrams. `recvmmsg` fills as many
frames as it likes of those it was given, at least one if there is a datagram. Either call may be
interrupted and is then made again.

The engine's model of the receiver leaves the socket open; `receive_batch` over a queue is one of
the receivers it allows.
-/

namespace MarketDataEngine.Net

open MarketDataEngine.Protocol

set_option autoImplicit false

structure PeerDatagram where
  peer : SocketAddress
  bytes : List UInt8

/-- The source's `RxFrame` with the memory behind its pointer, `none` for a null pointer. -/
structure RxBuffer where
  data : Option (List UInt8)
  capacity : Nat
  len : Nat
  peer : SocketAddress
  truncated : Bool

namespace RxBuffer

variable (buffer : RxBuffer)

/-- `reset_frame` -/
def reset : RxBuffer := { buffer with len := 0, peer := noAddress, truncated := false }

/-- `frame.data == nullptr || frame.capacity == 0` -/
def invalid : Bool := buffer.data.isNone || buffer.capacity == 0

/-- The datagram as far as it fits, over what was there before. -/
def stored (bytes : List UInt8) : Option (List UInt8) :=
  buffer.data.map fun memory =>
    bytes.take buffer.capacity ++ memory.drop (min bytes.length buffer.capacity)

end RxBuffer

/-- The answer to one `recvmsg`; whether it would block is up to the queue. -/
inductive RecvmsgAnswer where
  | goes
  | interrupted
  | failed

/-- The answer to one `recvmmsg`, of at most `limit + 1` datagrams. -/
inductive RecvmmsgAnswer where
  | goes (limit : Nat)
  | interrupted
  | failed

/-- The arguments `frames` and `count`. -/
inductive RxFrames where
  | null (count : Nat)
  | array (frames : List RxBuffer)

namespace RxFrames

def count : RxFrames → Nat
  | .null count => count
  | .array frames => frames.length

end RxFrames

structure OneResult where
  receiver : ReceiverObject
  queue : List PeerDatagram
  buffer : RxBuffer
  ok : Bool

structure BatchResult where
  receiver : ReceiverObject
  queue : List PeerDatagram
  frames : List RxBuffer
  returned : Int

namespace ReceiverObject

variable (receiver : ReceiverObject)

def countError : ReceiverObject :=
  { receiver with stats :=
    { receiver.stats with receivedErrors := receiver.stats.receivedErrors + 1 } }

def countEagain : ReceiverObject :=
  { receiver with stats := { receiver.stats with eagain := receiver.stats.eagain + 1 } }

def countFrame (buffer : RxBuffer) : ReceiverObject :=
  { receiver with stats :=
    { receiver.stats with
      receivedPackets := receiver.stats.receivedPackets + 1
      receivedBytes := receiver.stats.receivedBytes + UInt64.ofNat buffer.len } }

/-- A frame behind a successful receive. -/
def fill (buffer : RxBuffer) (datagram : PeerDatagram) : RxBuffer where
  data := buffer.stored datagram.bytes
  capacity := buffer.capacity
  len := min datagram.bytes.length buffer.capacity
  peer := if receiver.connected then receiver.remote else datagram.peer
  truncated := decide (buffer.capacity < datagram.bytes.length)

def recvmsgLoop (receiver : ReceiverObject) (queue : List PeerDatagram) (buffer : RxBuffer) :
    List RecvmsgAnswer → Option OneResult
  | [] => none
  | .interrupted :: answers => receiver.recvmsgLoop queue buffer answers
  | .failed :: _ => some ⟨receiver.countError, queue, buffer, false⟩
  | .goes :: _ =>
      match queue with
      | [] => some ⟨receiver.countEagain, [], buffer, false⟩
      | datagram :: later =>
          let filled := receiver.fill buffer datagram
          some ⟨receiver.countFrame filled, later, filled, true⟩

/-- `receive_one` -/
def receiveOne (queue : List PeerDatagram) (buffer : RxBuffer) (answers : List RecvmsgAnswer) :
    Option OneResult :=
  if receiver.fd.isNone || buffer.invalid then
    some ⟨receiver.countError, queue, buffer.reset, false⟩
  else receiver.recvmsgLoop queue buffer.reset answers

/-- The loop that resets the frames, up to the first one that cannot be used. -/
def resetFrames : List RxBuffer → List RxBuffer × Bool
  | [] => ([], true)
  | buffer :: rest =>
      if buffer.invalid then (buffer.reset :: rest, false)
      else (buffer.reset :: (resetFrames rest).1, (resetFrames rest).2)

def recvmmsgLoop (receiver : ReceiverObject) (queue : List PeerDatagram)
    (frames : List RxBuffer) : List RecvmmsgAnswer → Option BatchResult
  | [] => none
  | .interrupted :: answers => receiver.recvmmsgLoop queue frames answers
  | .failed :: _ => some ⟨receiver.countError, queue, frames, -1⟩
  | .goes limit :: _ =>
      if queue.isEmpty then some ⟨receiver.countEagain, queue, frames, 0⟩
      else
        let n := min (limit + 1) (min frames.length queue.length)
        let filled := (frames.take n).zipWith receiver.fill (queue.take n)
        some ⟨filled.foldl countFrame receiver, queue.drop n, filled ++ frames.drop n, n⟩

/-- `receive_batch` -/
def receiveBatch (queue : List PeerDatagram) (frames : RxFrames)
    (answers : List RecvmmsgAnswer) : Option BatchResult :=
  if receiver.fd.isNone || frames.count == 0 then some ⟨receiver, queue, [], -1⟩
  else
    match frames with
    | .null _ => some ⟨receiver.countError, queue, [], -1⟩
    | .array frames =>
        let reset := resetFrames frames
        if reset.2 then receiver.recvmmsgLoop queue reset.1 answers
        else some ⟨receiver.countError, queue, reset.1, -1⟩

/-- Calls of `receive_one` for one frame after another, each interrupted some times, until one
returns false. -/
def receiveEach (receiver : ReceiverObject) (queue : List PeerDatagram) :
    List (RxBuffer × Nat) → Option BatchResult
  | [] => some ⟨receiver, queue, [], 0⟩
  | (buffer, interrupts) :: rest =>
      (receiver.receiveOne queue buffer (List.replicate interrupts .interrupted ++ [.goes])).bind
        fun one =>
          if one.ok then
            (receiveEach one.receiver one.queue rest).map fun more =>
              { more with frames := one.buffer :: more.frames, returned := more.returned + 1 }
          else some ⟨one.receiver, one.queue, one.buffer :: rest.map Prod.fst, 0⟩

/-! ## The two agree -/

theorem reset_frames_usable {frames : List RxBuffer}
    (usable : ∀ buffer ∈ frames, buffer.invalid = false) :
    resetFrames frames = (frames.map RxBuffer.reset, true) := by
  induction frames with
  | nil => rfl
  | cons buffer rest ih =>
      have first := usable buffer List.mem_cons_self
      have others := ih fun other member => usable other (List.mem_cons_of_mem _ member)
      simp [resetFrames, first, others]

theorem recvmsg_loop_goes (interrupts : Nat) (datagram : PeerDatagram)
    (later : List PeerDatagram) (buffer : RxBuffer) :
    receiver.recvmsgLoop (datagram :: later) buffer
        (List.replicate interrupts .interrupted ++ [.goes]) =
      some ⟨receiver.countFrame (receiver.fill buffer datagram), later,
        receiver.fill buffer datagram, true⟩ := by
  induction interrupts with
  | zero => rfl
  | succ interrupts ih => exact ih

/-- One by one, as long as there are datagrams. -/
theorem receive_each_filled (opened : receiver.fd.isNone = false) {queue : List PeerDatagram}
    {calls : List (RxBuffer × Nat)}
    (usable : ∀ call ∈ calls, call.1.invalid = false) (enough : calls.length ≤ queue.length) :
    receiver.receiveEach queue calls =
      let filled := (calls.map fun call => call.1.reset).zipWith receiver.fill
        (queue.take calls.length)
      some ⟨filled.foldl countFrame receiver, queue.drop calls.length, filled, calls.length⟩ := by
  induction calls generalizing receiver queue with
  | nil => rfl
  | cons call rest ih =>
      obtain ⟨buffer, interrupts⟩ := call
      cases queue with
      | nil => exact absurd enough (Nat.not_succ_le_zero _)
      | cons datagram later =>
          have first : buffer.invalid = false := usable _ List.mem_cons_self
          have one : receiver.receiveOne (datagram :: later) buffer
              (List.replicate interrupts .interrupted ++ [.goes]) =
              some ⟨receiver.countFrame (receiver.fill buffer.reset datagram), later,
                receiver.fill buffer.reset datagram, true⟩ := by
            unfold receiveOne
            rw [opened, first]
            exact recvmsg_loop_goes receiver interrupts datagram later buffer.reset
          have others := ih (receiver.countFrame (receiver.fill buffer.reset datagram)) opened
            (fun call member => usable call (List.mem_cons_of_mem _ member))
            (Nat.le_of_succ_le_succ enough)
          -- a receive changes the counters only, so the next frame is filled alike
          have alike : (receiver.countFrame (receiver.fill buffer.reset datagram)).fill =
            receiver.fill := rfl
          rw [alike] at others
          simp only [receiveEach, one, Option.bind_some, if_true, others, Option.map_some,
            List.map_cons, List.length_cons, List.take_succ_cons, List.zipWith_cons_cons,
            List.foldl_cons, List.drop_succ_cons, Nat.cast_succ]

/-- The three ways out of the loop around `recvmmsg`. -/
theorem recvmmsg_loop_cases {queue : List PeerDatagram} {frames : List RxBuffer}
    {answers : List RecvmmsgAnswer} {result : BatchResult}
    (returned : receiver.recvmmsgLoop queue frames answers = some result) :
    result = ⟨receiver.countError, queue, frames, -1⟩ ∨
      queue = [] ∧ result = ⟨receiver.countEagain, queue, frames, 0⟩ ∨
      queue ≠ [] ∧ ∃ limit,
        let n := min (limit + 1) (min frames.length queue.length)
        let filled := (frames.take n).zipWith receiver.fill (queue.take n)
        result = ⟨filled.foldl countFrame receiver, queue.drop n, filled ++ frames.drop n, n⟩ := by
  induction answers with
  | nil => cases returned
  | cons answer rest ih =>
      cases answer with
      | interrupted => exact ih returned
      | failed =>
          cases returned
          exact .inl rfl
      | goes limit =>
          simp only [recvmmsgLoop] at returned
          split_ifs at returned with empty
          · cases returned
            exact .inr (.inl ⟨List.isEmpty_iff.mp empty, rfl⟩)
          · cases returned
            refine .inr (.inr ⟨?_, limit, rfl⟩)
            exact fun nothing => empty (List.isEmpty_iff.mpr nothing)

theorem receive_batch_usable (opened : receiver.fd.isNone = false) {queue : List PeerDatagram}
    {frames : List RxBuffer} (some_ : frames ≠ [])
    (usable : ∀ buffer ∈ frames, buffer.invalid = false) (answers : List RecvmmsgAnswer) :
    receiver.receiveBatch queue (.array frames) answers =
      receiver.recvmmsgLoop queue (frames.map RxBuffer.reset) answers := by
  have counted : ((RxFrames.array frames).count == 0) = false := by
    cases frames with
    | nil => exact absurd rfl some_
    | cons buffer rest => rfl
  unfold receiveBatch
  rw [opened, counted]
  simp [reset_frames_usable usable]

/-- Whenever `receive_batch` returns on an open receiver with usable frames, then either it has
failed, and received nothing, or the `n` it returns are the `n` frames that as many calls of
`receive_one` would have received, with the same bytes, lengths, peers and marks, the same counters
and the same datagrams left; the frames behind them are reset. It returns 0 exactly when there is
no datagram, which it counts. -/
theorem batch_agrees_with_singles (receiver : ReceiverObject) (queue : List PeerDatagram)
    (frames : List RxBuffer) (answers : List RecvmmsgAnswer) (result : BatchResult)
    (opened : receiver.fd.isNone = false) (some_ : frames ≠ [])
    (usable : ∀ buffer ∈ frames, buffer.invalid = false)
    (returned : receiver.receiveBatch queue (.array frames) answers = some result) :
    (result.returned = -1 ∧ result.queue = queue ∧ result.frames = frames.map RxBuffer.reset ∧
      result.receiver = receiver.countError) ∨
      ∃ n : Nat, result.returned = n ∧ n ≤ frames.length ∧ (n = 0 ↔ queue = []) ∧
        ∀ calls : List (RxBuffer × Nat), calls.map Prod.fst = frames.take n →
          ∃ singles, receiver.receiveEach queue calls = some singles ∧ singles.returned = n ∧
            result.queue = singles.queue ∧
            result.frames = singles.frames ++ (frames.drop n).map RxBuffer.reset ∧
            result.receiver = if n = 0 then receiver.countEagain else singles.receiver := by
  rw [receive_batch_usable receiver opened some_ usable] at returned
  rcases recvmmsg_loop_cases receiver returned with rfl | ⟨rfl, rfl⟩ | ⟨waiting, limit, its⟩
  · exact .inl ⟨rfl, rfl, rfl, rfl⟩
  · refine .inr ⟨0, rfl, Nat.zero_le _, ⟨fun _ => rfl, fun _ => rfl⟩, ?_⟩
    intro calls none_
    have empty : calls = [] := List.map_eq_nil_iff.mp none_
    rw [empty]
    exact ⟨_, rfl, rfl, rfl, rfl, rfl⟩
  · apply Or.inr
    rw [List.length_map] at its
    have positive : 0 < queue.length := List.length_pos_iff.mpr waiting
    have room : 0 < frames.length := List.length_pos_iff.mpr some_
    refine ⟨min (limit + 1) (min frames.length queue.length), ?_, ?_, ?_, ?_⟩
    · rw [its]
    · omega
    · constructor
      · intro none_
        omega
      · exact fun nothing => absurd nothing waiting
    · intro calls same
      have length : calls.length = min (limit + 1) (min frames.length queue.length) := by
        rw [← List.length_map (f := Prod.fst), same, List.length_take]
        omega
      have callsUsable : ∀ call ∈ calls, call.1.invalid = false := by
        intro call member
        apply usable
        apply List.mem_of_mem_take
        rw [← same]
        exact List.mem_map_of_mem member
      have each := receive_each_filled receiver opened callsUsable
        (show calls.length ≤ queue.length by omega)
      have filled : (calls.map fun call => call.1.reset) =
          (frames.take (min (limit + 1) (min frames.length queue.length))).map RxBuffer.reset := by
        rw [← same, List.map_map]
        rfl
      rw [filled, length] at each
      refine ⟨_, each, rfl, ?_, ?_, ?_⟩
      · rw [its]
      · rw [its, List.map_take, List.map_drop]
      · rw [its, if_neg (by omega), List.map_take]

/-- Two frames, the first of them too small for its datagram. -/
def twoFrames : List RxBuffer :=
  [⟨some [9, 9], 2, 7, noAddress, true⟩, ⟨some [9, 9, 9, 9], 4, 0, noAddress, false⟩]

def threeDatagrams : List PeerDatagram :=
  [⟨⟨1, 1⟩, [1, 2, 3]⟩, ⟨⟨2, 2⟩, [4]⟩, ⟨⟨3, 3⟩, []⟩]

/-- The socket is open and not connected. -/
def openReceiver : ReceiverObject := ⟨some 3, none, false, noAddress, ⟨0, 0, 0, 0⟩⟩

theorem two_frames_received_alike :
    ∃ result singles, openReceiver.receiveBatch threeDatagrams (.array twoFrames)
        [.interrupted, .goes 31] = some result ∧
      openReceiver.receiveEach threeDatagrams (twoFrames.map fun buffer => (buffer, 1)) =
        some singles ∧
      result.returned = 2 ∧ result.queue = singles.queue ∧ result.frames = singles.frames ∧
      result.receiver = singles.receiver := by
  obtain ⟨result, returned, two⟩ : ∃ result, openReceiver.receiveBatch threeDatagrams
      (.array twoFrames) [.interrupted, .goes 31] = some result ∧ result.returned = 2 :=
    ⟨_, rfl, rfl⟩
  rcases batch_agrees_with_singles openReceiver threeDatagrams twoFrames _ result rfl
    (List.cons_ne_nil _ _) (by decide) returned with ⟨failed, -⟩ | ⟨n, count, -, -, alike⟩
  · rw [two] at failed
    cases failed
  · obtain rfl : n = 2 := by omega
    obtain ⟨singles, each, -, queue, frames, receiver⟩ :=
      alike (twoFrames.map fun buffer => (buffer, 1)) rfl
    refine ⟨result, singles, returned, each, two, queue, ?_, receiver⟩
    rw [frames]
    exact List.append_nil _

/-! ## The receiver of the engine's model -/

/-- What the engine's model keeps of a receiver and of a frame that is a slot. -/
def toReceiver : Receiver := ⟨receiver.fd.isSome, receiver.epfd.isSome, receiver.stats⟩

def toRxFrame (buffer : RxBuffer) : RxFrame where
  len := buffer.len
  truncated := buffer.truncated
  slot := Vector.ofFn fun position => (buffer.data.getD []).getD position.val 0

/-- The answers as the engine's model has them. -/
def toReply (queue : List PeerDatagram) (frames : List RxBuffer) : RecvmmsgAnswer → RecvmmsgReply
  | .interrupted => .interrupted
  | .failed => .failed
  | .goes limit =>
      let n := min (limit + 1) (min frames.length queue.length)
      match ((frames.take n).zipWith receiver.fill (queue.take n)).map toRxFrame with
      | first :: rest => .frames first rest
      | [] => .again

theorem count_frames_to_receiver (filled : List RxBuffer) :
    (filled.foldl countFrame receiver).toReceiver =
      (filled.map toRxFrame).foldl Receiver.countFrame receiver.toReceiver := by
  induction filled generalizing receiver with
  | nil => rfl
  | cons buffer rest ih =>
      rw [List.foldl_cons, ih (receiver.countFrame buffer)]
      rfl

/-- The frames of one answer. -/
theorem filled_refines {queue : List PeerDatagram} {frames : List RxBuffer} {limit : Nat}
    (positive : 0 < min (limit + 1) (min frames.length queue.length))
    (inFrames : min (limit + 1) (min frames.length queue.length) ≤ frames.length)
    (inQueue : min (limit + 1) (min frames.length queue.length) ≤ queue.length)
    (rest : List RecvmmsgReply) :
    let n := min (limit + 1) (min frames.length queue.length)
    let filled := (frames.take n).zipWith receiver.fill (queue.take n)
    ∃ outcome, receiver.toReceiver.recvmmsgLoop frames.length
        (receiver.toReply queue frames (.goes limit) :: rest) =
          some ((filled.foldl countFrame receiver).toReceiver, outcome) ∧
      outcome.received = ((filled ++ frames.drop n).take (n : Int).toNat).map toRxFrame := by
  intro n filled
  have length : filled.length = n := by
    simp only [filled, List.length_zipWith, List.length_take]
    omega
  have taken : (filled ++ frames.drop n).take (n : Int).toNat = filled := by
    rw [Int.toNat_natCast, ← length, List.take_left]
  have reply : ∀ {first : RxFrame} {others : List RxFrame},
      filled.map toRxFrame = first :: others →
      receiver.toReply queue frames (.goes limit) = .frames first others := by
    intro first others shape
    simp only [toReply]
    rw [show ((frames.take n).zipWith receiver.fill (queue.take n)).map toRxFrame =
      first :: others from shape]
  cases shape : filled.map toRxFrame with
  | nil =>
      have none_ := congrArg List.length shape
      rw [List.length_map, length] at none_
      exact absurd none_ (Nat.pos_iff_ne_zero.mp positive)
  | cons first others =>
      have size : (first :: others).length ≤ frames.length := by
        rw [← shape, List.length_map, length]
        exact inFrames
      refine ⟨.frames first others, ?_, ?_⟩
      · rw [reply shape, count_frames_to_receiver, shape]
        simp only [Receiver.recvmmsgLoop, if_pos size]
      · rw [taken, shape]
        rfl

theorem recvmmsg_loop_refines {queue : List PeerDatagram} {frames : List RxBuffer}
    (some_ : frames ≠ []) {answers : List RecvmmsgAnswer} {result : BatchResult}
    (returned : receiver.recvmmsgLoop queue frames answers = some result) :
    ∃ outcome, receiver.toReceiver.recvmmsgLoop frames.length
        (answers.map (receiver.toReply queue frames)) =
          some (result.receiver.toReceiver, outcome) ∧
      outcome.received = (result.frames.take result.returned.toNat).map toRxFrame := by
  induction answers with
  | nil => cases returned
  | cons answer rest ih =>
      cases answer with
      | interrupted => exact ih returned
      | failed =>
          cases returned
          exact ⟨_, rfl, rfl⟩
      | goes limit =>
          simp only [recvmmsgLoop] at returned
          split_ifs at returned with empty
          · cases returned
            rw [List.isEmpty_iff] at empty
            subst empty
            refine ⟨.nothing, ?_, rfl⟩
            simp only [List.map_cons, toReply, List.length_nil, Nat.min_zero, List.take_zero,
              List.zipWith_nil_left, List.map_nil]
            rfl
          · cases returned
            have waiting : 0 < queue.length := by
              cases queue with
              | nil => exact absurd rfl empty
              | cons datagram later => exact Nat.succ_pos _
            have room : 0 < frames.length := List.length_pos_iff.mpr some_
            exact filled_refines receiver (by omega) (by omega) (by omega) _

/-- `receive_batch` over a queue of datagrams is a call that the engine's model allows, with the
same frames and counters. -/
theorem receive_batch_refines (opened : receiver.fd.isNone = false) {queue : List PeerDatagram}
    {frames : List RxBuffer} (some_ : frames ≠ [])
    (usable : ∀ buffer ∈ frames, buffer.invalid = false) {answers : List RecvmmsgAnswer}
    {result : BatchResult}
    (returned : receiver.receiveBatch queue (.array frames) answers = some result) :
    ∃ outcome, receiver.toReceiver.receiveBatch frames.length
        (answers.map (receiver.toReply queue (frames.map RxBuffer.reset))) =
          some (result.receiver.toReceiver, outcome) ∧
      outcome.received = (result.frames.take result.returned.toNat).map toRxFrame := by
  rw [receive_batch_usable receiver opened some_ usable] at returned
  obtain ⟨outcome, called, received⟩ := recvmmsg_loop_refines receiver
    (fun nothing => some_ (List.map_eq_nil_iff.mp nothing)) returned
  refine ⟨outcome, ?_, received⟩
  rw [List.length_map] at called
  have isOpen : receiver.toReceiver.fdOpen = true := by
    unfold toReceiver
    rw [← Option.not_isNone, opened]
    rfl
  have counted : (frames.length == 0) = false := by
    cases frames with
    | nil => exact absurd rfl some_
    | cons buffer rest => rfl
  unfold Receiver.receiveBatch
  rw [isOpen, counted]
  exact called

theorem two_frames_as_modelled :
    ∃ outcome, openReceiver.toReceiver.receiveBatch 2
        ([RecvmmsgAnswer.goes 31].map
          (openReceiver.toReply threeDatagrams (twoFrames.map RxBuffer.reset))) =
          some (⟨true, false, ⟨2, 3, 0, 0⟩⟩, outcome) ∧
      outcome.received.map RxFrame.truncated = [true, false] := by
  obtain ⟨result, returned, counted, marks⟩ : ∃ result, openReceiver.receiveBatch threeDatagrams
      (.array twoFrames) [.goes 31] = some result ∧
      result.receiver.toReceiver = ⟨true, false, ⟨2, 3, 0, 0⟩⟩ ∧
      ((result.frames.take result.returned.toNat).map toRxFrame).map RxFrame.truncated =
        [true, false] :=
    ⟨_, rfl, rfl, rfl⟩
  obtain ⟨outcome, called, received⟩ := receive_batch_refines openReceiver rfl
    (List.cons_ne_nil _ _) (by decide) returned
  refine ⟨outcome, ?_, ?_⟩
  · rw [← counted]
    exact called
  · rw [received]
    exact marks

end ReceiverObject

end MarketDataEngine.Net
