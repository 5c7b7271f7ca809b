import MarketDataEngine.FramePool
import MarketDataEngine.MessageStage
import MarketDataEngine.StreamBlocks

/-!
# Reassembling frames from a TCP stream

`consume_frames` copies received bytes into the connection's frame and hands every
frame it completes to the pool. The loop copies as much as fits at a time; it does
what the same bytes would do one by one, so where the stream was cut cannot show.

`assembled` is a history of the completed frames and of what became of them.
-/

namespace MarketDataEngine.Net

open MarketDataEngine.Protocol MarketDataEngine.Containers MarketDataEngine.Engine
open MarketDataEngine.StreamBlocks MarketDataEngine.TransitionSystem

set_option autoImplicit false

def noBytes : Fin kWireSize := ⟨0, by decide⟩

/-- Between two calls the frame is never whole. -/
structure ConnState where
  fd : Int
  have_ : Fin kWireSize
  frame : Frame

/-- A frame is published in a slot, with what the slot held when its index was pushed. -/
inductive Handling where
  | published (idx : Nat) (slot : Frame)
  | dropped
  deriving DecidableEq

structure Assembled where
  frame : Frame
  handling : Handling
  deriving DecidableEq

/-- What `consume_frames` is passed by reference besides the connection. -/
structure Sink (capacity : Capacity) where
  pool : FramePool capacity
  metrics : Metrics
  assembled : List Assembled

variable {capacity : Capacity}

def poolOf (slots : Nat → Frame) (free ready : RingBuffer Nat capacity) : FramePool capacity where
  slots := slots
  rings
    | .free => free
    | .ready => ready

namespace Sink

def drop (sink : Sink capacity) (frame : Frame) : Sink capacity :=
  { sink with
    metrics := sink.metrics.incDrops 1
    assembled := sink.assembled ++ [⟨frame, .dropped⟩] }

/-- A whole frame. -/
def handOver (sink : Sink capacity) (frame : Frame) : Sink capacity :=
  match (sink.pool.rings .free).pop with
  | (_, none) => sink.drop frame
  | (free, some idx) =>
      let slots := Function.update sink.pool.slots idx frame
      match (sink.pool.rings .ready).push idx with
      | (ready, true) =>
          { sink with
            pool := poolOf slots free ready
            assembled := sink.assembled ++ [⟨frame, .published idx (slots idx)⟩] }
      | (ready, false) => { sink with pool := poolOf slots (free.push idx).1 ready }.drop frame

end Sink

/-- The body of the loop: bytes that fit are copied, a whole frame is handed over. -/
def copyIn (st : ConnState) (bytes : List UInt8) (sink : Sink capacity) :
    ConnState × Sink capacity :=
  let frame := memcpyFrame st.frame st.have_ bytes
  if partly : st.have_ + bytes.length < kWireSize then
    (⟨st.fd, ⟨st.have_ + bytes.length, partly⟩, frame⟩, sink)
  else (⟨st.fd, noBytes, frame⟩, sink.handOver frame)

def consumeFrames (st : ConnState) (data : List UInt8) (sink : Sink capacity) :
    ConnState × Sink capacity :=
  if _remaining : 0 < data.length then
    let need := kWireSize - st.have_
    let take := if data.length < need then data.length else need
    let copied := copyIn st (data.take take) sink
    consumeFrames copied.1 (data.drop take) copied.2
  else (st, sink)
termination_by data.length
decreasing_by
  have bounded := st.have_.isLt
  rw [List.length_drop]
  split_ifs <;> omega

/-! ## Byte by byte -/

def consumeByte (state : ConnState × Sink capacity) (byte : UInt8) : ConnState × Sink capacity :=
  copyIn state.1 [byte] state.2

theorem memcpy_frame_get (frame : Frame) (off : Nat) (bytes : List UInt8) {index : Nat}
    (bound : index < kWireSize) :
    (memcpyFrame frame off bytes)[index] =
      if inside : off ≤ index ∧ index < off + bytes.length then bytes[index - off]
      else frame[index] := by
  simp only [memcpyFrame, Vector.getElem_ofFn]
  rfl

theorem memcpy_frame_append (frame : Frame) (off : Nat) (first rest : List UInt8) :
    memcpyFrame (memcpyFrame frame off first) (off + first.length) rest =
      memcpyFrame frame off (first ++ rest) := by
  apply Vector.ext
  intro index bound
  simp only [memcpy_frame_get, List.length_append]
  by_cases early : index < off + first.length
  · rw [dif_neg (by omega)]
    by_cases inside : off ≤ index
    · rw [dif_pos ⟨inside, early⟩, dif_pos ⟨inside, by omega⟩, List.getElem_append_left]
    · rw [dif_neg (by omega), dif_neg (by omega)]
  · by_cases inside : index < off + (first.length + rest.length)
    · rw [dif_pos ⟨by omega, by omega⟩, dif_pos ⟨by omega, inside⟩,
        List.getElem_append_right (by omega)]
      congr 1
      omega
    · rw [dif_neg (by omega), dif_neg (by omega), dif_neg (by omega)]

/-- Copying in two goes, the first of which does not complete the frame. -/
theorem copy_in_append (st : ConnState) (first rest : List UInt8) (sink : Sink capacity)
    (partly : st.have_ + first.length < kWireSize) :
    copyIn (copyIn st first sink).1 rest (copyIn st first sink).2 =
      copyIn st (first ++ rest) sink := by
  simp only [copyIn, partly, ↓reduceDIte, List.length_append, memcpy_frame_append,
    Nat.add_assoc]

theorem fold_copy_in (st : ConnState) (bytes : List UInt8) (sink : Sink capacity)
    (some_ : 0 < bytes.length) (fits : st.have_ + bytes.length ≤ kWireSize) :
    bytes.foldl consumeByte (st, sink) = copyIn st bytes sink := by
  induction bytes generalizing st sink with
  | nil => exact absurd some_ (Nat.lt_irrefl 0)
  | cons byte rest ih =>
      by_cases last : rest = []
      · rw [last]
        rfl
      · have more : 0 < rest.length := List.length_pos_iff.mpr last
        rw [List.length_cons] at fits
        have partly : st.have_ + [byte].length < kWireSize := by
          rw [List.length_singleton]
          omega
        have held : ((copyIn st [byte] sink).1.have_ : Nat) = st.have_ + 1 := by
          simp only [copyIn, partly, ↓reduceDIte]
          rfl
        have joined := copy_in_append st [byte] rest sink partly
        rw [List.singleton_append] at joined
        rw [List.foldl_cons, ← joined]
        exact ih (copyIn st [byte] sink).1 (copyIn st [byte] sink).2 more (by omega)

/-- The loop does what the bytes do one by one. -/
theorem consume_frames_fold (st : ConnState) (data : List UInt8) (sink : Sink capacity) :
    consumeFrames st data sink = data.foldl consumeByte (st, sink) := by
  fun_induction consumeFrames st data sink with
  | case1 st data sink remaining need take copied ih =>
      have bounded := st.have_.isLt
      have taken : take ≤ data.length ∧ 0 < take ∧ st.have_ + take ≤ kWireSize := by
        simp only [take, need]
        split_ifs <;> omega
      have length : (data.take take).length = take := by
        rw [List.length_take]
        omega
      have chunk := fold_copy_in st (data.take take) sink (by omega) (by omega)
      rw [ih]
      show (data.drop take).foldl consumeByte copied = _
      rw [show copied = (data.take take).foldl consumeByte (st, sink) from chunk.symm,
        ← List.foldl_append, List.take_append_drop]
  | case2 st data sink done =>
      rw [List.eq_nil_of_length_eq_zero (Nat.eq_zero_of_not_pos done)]
      rfl

theorem consume_frames_append (st : ConnState) (first rest : List UInt8)
    (sink : Sink capacity) :
    consumeFrames st (first ++ rest) sink =
      consumeFrames (consumeFrames st first sink).1 rest (consumeFrames st first sink).2 := by
  simp only [consume_frames_fold, List.foldl_append]

/-! ## The pool -/

/-- Where an index can be: in a ring, or held by whoever took it from the ready ring. -/
def poolPlaces (pool : FramePool capacity) (held : List Nat) : List Nat :=
  (pool.rings .free).contents ++ ((pool.rings .ready).contents ++ held)

/-- The rings hold indices of slots, each in one place. -/
structure PoolSound (pool : FramePool capacity) (held : List Nat) : Prop where
  bounded : ∀ name, (pool.rings name).Bounded
  once : (poolPlaces pool held).Nodup
  in_range : ∀ idx ∈ poolPlaces pool held, idx < capacity.val

theorem places_le_capacity {places : List Nat} (once : places.Nodup)
    (inRange : ∀ idx ∈ places, idx < capacity.val) : places.length ≤ capacity.val := by
  have inside : places ⊆ List.range capacity.val := fun idx member =>
    List.mem_range.mpr (inRange idx member)
  have fewer := (List.Nodup.subperm once inside).length_le
  rwa [List.length_range] at fewer

theorem pool_sound_of_perm {pool after : FramePool capacity} {held heldAfter : List Nat}
    (sound : PoolSound pool held) (bounded : ∀ name, (after.rings name).Bounded)
    (moved : (poolPlaces after heldAfter).Perm (poolPlaces pool held)) :
    PoolSound after heldAfter where
  bounded := bounded
  once := moved.nodup_iff.mpr sound.once
  in_range idx member := sound.in_range idx (moved.mem_iff.mp member)

theorem pool_sound_init (pool : FramePool capacity) : PoolSound pool.init [] := by
  have places : poolPlaces pool.init [] = List.range capacity.val := by
    rw [poolPlaces, List.append_nil]
    show (FramePool.initRings pool.rings .free).contents ++
      (FramePool.initRings pool.rings .ready).contents = _
    rw [(init_free pool.rings).1, init_ready, List.append_nil]
  refine ⟨init_bounded pool.rings, ?_, ?_⟩
  · rw [places]
    exact List.nodup_range
  · intro idx member
    rw [places] at member
    exact List.mem_range.mp member

/-- What happens to a whole frame in a sound pool. -/
inductive HandedOver (sink after : Sink capacity) (frame : Frame) : Prop where
  | dropped (empty : (sink.pool.rings .free).contents = []) (dropped : after = sink.drop frame)
  | published (idx : Nat) (pool : FramePool capacity)
      (free : (sink.pool.rings .free).contents = idx :: (pool.rings .free).contents)
      (ready : (pool.rings .ready).contents = (sink.pool.rings .ready).contents ++ [idx])
      (slots : pool.slots = Function.update sink.pool.slots idx frame)
      (published : after = ⟨pool, sink.metrics,
        sink.assembled ++ [⟨frame, .published idx frame⟩]⟩)

theorem handed_over {sink : Sink capacity} {held : List Nat}
    (sound : PoolSound sink.pool held) (frame : Frame) :
    HandedOver sink (sink.handOver frame) frame := by
  obtain ⟨popped, rest⟩ := (sink.pool.rings .free).pop_contents
  unfold Sink.handOver
  cases stored : (sink.pool.rings .free).contents with
  | nil =>
      rw [stored] at popped
      cases pop : (sink.pool.rings .free).pop with
      | mk free found =>
          rw [pop] at popped
          cases popped
          exact .dropped stored rfl
  | cons idx others =>
      rw [stored] at popped rest
      have few := places_le_capacity sound.once sound.in_range
      have room : (sink.pool.rings .ready).count < capacity.val := by
        rw [poolPlaces, stored] at few
        simp only [List.length_append, List.length_cons, RingBuffer.contents_length] at few
        omega
      have accepted := (sink.pool.rings .ready).push_accepts idx room
      have pushed := ((sink.pool.rings .ready).push_contents idx room).1
      cases pop : (sink.pool.rings .free).pop with
      | mk free found =>
          rw [pop] at popped rest
          cases popped
          cases push : (sink.pool.rings .ready).push idx with
          | mk ready ok =>
              rw [push] at accepted pushed
              cases accepted
              refine .published idx
                (poolOf (Function.update sink.pool.slots idx frame) free ready) ?_ pushed rfl ?_
              · rw [stored]
                exact congrArg (idx :: ·) rest.symm
              · simp only [push, Function.update_self]

theorem pool_sound_hand_over {sink : Sink capacity} {held : List Nat}
    (sound : PoolSound sink.pool held) (frame : Frame) :
    PoolSound (sink.handOver frame).pool held := by
  cases handed_over sound frame with
  | dropped empty dropped =>
      rw [dropped]
      exact sound
  | published idx pool free ready slots published =>
      have moved : (poolPlaces pool held).Perm (poolPlaces sink.pool held) := by
        apply List.perm_iff_count.mpr
        intro value
        simp only [poolPlaces, free, ready, List.count_append, List.count_cons, List.count_nil]
        omega
      have few := places_le_capacity (moved.nodup_iff.mpr sound.once)
        (fun other member => sound.in_range other (moved.mem_iff.mp member))
      rw [published]
      refine pool_sound_of_perm sound ?_ moved
      intro name
      simp only [poolPlaces, List.length_append, RingBuffer.contents_length] at few
      cases name with
      | free =>
          show (pool.rings .free).count ≤ _
          omega
      | ready =>
          show (pool.rings .ready).count ≤ _
          omega

/-! ## The frames of a stream -/

/-- The connection holds what is behind the last whole block. -/
structure Holds (st : ConnState) (stream : List UInt8) : Prop where
  have_eq : (st.have_ : Nat) = stream.length % kWireSize
  frame_eq : st.frame.toList.take st.have_ = leftover kWireSize stream

theorem holds_start {st : ConnState} (empty : (st.have_ : Nat) = 0) : Holds st [] := by
  constructor
  · rw [empty, List.length_nil, Nat.zero_mod]
  · rw [leftover_nil, empty, List.take_zero]

/-- One byte: the frame is completed by it, or holds it. -/
theorem consume_byte_holds {st : ConnState} {stream : List UInt8} (holds : Holds st stream)
    (sink : Sink capacity) (byte : UInt8) :
    Holds (consumeByte (st, sink) byte).1 (stream ++ [byte]) ∧
      (((consumeByte (st, sink) byte).2 = sink ∧
          blocks kWireSize (stream ++ [byte]) = blocks kWireSize stream) ∨
        ∃ frame : Frame, (consumeByte (st, sink) byte).2 = sink.handOver frame ∧
          blocks kWireSize (stream ++ [byte]) = blocks kWireSize stream ++ [frame.toList]) := by
  have positive : 0 < kWireSize := by decide
  have grown := blocks_concat positive stream byte
  have bounded := st.have_.isLt
  have held : (leftover kWireSize stream).length = st.have_ :=
    (leftover_length stream).trans holds.have_eq.symm
  have extended := memcpy_frame_extends st.frame (leftover kWireSize stream) [byte]
    (by rw [held]; exact holds.frame_eq) (by rw [held]; exact bounded)
  rw [held] at grown extended
  rw [List.length_append, List.length_singleton, held] at extended
  by_cases partly : (st.have_ : Nat) + 1 < kWireSize
  · rw [if_neg (Nat.ne_of_lt partly)] at grown
    obtain ⟨sameBlocks, longer⟩ := grown
    have copied : consumeByte (st, sink) byte =
        (⟨st.fd, ⟨st.have_ + 1, partly⟩, memcpyFrame st.frame st.have_ [byte]⟩, sink) :=
      dif_pos partly
    rw [copied]
    refine ⟨⟨?_, ?_⟩, .inl ⟨rfl, sameBlocks⟩⟩
    · rw [← leftover_length, longer, List.length_append, held]
      rfl
    · rw [longer]
      exact extended
  · have whole : (st.have_ : Nat) + 1 = kWireSize := by omega
    rw [if_pos whole] at grown
    obtain ⟨oneMore, nothing⟩ := grown
    have copied : consumeByte (st, sink) byte =
        (⟨st.fd, noBytes, memcpyFrame st.frame st.have_ [byte]⟩,
          sink.handOver (memcpyFrame st.frame st.have_ [byte])) :=
      dif_neg partly
    rw [copied]
    refine ⟨⟨?_, ?_⟩, .inr ⟨memcpyFrame st.frame st.have_ [byte], rfl, ?_⟩⟩
    · rw [← leftover_length, nothing]
      rfl
    · rw [nothing]
      exact List.take_zero
    · rw [oneMore, ← extended, whole,
        List.take_of_length_le (Nat.le_of_eq Vector.length_toList)]

namespace Assembled

def isDropped (entry : Assembled) : Bool := decide (entry.handling = .dropped)

/-- The frame that a reader of the ready ring finds. -/
def publishedFrame (entry : Assembled) : Option Frame :=
  match entry.handling with
  | .published _ slot => some slot
  | .dropped => none

end Assembled

/-- The frames behind the indices of the ready ring. -/
def poolReady (pool : FramePool capacity) : List Frame :=
  (pool.rings .ready).contents.map pool.slots

def Sink.readyFrames (sink : Sink capacity) : List Frame := poolReady sink.pool

/-- What a stretch of the loop adds: every new frame is published as it is or counted as
a drop. -/
structure Adds (sink after : Sink capacity) (added : List Assembled) : Prop where
  assembled : after.assembled = sink.assembled ++ added
  metrics : after.metrics = { sink.metrics with
    drops := sink.metrics.drops + UInt64.ofNat (added.countP Assembled.isDropped) }
  published : ∀ entry ∈ added, ∀ idx slot, entry.handling = .published idx slot →
    slot = entry.frame ∧ idx < capacity.val
  ready : after.readyFrames = sink.readyFrames ++ added.filterMap Assembled.publishedFrame

theorem adds_nothing (sink : Sink capacity) : Adds sink sink [] where
  assembled := (List.append_nil _).symm
  metrics := by simp
  published := by simp
  ready := (List.append_nil _).symm

theorem adds_trans {sink middle after : Sink capacity} {first second : List Assembled}
    (early : Adds sink middle first) (late : Adds middle after second) :
    Adds sink after (first ++ second) where
  assembled := by rw [late.assembled, early.assembled, List.append_assoc]
  metrics := by
    rw [late.metrics, early.metrics, List.countP_append, UInt64.ofNat_add]
    simp only [UInt64.add_assoc]
  published := by
    intro entry member
    rcases List.mem_append.mp member with before | behind
    · exact early.published entry before
    · exact late.published entry behind
  ready := by rw [late.ready, early.ready, List.filterMap_append, List.append_assoc]

theorem adds_hand_over {sink : Sink capacity} {held : List Nat}
    (sound : PoolSound sink.pool held) (frame : Frame) :
    ∃ handling, Adds sink (sink.handOver frame) [⟨frame, handling⟩] := by
  cases handed_over sound frame with
  | dropped empty dropped =>
      rw [dropped]
      refine ⟨.dropped, rfl, rfl, ?_, ?_⟩
      · intro entry member idx slot impossible
        rw [List.mem_singleton.mp member] at impossible
        cases impossible
      · exact (List.append_nil _).symm
  | published idx pool free ready slots published =>
      have apart : idx ∉ (sink.pool.rings .ready).contents := by
        have once := sound.once
        rw [poolPlaces, free, List.cons_append, List.nodup_cons] at once
        intro member
        exact once.1 (List.mem_append_right _ (List.mem_append_left _ member))
      have inRange : idx < capacity.val := by
        apply sound.in_range
        rw [poolPlaces, free]
        exact List.mem_append_left _ List.mem_cons_self
      rw [published]
      refine ⟨.published idx frame, rfl, ?_, ?_, ?_⟩
      · simp [Assembled.isDropped]
      · intro entry member idx' slot same
        rw [List.mem_singleton.mp member] at same ⊢
        cases same
        exact ⟨rfl, inRange⟩
      · show (pool.rings .ready).contents.map pool.slots =
          (sink.pool.rings .ready).contents.map sink.pool.slots ++ [frame]
        rw [ready, slots, List.map_append, List.map_singleton, Function.update_self]
        congr 1
        apply List.map_congr_left
        intro other member
        apply Function.update_of_ne
        rintro rfl
        exact apart member

/-- A call of `consume_frames`, whatever the pool can take. -/
structure Consumed (st next : ConnState) (sink after : Sink capacity) (held : List Nat)
    (stream data : List UInt8) : Prop where
  fd : next.fd = st.fd
  holds : Holds next (stream ++ data)
  sound : PoolSound after.pool held
  added : ∃ added, Adds sink after added ∧ blocks kWireSize (stream ++ data) =
    blocks kWireSize stream ++ added.map fun entry => entry.frame.toList

theorem consume_byte_consumed {st : ConnState} {sink : Sink capacity} {held : List Nat}
    {stream : List UInt8} (holds : Holds st stream) (sound : PoolSound sink.pool held)
    (byte : UInt8) :
    Consumed st (consumeByte (st, sink) byte).1 sink (consumeByte (st, sink) byte).2 held
      stream [byte] := by
  have fd : (consumeByte (st, sink) byte).1.fd = st.fd := by
    simp only [consumeByte, copyIn]
    split_ifs <;> rfl
  obtain ⟨holdsNext, quiet | whole⟩ := consume_byte_holds holds sink byte
  · obtain ⟨same, sameBlocks⟩ := quiet
    refine ⟨fd, holdsNext, ?_, [], ?_, ?_⟩
    · rw [same]
      exact sound
    · rw [same]
      exact adds_nothing sink
    · rw [sameBlocks, List.map_nil, List.append_nil]
  · obtain ⟨frame, handed, oneMore⟩ := whole
    obtain ⟨handling, adds⟩ := adds_hand_over sound frame
    refine ⟨fd, holdsNext, ?_, [⟨frame, handling⟩], ?_, ?_⟩
    · rw [handed]
      exact pool_sound_hand_over sound frame
    · rw [handed]
      exact adds
    · rw [oneMore, List.map_singleton]

theorem consume_frames_consumed {st : ConnState} {sink : Sink capacity} {held : List Nat}
    {stream : List UInt8} (holds : Holds st stream) (sound : PoolSound sink.pool held)
    (data : List UInt8) :
    Consumed st (consumeFrames st data sink).1 sink (consumeFrames st data sink).2 held
      stream data := by
  rw [consume_frames_fold]
  induction data generalizing st sink stream with
  | nil =>
      refine ⟨rfl, ?_, sound, [], adds_nothing sink, ?_⟩
      · rw [List.append_nil]
        exact holds
      · rw [List.append_nil, List.map_nil, List.append_nil]
  | cons byte rest ih =>
      have first := consume_byte_consumed holds sound byte
      have later := ih first.holds first.sound
      obtain ⟨firstAdded, firstAdds, firstBlocks⟩ := first.added
      obtain ⟨laterAdded, laterAdds, laterBlocks⟩ := later.added
      have joined : stream ++ [byte] ++ rest = stream ++ (byte :: rest) := by
        rw [List.append_assoc, List.singleton_append]
      rw [joined] at laterBlocks
      refine ⟨later.fd.trans first.fd, joined ▸ later.holds, later.sound,
        firstAdded ++ laterAdded, adds_trans firstAdds laterAdds, ?_⟩
      rw [laterBlocks, firstBlocks, List.map_append, List.append_assoc]

/-! ## Segments and draining -/

/-- One connection and whoever drains the ready ring. `held` are indices taken out and
not yet given back; `stream` and `drained` are histories. -/
structure Reassembly (capacity : Capacity) where
  conn : ConnState
  sink : Sink capacity
  held : List Nat
  stream : List UInt8
  drained : List Frame

inductive ReassemblyLabel where
  | consume (data : List UInt8)
  | drain
  | recycle (idx : Nat)

def Sink.setRing (sink : Sink capacity) (name : PoolRing) (ring : RingBuffer Nat capacity) :
    Sink capacity :=
  { sink with pool := { sink.pool with rings := Function.update sink.pool.rings name ring } }

/-- A reader pops the ready ring and keeps the index as long as it likes. -/
def reassemblyStep (machine : Reassembly capacity) :
    ReassemblyLabel → Option (Reassembly capacity)
  | .consume data =>
      let consumed := consumeFrames machine.conn data machine.sink
      some { machine with
        conn := consumed.1
        sink := consumed.2
        stream := machine.stream ++ data }
  | .drain =>
      match (machine.sink.pool.rings .ready).pop with
      | (_, none) => some machine
      | (ready, some idx) =>
          some { machine with
            sink := machine.sink.setRing .ready ready
            held := idx :: machine.held
            drained := machine.drained ++ [machine.sink.pool.slots idx] }
  | .recycle idx =>
      if idx ∈ machine.held then
        some { machine with
          sink := machine.sink.setRing .free ((machine.sink.pool.rings .free).push idx).1
          held := machine.held.erase idx }
      else none

def reassemblyFrom (first : Reassembly capacity) :
    System (Reassembly capacity) ReassemblyLabel where
  start := fun machine => machine = first
  step := reassemblyStep

/-- A new connection over a sound pool. -/
structure Reassembly.Fresh (first : Reassembly capacity) : Prop where
  empty : (first.conn.have_ : Nat) = 0
  stream : first.stream = []
  assembled : first.sink.assembled = []
  drained : first.drained = []
  sound : PoolSound first.sink.pool first.held

/-- The i-th frame is the i-th block of the stream; it is published, or dropped and
counted; the readers find the published frames in order. The connection holds the
rest of the stream. -/
structure Reassembled (first machine : Reassembly capacity) : Prop where
  frames : (machine.sink.assembled.map fun entry => entry.frame.toList) =
    blocks kWireSize machine.stream
  published : ∀ entry ∈ machine.sink.assembled, ∀ idx slot,
    entry.handling = .published idx slot → slot = entry.frame ∧ idx < capacity.val
  drops : machine.sink.metrics = { first.sink.metrics with
    drops := first.sink.metrics.drops +
      UInt64.ofNat (machine.sink.assembled.countP Assembled.isDropped) }
  ready : first.sink.readyFrames ++
      machine.sink.assembled.filterMap Assembled.publishedFrame =
    machine.drained ++ machine.sink.readyFrames
  holds : Holds machine.conn machine.stream
  sound : PoolSound machine.sink.pool machine.held

/-- Taking an index out of the ready ring. -/
theorem sink_drained {sink : Sink capacity} {held : List Nat} (sound : PoolSound sink.pool held)
    {ready : RingBuffer Nat capacity} {idx : Nat}
    (popped : (sink.pool.rings .ready).pop = (ready, some idx)) :
    PoolSound (sink.setRing .ready ready).pool (idx :: held) ∧
      sink.readyFrames = sink.pool.slots idx :: (sink.setRing .ready ready).readyFrames := by
  obtain ⟨found, rest⟩ := (sink.pool.rings .ready).pop_contents
  rw [popped] at found rest
  obtain ⟨others, stored⟩ := List.head?_eq_some_iff.mp found.symm
  have remaining : ready.contents = others := by
    rw [stored, List.tail_cons] at rest
    exact rest
  refine ⟨pool_sound_of_perm sound ?_ ?_, ?_⟩
  · intro name
    cases name with
    | free => exact sound.bounded .free
    | ready =>
        have before := sound.bounded .ready
        unfold RingBuffer.Bounded at before
        rw [← RingBuffer.contents_length, stored, List.length_cons] at before
        show ready.count ≤ _
        rw [← RingBuffer.contents_length, remaining]
        omega
  · apply List.perm_iff_count.mpr
    intro value
    simp only [poolPlaces, Sink.setRing, Function.update_self, ne_eq, reduceCtorEq,
      not_false_eq_true, Function.update_of_ne, stored, remaining, List.count_append,
      List.count_cons]
    omega
  · simp only [Sink.readyFrames, poolReady, Sink.setRing, Function.update_self, stored, remaining,
      List.map_cons]

/-- Giving an index back. -/
theorem sink_recycled {sink : Sink capacity} {held : List Nat} (sound : PoolSound sink.pool held)
    {idx : Nat} (mine : idx ∈ held) :
    PoolSound (sink.setRing .free ((sink.pool.rings .free).push idx).1).pool (held.erase idx) := by
  have few := places_le_capacity sound.once sound.in_range
  have one : 0 < held.length := List.length_pos_of_mem mine
  have room : (sink.pool.rings .free).count < capacity.val := by
    simp only [poolPlaces, List.length_append, RingBuffer.contents_length] at few
    omega
  have pushed := ((sink.pool.rings .free).push_contents idx room).1
  refine pool_sound_of_perm sound ?_ ?_
  · intro name
    cases name with
    | ready => exact sound.bounded .ready
    | free =>
        show ((sink.pool.rings .free).push idx).1.count ≤ _
        rw [← RingBuffer.contents_length, pushed, List.length_append, RingBuffer.contents_length]
        exact room
  · apply List.perm_iff_count.mpr
    intro value
    have erased := (List.perm_cons_erase mine).count_eq value
    simp only [poolPlaces, Sink.setRing, Function.update_self, ne_eq, reduceCtorEq,
      not_false_eq_true, Function.update_of_ne, pushed, List.count_append, List.count_cons,
      List.count_nil] at erased ⊢
    omega

theorem reassembled_start {first : Reassembly capacity} (fresh : first.Fresh) :
    Reassembled first first where
  frames := by
    rw [fresh.assembled, fresh.stream, blocks_nil]
    rfl
  published := by
    rw [fresh.assembled]
    simp
  drops := by
    rw [fresh.assembled]
    simp
  ready := by
    rw [fresh.assembled, fresh.drained]
    exact List.append_nil _
  holds := by
    rw [fresh.stream]
    exact holds_start fresh.empty
  sound := fresh.sound

theorem reassembled_consume {first machine : Reassembly capacity}
    (before : Reassembled first machine) (data : List UInt8) :
    Reassembled first { machine with
      conn := (consumeFrames machine.conn data machine.sink).1
      sink := (consumeFrames machine.conn data machine.sink).2
      stream := machine.stream ++ data } := by
  have consumed := consume_frames_consumed before.holds before.sound data
  obtain ⟨added, adds, newBlocks⟩ := consumed.added
  refine ⟨?_, ?_, ?_, ?_, consumed.holds, consumed.sound⟩
  · rw [adds.assembled, newBlocks, List.map_append, before.frames]
  · intro entry member
    rw [adds.assembled] at member
    rcases List.mem_append.mp member with early | late
    · exact before.published entry early
    · exact adds.published entry late
  · rw [adds.metrics, adds.assembled, before.drops, List.countP_append, UInt64.ofNat_add]
    simp only [UInt64.add_assoc]
  · rw [adds.assembled, adds.ready, List.filterMap_append, ← List.append_assoc, before.ready,
      List.append_assoc]

theorem reassembled_step {first machine next : Reassembly capacity} {label : ReassemblyLabel}
    (before : Reassembled first machine)
    (taken : reassemblyStep machine label = some next) : Reassembled first next := by
  cases label with
  | consume data =>
      cases taken
      exact reassembled_consume before data
  | drain =>
      simp only [reassemblyStep] at taken
      split at taken
      · cases taken
        exact before
      · next ready idx popped =>
          cases taken
          obtain ⟨sound, drained⟩ := sink_drained before.sound popped
          refine ⟨before.frames, before.published, before.drops, ?_, before.holds, sound⟩
          refine before.ready.trans ?_
          rw [drained, List.append_assoc, List.singleton_append]
  | recycle idx =>
      simp only [reassemblyStep] at taken
      split_ifs at taken with mine
      cases taken
      exact ⟨before.frames, before.published, before.drops, before.ready, before.holds,
        sink_recycled before.sound mine⟩

/-- However the stream is cut into calls and whatever readers do between them. -/
theorem reassembly_independent_of_segmentation {first machine : Reassembly capacity}
    (fresh : first.Fresh) (reached : Reaches (reassemblyFrom first) machine) :
    Reassembled first machine ∧
      ∀ (st : ConnState) (sink : Sink capacity) (a b : List UInt8),
        consumeFrames st (a ++ b) sink =
          consumeFrames (consumeFrames st a sink).1 b (consumeFrames st a sink).2 := by
  refine ⟨?_, fun st sink a b => consume_frames_append st a b sink⟩
  refine invariant_of_step ?_ ?_ reached
  · intro start same
    rw [show start = first from same]
    exact reassembled_start fresh
  · intro state label next _ before _ taken
    exact reassembled_step before taken

def fourSlots : Capacity := ⟨4, by decide, by decide, by decide⟩

def fourSlotPool : FramePool fourSlots :=
  FramePool.init ⟨fun _ => Vector.replicate kWireSize 0, fun _ => ⟨0, 0, fun _ => 0⟩⟩

def newConnection : Reassembly fourSlots where
  conn := ⟨5, noBytes, Vector.replicate kWireSize 0⟩
  sink := ⟨fourSlotPool, .zero, []⟩
  held := []
  stream := []
  drained := []

/-- Fifty bytes in two segments leave six bytes of the second frame. -/
theorem reassembly_of_fifty_bytes :
    ∃ machine, runLabels (reassemblyFrom newConnection) newConnection
        [.consume (List.replicate 30 1), .consume (List.replicate 20 2)] = some machine ∧
      (machine.conn.have_ : Nat) = 6 ∧ Reassembled newConnection machine := by
  have fresh : newConnection.Fresh := ⟨rfl, rfl, rfl, rfl, pool_sound_init _⟩
  have initial : Reaches (reassemblyFrom newConnection) newConnection := reaches_start rfl
  let labels : List ReassemblyLabel :=
    [.consume (List.replicate 30 1), .consume (List.replicate 20 2)]
  refine ⟨_, rfl, ?_⟩
  have reached := reaches_run initial (rfl : runLabels _ _ labels = _)
  have reassembled := (reassembly_independent_of_segmentation fresh reached).1
  refine ⟨reassembled.holds.have_eq.trans ?_, reassembled⟩
  simp only [newConnection, List.nil_append, List.length_append, List.length_replicate, kWireSize]

end MarketDataEngine.Net
