import MarketDataEngine.EngineV3Model
import MarketDataEngine.ReadTrace

/-!
# Engine v3: no read outside the packet

`process_one` once more, this time with every access to the frame as a read of its
own: two for a 16-bit header field, and the range that each `memcpy` of `decode`
copies. A test stands before the reads that it guards, in the order of the source.
The value computed is that of the definitions on whole frames.
-/

namespace MarketDataEngine.EngineV3

open MarketDataEngine.Protocol MarketDataEngine.Engine MarketDataEngine.ReadTrace
open MarketDataEngine.ReadTrace.Reads

set_option autoImplicit false

/-! ## The reads of the source -/

def readBe16 (off : Nat) : Reads UInt8 UInt16 := do
  let high ← cell off
  let low ← cell (off + 1)
  pure (UInt16.ofNat (high.toNat * 256 + low.toNat))

def extractUdpPayloadReads (packet : PacketView) (expectedDstPort : UInt16) :
    Reads UInt8 Extracted :=
  if packet.data.isNone ∨ packet.len < kEtherHdrLen then pure .rejected
  else do
    let etherType ← readBe16 12
    if etherType ≠ kEtherTypeIpv4 then pure .rejected
    else if packet.len < kEtherHdrLen + kIpv4HdrLen then pure .rejected
    else do
      let versionIhl ← cell kEtherHdrLen
      let version := versionIhl >>> 4
      let ipHdrLen := (versionIhl &&& 0x0f).toNat * 4
      if version ≠ 4 ∨ ipHdrLen < kIpv4HdrLen then pure .rejected
      else if packet.len < kEtherHdrLen + ipHdrLen + kUdpHdrLen then pure .rejected
      else do
        let nextProtoId ← cell (kEtherHdrLen + 9)
        if nextProtoId ≠ kIpprotoUdp then pure .rejected
        else do
          let totalLength ← readBe16 (kEtherHdrLen + 2)
          if totalLength.toNat < ipHdrLen + kUdpHdrLen then pure .rejected
          else if packet.len < kEtherHdrLen + totalLength.toNat then pure .rejected
          else do
            let udpOffset := kEtherHdrLen + ipHdrLen
            let dstPort ← readBe16 (udpOffset + 2)
            if expectedDstPort ≠ 0 ∧ dstPort ≠ expectedDstPort then pure .rejected
            else do
              let udpLen ← readBe16 (udpOffset + 4)
              if udpLen.toNat < kUdpHdrLen then pure .rejected
              else
                let payloadLen := udpLen.toNat - kUdpHdrLen
                pure
                  { ok := decide (udpOffset + kUdpHdrLen + payloadLen ≤ packet.len)
                    payload := some (udpOffset + kUdpHdrLen)
                    payloadLen := payloadLen }

/-- The pointer `data` is an offset into the frame. -/
def readU32Reads (order : ByteOrder) (data off : Nat) : Reads UInt8 (UInt32 × Nat) := do
  let bytes ← range (data + off) 4
  pure (be32ToHost order (UInt32.ofNat (objectValue order bytes)), off + 4)

def readU64Reads (order : ByteOrder) (data off : Nat) : Reads UInt8 (UInt64 × Nat) := do
  let bytes ← range (data + off) 8
  pure (be64ToHost order (UInt64.ofNat (objectValue order bytes)), off + 8)

def readI64Reads (order : ByteOrder) (data off : Nat) : Reads UInt8 (Int64 × Nat) := do
  let bytes ← range (data + off) 8
  pure ((be64ToHost order (UInt64.ofNat (objectValue order bytes))).toInt64, off + 8)

def decodeReads (order : ByteOrder) (data len : Nat) (msg : MarketDataMsg) :
    Reads UInt8 (Bool × MarketDataMsg) :=
  if len < kWireSize then pure (false, msg)
  else do
    let (seqNum, off) ← readU64Reads order data 0
    let (symbolId, off) ← readU32Reads order data off
    let (exchangeTs, off) ← readI64Reads order data off
    let (bidPrice, off) ← readI64Reads order data off
    let (askPrice, off) ← readI64Reads order data off
    let (bidSize, off) ← readU32Reads order data off
    let (askSize, _) ← readU32Reads order data off
    pure (true, ⟨seqNum, symbolId, exchangeTs, bidPrice, askPrice, bidSize.toInt32,
      askSize.toInt32⟩)

def processOneReads (order : ByteOrder) (udpDstPort : UInt16) (tracker : SequenceTracker)
    (packet : PacketView) : Reads UInt8 SequenceTracker :=
  match packet.data with
  | none => pure tracker
  | some _ => do
      let extracted ← extractUdpPayloadReads packet udpDstPort
      match extracted.ok, extracted.payload with
      | true, some payload => do
          let result ← decodeReads order payload extracted.payloadLen ⟨0, 0, 0, 0, 0, 0, 0⟩
          pure (if result.1 then tracker.observe result.2.seqNum else tracker)
      | _, _ => pure tracker

/-! ## The same values -/

theorem eval_extract (frame : List UInt8) (len : Nat) (expectedDstPort : UInt16) :
    (extractUdpPayloadReads ⟨some frame, len⟩ expectedDstPort).eval (byteAt frame) =
      extractUdpPayload ⟨some frame, len⟩ expectedDstPort := by
  simp only [extractUdpPayloadReads, extractUdpPayload, Option.isNone_some,
    Bool.false_eq_true, false_or, eval_ite, eval_pure, eval_bind]
  rfl

/-- Inside the payload the fields of the message are those of the frame. -/
theorem drop_take_payload (frame : List UInt8) {data len off width : Nat}
    (inside : off + width ≤ len) :
    (((frame.drop data).take len).drop off).take width =
      (frame.drop (data + off)).take width := by
  rw [List.drop_take, List.take_take, List.drop_drop, Nat.min_eq_left (by omega)]

section Decode

variable {frame : List UInt8} {data len : Nat}

theorem eval_read_u32 (order : ByteOrder) {off : Nat} (inPayload : off + 4 ≤ len)
    (inFrame : data + len ≤ frame.length) :
    (readU32Reads order data off).eval (byteAt frame) =
      readU32 order ((frame.drop data).take len) off := by
  have bytes : (range (data + off) 4).eval (byteAt frame) = _ :=
    eval_range (show data + off + 4 ≤ frame.length by omega)
  simp only [readU32Reads, eval_bind, eval_pure, bytes, readU32, drop_take_payload frame inPayload]

theorem eval_read_u64 (order : ByteOrder) {off : Nat} (inPayload : off + 8 ≤ len)
    (inFrame : data + len ≤ frame.length) :
    (readU64Reads order data off).eval (byteAt frame) =
      readU64 order ((frame.drop data).take len) off := by
  have bytes : (range (data + off) 8).eval (byteAt frame) = _ :=
    eval_range (show data + off + 8 ≤ frame.length by omega)
  simp only [readU64Reads, eval_bind, eval_pure, bytes, readU64, drop_take_payload frame inPayload]

theorem eval_read_i64 (order : ByteOrder) {off : Nat} (inPayload : off + 8 ≤ len)
    (inFrame : data + len ≤ frame.length) :
    (readI64Reads order data off).eval (byteAt frame) =
      readI64 order ((frame.drop data).take len) off := by
  have bytes : (range (data + off) 8).eval (byteAt frame) = _ :=
    eval_range (show data + off + 8 ≤ frame.length by omega)
  simp only [readI64Reads, eval_bind, eval_pure, bytes, readI64, drop_take_payload frame inPayload]

theorem eval_decode (order : ByteOrder) (msg : MarketDataMsg)
    (inFrame : data + len ≤ frame.length) :
    (decodeReads order data len msg).eval (byteAt frame) =
      decode order ((frame.drop data).take len) len msg := by
  rw [decodeReads, decode, eval_ite]
  by_cases short : len < kWireSize
  · rw [if_pos short, if_pos short]
    rfl
  · rw [if_neg short, if_neg short]
    simp only [kWireSize] at short
    simp (disch := omega) only [eval_bind, eval_pure, @eval_read_u64 frame data len,
      @eval_read_u32 frame data len, @eval_read_i64 frame data len, readU64, readU32, readI64]

end Decode

/-! ## The reads stay inside -/

theorem within_read_be16 {limit off : Nat} {memory : Nat → UInt8} (inside : off + 1 < limit) :
    Within limit memory (readBe16 off) := by
  apply within_bind (within_cell (by omega))
  exact within_bind (within_cell inside) (within_pure _)

/-- Each header is read behind the test that it is there. The header length is at
least twenty bytes, and the frame reaches eight bytes further. -/
theorem within_extract (packet : PacketView) (memory : Nat → UInt8)
    (expectedDstPort : UInt16) :
    Within packet.len memory (extractUdpPayloadReads packet expectedDstPort) := by
  have ether : kEtherHdrLen = 14 := rfl
  have ipv4 : kIpv4HdrLen = 20 := rfl
  have udp : kUdpHdrLen = 8 := rfl
  refine within_ite (fun _ => within_pure _) fun etherHeader => ?_
  rw [not_or, not_lt] at etherHeader
  refine within_bind (within_read_be16 (by omega)) ?_
  refine within_ite (fun _ => within_pure _) fun _ => ?_
  refine within_ite (fun _ => within_pure _) fun ipv4Header => ?_
  refine within_bind (within_cell (by omega)) ?_
  refine within_ite (fun _ => within_pure _) fun headerLength => ?_
  refine within_ite (fun _ => within_pure _) fun udpHeader => ?_
  rw [not_or, not_lt] at headerLength
  rw [not_lt] at udpHeader
  refine within_bind (within_cell (by omega)) ?_
  refine within_ite (fun _ => within_pure _) fun _ => ?_
  refine within_bind (within_read_be16 (by omega)) ?_
  refine within_ite (fun _ => within_pure _) fun _ => ?_
  refine within_ite (fun _ => within_pure _) fun _ => ?_
  refine within_bind (within_read_be16 (by omega)) ?_
  refine within_ite (fun _ => within_pure _) fun _ => ?_
  refine within_bind (within_read_be16 (by omega)) ?_
  exact within_ite (fun _ => within_pure _) fun _ => within_pure _

/-- A field is read as one range, and what follows goes on behind it. -/
theorem within_read_field {Field Result : Type} {limit data off width : Nat} {memory : Nat → UInt8}
    {value : List UInt8 → Field} {rest : Field × Nat → Reads UInt8 Result}
    (inside : data + off + width ≤ limit)
    (later : ∀ field, Within limit memory (rest (field, off + width))) :
    Within limit memory
      ((range (data + off) width >>= fun bytes => pure (value bytes, off + width)) >>= rest) := by
  apply within_bind
  · exact within_bind (within_range inside) (within_pure _)
  · rw [eval_bind, eval_pure]
    exact later _

theorem within_decode (order : ByteOrder) {data len limit : Nat} (memory : Nat → UInt8)
    (msg : MarketDataMsg) (inside : data + len ≤ limit) :
    Within limit memory (decodeReads order data len msg) := by
  refine within_ite (fun _ => within_pure _) fun long => ?_
  have size : kWireSize = 44 := rfl
  rw [not_lt] at long
  refine within_read_field (by omega) fun seqNum => ?_
  refine within_read_field (by omega) fun symbolId => ?_
  refine within_read_field (by omega) fun exchangeTs => ?_
  refine within_read_field (by omega) fun bidPrice => ?_
  refine within_read_field (by omega) fun askPrice => ?_
  refine within_read_field (by omega) fun bidSize => ?_
  refine within_read_field (by omega) fun askSize => ?_
  exact within_pure _

/-- Behind an accepted header the decoder stays in the payload, and the payload in
the frame. -/
theorem process_one_reads_eq (order : ByteOrder) (udpDstPort : UInt16)
    (tracker : SequenceTracker) (frame : List UInt8) :
    (processOneReads order udpDstPort tracker ⟨some frame, frame.length⟩).eval (byteAt frame) =
        processOne order udpDstPort tracker ⟨some frame, frame.length⟩ ∧
      Within frame.length (byteAt frame)
        (processOneReads order udpDstPort tracker ⟨some frame, frame.length⟩) := by
  have extracted := eval_extract frame frame.length udpDstPort
  have first := within_extract ⟨some frame, frame.length⟩ (byteAt frame) udpDstPort
  by_cases ok : (extractUdpPayload ⟨some frame, frame.length⟩ udpDstPort).ok = true
  · have checks := checks_of_extract ok
    have covers := checks.udp_covers_header
    have inFrame := checks.udp_in_frame
    have inside : udpOffset frame + kUdpHdrLen + (dgramLen frame - kUdpHdrLen) ≤
        frame.length := by omega
    rw [extract_of_checks checks] at extracted
    constructor
    · simp only [processOneReads, processOne, eval_bind, extracted, extract_of_checks checks,
        eval_decode order _ inside, eval_pure, Extracted.bytes, ↓reduceIte]
    · refine within_bind first ?_
      rw [extracted]
      exact within_bind (within_decode order (byteAt frame) _ inside) (within_pure _)
  · have rejected := Bool.eq_false_iff.mpr ok
    constructor
    · simp only [processOneReads, processOne, eval_bind, extracted, rejected,
        Bool.false_eq_true, ↓reduceIte, eval_pure]
    · refine within_bind first ?_
      rw [extracted]
      simp only [rejected]
      exact within_pure _

/-- No packet makes the parser or the decoder look behind its end. -/
theorem process_one_reads_in_packet (order : ByteOrder) (udpDstPort : UInt16)
    (tracker : SequenceTracker) (frame : List UInt8) :
    let packet : PacketView := ⟨some frame, frame.length⟩
    (∀ off ∈ (extractUdpPayloadReads packet udpDstPort).offsets (byteAt frame),
        off < packet.len) ∧
      (∀ off ∈ (processOneReads order udpDstPort tracker packet).offsets (byteAt frame),
        off < packet.len) ∧
      (extractUdpPayloadReads packet udpDstPort).checked frame =
        some (extractUdpPayload packet udpDstPort) ∧
      (processOneReads order udpDstPort tracker packet).checked frame =
        some (processOne order udpDstPort tracker packet) := by
  intro packet
  have parsing := within_extract packet (byteAt frame) udpDstPort
  obtain ⟨same, inside⟩ := process_one_reads_eq order udpDstPort tracker frame
  refine ⟨parsing, inside, ?_, ?_⟩
  · rw [← eval_extract]
    exact checked_of_within parsing
  · rw [← same]
    exact checked_of_within inside

end MarketDataEngine.EngineV3
