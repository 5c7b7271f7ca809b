import MarketDataEngine.SequenceTracker

/-!
# Engine v3: parsing a raw Ethernet frame

`extract_udp_payload` and `process_one`. The DPDK header structures are the
packed layouts of 14, 20 and 8 bytes, so a field is read at a fixed offset from
the start of its header and turned from network byte order with
`rte_be_to_cpu_16`. A pointer into the frame is an offset.
-/

namespace MarketDataEngine.EngineV3

open MarketDataEngine.Protocol MarketDataEngine.Engine

set_option autoImplicit false

/-- `data` is `none` for a null pointer. -/
structure PacketView where
  data : Option (List UInt8)
  len : Nat

def kEtherHdrLen : Nat := 14

def kIpv4HdrLen : Nat := 20

def kUdpHdrLen : Nat := 8

def kEtherTypeIpv4 : UInt16 := 0x0800

def kIpprotoUdp : UInt8 := 17

/-- Zero behind the end of the bytes. -/
def byteAt (frame : List UInt8) (off : Nat) : UInt8 := frame.getD off 0

/-- A big-endian 16-bit field in host order. -/
def be16At (frame : List UInt8) (off : Nat) : UInt16 :=
  UInt16.ofNat ((byteAt frame off).toNat * 256 + (byteAt frame (off + 1)).toNat)

/-! ## Header fields -/

section Fields

variable (frame : List UInt8)

def etherType : UInt16 := be16At frame 12

def versionIhl : UInt8 := byteAt frame kEtherHdrLen

def version : UInt8 := versionIhl frame >>> 4

def ipHdrLen : Nat := (versionIhl frame &&& 0x0f).toNat * 4

def nextProtoId : UInt8 := byteAt frame (kEtherHdrLen + 9)

def totalLength : Nat := (be16At frame (kEtherHdrLen + 2)).toNat

/-- The flags and the offset of a fragment: three bits and thirteen. -/
def fragmentField : UInt16 := be16At frame (kEtherHdrLen + 6)

def moreFragments : Bool := fragmentField frame &&& 0x2000 != 0

def fragmentOffset : UInt16 := fragmentField frame &&& 0x1fff

def udpOffset : Nat := kEtherHdrLen + ipHdrLen frame

def dstPort : UInt16 := be16At frame (udpOffset frame + 2)

def dgramLen : Nat := (be16At frame (udpOffset frame + 4)).toNat

end Fields

/-- The return value and the two output parameters. -/
structure Extracted where
  ok : Bool
  payload : Option Nat
  payloadLen : Nat
  deriving DecidableEq

def Extracted.rejected : Extracted := ⟨false, none, 0⟩

def extractUdpPayload (packet : PacketView) (expectedDstPort : UInt16) : Extracted :=
  match packet.data with
  | none => .rejected
  | some frame =>
      if packet.len < kEtherHdrLen then .rejected
      else if etherType frame ≠ kEtherTypeIpv4 then .rejected
      else if packet.len < kEtherHdrLen + kIpv4HdrLen then .rejected
      else if version frame ≠ 4 ∨ ipHdrLen frame < kIpv4HdrLen then .rejected
      else if packet.len < kEtherHdrLen + ipHdrLen frame + kUdpHdrLen then .rejected
      else if nextProtoId frame ≠ kIpprotoUdp then .rejected
      else if totalLength frame < ipHdrLen frame + kUdpHdrLen then .rejected
      else if packet.len < kEtherHdrLen + totalLength frame then .rejected
      else if expectedDstPort ≠ 0 ∧ dstPort frame ≠ expectedDstPort then .rejected
      else if dgramLen frame < kUdpHdrLen then .rejected
      else
        let payloadLen := dgramLen frame - kUdpHdrLen
        { ok := decide (udpOffset frame + kUdpHdrLen + payloadLen ≤ packet.len)
          payload := some (udpOffset frame + kUdpHdrLen)
          payloadLen := payloadLen }

/-- The bytes the output parameters point at. -/
def Extracted.bytes (extracted : Extracted) (frame : List UInt8) : List UInt8 :=
  match extracted.payload with
  | some off => (frame.drop off).take extracted.payloadLen
  | none => []

/-- `process_one`: the tracker sees a message only behind a payload that was
extracted and decoded. -/
def processOne (order : ByteOrder) (udpDstPort : UInt16) (tracker : SequenceTracker)
    (packet : PacketView) : SequenceTracker :=
  match packet.data with
  | none => tracker
  | some frame =>
      let extracted := extractUdpPayload packet udpDstPort
      if extracted.ok then
        let result := decode order (extracted.bytes frame) extracted.payloadLen
          ⟨0, 0, 0, 0, 0, 0, 0⟩
        if result.1 then tracker.observe result.2.seqNum else tracker
      else tracker

/-! ## What is accepted -/

/-- The header tests of `extract_udp_payload`, field by field. -/
structure PassesChecks (frame : List UInt8) (len : Nat) (expectedDstPort : UInt16) :
    Prop where
  ether_type : etherType frame = kEtherTypeIpv4
  version_four : version frame = 4
  header_length : kIpv4HdrLen ≤ ipHdrLen frame
  protocol : nextProtoId frame = kIpprotoUdp
  total_covers_headers : ipHdrLen frame + kUdpHdrLen ≤ totalLength frame
  total_in_frame : kEtherHdrLen + totalLength frame ≤ len
  port : expectedDstPort = 0 ∨ dstPort frame = expectedDstPort
  udp_covers_header : kUdpHdrLen ≤ dgramLen frame
  udp_in_frame : udpOffset frame + dgramLen frame ≤ len

theorem extract_of_checks {frame : List UInt8} {len : Nat} {expectedDstPort : UInt16}
    (checks : PassesChecks frame len expectedDstPort) :
    extractUdpPayload ⟨some frame, len⟩ expectedDstPort =
      ⟨true, some (udpOffset frame + kUdpHdrLen), dgramLen frame - kUdpHdrLen⟩ := by
  obtain ⟨etherTypeOk, versionOk, headerOk, protocolOk, totalOk, totalInFrame, portOk,
    udpOk, udpInFrame⟩ := checks
  have portTest : ¬ (expectedDstPort ≠ 0 ∧ dstPort frame ≠ expectedDstPort) := by
    rintro ⟨expected, different⟩
    rcases portOk with zero | same
    · exact expected zero
    · exact different same
  have versionTest : ¬ (version frame ≠ 4 ∨ ipHdrLen frame < kIpv4HdrLen) := by
    rintro (different | short)
    · exact different versionOk
    · omega
  have inFrame : udpOffset frame + kUdpHdrLen + (dgramLen frame - kUdpHdrLen) ≤ len := by
    omega
  have offset : udpOffset frame = kEtherHdrLen + ipHdrLen frame := rfl
  simp only [extractUdpPayload]
  rw [if_neg (by omega), if_neg (fun different => different etherTypeOk),
    if_neg (by omega), if_neg versionTest, if_neg (by omega),
    if_neg (fun different => different protocolOk), if_neg (by omega),
    if_neg (by omega), if_neg portTest, if_neg (by omega), decide_eq_true inFrame]

theorem passed_test {test : Prop} [Decidable test] {rest : Extracted}
    (accepted : (if test then Extracted.rejected else rest).ok = true) :
    ¬ test ∧ rest.ok = true := by
  by_cases failed : test
  · rw [if_pos failed] at accepted
    exact absurd accepted Bool.false_ne_true
  · rw [if_neg failed] at accepted
    exact ⟨failed, accepted⟩

theorem checks_of_extract {frame : List UInt8} {len : Nat} {expectedDstPort : UInt16}
    (accepted : (extractUdpPayload ⟨some frame, len⟩ expectedDstPort).ok = true) :
    PassesChecks frame len expectedDstPort := by
  obtain ⟨-, accepted⟩ := passed_test accepted
  obtain ⟨etherTypeTest, accepted⟩ := passed_test accepted
  obtain ⟨-, accepted⟩ := passed_test accepted
  obtain ⟨versionTest, accepted⟩ := passed_test accepted
  obtain ⟨-, accepted⟩ := passed_test accepted
  obtain ⟨protocolTest, accepted⟩ := passed_test accepted
  obtain ⟨totalTest, accepted⟩ := passed_test accepted
  obtain ⟨frameTest, accepted⟩ := passed_test accepted
  obtain ⟨portTest, accepted⟩ := passed_test accepted
  obtain ⟨udpTest, accepted⟩ := passed_test accepted
  have inFrame : udpOffset frame + kUdpHdrLen + (dgramLen frame - kUdpHdrLen) ≤ len :=
    of_decide_eq_true accepted
  rw [not_or, not_not] at versionTest
  refine ⟨not_not.mp etherTypeTest, versionTest.1, not_lt.mp versionTest.2,
    not_not.mp protocolTest, not_lt.mp totalTest, not_lt.mp frameTest, ?_,
    not_lt.mp udpTest, by omega⟩
  by_cases zero : expectedDstPort = 0
  · exact .inl zero
  · exact .inr (not_not.mp fun different => portTest ⟨zero, different⟩)

theorem extract_ok_iff (frame : List UInt8) (len : Nat) (expectedDstPort : UInt16) :
    (extractUdpPayload ⟨some frame, len⟩ expectedDstPort).ok = true ↔
      PassesChecks frame len expectedDstPort := by
  constructor
  · exact checks_of_extract
  · intro checks
    rw [extract_of_checks checks]

end MarketDataEngine.EngineV3
