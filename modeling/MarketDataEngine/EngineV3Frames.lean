import MarketDataEngine.EngineV3Model

/-!
# Engine v3: frames accepted and frames misread

A `UdpFrame` is a well-formed frame by construction: it is written field by
field, with the lengths the fields announce. Every such frame yields its payload.
The other direction fails for two kinds of frames, which `Misread` names: a
fragment, and a datagram whose UDP length runs into the Ethernet trailer.
-/

namespace MarketDataEngine.EngineV3

open MarketDataEngine.ByteWord MarketDataEngine.Protocol MarketDataEngine.Engine

set_option autoImplicit false

/-! ## Fields as slices -/

theorem byte_at_eq {frame : List UInt8} {off : Nat} (present : off < frame.length) :
    byteAt frame off = frame[off] := by
  rw [byteAt, List.getD_eq_getElem?_getD, List.getElem?_eq_getElem present, Option.getD_some]

theorem byte_at_of_slice {frame : List UInt8} {off : Nat} {byte : UInt8}
    (field : slice frame off 1 = [byte]) : byteAt frame off = byte := by
  have present : off < frame.length := by
    by_contra outside
    rw [slice, List.drop_eq_nil_of_le (by omega)] at field
    simp at field
  rw [slice, List.drop_eq_getElem_cons present, List.take_succ_cons, List.take_zero] at field
  rw [byte_at_eq present]
  exact List.head_eq_of_cons_eq field

theorem be16_at_of_slice {frame : List UInt8} {off value : Nat} (bound : value < 65536)
    (field : slice frame off 2 = wordBytes 2 value) :
    (be16At frame off).toNat = value := by
  have present : off + 1 < frame.length := by
    have length := congrArg List.length field
    simp only [slice, List.length_take, List.length_drop, word_bytes_length] at length
    omega
  have bytes : slice frame off 2 = [byteAt frame off, byteAt frame (off + 1)] := by
    rw [slice, List.drop_eq_getElem_cons (by omega), List.drop_eq_getElem_cons present,
      byte_at_eq (by omega), byte_at_eq present]
    rfl
  have word : wordValue [byteAt frame off, byteAt frame (off + 1)] = value := by
    rw [← bytes, field, word_value_word_bytes, Nat.mod_eq_of_lt (by omega)]
  have sum : (byteAt frame off).toNat * 256 + (byteAt frame (off + 1)).toNat = value := by
    simpa [wordValue] using word
  rw [be16At, sum, UInt16.toNat_ofNat_of_lt' bound]

/-! ## Well-formed frames -/

/-- A UDP datagram in one IPv4 packet in one Ethernet frame. Bytes the parser does
not look at are arbitrary. -/
structure UdpFrame where
  macAddresses : Vector UInt8 12
  headerWords : Nat
  shortest_header : 5 ≤ headerWords
  longest_header : headerWords ≤ 15
  typeOfService : UInt8
  /-- Identification, fragment field and time to live. -/
  packetControl : Vector UInt8 5
  /-- Header checksum, source and destination address. -/
  packetAddressing : Vector UInt8 10
  options : Vector UInt8 (4 * (headerWords - 5))
  srcPort : Vector UInt8 2
  dstPort : UInt16
  dgramCksum : Vector UInt8 2
  payload : List UInt8
  total_length_fits : 4 * headerWords + 8 + payload.length ≤ 65535
  padding : List UInt8

namespace UdpFrame

def fields (frame : UdpFrame) : List (List UInt8) :=
  [frame.macAddresses.toList, wordBytes 2 0x0800,
    [UInt8.ofNat (4 * 16 + frame.headerWords)], [frame.typeOfService],
    wordBytes 2 (4 * frame.headerWords + 8 + frame.payload.length),
    frame.packetControl.toList, [17], frame.packetAddressing.toList,
    frame.options.toList, frame.srcPort.toList, wordBytes 2 frame.dstPort.toNat,
    wordBytes 2 (8 + frame.payload.length), frame.dgramCksum.toList, frame.payload]

def bytes (frame : UdpFrame) : List UInt8 := frame.fields.flatten ++ frame.padding

/-- The view `poll` hands out: the start of the frame and its length. -/
def packet (frame : UdpFrame) : PacketView := ⟨some frame.bytes, frame.bytes.length⟩

theorem bytes_length (frame : UdpFrame) :
    frame.bytes.length =
      14 + 4 * frame.headerWords + 8 + frame.payload.length + frame.padding.length := by
  have shortest := frame.shortest_header
  simp [bytes, fields]
  omega

theorem field_slice (frame : UdpFrame) (position off width : Nat)
    (bound : position < frame.fields.length)
    (starts : (frame.fields.take position).flatten.length = off)
    (extent : frame.fields[position].length = width) :
    slice frame.bytes off width = frame.fields[position] := by
  subst off width
  exact slice_flatten frame.fields frame.padding position bound

theorem ether_type_eq (frame : UdpFrame) : etherType frame.bytes = kEtherTypeIpv4 := by
  have field : slice frame.bytes 12 2 = wordBytes 2 0x0800 :=
    frame.field_slice 1 12 2 (by simp [fields]) (by simp [fields]) (by simp [fields])
  apply UInt16.toNat_inj.mp
  exact be16_at_of_slice (by decide) field

theorem version_ihl_eq (frame : UdpFrame) :
    versionIhl frame.bytes = UInt8.ofNat (4 * 16 + frame.headerWords) := by
  apply byte_at_of_slice
  exact frame.field_slice 2 14 1 (by simp [fields]) (by simp [fields]) (by simp [fields])

theorem version_eq (frame : UdpFrame) : version frame.bytes = 4 := by
  have nibble : ∀ words < 16, UInt8.ofNat (4 * 16 + words) >>> 4 = 4 := by decide
  rw [version, version_ihl_eq]
  exact nibble frame.headerWords (Nat.lt_succ_of_le frame.longest_header)

theorem ip_hdr_len_eq (frame : UdpFrame) :
    ipHdrLen frame.bytes = 4 * frame.headerWords := by
  have nibble : ∀ words < 16, (UInt8.ofNat (4 * 16 + words) &&& 0x0f).toNat * 4 =
      4 * words := by decide
  rw [ipHdrLen, version_ihl_eq]
  exact nibble frame.headerWords (Nat.lt_succ_of_le frame.longest_header)

theorem next_proto_id_eq (frame : UdpFrame) : nextProtoId frame.bytes = kIpprotoUdp := by
  apply byte_at_of_slice
  exact frame.field_slice 6 23 1 (by simp [fields]) (by simp [fields]) (by simp [fields])

theorem total_length_eq (frame : UdpFrame) :
    totalLength frame.bytes = 4 * frame.headerWords + 8 + frame.payload.length := by
  have fits := frame.total_length_fits
  apply be16_at_of_slice (by omega)
  exact frame.field_slice 4 16 2 (by simp [fields]) (by simp [fields]) (by simp [fields])

theorem udp_offset_eq (frame : UdpFrame) :
    udpOffset frame.bytes = 14 + 4 * frame.headerWords := by
  rw [udpOffset, ip_hdr_len_eq, kEtherHdrLen]

theorem dst_port_eq (frame : UdpFrame) : EngineV3.dstPort frame.bytes = frame.dstPort := by
  have shortest := frame.shortest_header
  have field : slice frame.bytes (14 + 4 * frame.headerWords + 2) 2 =
      wordBytes 2 frame.dstPort.toNat :=
    frame.field_slice 10 _ 2 (by simp [fields]) (by simp [fields]; omega)
      (by simp [fields])
  apply UInt16.toNat_inj.mp
  rw [EngineV3.dstPort, udp_offset_eq]
  exact be16_at_of_slice frame.dstPort.toNat_lt field

theorem dgram_len_eq (frame : UdpFrame) :
    dgramLen frame.bytes = 8 + frame.payload.length := by
  have shortest := frame.shortest_header
  have fits := frame.total_length_fits
  have field : slice frame.bytes (14 + 4 * frame.headerWords + 4) 2 =
      wordBytes 2 (8 + frame.payload.length) :=
    frame.field_slice 11 _ 2 (by simp [fields]) (by simp [fields]; omega)
      (by simp [fields])
  rw [dgramLen, udp_offset_eq]
  exact be16_at_of_slice (by omega) field

theorem payload_slice (frame : UdpFrame) :
    slice frame.bytes (14 + 4 * frame.headerWords + 8) frame.payload.length =
      frame.payload := by
  have shortest := frame.shortest_header
  exact frame.field_slice 13 _ _ (by simp [fields]) (by simp [fields]; omega)
    (by simp [fields])

theorem passes_checks (frame : UdpFrame) {expectedDstPort : UInt16}
    (addressed : expectedDstPort = 0 ∨ frame.dstPort = expectedDstPort) :
    PassesChecks frame.bytes frame.bytes.length expectedDstPort := by
  have shortest := frame.shortest_header
  refine ⟨frame.ether_type_eq, frame.version_eq, ?_, frame.next_proto_id_eq, ?_, ?_, ?_,
    ?_, ?_⟩
  · rw [ip_hdr_len_eq, kIpv4HdrLen]
    omega
  · rw [ip_hdr_len_eq, total_length_eq, kUdpHdrLen]
    omega
  · rw [total_length_eq, bytes_length, kEtherHdrLen]
    omega
  · rw [dst_port_eq]
    exact addressed
  · rw [dgram_len_eq, kUdpHdrLen]
    omega
  · rw [udp_offset_eq, dgram_len_eq, bytes_length]
    omega

theorem extract_eq (frame : UdpFrame) {expectedDstPort : UInt16}
    (addressed : expectedDstPort = 0 ∨ frame.dstPort = expectedDstPort) :
    extractUdpPayload frame.packet expectedDstPort =
      ⟨true, some (14 + 4 * frame.headerWords + 8), frame.payload.length⟩ := by
  rw [packet, extract_of_checks (frame.passes_checks addressed), udp_offset_eq,
    dgram_len_eq, kUdpHdrLen, Nat.add_sub_cancel_left]

theorem process_one_eq (frame : UdpFrame) {expectedDstPort : UInt16}
    (addressed : expectedDstPort = 0 ∨ frame.dstPort = expectedDstPort)
    (order : ByteOrder) (tracker : SequenceTracker) :
    processOne order expectedDstPort tracker frame.packet =
      if frame.payload.length < kWireSize then tracker
      else tracker.observe (messageOf frame.payload).seqNum := by
  have extracted := frame.extract_eq addressed
  have payload : Extracted.bytes
      ⟨true, some (14 + 4 * frame.headerWords + 8), frame.payload.length⟩ frame.bytes =
      frame.payload := frame.payload_slice
  simp only [packet] at extracted
  simp only [processOne, packet, extracted, payload, ↓reduceIte]
  by_cases short : frame.payload.length < kWireSize
  · rw [decode_short order _ _ short, if_neg Bool.false_ne_true, if_pos short]
  · rw [decode_eq order _ (not_lt.mp short) (not_lt.mp short), if_pos rfl, if_neg short]

end UdpFrame

/-- Sender and receiver may differ in byte order. -/
theorem extract_exact_on_well_formed (frame : UdpFrame) (expectedDstPort : UInt16)
    (addressed : expectedDstPort = 0 ∨ frame.dstPort = expectedDstPort) :
    extractUdpPayload frame.packet expectedDstPort =
        ⟨true, some (14 + 4 * frame.headerWords + 8), frame.payload.length⟩ ∧
      (extractUdpPayload frame.packet expectedDstPort).bytes frame.bytes = frame.payload ∧
      ∀ (sender receiver : ByteOrder) (uninitialised : Frame) (msg : MarketDataMsg)
        (tail : List UInt8) (tracker : SequenceTracker),
        frame.payload = (encode sender uninitialised msg).toList ++ tail →
          processOne receiver expectedDstPort tracker frame.packet =
            tracker.observe msg.seqNum := by
  refine ⟨frame.extract_eq addressed, ?_, ?_⟩
  · rw [frame.extract_eq addressed]
    exact frame.payload_slice
  · intro sender receiver uninitialised msg tail tracker carried
    rw [encode_to_list] at carried
    have enough : ¬ frame.payload.length < kWireSize := by
      rw [carried, List.length_append, wire_bytes_length]
      omega
    rw [frame.process_one_eq addressed, if_neg enough, carried, message_of_wire_bytes]

/-- One word of options, two bytes behind the message and four of padding. -/
def optionsFrame : UdpFrame where
  macAddresses := Vector.replicate 12 0xab
  headerWords := 6
  shortest_header := by decide
  longest_header := by decide
  typeOfService := 0
  packetControl := Vector.replicate 5 64
  packetAddressing := Vector.replicate 10 10
  options := Vector.replicate 4 1
  srcPort := Vector.replicate 2 0x1f
  dstPort := 8888
  dgramCksum := Vector.replicate 2 0
  payload :=
    (encode .little (Vector.replicate kWireSize 0) ⟨7, 1, 5, -2, 9, 100, 200⟩).toList ++
      [0xee, 0xff]
  total_length_fits := by
    rw [List.length_append, encode_to_list, wire_bytes_length]
    decide
  padding := [0, 0, 0, 0]

theorem options_frame_observed :
    processOne .little 8888 .fresh optionsFrame.packet = ⟨8, true⟩ := by
  have observed := (extract_exact_on_well_formed optionsFrame 8888 (.inr rfl)).2.2
    .little .little (Vector.replicate kWireSize 0) ⟨7, 1, 5, -2, 9, 100, 200⟩ [0xee, 0xff]
    .fresh rfl
  rw [observed]
  rfl

/-! ## What is misread -/

/-- An accepted payload is that of one whole datagram: it lies inside the IP packet,
and the packet is no fragment. -/
def SoundAt (packet : PacketView) (expectedDstPort : UInt16) : Prop :=
  (extractUdpPayload packet expectedDstPort).ok = true →
    ∃ frame, packet.data = some frame ∧
      (extractUdpPayload packet expectedDstPort).payload =
        some (udpOffset frame + kUdpHdrLen) ∧
      kUdpHdrLen + (extractUdpPayload packet expectedDstPort).payloadLen = dgramLen frame ∧
      ipHdrLen frame + dgramLen frame ≤ totalLength frame ∧
      fragmentOffset frame = 0 ∧ moreFragments frame = false

/-- Addressed to the engine, as far as the header fields tell. -/
structure UdpOverIpv4 (frame : List UInt8) (expectedDstPort : UInt16) : Prop where
  ether_type : etherType frame = kEtherTypeIpv4
  version_four : version frame = 4
  header_length : kIpv4HdrLen ≤ ipHdrLen frame
  protocol : nextProtoId frame = kIpprotoUdp
  port : expectedDstPort = 0 ∨ dstPort frame = expectedDstPort

/-- The UDP length runs past `total_length`, and the frame is long enough to let it. -/
def RunsIntoTrailer (frame : List UInt8) (len : Nat) : Prop :=
  ipHdrLen frame + kUdpHdrLen ≤ totalLength frame ∧
    totalLength frame < ipHdrLen frame + dgramLen frame ∧
    kEtherHdrLen + ipHdrLen frame + dgramLen frame ≤ len

/-- A fragment whose bytes at the place of the UDP length stay inside the packet. -/
def FragmentRead (frame : List UInt8) (len : Nat) : Prop :=
  (fragmentOffset frame ≠ 0 ∨ moreFragments frame = true) ∧
    kUdpHdrLen ≤ dgramLen frame ∧
    ipHdrLen frame + dgramLen frame ≤ totalLength frame ∧
    kEtherHdrLen + totalLength frame ≤ len

def Misread (frame : List UInt8) (len : Nat) (expectedDstPort : UInt16) : Prop :=
  UdpOverIpv4 frame expectedDstPort ∧ (RunsIntoTrailer frame len ∨ FragmentRead frame len)

theorem checks_of_misread {frame : List UInt8} {len : Nat} {expectedDstPort : UInt16}
    (misread : Misread frame len expectedDstPort) :
    PassesChecks frame len expectedDstPort := by
  obtain ⟨⟨etherTypeOk, versionOk, headerOk, protocolOk, portOk⟩, lengths⟩ := misread
  have offset : udpOffset frame = kEtherHdrLen + ipHdrLen frame := rfl
  rcases lengths with ⟨covers, beyond, inFrame⟩ | ⟨-, udpCovers, inside, inFrame⟩
  · exact ⟨etherTypeOk, versionOk, headerOk, protocolOk, covers, by omega, portOk,
      by omega, by omega⟩
  · exact ⟨etherTypeOk, versionOk, headerOk, protocolOk, by omega, inFrame, portOk,
      udpCovers, by omega⟩

theorem misread_of_checks {frame : List UInt8} {len : Nat} {expectedDstPort : UInt16}
    (checks : PassesChecks frame len expectedDstPort)
    (broken : ¬ (ipHdrLen frame + dgramLen frame ≤ totalLength frame ∧
      fragmentOffset frame = 0 ∧ moreFragments frame = false)) :
    Misread frame len expectedDstPort := by
  have offset : udpOffset frame = kEtherHdrLen + ipHdrLen frame := rfl
  have udpInFrame := checks.udp_in_frame
  refine ⟨⟨checks.ether_type, checks.version_four, checks.header_length, checks.protocol,
    checks.port⟩, ?_⟩
  by_cases inside : ipHdrLen frame + dgramLen frame ≤ totalLength frame
  · refine .inr ⟨?_, checks.udp_covers_header, inside, checks.total_in_frame⟩
    by_contra whole
    rw [not_or, not_not, Bool.not_eq_true] at whole
    exact broken ⟨inside, whole.1, whole.2⟩
  · exact .inl ⟨checks.total_covers_headers, by omega, by omega⟩

theorem sound_unless_misread (packet : PacketView) (expectedDstPort : UInt16) :
    SoundAt packet expectedDstPort ↔
      ∀ frame, packet.data = some frame → ¬ Misread frame packet.len expectedDstPort := by
  obtain ⟨data, len⟩ := packet
  constructor
  · rintro sound frame rfl misread
    have checks := checks_of_misread misread
    obtain ⟨same, data, -, -, inside, unsplit, last⟩ :=
      sound ((extract_ok_iff frame len expectedDstPort).mpr checks)
    cases data
    rcases misread.2 with ⟨-, beyond, -⟩ | ⟨fragment | more, -⟩
    · omega
    · exact fragment unsplit
    · rw [last] at more
      exact Bool.false_ne_true more
  · intro clean accepted
    cases data with
    | none => exact absurd accepted Bool.false_ne_true
    | some frame =>
        have checks := checks_of_extract accepted
        have whole := not_not.mp (mt (misread_of_checks checks) (clean frame rfl))
        have covers := checks.udp_covers_header
        rw [extract_of_checks checks]
        exact ⟨frame, rfl, rfl, by simp only []; omega, whole⟩

/-- An 86-byte frame to port 8888 whose UDP length is 52, with the given fragment
field and `total_length`. -/
def craftedFrame (fragment total : UInt8) : List UInt8 :=
  List.replicate 12 0xab ++ [0x08, 0x00] ++
    [0x45, 0, 0, total, 0, 0, 0, fragment, 64, 17] ++ List.replicate 10 10 ++
    [0x1f, 0x1f, 0x22, 0xb8, 0, 52, 0, 0] ++ List.replicate 44 0xaa

/-- First a packet of 28 bytes with 44 bytes of trailer, all of them handed to
`decode`; then a later fragment of another datagram. -/
theorem trailer_and_fragment_misread :
    ¬ SoundAt ⟨some (craftedFrame 0 28), 86⟩ 8888 ∧
      ¬ SoundAt ⟨some (craftedFrame 1 72), 86⟩ 8888 := by
  constructor
  · intro sound
    obtain ⟨frame, data, -, -, inside, -⟩ := sound (by decide)
    cases data
    exact absurd inside (by decide)
  · intro sound
    obtain ⟨frame, data, -, -, -, unsplit, -⟩ := sound (by decide)
    cases data
    exact absurd unsplit (by decide)

end MarketDataEngine.EngineV3
