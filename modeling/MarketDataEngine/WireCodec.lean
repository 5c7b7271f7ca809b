import MarketDataEngine.ByteWord

/-!
# The 44-byte wire format

A transcription of `protocol::encode` and `protocol::decode` for both byte
orders of the host. A machine word and its object representation are kept
apart: `hostToBe64` is the preprocessor branch (a byte swap or the identity),
`objectBytes64` is what `memcpy` reads from the word on that host. The write
helpers are generic in the store they copy into, so the same code runs on the
output array and on a log of its own `memcpy` calls.

The output array starts uninitialised; `encode` takes its old contents as an
argument.
-/

namespace MarketDataEngine.Protocol

open MarketDataEngine.ByteWord

set_option autoImplicit false

structure MarketDataMsg where
  seqNum : UInt64
  symbolId : UInt32
  exchangeTs : Int64
  bidPrice : Int64
  askPrice : Int64
  bidSize : Int32
  askSize : Int32
  deriving DecidableEq

def kWireSize : Nat := 44

abbrev Frame := Vector UInt8 kWireSize

inductive ByteOrder where
  | little
  | big
  deriving DecidableEq

/-! ## Words in memory -/

def bswap (width value : Nat) : Nat := wordValue (wordBytes width value).reverse

def bswap32 (v : UInt32) : UInt32 := UInt32.ofNat (bswap 4 v.toNat)

def bswap64 (v : UInt64) : UInt64 := UInt64.ofNat (bswap 8 v.toNat)

def hostToBe32 : ByteOrder → UInt32 → UInt32
  | .little, v => bswap32 v
  | .big, v => v

def hostToBe64 : ByteOrder → UInt64 → UInt64
  | .little, v => bswap64 v
  | .big, v => v

def be32ToHost : ByteOrder → UInt32 → UInt32
  | .little, v => bswap32 v
  | .big, v => v

def be64ToHost : ByteOrder → UInt64 → UInt64
  | .little, v => bswap64 v
  | .big, v => v

/-- The bytes of a stored word of the given width, lowest address first. -/
def objectBytes (width : Nat) : ByteOrder → Nat → List UInt8
  | .little, value => (wordBytes width value).reverse
  | .big, value => wordBytes width value

/-- The word whose stored bytes these are. -/
def objectValue : ByteOrder → List UInt8 → Nat
  | .little, bytes => wordValue bytes.reverse
  | .big, bytes => wordValue bytes

/-! ## Encoding -/

section Writers

variable {Store : Type} (order : ByteOrder)
variable (memcpy : Store → Nat → List UInt8 → Store)

def writeU64 (buff : Store) (off : Nat) (v : UInt64) : Store × Nat :=
  let be := hostToBe64 order v
  (memcpy buff off (objectBytes 8 order be.toNat), off + 8)

def writeU32 (buff : Store) (off : Nat) (v : UInt32) : Store × Nat :=
  let be := hostToBe32 order v
  (memcpy buff off (objectBytes 4 order be.toNat), off + 4)

def writeI64 (buff : Store) (off : Nat) (v : Int64) : Store × Nat :=
  let be := hostToBe64 order v.toUInt64
  (memcpy buff off (objectBytes 8 order be.toNat), off + 8)

def encodeInto (out : Store) (msg : MarketDataMsg) : Store :=
  let (out, off) := writeU64 order memcpy out 0 msg.seqNum
  let (out, off) := writeU32 order memcpy out off msg.symbolId
  let (out, off) := writeI64 order memcpy out off msg.exchangeTs
  let (out, off) := writeI64 order memcpy out off msg.bidPrice
  let (out, off) := writeI64 order memcpy out off msg.askPrice
  let (out, off) := writeU32 order memcpy out off msg.bidSize.toUInt32
  let (out, _) := writeU32 order memcpy out off msg.askSize.toUInt32
  out

end Writers

def memcpyFrame (buff : Frame) (off : Nat) (bytes : List UInt8) : Frame :=
  Vector.ofFn fun index =>
    if inside : off ≤ index.val ∧ index.val < off + bytes.length then
      bytes[index.val - off]
    else buff[index]

def encode (order : ByteOrder) (uninitialised : Frame) (msg : MarketDataMsg) : Frame :=
  encodeInto order memcpyFrame uninitialised msg

/-- The `memcpy` calls of `encode`, each as its offset and bytes. -/
def encodeWrites (order : ByteOrder) (msg : MarketDataMsg) : List (Nat × List UInt8) :=
  encodeInto order (fun log off bytes => log ++ [(off, bytes)]) [] msg

/-! ## Decoding -/

def readU32 (order : ByteOrder) (data : List UInt8) (off : Nat) : UInt32 × Nat :=
  let be := UInt32.ofNat (objectValue order ((data.drop off).take 4))
  (be32ToHost order be, off + 4)

def readU64 (order : ByteOrder) (data : List UInt8) (off : Nat) : UInt64 × Nat :=
  let be := UInt64.ofNat (objectValue order ((data.drop off).take 8))
  (be64ToHost order be, off + 8)

def readI64 (order : ByteOrder) (data : List UInt8) (off : Nat) : Int64 × Nat :=
  let be := UInt64.ofNat (objectValue order ((data.drop off).take 8))
  ((be64ToHost order be).toInt64, off + 8)

def decode (order : ByteOrder) (data : List UInt8) (len : Nat) (msg : MarketDataMsg) :
    Bool × MarketDataMsg :=
  if len < kWireSize then (false, msg)
  else
    let (seqNum, off) := readU64 order data 0
    let (symbolId, off) := readU32 order data off
    let (exchangeTs, off) := readI64 order data off
    let (bidPrice, off) := readI64 order data off
    let (askPrice, off) := readI64 order data off
    let (bidSize, off) := readU32 order data off
    let (askSize, _) := readU32 order data off
    (true, ⟨seqNum, symbolId, exchangeTs, bidPrice, askPrice, bidSize.toInt32,
      askSize.toInt32⟩)

/-! ## Byte order cancels -/

theorem word_value_lt_of_length {bytes : List UInt8} {width : Nat}
    (length : bytes.length = width) : wordValue bytes < 256 ^ width := by
  rw [← length]
  exact word_value_lt bytes

theorem bswap_lt (width value : Nat) : bswap width value < 256 ^ width :=
  word_value_lt_of_length (by simp)

theorem object_value_lt (order : ByteOrder) {bytes : List UInt8} {width : Nat}
    (length : bytes.length = width) : objectValue order bytes < 256 ^ width := by
  cases order with
  | little => exact word_value_lt_of_length (by simpa using length)
  | big => exact word_value_lt_of_length length

theorem object_bytes_bswap (width value : Nat) :
    objectBytes width .little (bswap width value) = wordBytes width value := by
  simp only [objectBytes, bswap]
  rw [word_bytes_of_value (by simp), List.reverse_reverse]

theorem bswap_object_value {bytes : List UInt8} {width : Nat}
    (length : bytes.length = width) :
    bswap width (objectValue .little bytes) = wordValue bytes := by
  simp only [objectValue, bswap]
  rw [word_bytes_of_value (by simpa using length), List.reverse_reverse]

theorem object_bytes_host_to_be64 (order : ByteOrder) (v : UInt64) :
    objectBytes 8 order (hostToBe64 order v).toNat = wordBytes 8 v.toNat := by
  cases order with
  | little =>
      have bound : bswap 8 v.toNat < 2 ^ 64 := bswap_lt 8 v.toNat
      rw [hostToBe64, bswap64, UInt64.toNat_ofNat_of_lt' bound, object_bytes_bswap]
  | big => rfl

theorem object_bytes_host_to_be32 (order : ByteOrder) (v : UInt32) :
    objectBytes 4 order (hostToBe32 order v).toNat = wordBytes 4 v.toNat := by
  cases order with
  | little =>
      have bound : bswap 4 v.toNat < 2 ^ 32 := bswap_lt 4 v.toNat
      rw [hostToBe32, bswap32, UInt32.toNat_ofNat_of_lt' bound, object_bytes_bswap]
  | big => rfl

theorem be64_to_host_object (order : ByteOrder) {bytes : List UInt8}
    (length : bytes.length = 8) :
    be64ToHost order (UInt64.ofNat (objectValue order bytes)) =
      UInt64.ofNat (wordValue bytes) := by
  cases order with
  | little =>
      have bound : objectValue .little bytes < 2 ^ 64 :=
        object_value_lt .little length
      rw [be64ToHost, bswap64, UInt64.toNat_ofNat_of_lt' bound, bswap_object_value length]
  | big => rfl

theorem be32_to_host_object (order : ByteOrder) {bytes : List UInt8}
    (length : bytes.length = 4) :
    be32ToHost order (UInt32.ofNat (objectValue order bytes)) =
      UInt32.ofNat (wordValue bytes) := by
  cases order with
  | little =>
      have bound : objectValue .little bytes < 2 ^ 32 :=
        object_value_lt .little length
      rw [be32ToHost, bswap32, UInt32.toNat_ofNat_of_lt' bound, bswap_object_value length]
  | big => rfl

/-! ## The layout of the encoded frame -/

/-- The big-endian fields in wire order. A signed field travels as its
two's-complement bit pattern. -/
def wireFields (msg : MarketDataMsg) : List (List UInt8) :=
  [wordBytes 8 msg.seqNum.toNat, wordBytes 4 msg.symbolId.toNat,
    wordBytes 8 msg.exchangeTs.toUInt64.toNat,
    wordBytes 8 msg.bidPrice.toUInt64.toNat,
    wordBytes 8 msg.askPrice.toUInt64.toNat,
    wordBytes 4 msg.bidSize.toUInt32.toNat, wordBytes 4 msg.askSize.toUInt32.toNat]

def wireBytes (msg : MarketDataMsg) : List UInt8 := (wireFields msg).flatten

theorem wire_bytes_length (msg : MarketDataMsg) :
    (wireBytes msg).length = kWireSize := by
  simp [wireBytes, wireFields, kWireSize]

/-- Fields copied one right behind the other. -/
def laidOut : Nat → List (List UInt8) → List (Nat × List UInt8)
  | _, [] => []
  | off, field :: rest => (off, field) :: laidOut (off + field.length) rest

theorem encode_writes_eq (order : ByteOrder) (msg : MarketDataMsg) :
    encodeWrites order msg = laidOut 0 (wireFields msg) := by
  simp [encodeWrites, encodeInto, writeU64, writeU32, writeI64, wireFields, laidOut,
    object_bytes_host_to_be64, object_bytes_host_to_be32]

/-- The helpers touch their store only through `memcpy`, so encoding into any
store replays the log. -/
theorem encode_into_replays {Store : Type} (order : ByteOrder)
    (memcpy : Store → Nat → List UInt8 → Store) (out : Store) (msg : MarketDataMsg) :
    encodeInto order memcpy out msg =
      (encodeWrites order msg).foldl (fun store write => memcpy store write.1 write.2)
        out := by
  rw [encode_writes_eq]
  simp [encodeInto, writeU64, writeU32, writeI64, wireFields, laidOut,
    object_bytes_host_to_be64, object_bytes_host_to_be32]

/-- Copying right behind an already written beginning extends it. -/
theorem memcpy_frame_extends (buff : Frame) (written bytes : List UInt8)
    (begins : buff.toList.take written.length = written)
    (fits : written.length + bytes.length ≤ kWireSize) :
    (memcpyFrame buff written.length bytes).toList.take
        (written ++ bytes).length = written ++ bytes := by
  apply List.ext_getElem
  · simp only [List.length_take, Vector.length_toList, List.length_append]
    omega
  · intro index bound inside
    simp only [List.length_append] at inside
    simp only [List.getElem_take, Vector.getElem_toList, memcpyFrame, Vector.getElem_ofFn]
    by_cases early : index < written.length
    · rw [dif_neg (by omega), List.getElem_append_left early]
      have agree := List.getElem_of_eq begins.symm early
      simpa using agree.symm
    · rw [dif_pos ⟨by omega, inside⟩, List.getElem_append_right (by omega)]

theorem memcpy_laid_out (fields : List (List UInt8)) (buff : Frame)
    (written : List UInt8) (begins : buff.toList.take written.length = written)
    (fits : written.length + fields.flatten.length ≤ kWireSize) :
    ((laidOut written.length fields).foldl
        (fun store write => memcpyFrame store write.1 write.2) buff).toList.take
        (written ++ fields.flatten).length = written ++ fields.flatten := by
  induction fields generalizing buff written with
  | nil => simpa [laidOut] using begins
  | cons field rest ih =>
      simp only [List.flatten_cons, List.length_append] at fits
      have extended := memcpy_frame_extends buff written field begins (by omega)
      have remaining := ih (memcpyFrame buff written.length field) (written ++ field)
        extended (by simp only [List.length_append]; omega)
      simpa [laidOut, List.append_assoc] using remaining

theorem encode_to_list (order : ByteOrder) (uninitialised : Frame) (msg : MarketDataMsg) :
    (encode order uninitialised msg).toList = wireBytes msg := by
  have length := wire_bytes_length msg
  have written := memcpy_laid_out (wireFields msg) uninitialised [] (by simp)
    (by rw [← wireBytes, length]; simp)
  rw [encode, encode_into_replays, encode_writes_eq]
  rw [List.nil_append, ← wireBytes, length, List.length_nil] at written
  rwa [List.take_of_length_le (Nat.le_of_eq Vector.length_toList)] at written

def covers (index : Nat) (write : Nat × List UInt8) : Bool :=
  decide (write.1 ≤ index ∧ index < write.1 + write.2.length)

theorem laid_out_covers_once (fields : List (List UInt8)) (start index : Nat) :
    (laidOut start fields).countP (covers index) =
      if start ≤ index ∧ index < start + fields.flatten.length then 1 else 0 := by
  induction fields generalizing start with
  | nil =>
      simp only [laidOut, List.countP_nil, List.flatten_nil, List.length_nil]
      rw [if_neg (by omega)]
  | cons field rest ih =>
      simp only [laidOut, List.countP_cons, ih, covers, List.flatten_cons,
        List.length_append, decide_eq_true_eq]
      split_ifs <;> omega

/-- Every byte of the frame is written by exactly one of the `memcpy` calls,
and none reaches past its end. -/
theorem encode_writes_each_byte_once (order : ByteOrder) (msg : MarketDataMsg)
    (index : Nat) :
    (encodeWrites order msg).countP (covers index) =
      if index < kWireSize then 1 else 0 := by
  rw [encode_writes_eq, laid_out_covers_once, ← wireBytes, wire_bytes_length]
  simp

/-! ## Decoding is the inverse -/

/-- The bytes of a field: `width` of them from `off` on. -/
def slice (data : List UInt8) (off width : Nat) : List UInt8 :=
  (data.drop off).take width

theorem slice_length {data : List UInt8} {off width : Nat}
    (inside : off + width ≤ data.length) : (slice data off width).length = width := by
  simp only [slice, List.length_take, List.length_drop]
  omega

theorem slice_append (before field after : List UInt8) :
    slice (before ++ (field ++ after)) before.length field.length = field := by
  simp [slice]

theorem slice_cons_drop (data : List UInt8) (off width : Nat) :
    slice data off width ++ data.drop (off + width) = data.drop off := by
  rw [slice, ← List.drop_drop, List.take_append_drop]

/-- The message a byte string of at least 44 bytes stands for. -/
def messageOf (data : List UInt8) : MarketDataMsg where
  seqNum := UInt64.ofNat (wordValue (slice data 0 8))
  symbolId := UInt32.ofNat (wordValue (slice data 8 4))
  exchangeTs := (UInt64.ofNat (wordValue (slice data 12 8))).toInt64
  bidPrice := (UInt64.ofNat (wordValue (slice data 20 8))).toInt64
  askPrice := (UInt64.ofNat (wordValue (slice data 28 8))).toInt64
  bidSize := (UInt32.ofNat (wordValue (slice data 36 4))).toInt32
  askSize := (UInt32.ofNat (wordValue (slice data 40 4))).toInt32

theorem read_u64_eq (order : ByteOrder) {data : List UInt8} {off : Nat}
    (inside : off + 8 ≤ data.length) :
    readU64 order data off = (UInt64.ofNat (wordValue (slice data off 8)), off + 8) := by
  rw [readU64, ← slice, be64_to_host_object order (slice_length inside)]

theorem read_u32_eq (order : ByteOrder) {data : List UInt8} {off : Nat}
    (inside : off + 4 ≤ data.length) :
    readU32 order data off = (UInt32.ofNat (wordValue (slice data off 4)), off + 4) := by
  rw [readU32, ← slice, be32_to_host_object order (slice_length inside)]

theorem read_i64_eq (order : ByteOrder) {data : List UInt8} {off : Nat}
    (inside : off + 8 ≤ data.length) :
    readI64 order data off =
      ((UInt64.ofNat (wordValue (slice data off 8))).toInt64, off + 8) := by
  rw [readI64, ← slice, be64_to_host_object order (slice_length inside)]

theorem decode_eq (order : ByteOrder) {data : List UInt8} {len : Nat}
    (msg : MarketDataMsg) (enough : kWireSize ≤ len) (present : kWireSize ≤ data.length) :
    decode order data len msg = (true, messageOf data) := by
  rw [decode, if_neg (by omega)]
  simp only [kWireSize] at present
  rw [read_u64_eq order (by omega)]
  simp only []
  rw [read_u32_eq order (by omega)]
  simp only []
  rw [read_i64_eq order (by omega)]
  simp only []
  rw [read_i64_eq order (by omega)]
  simp only []
  rw [read_i64_eq order (by omega)]
  simp only []
  rw [read_u32_eq order (by omega)]
  simp only []
  rw [read_u32_eq order (by omega)]
  rfl

theorem decode_fails_iff (order : ByteOrder) (data : List UInt8) (len : Nat)
    (msg : MarketDataMsg) : (decode order data len msg).1 = false ↔ len < kWireSize := by
  unfold decode
  split_ifs with short <;> simp [short]

theorem decode_short (order : ByteOrder) (data : List UInt8) {len : Nat}
    (msg : MarketDataMsg) (short : len < kWireSize) :
    decode order data len msg = (false, msg) := by
  rw [decode, if_pos short]

theorem word_value_bytes64 (v : UInt64) :
    UInt64.ofNat (wordValue (wordBytes 8 v.toNat)) = v := by
  rw [word_value_word_bytes, Nat.mod_eq_of_lt (show v.toNat < 256 ^ 8 from v.toNat_lt),
    UInt64.ofNat_toNat]

theorem word_value_bytes32 (v : UInt32) :
    UInt32.ofNat (wordValue (wordBytes 4 v.toNat)) = v := by
  rw [word_value_word_bytes, Nat.mod_eq_of_lt (show v.toNat < 256 ^ 4 from v.toNat_lt),
    UInt32.ofNat_toNat]

theorem slice_flatten (fields : List (List UInt8)) (tail : List UInt8) (position : Nat)
    (bound : position < fields.length) :
    slice (fields.flatten ++ tail) (fields.take position).flatten.length
      fields[position].length = fields[position] := by
  have split : fields.flatten ++ tail = (fields.take position).flatten ++
      (fields[position] ++ ((fields.drop (position + 1)).flatten ++ tail)) := by
    calc
      fields.flatten ++ tail =
          (fields.take position ++ fields.drop position).flatten ++ tail := by
        rw [List.take_append_drop]
      _ = _ := by
        rw [List.drop_eq_getElem_cons bound, List.flatten_append, List.flatten_cons,
          List.append_assoc, List.append_assoc]
  rw [split, slice_append]

/-- Reading the fields of an encoded message back, whatever follows it. -/
theorem message_of_wire_bytes (msg : MarketDataMsg) (tail : List UInt8) :
    messageOf (wireBytes msg ++ tail) = msg := by
  have field : ∀ (position off width : Nat) (bound : position < (wireFields msg).length),
      ((wireFields msg).take position).flatten.length = off →
      (wireFields msg)[position].length = width →
      slice (wireBytes msg ++ tail) off width = (wireFields msg)[position] := by
    rintro position off width bound rfl rfl
    exact slice_flatten (wireFields msg) tail position bound
  have seqNum : slice (wireBytes msg ++ tail) 0 8 = wordBytes 8 msg.seqNum.toNat :=
    field 0 0 8 (by simp [wireFields]) (by simp) (by simp [wireFields])
  have symbolId : slice (wireBytes msg ++ tail) 8 4 = wordBytes 4 msg.symbolId.toNat :=
    field 1 8 4 (by simp [wireFields]) (by simp [wireFields]) (by simp [wireFields])
  have exchangeTs : slice (wireBytes msg ++ tail) 12 8 =
      wordBytes 8 msg.exchangeTs.toUInt64.toNat :=
    field 2 12 8 (by simp [wireFields]) (by simp [wireFields]) (by simp [wireFields])
  have bidPrice : slice (wireBytes msg ++ tail) 20 8 =
      wordBytes 8 msg.bidPrice.toUInt64.toNat :=
    field 3 20 8 (by simp [wireFields]) (by simp [wireFields]) (by simp [wireFields])
  have askPrice : slice (wireBytes msg ++ tail) 28 8 =
      wordBytes 8 msg.askPrice.toUInt64.toNat :=
    field 4 28 8 (by simp [wireFields]) (by simp [wireFields]) (by simp [wireFields])
  have bidSize : slice (wireBytes msg ++ tail) 36 4 =
      wordBytes 4 msg.bidSize.toUInt32.toNat :=
    field 5 36 4 (by simp [wireFields]) (by simp [wireFields]) (by simp [wireFields])
  have askSize : slice (wireBytes msg ++ tail) 40 4 =
      wordBytes 4 msg.askSize.toUInt32.toNat :=
    field 6 40 4 (by simp [wireFields]) (by simp [wireFields]) (by simp [wireFields])
  simp only [messageOf, seqNum, symbolId, exchangeTs, bidPrice, askPrice, bidSize,
    askSize, word_value_bytes64, word_value_bytes32, Int64.toInt64_toUInt64,
    Int32.toInt32_toUInt32]

theorem word_bytes_of_slice64 {data : List UInt8} {off : Nat}
    (inside : off + 8 ≤ data.length) :
    wordBytes 8 (UInt64.ofNat (wordValue (slice data off 8))).toNat =
      slice data off 8 := by
  have length := slice_length inside
  rw [UInt64.toNat_ofNat_of_lt' (word_value_lt_of_length length),
    word_bytes_of_value length]

theorem word_bytes_of_slice32 {data : List UInt8} {off : Nat}
    (inside : off + 4 ≤ data.length) :
    wordBytes 4 (UInt32.ofNat (wordValue (slice data off 4))).toNat =
      slice data off 4 := by
  have length := slice_length inside
  rw [UInt32.toNat_ofNat_of_lt' (word_value_lt_of_length length),
    word_bytes_of_value length]

theorem wire_bytes_message_of {data : List UInt8} (length : data.length = kWireSize) :
    wireBytes (messageOf data) = data := by
  have total : data.length = 44 := length
  simp only [wireBytes, wireFields, messageOf, UInt64.toUInt64_toInt64,
    UInt32.toUInt32_toInt32]
  rw [word_bytes_of_slice64 (by omega), word_bytes_of_slice32 (by omega),
    word_bytes_of_slice64 (by omega), word_bytes_of_slice64 (by omega),
    word_bytes_of_slice64 (by omega), word_bytes_of_slice32 (by omega),
    word_bytes_of_slice32 (by omega)]
  have last : data.drop 44 = [] := List.drop_of_length_le (by omega)
  calc
    [slice data 0 8, slice data 8 4, slice data 12 8, slice data 20 8,
        slice data 28 8, slice data 36 4, slice data 40 4].flatten =
        slice data 0 8 ++ (slice data 8 4 ++ (slice data 12 8 ++ (slice data 20 8 ++
          (slice data 28 8 ++ (slice data 36 4 ++ (slice data 40 4 ++
            data.drop 44)))))) := by simp [last]
    _ = data.drop 0 := by
      rw [slice_cons_drop data 40 4, slice_cons_drop data 36 4, slice_cons_drop data 28 8,
        slice_cons_drop data 20 8, slice_cons_drop data 12 8, slice_cons_drop data 8 4,
        slice_cons_drop data 0 8]
    _ = data := rfl

/-- A signed value as the non-negative residue that two's complement stores. -/
def twosComplement (width : Nat) (value : Int) : Nat :=
  (value % 2 ^ (8 * width)).toNat

theorem twos_complement_of_bits {bits : Nat} (word : BitVec bits) :
    (word.toInt % 2 ^ bits).toNat = word.toNat := by
  have residue : word.toInt % ((2 ^ bits : Nat) : Int) = (word.toNat : Int) := by
    rw [BitVec.toInt_eq_toNat_bmod, Int.bmod_emod]
    exact Int.emod_eq_of_lt (Int.natCast_nonneg _) (by exact_mod_cast word.isLt)
  push_cast at residue
  rw [residue, Int.toNat_natCast]

/-- Offset, width and value of every field of the wire format. -/
def wireLayout (msg : MarketDataMsg) : List (Nat × Nat × Nat) :=
  [(0, 8, msg.seqNum.toNat), (8, 4, msg.symbolId.toNat),
    (12, 8, twosComplement 8 msg.exchangeTs.toInt),
    (20, 8, twosComplement 8 msg.bidPrice.toInt),
    (28, 8, twosComplement 8 msg.askPrice.toInt),
    (36, 4, twosComplement 4 msg.bidSize.toInt),
    (40, 4, twosComplement 4 msg.askSize.toInt)]

theorem encode_layout (order : ByteOrder) (uninitialised : Frame) (msg : MarketDataMsg)
    {off width value : Nat} (member : (off, width, value) ∈ wireLayout msg) :
    slice (encode order uninitialised msg).toList off width = wordBytes width value := by
  have word64 (v : Int64) : twosComplement 8 v.toInt = v.toUInt64.toNat :=
    twos_complement_of_bits v.toBitVec
  have word32 (v : Int32) : twosComplement 4 v.toInt = v.toUInt32.toNat :=
    twos_complement_of_bits v.toBitVec
  have field := slice_flatten (wireFields msg) []
  rw [List.append_nil, ← wireBytes] at field
  rw [encode_to_list]
  simp only [wireLayout, word64, word32, List.mem_cons, List.not_mem_nil, or_false,
    Prod.mk.injEq] at member
  rcases member with ⟨rfl, rfl, rfl⟩ | ⟨rfl, rfl, rfl⟩ | ⟨rfl, rfl, rfl⟩ |
    ⟨rfl, rfl, rfl⟩ | ⟨rfl, rfl, rfl⟩ | ⟨rfl, rfl, rfl⟩ | ⟨rfl, rfl, rfl⟩
  · simpa [wireFields] using field 0 (by simp [wireFields])
  · simpa [wireFields] using field 1 (by simp [wireFields])
  · simpa [wireFields] using field 2 (by simp [wireFields])
  · simpa [wireFields] using field 3 (by simp [wireFields])
  · simpa [wireFields] using field 4 (by simp [wireFields])
  · simpa [wireFields] using field 5 (by simp [wireFields])
  · simpa [wireFields] using field 6 (by simp [wireFields])

/-- The codec is a bijection between messages and 44-byte strings with one
layout for both byte orders: a message encoded on one host and decoded on
another, with anything behind it, comes back; so does every 44-byte string. -/
theorem wire_codec_bijection :
    (∀ (writer reader : ByteOrder) (uninitialised : Frame) (msg out : MarketDataMsg)
        (tail : List UInt8),
      decode reader ((encode writer uninitialised msg).toList ++ tail)
        (kWireSize + tail.length) out = (true, msg)) ∧
    (∀ (reader writer : ByteOrder) (uninitialised bytes : Frame) (out : MarketDataMsg),
      encode writer uninitialised (decode reader bytes.toList kWireSize out).2 = bytes) ∧
    (∀ (order : ByteOrder) (data : List UInt8) (len : Nat) (out : MarketDataMsg),
      ((decode order data len out).1 = false ↔ len < kWireSize) ∧
        ((decode order data len out).1 = false → (decode order data len out).2 = out)) ∧
    (∀ (little big : Frame) (msg : MarketDataMsg),
      encode .little little msg = encode .big big msg) ∧
    (∀ (order : ByteOrder) (uninitialised : Frame) (msg : MarketDataMsg)
        (off width value : Nat), (off, width, value) ∈ wireLayout msg →
      slice (encode order uninitialised msg).toList off width = wordBytes width value) ∧
    (∀ (order : ByteOrder) (msg : MarketDataMsg) (index : Nat),
      (encodeWrites order msg).countP (covers index) =
        if index < kWireSize then 1 else 0) := by
  refine ⟨?_, ?_, ?_, ?_, ?_, encode_writes_each_byte_once⟩
  · intro writer reader uninitialised msg out tail
    rw [encode_to_list, decode_eq reader out (Nat.le_add_right _ _)
      (by rw [List.length_append, wire_bytes_length]; omega), message_of_wire_bytes]
  · intro reader writer uninitialised bytes out
    have length : bytes.toList.length = kWireSize := Vector.length_toList
    apply Vector.toList_inj.mp
    rw [encode_to_list, decode_eq reader out (Nat.le_refl _) (Nat.le_of_eq length.symm),
      wire_bytes_message_of length]
  · intro order data len out
    refine ⟨decode_fails_iff order data len out, fun failed => ?_⟩
    rw [decode_short order data out ((decode_fails_iff order data len out).mp failed)]
  · intro little big msg
    apply Vector.toList_inj.mp
    rw [encode_to_list, encode_to_list]
  · intro order uninitialised msg off width value member
    exact encode_layout order uninitialised msg member

end MarketDataEngine.Protocol
