import Mathlib.Data.List.Basic
import Mathlib.Data.Nat.ModEq
import Mathlib.Logic.Function.Basic

/-!
# The power-of-two ring buffer

A direct transcription of `containers::RingBuffer<T, Capacity>`: two 64-bit
counters that are never reduced modulo the capacity, a mask that selects the
cell, and the full test on the wrapped difference of the counters. `push` and
`pop` are the sequential methods; `pushStep`, `popStep` and `emptyStep` cut
them at every atomic load, check, cell access and atomic store.

`contents` is the queue a buffer stands for. It is read from the counters, so
it makes sense for every start value and across counter wrap-around.
-/

namespace MarketDataEngine.Containers

set_option autoImplicit false

/-- The template parameter with its two static assertions; `size_t` bounds it. -/
structure Capacity where
  val : Nat
  one_lt : 1 < val
  power_of_two : val &&& (val - 1) = 0
  representable : val < 2 ^ 64

namespace Capacity

variable (capacity : Capacity)

def size : UInt64 := UInt64.ofNat capacity.val

def mask : UInt64 := UInt64.ofNat (capacity.val - 1)

theorem exists_log : ∃ log, capacity.val = 2 ^ log := by
  have positive : capacity.val ≠ 0 := by
    have := capacity.one_lt
    omega
  exact (Nat.and_sub_one_eq_zero_iff_isPowerOfTwo positive).mp capacity.power_of_two

theorem dvd_word : capacity.val ∣ 2 ^ 64 := by
  obtain ⟨log, power⟩ := capacity.exists_log
  have bound := capacity.representable
  rw [power] at bound ⊢
  exact Nat.pow_dvd_pow 2 (Nat.le_of_lt ((Nat.pow_lt_pow_iff_right (by decide)).mp bound))

theorem size_to_nat : capacity.size.toNat = capacity.val :=
  UInt64.toNat_ofNat_of_lt' capacity.representable

theorem masked_to_nat (counter : UInt64) :
    (counter &&& capacity.mask).toNat = counter.toNat % capacity.val := by
  obtain ⟨log, power⟩ := capacity.exists_log
  have bound := capacity.representable
  have maskValue : capacity.mask.toNat = 2 ^ log - 1 := by
    rw [mask, UInt64.toNat_ofNat_of_lt' (by show _ < 2 ^ 64; omega), power]
  rw [UInt64.toNat_and, maskValue, Nat.and_two_pow_sub_one_eq_mod, power]

/-- The cell a counter selects: `counter & mask_`. -/
def cell (counter : UInt64) : Fin capacity.val :=
  ⟨(counter &&& capacity.mask).toNat, by
    rw [masked_to_nat]
    exact Nat.mod_lt _ (by have := capacity.one_lt; omega)⟩

/-- Because the capacity divides the word size, masking commutes with the
wrap-around of the counter. -/
theorem cell_add_val (counter : UInt64) (offset : Nat) :
    (capacity.cell (counter + UInt64.ofNat offset)).val =
      (counter.toNat + offset) % capacity.val := by
  have divides := capacity.dvd_word
  simp only [cell, masked_to_nat, UInt64.toNat_add, UInt64.toNat_ofNat']
  rw [Nat.mod_mod_of_dvd _ divides, Nat.add_mod, Nat.mod_mod_of_dvd _ divides,
    ← Nat.add_mod]

theorem cell_add_inj (counter : UInt64) {left right : Nat}
    (leftBound : left < capacity.val) (rightBound : right < capacity.val)
    (same : capacity.cell (counter + UInt64.ofNat left) =
      capacity.cell (counter + UInt64.ofNat right)) : left = right := by
  have values := congrArg Fin.val same
  rw [cell_add_val, cell_add_val] at values
  have congruent : left ≡ right [MOD capacity.val] :=
    Nat.ModEq.add_left_cancel' counter.toNat values
  exact Nat.ModEq.eq_of_lt_of_lt congruent leftBound rightBound

end Capacity

structure RingBuffer (α : Type) (capacity : Capacity) where
  /-- Next index to read. -/
  head : UInt64
  /-- Next index to write. -/
  tail : UInt64
  buffer : Fin capacity.val → α

variable {α : Type} {capacity : Capacity}

namespace RingBuffer

def empty (ring : RingBuffer α capacity) : Bool := ring.head == ring.tail

def full (ring : RingBuffer α capacity) : Bool :=
  ring.tail - ring.head == capacity.size

def reset (ring : RingBuffer α capacity) : RingBuffer α capacity :=
  { ring with head := 0, tail := 0 }

/-- The plain store `buffer_[counter & mask_] = data`. -/
def write (ring : RingBuffer α capacity) (counter : UInt64) (data : α) :
    RingBuffer α capacity :=
  { ring with buffer := Function.update ring.buffer (capacity.cell counter) data }

def push (ring : RingBuffer α capacity) (data : α) :
    RingBuffer α capacity × Bool :=
  let h := ring.head
  let t := ring.tail
  if t - h = capacity.size then (ring, false)
  else ({ ring.write t data with tail := t + 1 }, true)

def pop (ring : RingBuffer α capacity) : RingBuffer α capacity × Option α :=
  let h := ring.head
  let t := ring.tail
  if h = t then (ring, none)
  else ({ ring with head := h + 1 }, some (ring.buffer (capacity.cell h)))

end RingBuffer

/-- How far a ring method has run: the counters it has loaded, whether its
check let it through, and whether the cell access is done. -/
inductive RingPc (α : Type) where
  | headLoaded (h : UInt64)
  | tailLoaded (h t : UInt64)
  | admitted (counter : UInt64)
  | written (t : UInt64)
  | cellRead (h : UInt64) (data : α)
  deriving DecidableEq

def pushStep (ring : RingBuffer α capacity) (data : α) :
    Option (RingPc α) → RingBuffer α capacity × (RingPc α ⊕ Bool)
  | none => (ring, .inl (.headLoaded ring.head))
  | some (.headLoaded h) => (ring, .inl (.tailLoaded h ring.tail))
  | some (.tailLoaded h t) =>
      if t - h = capacity.size then (ring, .inr false)
      else (ring, .inl (.admitted t))
  | some (.admitted t) => (ring.write t data, .inl (.written t))
  | some (.written t) => ({ ring with tail := t + 1 }, .inr true)
  | some (.cellRead h other) => (ring, .inl (.cellRead h other))

def popStep (ring : RingBuffer α capacity) :
    Option (RingPc α) → RingBuffer α capacity × (RingPc α ⊕ Option α)
  | none => (ring, .inl (.headLoaded ring.head))
  | some (.headLoaded h) => (ring, .inl (.tailLoaded h ring.tail))
  | some (.tailLoaded h t) =>
      if h = t then (ring, .inr none) else (ring, .inl (.admitted h))
  | some (.admitted h) =>
      (ring, .inl (.cellRead h (ring.buffer (capacity.cell h))))
  | some (.cellRead h data) => ({ ring with head := h + 1 }, .inr (some data))
  | some (.written t) => (ring, .inl (.written t))

def emptyStep (ring : RingBuffer α capacity) :
    Option (RingPc α) → RingBuffer α capacity × (RingPc α ⊕ Bool)
  | none => (ring, .inl (.headLoaded ring.head))
  | some (.headLoaded h) => (ring, .inr (h == ring.tail))
  | some other => (ring, .inl other)

/-- A method that runs to its end with no other thread in between. -/
def runAlone {Ret : Type}
    (step : RingBuffer α capacity → Option (RingPc α) →
      RingBuffer α capacity × (RingPc α ⊕ Ret)) :
    Nat → RingBuffer α capacity → Option (RingPc α) →
      Option (RingBuffer α capacity × Ret)
  | 0, _, _ => none
  | fuel + 1, ring, pc =>
      match step ring pc with
      | (after, .inl next) => runAlone step fuel after (some next)
      | (after, .inr result) => some (after, result)

theorem push_run_alone (ring : RingBuffer α capacity) (data : α) :
    runAlone (fun current pc => pushStep current data pc) 5 ring none =
      some (ring.push data) := by
  by_cases isFull : ring.tail - ring.head = capacity.size
  · simp [runAlone, pushStep, RingBuffer.push, isFull]
  · simp [runAlone, pushStep, RingBuffer.push, isFull]

theorem pop_run_alone (ring : RingBuffer α capacity) :
    runAlone popStep 5 ring none = some ring.pop := by
  by_cases isEmpty : ring.head = ring.tail
  · simp [runAlone, popStep, RingBuffer.pop, isEmpty]
  · simp [runAlone, popStep, RingBuffer.pop, isEmpty]

namespace RingBuffer

/-- The number of stored values: the wrapped difference of the counters. -/
def count (ring : RingBuffer α capacity) : Nat := (ring.tail - ring.head).toNat

def contents (ring : RingBuffer α capacity) : List α :=
  (List.range ring.count).map fun offset =>
    ring.buffer (capacity.cell (ring.head + UInt64.ofNat offset))

/-- At most `Capacity` values are stored. -/
def Bounded (ring : RingBuffer α capacity) : Prop := ring.count ≤ capacity.val

theorem contents_length (ring : RingBuffer α capacity) :
    ring.contents.length = ring.count := by
  simp [contents]

theorem tail_eq (ring : RingBuffer α capacity) :
    ring.tail = ring.head + UInt64.ofNat ring.count := by
  rw [count, UInt64.ofNat_toNat, UInt64.add_comm, UInt64.sub_add_cancel]

theorem full_iff (ring : RingBuffer α capacity) :
    ring.tail - ring.head = capacity.size ↔ ring.count = capacity.val := by
  rw [← UInt64.toNat_inj, capacity.size_to_nat, count]

theorem empty_iff (ring : RingBuffer α capacity) :
    ring.head = ring.tail ↔ ring.contents = [] := by
  have lengthZero : ring.contents = [] ↔ ring.count = 0 := by
    rw [← List.length_eq_zero_iff, contents_length]
  rw [lengthZero, count]
  constructor
  · intro same
    simp [same]
  · intro zero
    have difference : ring.tail - ring.head = 0 := UInt64.toNat_inj.mp zero
    have tail := ring.tail_eq
    rw [count, difference] at tail
    simpa using tail.symm

/-- Writing the cell at `tail` while a place is free touches no stored value. -/
theorem free_cell_unoccupied (ring : RingBuffer α capacity)
    (room : ring.count < capacity.val) {offset : Nat}
    (stored : offset < ring.count) :
    capacity.cell (ring.head + UInt64.ofNat offset) ≠ capacity.cell ring.tail := by
  intro same
  rw [ring.tail_eq] at same
  have equal := capacity.cell_add_inj ring.head (stored.trans room) room same
  omega

theorem contents_write (ring : RingBuffer α capacity) (data : α)
    (room : ring.count < capacity.val) :
    (ring.write ring.tail data).contents = ring.contents := by
  unfold contents
  apply List.map_congr_left
  intro offset member
  have stored : offset < ring.count := List.mem_range.mp member
  exact Function.update_of_ne (ring.free_cell_unoccupied room stored) _ _

theorem count_advance_tail (ring : RingBuffer α capacity)
    (room : ring.count < capacity.val) :
    RingBuffer.count { ring with tail := ring.tail + 1 } = ring.count + 1 := by
  have bound := capacity.representable
  have headBound := ring.head.toNat_lt
  have tailBound := ring.tail.toNat_lt
  simp only [count, UInt64.toNat_sub, UInt64.toNat_add, UInt64.reduceToNat] at room ⊢
  omega

theorem contents_advance_tail (ring : RingBuffer α capacity)
    (room : ring.count < capacity.val) :
    RingBuffer.contents { ring with tail := ring.tail + 1 } =
      ring.contents ++ [ring.buffer (capacity.cell ring.tail)] := by
  unfold contents
  rw [ring.count_advance_tail room, List.range_succ, List.map_append,
    List.map_singleton, ← ring.tail_eq]

theorem count_advance_head (ring : RingBuffer α capacity)
    (stored : 0 < ring.count) :
    RingBuffer.count { ring with head := ring.head + 1 } + 1 = ring.count := by
  have headBound := ring.head.toNat_lt
  have tailBound := ring.tail.toNat_lt
  simp only [count, UInt64.toNat_sub, UInt64.toNat_add, UInt64.reduceToNat] at stored ⊢
  omega

theorem contents_advance_head (ring : RingBuffer α capacity)
    (stored : 0 < ring.count) :
    ring.contents = ring.buffer (capacity.cell ring.head) ::
      RingBuffer.contents { ring with head := ring.head + 1 } := by
  unfold contents
  rw [← ring.count_advance_head stored, List.range_succ_eq_map, List.map_cons,
    List.map_map]
  congr 1
  · simp
  · apply List.map_congr_left
    intro offset _
    simp only [Function.comp_apply]
    congr 2
    rw [Nat.succ_eq_add_one, UInt64.ofNat_add]
    simp [UInt64.add_assoc, UInt64.add_comm]

end RingBuffer

end MarketDataEngine.Containers
