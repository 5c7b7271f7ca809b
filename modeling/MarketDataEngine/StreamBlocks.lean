import Mathlib.Data.List.Basic

/-!
# Fixed-size blocks of a stream

A stream is cut into consecutive blocks of one size; what is behind the last whole
block is the leftover. The laws say how both change when the stream grows, by a whole
block in front or by one element at the end, so a reader may hold the leftover and
forget the rest.
-/

namespace MarketDataEngine.StreamBlocks

set_option autoImplicit false

variable {α : Type}

/-- The block at this index: the elements from `size * index` on. -/
def block (size : Nat) (stream : List α) (index : Nat) : List α :=
  (stream.drop (size * index)).take size

def blocks (size : Nat) (stream : List α) : List (List α) :=
  (List.range (stream.length / size)).map (block size stream)

def leftover (size : Nat) (stream : List α) : List α :=
  stream.drop (size * (stream.length / size))

section Laws

variable {size : Nat}

@[simp] theorem blocks_nil : blocks size ([] : List α) = [] := by
  simp [blocks]

@[simp] theorem leftover_nil : leftover size ([] : List α) = [] := by
  simp [leftover]

theorem leftover_length (stream : List α) :
    (leftover size stream).length = stream.length % size := by
  rw [leftover, List.length_drop, ← Nat.mod_eq_sub_mul_div]

theorem blocks_of_short {stream : List α} (short : stream.length < size) :
    blocks size stream = [] ∧ leftover size stream = stream := by
  have none_ : stream.length / size = 0 := Nat.div_eq_of_lt short
  simp [blocks, leftover, none_]

/-- A whole block in front. -/
theorem blocks_cons (positive : 0 < size) {first : List α} (whole : first.length = size)
    (rest : List α) :
    blocks size (first ++ rest) = first :: blocks size rest ∧
      leftover size (first ++ rest) = leftover size rest := by
  have count : (first ++ rest).length / size = rest.length / size + 1 := by
    rw [List.length_append, whole, Nat.add_comm, Nat.add_div_right _ positive]
  constructor
  · simp only [blocks]
    rw [count, List.range_succ_eq_map, List.map_cons, List.map_map]
    congr 1
    · rw [block, Nat.mul_zero, List.drop_zero, ← whole, List.take_left]
    · apply List.map_congr_left
      intro index _
      rw [Function.comp_apply, block, block, Nat.mul_succ, Nat.add_comm, ← List.drop_drop,
        ← whole, List.drop_left]
  · rw [leftover, leftover, count, Nat.mul_succ, Nat.add_comm, ← List.drop_drop, ← whole,
      List.drop_left]

theorem blocks_of_long (positive : 0 < size) {stream : List α} (long : size ≤ stream.length) :
    blocks size stream = stream.take size :: blocks size (stream.drop size) ∧
      leftover size stream = leftover size (stream.drop size) := by
  have whole : (stream.take size).length = size := by
    rw [List.length_take]
    omega
  have cut := blocks_cons positive whole (stream.drop size)
  rw [List.take_append_drop] at cut
  exact cut

/-- A reader that holds the leftover needs nothing else of what it has read. -/
theorem blocks_append (positive : 0 < size) (stream more : List α) :
    blocks size (stream ++ more) =
        blocks size stream ++ blocks size (leftover size stream ++ more) ∧
      leftover size (stream ++ more) = leftover size (leftover size stream ++ more) := by
  by_cases short : stream.length < size
  · obtain ⟨none_, rest⟩ := blocks_of_short short
    rw [none_, rest]
    exact ⟨rfl, rfl⟩
  · have long : size ≤ stream.length := Nat.le_of_not_lt short
    have longer : size ≤ (stream ++ more).length := by
      rw [List.length_append]
      omega
    obtain ⟨found, rest⟩ := blocks_of_long positive long
    obtain ⟨grown, grownRest⟩ := blocks_of_long positive longer
    obtain ⟨smaller, smallerRest⟩ := blocks_append positive (stream.drop size) more
    rw [List.take_append_of_le_length long, List.drop_append_of_le_length long] at grown
    rw [List.drop_append_of_le_length long] at grownRest
    rw [grown, grownRest, found, rest, smaller, smallerRest]
    exact ⟨rfl, rfl⟩
termination_by stream.length
decreasing_by
  rw [List.length_drop]
  omega

/-- One more element either completes a block or joins the leftover. -/
theorem blocks_concat (positive : 0 < size) (stream : List α) (last : α) :
    (if (leftover size stream).length + 1 = size then
      blocks size (stream ++ [last]) = blocks size stream ++ [leftover size stream ++ [last]] ∧
        leftover size (stream ++ [last]) = []
    else
      blocks size (stream ++ [last]) = blocks size stream ∧
        leftover size (stream ++ [last]) = leftover size stream ++ [last]) := by
  obtain ⟨found, rest⟩ := blocks_append positive stream [last]
  have bounded : (leftover size stream).length < size := by
    rw [leftover_length]
    exact Nat.mod_lt _ positive
  have longer : (leftover size stream ++ [last]).length =
      (leftover size stream).length + 1 := by
    rw [List.length_append, List.length_singleton]
  rw [found, rest]
  split_ifs with whole
  · obtain ⟨one, nothing⟩ := blocks_cons positive (longer.trans whole) []
    rw [List.append_nil] at one nothing
    rw [one, nothing, blocks_nil, leftover_nil]
    exact ⟨rfl, rfl⟩
  · obtain ⟨none_, all⟩ := blocks_of_short
      (show (leftover size stream ++ [last]).length < size by omega)
    rw [none_, all, List.append_nil]
    exact ⟨rfl, rfl⟩

/-- A block lies inside the stream, at a multiple of the size. -/
theorem mem_blocks {stream piece : List α} (member : piece ∈ blocks size stream) :
    ∃ index, size * index + size ≤ stream.length ∧ piece = block size stream index := by
  obtain ⟨index, inside, same⟩ := List.mem_map.mp member
  refine ⟨index, ?_, same.symm⟩
  have below : index + 1 ≤ stream.length / size := List.mem_range.mp inside
  calc
    size * index + size = size * (index + 1) := (Nat.mul_succ size index).symm
    _ ≤ size * (stream.length / size) := Nat.mul_le_mul_left size below
    _ ≤ stream.length := Nat.mul_div_le _ _

end Laws

end MarketDataEngine.StreamBlocks
