import Mathlib.Data.List.Basic
import Mathlib.Tactic.Ring
import Mathlib.Tactic.Positivity
import Mathlib.Tactic.Linarith

/-!
# Fixed-width words and their bytes

`wordBytes` is the big-endian byte string of a natural number cut to a width,
`wordValue` the number a byte string stands for. They are inverse to each
other at equal widths, which is all a wire format needs; the little-endian
order of a machine word is the reversed string.
-/

namespace MarketDataEngine.ByteWord

set_option autoImplicit false

def wordBytes : Nat → Nat → List UInt8
  | 0, _ => []
  | width + 1, value => UInt8.ofNat (value / 256 ^ width) :: wordBytes width value

def wordValue (bytes : List UInt8) : Nat :=
  bytes.foldl (fun value byte => value * 256 + byte.toNat) 0

@[simp] theorem word_bytes_length (width value : Nat) :
    (wordBytes width value).length = width := by
  induction width with
  | zero => rfl
  | succ width ih => simp [wordBytes, ih]

theorem word_value_foldl (bytes : List UInt8) (start : Nat) :
    bytes.foldl (fun value byte => value * 256 + byte.toNat) start =
      start * 256 ^ bytes.length + wordValue bytes := by
  induction bytes generalizing start with
  | nil => simp [wordValue]
  | cons byte rest ih =>
      simp only [wordValue, List.foldl_cons, List.length_cons] at ih ⊢
      rw [ih, ih (0 * 256 + byte.toNat), pow_succ]
      ring

theorem word_value_cons (byte : UInt8) (rest : List UInt8) :
    wordValue (byte :: rest) = byte.toNat * 256 ^ rest.length + wordValue rest := by
  have unfolded := word_value_foldl rest (0 * 256 + byte.toNat)
  simpa [wordValue] using unfolded

theorem word_value_lt (bytes : List UInt8) :
    wordValue bytes < 256 ^ bytes.length := by
  induction bytes with
  | nil => simp [wordValue]
  | cons byte rest ih =>
      have bound : byte.toNat < 256 := byte.toNat_lt
      rw [word_value_cons, List.length_cons, pow_succ]
      nlinarith

theorem word_value_word_bytes (width value : Nat) :
    wordValue (wordBytes width value) = value % 256 ^ width := by
  induction width with
  | zero => simp [wordBytes, wordValue, Nat.mod_one]
  | succ width ih =>
      rw [wordBytes, word_value_cons, ih, word_bytes_length, Nat.mod_pow_succ,
        UInt8.toNat_ofNat']
      ring

/-- A byte string has room for nothing above its width. -/
theorem word_bytes_add_mul (width high low : Nat) :
    wordBytes width (high * 256 ^ width + low) = wordBytes width low := by
  induction width generalizing high with
  | zero => rfl
  | succ width ih =>
      have split : high * 256 ^ (width + 1) + low =
          (high * 256) * 256 ^ width + low := by
        rw [pow_succ]
        ring
      have quotient : (high * 256 ^ (width + 1) + low) / 256 ^ width =
          high * 256 + low / 256 ^ width := by
        rw [split, Nat.add_comm, Nat.add_mul_div_right _ _ (by positivity), Nat.add_comm]
      have byte : UInt8.ofNat (high * 256 + low / 256 ^ width) =
          UInt8.ofNat (low / 256 ^ width) := by
        apply UInt8.toNat_inj.mp
        rw [UInt8.toNat_ofNat', UInt8.toNat_ofNat']
        omega
      rw [wordBytes, wordBytes, quotient, byte, split, ih]

theorem word_bytes_word_value (bytes : List UInt8) :
    wordBytes bytes.length (wordValue bytes) = bytes := by
  induction bytes with
  | nil => rfl
  | cons byte rest ih =>
      have bound := word_value_lt rest
      have head : UInt8.ofNat
          ((byte.toNat * 256 ^ rest.length + wordValue rest) / 256 ^ rest.length) = byte := by
        rw [Nat.add_comm, Nat.add_mul_div_right _ _ (by positivity),
          Nat.div_eq_of_lt bound, Nat.zero_add, UInt8.ofNat_toNat]
      rw [word_value_cons, List.length_cons, wordBytes, head, word_bytes_add_mul, ih]

theorem word_bytes_of_value {bytes : List UInt8} {width : Nat}
    (length : bytes.length = width) : wordBytes width (wordValue bytes) = bytes := by
  rw [← length]
  exact word_bytes_word_value bytes

end MarketDataEngine.ByteWord
