import Mathlib.NumberTheory.Multiplicity
import Mathlib.Data.ZMod.Basic
import Mathlib.Tactic.LinearCombination

/-!
# Affine maps modulo a power of two

The orbit of `x ↦ a * x + c` for a multiplier that is one modulo four and an odd
increment. The difference between the point after `k` steps and the start is
divisible by two exactly as often as `k` is, so the first `2 ^ n` points are all
the residues modulo `2 ^ n`.
-/

namespace MarketDataEngine.LinearCongruential

set_option autoImplicit false

def affine (a c x : ℤ) : ℤ := a * x + c

variable {a c : ℤ}

/-- The geometric sum, without the division. -/
theorem iterate_affine_sub (steps : Nat) (x : ℤ) :
    (a - 1) * ((affine a c)^[steps] x - x) = (a ^ steps - 1) * ((a - 1) * x + c) := by
  induction steps with
  | zero => simp
  | succ steps ih =>
      rw [Function.iterate_succ_apply', affine, pow_succ]
      linear_combination a * ih

theorem emultiplicity_iterate_sub (multiplier : 4 ∣ a - 1) (proper : a ≠ 1) (odd : Odd c)
    (steps : Nat) (x : ℤ) :
    emultiplicity 2 ((affine a c)^[steps] x - x) = emultiplicity (2 : ℤ) steps := by
  have even : Even (a - 1) := even_iff_two_dvd.mpr (dvd_trans (by decide) multiplier)
  have oddMultiplier : ¬ 2 ∣ a := by
    rw [← even_iff_two_dvd, Int.not_even_iff_odd]
    simpa using even.add_odd odd_one
  have oddFactor : emultiplicity 2 ((a - 1) * x + c) = 0 := by
    rw [emultiplicity_eq_zero, ← even_iff_two_dvd, Int.not_even_iff_odd]
    exact (even.mul_right x).add_odd odd
  have powers := Int.two_pow_sub_pow' steps multiplier oddMultiplier
  rw [one_pow] at powers
  have products := congrArg (emultiplicity 2) (@iterate_affine_sub a c steps x)
  rw [emultiplicity_mul Int.prime_two, emultiplicity_mul Int.prime_two, powers, oddFactor,
    add_zero] at products
  have finite : emultiplicity 2 (a - 1) ≠ ⊤ := by
    rw [← finiteMultiplicity_iff_emultiplicity_ne_top, Int.finiteMultiplicity_iff]
    exact ⟨by decide, sub_ne_zero.mpr proper⟩
  exact WithTop.add_left_cancel finite products

theorem pow_dvd_iterate_sub_iff (multiplier : 4 ∣ a - 1) (proper : a ≠ 1) (odd : Odd c)
    (bits steps : Nat) (x : ℤ) :
    (2 : ℤ) ^ bits ∣ (affine a c)^[steps] x - x ↔ 2 ^ bits ∣ steps := by
  rw [pow_dvd_iff_le_emultiplicity, emultiplicity_iterate_sub multiplier proper odd,
    ← pow_dvd_iff_le_emultiplicity]
  exact_mod_cast Iff.rfl

theorem iterate_injective (multiplier : 4 ∣ a - 1) (proper : a ≠ 1) (odd : Odd c)
    (bits : Nat) (x : ℤ) {first second : Nat} (order : first ≤ second)
    (below : second < 2 ^ bits)
    (same : (2 : ℤ) ^ bits ∣ (affine a c)^[second] x - (affine a c)^[first] x) :
    first = second := by
  have later : (affine a c)^[second] x =
      (affine a c)^[second - first] ((affine a c)^[first] x) := by
    rw [← Function.iterate_add_apply, Nat.sub_add_cancel order]
  rw [later, pow_dvd_iterate_sub_iff multiplier proper odd] at same
  have zero : second - first = 0 := Nat.eq_zero_of_dvd_of_lt same (by omega)
  omega

/-- Every residue is met within `2 ^ bits` steps. -/
theorem orbit_covers (multiplier : 4 ∣ a - 1) (proper : a ≠ 1) (odd : Odd c)
    (bits : Nat) (x target : ℤ) :
    ∃ steps < 2 ^ bits, (2 : ℤ) ^ bits ∣ (affine a c)^[steps] x - target := by
  have positive : NeZero (2 ^ bits) := ⟨by positivity⟩
  let point : Fin (2 ^ bits) → ZMod (2 ^ bits) := fun steps => (affine a c)^[steps] x
  have divides : ∀ left right : ℤ, (left : ZMod (2 ^ bits)) = right ↔
      (2 : ℤ) ^ bits ∣ left - right := by
    intro left right
    rw [← sub_eq_zero, ← Int.cast_sub, ZMod.intCast_zmod_eq_zero_iff_dvd]
    push_cast
    rfl
  have injective : Function.Injective point := by
    intro first second same
    apply Fin.ext
    rcases Nat.le_total first second with order | order
    · exact iterate_injective multiplier proper odd bits x order second.isLt
        ((divides _ _).mp same.symm)
    · exact (iterate_injective multiplier proper odd bits x order first.isLt
        ((divides _ _).mp same)).symm
  have cards : Fintype.card (Fin (2 ^ bits)) = Fintype.card (ZMod (2 ^ bits)) := by
    rw [Fintype.card_fin, ZMod.card]
  obtain ⟨steps, hits⟩ :=
    ((Fintype.bijective_iff_injective_and_card point).mpr ⟨injective, cards⟩).2 target
  exact ⟨steps, steps.isLt, (divides _ _).mp hits⟩

end MarketDataEngine.LinearCongruential
