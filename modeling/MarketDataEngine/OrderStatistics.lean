import Mathlib.Data.List.Basic
import Mathlib.Data.Nat.Basic
import Mathlib.Order.Lattice
import Mathlib.Order.Monotone.Defs

/-!
# Order statistics and cumulative counts

The value of a given rank is found without sorting: for a test that smaller values pass
whenever larger ones do, it passes exactly if at least as many values pass as its rank says.
With the values put into numbered classes, the class of the value of a rank is thereby the
first one up to which that many values are counted.
-/

namespace MarketDataEngine.OrderStatistics

set_option autoImplicit false

variable {α : Type} [LinearOrder α]

/-- From the smallest to the largest. -/
def sorted (values : List α) : List α :=
  values.mergeSort fun smaller larger => decide (smaller ≤ larger)

/-- The value of a rank; ranks count from one. -/
def orderStatistic (values : List α) : Nat → Option α
  | 0 => none
  | position + 1 => (sorted values)[position]?

/-- What passes the test, passes it with everything below. -/
def DownClosed (test : α → Bool) : Prop :=
  ∀ smaller larger, smaller ≤ larger → test larger = true → test smaller = true

theorem sorted_perm (values : List α) : (sorted values).Perm values :=
  List.mergeSort_perm _ _

theorem sorted_pairwise (values : List α) : (sorted values).Pairwise (· ≤ ·) := by
  have pairwise := @List.pairwise_mergeSort α
    (fun smaller larger => decide (smaller ≤ larger)) ?_ ?_ values
  · apply pairwise.imp
    intro smaller larger ordered
    exact of_decide_eq_true ordered
  · intro first second third left right
    exact decide_eq_true (le_trans (of_decide_eq_true left) (of_decide_eq_true right))
  · intro first second
    rcases le_total first second with ordered | ordered
    · rw [decide_eq_true ordered, Bool.true_or]
    · rw [decide_eq_true ordered, Bool.or_true]

/-- In a sorted list the values that pass stand first. -/
theorem test_iff_lt_countP {values : List α} (ordered : values.Pairwise (· ≤ ·))
    {test : α → Bool} (closed : DownClosed test) {position : Nat} {value : α}
    (found : values[position]? = some value) :
    test value = true ↔ position < values.countP test := by
  induction values generalizing position with
  | nil => cases found
  | cons head tail ih =>
      obtain ⟨below, rest⟩ := List.pairwise_cons.mp ordered
      by_cases passes : test head = true
      · rw [List.countP_cons_of_pos passes]
        cases position with
        | zero =>
            rw [List.getElem?_cons_zero] at found
            cases found
            exact iff_of_true passes (Nat.succ_pos _)
        | succ position =>
            rw [List.getElem?_cons_succ] at found
            rw [ih rest found]
            exact Nat.succ_lt_succ_iff.symm
      · have none_ : ∀ later ∈ head :: tail, ¬ test later = true := by
          intro later member passed
          rcases List.mem_cons.mp member with rfl | inTail
          · exact passes passed
          · exact passes (closed head later (below later inTail) passed)
        rw [List.countP_eq_zero.mpr none_]
        exact iff_of_false (none_ value (List.mem_of_getElem? found)) (Nat.not_lt_zero _)

section Ranks

variable {values : List α} {rank : Nat} {value : α}

theorem test_iff_rank_le_countP (found : orderStatistic values rank = some value)
    {test : α → Bool} (closed : DownClosed test) :
    test value = true ↔ rank ≤ values.countP test := by
  cases rank with
  | zero => cases found
  | succ position =>
      rw [test_iff_lt_countP (sorted_pairwise values) closed found,
        (sorted_perm values).countP_eq]
      exact Nat.succ_le_iff.symm

theorem order_statistic_mem (found : orderStatistic values rank = some value) :
    value ∈ values := by
  cases rank with
  | zero => cases found
  | succ position => exact (sorted_perm values).mem_iff.mp (List.mem_of_getElem? found)

theorem order_statistic_exists (positive : 0 < rank) (bounded : rank ≤ values.length) :
    ∃ value, orderStatistic values rank = some value := by
  cases rank with
  | zero => exact absurd positive (Nat.lt_irrefl 0)
  | succ position =>
      rw [← (sorted_perm values).length_eq] at bounded
      exact ⟨_, List.getElem?_eq_getElem bounded⟩

theorem order_statistic_mono (found : orderStatistic values rank = some value)
    {higher : Nat} {larger : α} (ranked : rank ≤ higher)
    (foundLarger : orderStatistic values higher = some larger) : value ≤ larger := by
  have closed : DownClosed fun entry : α => decide (entry ≤ larger) := by
    intro smaller other ordered passes
    exact decide_eq_true (le_trans ordered (of_decide_eq_true passes))
  have upper := (test_iff_rank_le_countP foundLarger closed).mp (decide_eq_true le_rfl)
  exact of_decide_eq_true
    ((test_iff_rank_le_countP found closed).mpr (Nat.le_trans ranked upper))

end Ranks

/-! ## Numbered classes -/

section Classes

omit [LinearOrder α] in
theorem countP_lt_succ (classOf : α → Nat) (values : List α) (number : Nat) :
    values.countP (fun value => decide (classOf value < number + 1)) =
      values.countP (fun value => decide (classOf value < number)) +
        values.countP (fun value => decide (classOf value = number)) := by
  induction values with
  | nil => rfl
  | cons value rest ih =>
      simp only [List.countP_cons, ih, decide_eq_true_eq]
      split_ifs <;> omega

theorem down_closed_of_monotone {classOf : α → Nat} (monotone : Monotone classOf)
    (number : Nat) : DownClosed fun value : α => decide (classOf value < number) := by
  intro smaller larger ordered passes
  exact decide_eq_true (Nat.lt_of_le_of_lt (monotone ordered) (of_decide_eq_true passes))

/-- As many values as the rank are counted up to a class exactly if the value of that rank is
in it or before it. -/
theorem class_le_iff_rank_le {values : List α} {rank : Nat} {value : α}
    (found : orderStatistic values rank = some value) {classOf : α → Nat}
    (monotone : Monotone classOf) (number : Nat) :
    rank ≤ values.countP (fun entry => decide (classOf entry < number + 1)) ↔
      classOf value ≤ number := by
  rw [← test_iff_rank_le_countP found (down_closed_of_monotone monotone (number + 1)),
    decide_eq_true_eq, Nat.lt_succ_iff]

end Classes

end MarketDataEngine.OrderStatistics
