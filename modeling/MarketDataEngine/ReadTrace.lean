import Mathlib.Data.List.Basic

/-!
# Programs that read an array

A program over an array is a tree: it ends with a result or reads the cell at an
offset and goes on with what it found. The same program runs in three ways. `eval`
takes the array as a total function, `offsets` lists the cells that this run looks
at, and `checked` indexes a list and stops at the first offset outside it. A program
whose reads stay inside never stops.
-/

namespace MarketDataEngine.ReadTrace

set_option autoImplicit false

inductive Reads (Cell Result : Type) where
  | done (result : Result)
  | read (off : Nat) (next : Cell → Reads Cell Result)

namespace Reads

variable {Cell Result Next : Type}

def bind : Reads Cell Result → (Result → Reads Cell Next) → Reads Cell Next
  | done result, rest => rest result
  | read off next, rest => read off fun cell => (next cell).bind rest

instance : Monad (Reads Cell) where
  pure := done
  bind := bind

/-- The cell at one offset. -/
def cell (off : Nat) : Reads Cell Cell := read off done

/-- The cells of a range, first to last. -/
def range (off : Nat) : Nat → Reads Cell (List Cell)
  | 0 => pure []
  | width + 1 => do
      let first ← cell off
      let others ← range (off + 1) width
      pure (first :: others)

def eval (memory : Nat → Cell) : Reads Cell Result → Result
  | done result => result
  | read off next => (next (memory off)).eval memory

def offsets (memory : Nat → Cell) : Reads Cell Result → List Nat
  | done _ => []
  | read off next => off :: (next (memory off)).offsets memory

/-- `none` where a read is outside. -/
def checked (cells : List Cell) : Reads Cell Result → Option Result
  | done result => some result
  | read off next => (cells[off]?).bind fun cell => (next cell).checked cells

/-! ## How the runs compose -/

section Composition

variable (memory : Nat → Cell)

@[simp] theorem eval_pure (result : Result) :
    (pure result : Reads Cell Result).eval memory = result := rfl

@[simp] theorem eval_cell (off : Nat) : (cell off).eval memory = memory off := rfl

@[simp] theorem eval_bind (program : Reads Cell Result) (rest : Result → Reads Cell Next) :
    (program >>= rest).eval memory = (rest (program.eval memory)).eval memory := by
  induction program with
  | done result => rfl
  | read off next ih => exact ih (memory off)

@[simp] theorem eval_ite (test : Prop) [Decidable test] (yes no : Reads Cell Result) :
    (if test then yes else no).eval memory =
      if test then yes.eval memory else no.eval memory := by
  split_ifs <;> rfl

theorem offsets_bind (program : Reads Cell Result) (rest : Result → Reads Cell Next) :
    (program >>= rest).offsets memory =
      program.offsets memory ++ (rest (program.eval memory)).offsets memory := by
  induction program with
  | done result => rfl
  | read off next ih => exact congrArg (off :: ·) (ih (memory off))

end Composition

/-! ## Staying inside -/

/-- Every read of the run is below the limit. -/
def Within (limit : Nat) (memory : Nat → Cell) (program : Reads Cell Result) : Prop :=
  ∀ off ∈ program.offsets memory, off < limit

section Within

variable {limit : Nat} {memory : Nat → Cell}

theorem within_pure (result : Result) :
    Within limit memory (pure result : Reads Cell Result) := by
  intro off impossible
  cases impossible

theorem within_cell {off : Nat} (inside : off < limit) :
    Within limit memory (cell off) := by
  intro other member
  rw [List.mem_singleton.mp member]
  exact inside

theorem within_bind {program : Reads Cell Result} {rest : Result → Reads Cell Next}
    (first : Within limit memory program)
    (second : Within limit memory (rest (program.eval memory))) :
    Within limit memory (program >>= rest) := by
  intro off member
  rw [offsets_bind, List.mem_append] at member
  rcases member with early | late
  · exact first off early
  · exact second off late

/-- The test of a branch is known in each of its arms. -/
theorem within_ite {test : Prop} [Decidable test] {yes no : Reads Cell Result}
    (passed : test → Within limit memory yes) (failed : ¬ test → Within limit memory no) :
    Within limit memory (if test then yes else no) := by
  split_ifs with holds
  · exact passed holds
  · exact failed holds

theorem within_range {off width : Nat} (inside : off + width ≤ limit) :
    Within limit memory (range off width) := by
  induction width generalizing off with
  | zero => exact within_pure _
  | succ width ih =>
      apply within_bind (within_cell (by omega))
      exact within_bind (ih (by omega)) (within_pure _)

end Within

/-! ## Bounds-checked indexing -/

section Checked

variable {cells : List Cell} {default : Cell}

theorem checked_of_within {program : Reads Cell Result}
    (inside : Within cells.length (fun off => cells.getD off default) program) :
    program.checked cells = some (program.eval fun off => cells.getD off default) := by
  induction program with
  | done result => rfl
  | read off next ih =>
      have here : off < cells.length := inside off List.mem_cons_self
      have found : cells[off]? = some (cells.getD off default) := by
        rw [List.getD_eq_getElem?_getD, List.getElem?_eq_getElem here, Option.getD_some]
      rw [checked, found, Option.bind_some, eval]
      apply ih
      intro later member
      exact inside later (List.mem_cons_of_mem _ member)

theorem eval_range {off width : Nat} (inside : off + width ≤ cells.length) :
    (range off width).eval (fun off => cells.getD off default) =
      (cells.drop off).take width := by
  induction width generalizing off with
  | zero => rfl
  | succ width ih =>
      have here : off < cells.length := by omega
      rw [List.drop_eq_getElem_cons here, List.take_succ_cons, ← ih (by omega), range]
      simp only [eval_bind, eval_cell, eval_pure]
      rw [List.getD_eq_getElem?_getD, List.getElem?_eq_getElem here, Option.getD_some]

end Checked

end Reads

end MarketDataEngine.ReadTrace
