import Mathlib.Data.List.Basic

/-!
# Answers to repeated calls

A caller that is told to call again does so, without a bound of its own. The answers it
gets are a sequence in which that one comes finitely often; `settled` is a place behind the
last of them, and goes down with every answer that asks for another call. The answers given
so far are kept as a history.

A caller may also bound how often it repeats a call after an answer of a second kind. The
`streak` of a history counts those since the last answer that ended a series of them.
-/

namespace MarketDataEngine.AnswerStream

set_option autoImplicit false

structure Answers (Answer : Type) (again : Answer → Prop) where
  answer : Nat → Answer
  settled : Nat
  settles : ∀ index, settled ≤ index → ¬ again (answer index)
  given : List Answer

namespace Answers

variable {Answer : Type} {again : Answer → Prop}

def next (answers : Answers Answer again) : Answer := answers.answer 0

def rest (answers : Answers Answer again) : Answers Answer again where
  answer index := answers.answer (index + 1)
  settled := answers.settled - 1
  settles index late := answers.settles (index + 1) (by omega)
  given := answers.given ++ [answers.next]

/-- The same answer for ever. -/
def always (value : Answer) (ends : ¬ again value) : Answers Answer again :=
  ⟨fun _ => value, 0, fun _ _ => ends, []⟩

/-- One answer in front. -/
def before (value : Answer) (answers : Answers Answer again) : Answers Answer again where
  answer index := if index = 0 then value else answers.answer (index - 1)
  settled := answers.settled + 1
  settles index late := by
    rw [if_neg (by omega)]
    exact answers.settles (index - 1) (by omega)
  given := answers.given

theorem settled_rest_lt {answers : Answers Answer again} (repeats : again answers.next) :
    answers.rest.settled < answers.settled := by
  have pending : 0 < answers.settled := by
    by_contra none_
    exact answers.settles 0 (by omega) repeats
  change answers.settled - 1 < answers.settled
  omega

end Answers

/-! ## Bounded repetition -/

section Streak

variable {Answer : Type} (counts ends : Answer → Bool)

def extend (length : Nat) (answer : Answer) : Nat :=
  if ends answer then 0 else if counts answer then length + 1 else length

/-- The answers that count since the last one that ends a series. -/
def streak (given : List Answer) : Nat := given.foldl (extend counts ends) 0

/-- In a history every answer that counts is the last one exactly if it is the
`limit + 1`st of its series. -/
def EndsAtLimit (limit start : Nat) (given : List Answer) : Prop :=
  ∀ before answer after, given = before ++ answer :: after → counts answer = true →
    (after = [] ↔ (before ++ [answer]).foldl (extend counts ends) start = limit + 1)

variable {counts ends}

theorem ends_at_limit_nil (limit start : Nat) : EndsAtLimit counts ends limit start [] := by
  intro before answer after given
  simp at given

theorem ends_at_limit_singleton {limit start : Nat} {answer : Answer}
    (last : counts answer = true → ends answer = false ∧ start = limit) :
    EndsAtLimit counts ends limit start [answer] := by
  intro before found after given counted
  cases before with
  | nil =>
      rw [List.nil_append, List.cons.injEq] at given
      obtain ⟨rfl, rfl⟩ := given
      obtain ⟨goesOn, atLimit⟩ := last counted
      simp [extend, counted, goesOn, atLimit]
  | cons earlier before => simp at given

/-- A history goes on after an answer that does not end the call. -/
theorem ends_at_limit_cons {limit start : Nat} {answer : Answer} {given : List Answer}
    (present : given ≠ [])
    (below : counts answer = true → ends answer = false → start < limit)
    (rest : EndsAtLimit counts ends limit (extend counts ends start answer) given) :
    EndsAtLimit counts ends limit start (answer :: given) := by
  intro before found after split_ counted
  cases before with
  | nil =>
      rw [List.nil_append, List.cons.injEq] at split_
      obtain ⟨rfl, rfl⟩ := split_
      constructor
      · intro empty
        exact absurd empty present
      · intro reached
        simp only [List.nil_append, List.foldl_cons, List.foldl_nil, extend] at reached
        cases ending : ends answer with
        | true => simp [ending] at reached
        | false =>
            have room := below counted ending
            simp only [ending, Bool.false_eq_true, counted, ↓reduceIte] at reached
            omega
  | cons earlier before =>
      rw [List.cons_append, List.cons.injEq] at split_
      obtain ⟨rfl, rfl⟩ := split_
      rw [List.cons_append, List.foldl_cons]
      exact rest before found after rfl counted

end Streak

end MarketDataEngine.AnswerStream
