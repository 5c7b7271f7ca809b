import Mathlib.Data.List.Count
import Mathlib.Logic.Function.Basic

/-!
# A ledger of descriptors

Numbers are handed out, closed and handed out again, so every descriptor gets a serial
number of its own when it is obtained. A close is entered with the descriptor it hit, or
with `none` if its number was not in use.
-/

namespace MarketDataEngine.DescriptorLedger

set_option autoImplicit false

structure Ledger where
  table : Nat → Option Nat
  nextSerial : Nat
  obtained : List Nat
  closes : List (Option Nat)

namespace Ledger

variable (ledger : Ledger)

def acquire (number : Nat) : Ledger where
  table := Function.update ledger.table number (some ledger.nextSerial)
  nextSerial := ledger.nextSerial + 1
  obtained := ledger.obtained ++ [ledger.nextSerial]
  closes := ledger.closes

def close (number : Nat) : Ledger :=
  { ledger with
    table := Function.update ledger.table number none
    closes := ledger.closes ++ [ledger.table number] }

def closeAll (numbers : List Nat) : Ledger := numbers.foldl close ledger

/-- A new account over the same table. -/
def renew : Ledger := { ledger with obtained := [], closes := [] }

def Free (number : Nat) : Prop := ledger.table number = none

def Open (number : Nat) : Prop := ledger.table number ≠ none

/-- Every descriptor was closed, once, and no close went astray. -/
def Settled : Prop :=
  (∀ serial ∈ ledger.obtained, ledger.closes.count (some serial) = 1) ∧ none ∉ ledger.closes

/-- What is open was obtained and not closed; what was obtained and is not open was closed
once. -/
structure Sound : Prop where
  hit : none ∉ ledger.closes
  one_number : ∀ {number other serial}, ledger.table number = some serial →
    ledger.table other = some serial → number = other
  obtained : ∀ {number serial}, ledger.table number = some serial → serial ∈ ledger.obtained
  born : ∀ serial ∈ ledger.obtained, serial < ledger.nextSerial
  unborn : ∀ serial, ledger.nextSerial ≤ serial → ledger.closes.count (some serial) = 0
  still : ∀ {number serial}, ledger.table number = some serial →
    ledger.closes.count (some serial) = 0
  closed : ∀ serial ∈ ledger.obtained, (∀ number, ledger.table number ≠ some serial) →
    ledger.closes.count (some serial) = 1

end Ledger

section Laws

variable {ledger : Ledger} {number : Nat}

theorem open_acquire (ledger : Ledger) (number other : Nat) :
    (ledger.acquire number).Open other ↔ other = number ∨ ledger.Open other := by
  unfold Ledger.Open Ledger.acquire
  simp only [Function.update_apply]
  by_cases same : other = number
  · simp [same]
  · simp [same]

theorem open_close (ledger : Ledger) (number other : Nat) :
    (ledger.close number).Open other ↔ other ≠ number ∧ ledger.Open other := by
  unfold Ledger.Open Ledger.close
  simp only [Function.update_apply]
  by_cases same : other = number
  · simp [same]
  · simp [same]

theorem not_open_iff : ¬ ledger.Open number ↔ ledger.Free number := by
  unfold Ledger.Open Ledger.Free
  exact not_not

/-- An account begins when nothing is open. -/
theorem sound_renew (empty : ∀ number, ledger.Free number) : ledger.renew.Sound where
  hit := List.not_mem_nil
  one_number := fun found => nomatch (empty _).symm.trans found
  obtained := fun found => nomatch (empty _).symm.trans found
  born := List.forall_mem_nil _
  unborn := fun _ _ => rfl
  still := fun found => nomatch (empty _).symm.trans found
  closed := List.forall_mem_nil _

theorem sound_acquire (sound : ledger.Sound) (free : ledger.Free number) :
    (ledger.acquire number).Sound := by
  have new : ∀ {other serial}, (ledger.acquire number).table other = some serial →
      other = number ∧ serial = ledger.nextSerial ∨
        other ≠ number ∧ ledger.table other = some serial := by
    intro other serial found
    simp only [Ledger.acquire, Function.update_apply] at found
    split_ifs at found with same
    · exact .inl ⟨same, (Option.some.inj found).symm⟩
    · exact .inr ⟨same, found⟩
  have early : ∀ {other serial}, ledger.table other = some serial →
      serial < ledger.nextSerial := fun found => sound.born _ (sound.obtained found)
  refine ⟨sound.hit, ?_, ?_, ?_, ?_, ?_, ?_⟩
  · intro left right serial leftFound rightFound
    rcases new leftFound with ⟨leftNew, serialNew⟩ | ⟨-, leftOld⟩
    · rcases new rightFound with ⟨rightNew, -⟩ | ⟨-, rightOld⟩
      · rw [leftNew, rightNew]
      · exact absurd (early rightOld) (by omega)
    · rcases new rightFound with ⟨-, serialNew⟩ | ⟨-, rightOld⟩
      · exact absurd (early leftOld) (by omega)
      · exact sound.one_number leftOld rightOld
  · intro other serial found
    rcases new found with ⟨-, rfl⟩ | ⟨-, old⟩
    · exact List.mem_append_right _ (List.mem_singleton_self _)
    · exact List.mem_append_left _ (sound.obtained old)
  · intro serial member
    show serial < ledger.nextSerial + 1
    rcases List.mem_append.mp member with old | new
    · exact Nat.lt_succ_of_lt (sound.born serial old)
    · rw [List.mem_singleton.mp new]
      exact Nat.lt_succ_self _
  · intro serial late
    exact sound.unborn serial (Nat.le_of_succ_le late)
  · intro other serial found
    rcases new found with ⟨-, rfl⟩ | ⟨-, old⟩
    · exact sound.unborn _ (Nat.le_refl _)
    · exact sound.still old
  · intro serial member gone
    rcases List.mem_append.mp member with old | new
    · apply sound.closed serial old
      intro other found
      apply gone other
      have apart : other ≠ number := by
        rintro rfl
        rw [show ledger.table other = none from free] at found
        cases found
      exact (Function.update_of_ne apart _ _).trans found
    · rw [List.mem_singleton.mp new] at gone
      exact absurd (Function.update_self _ _ _) (gone number)

theorem sound_close (sound : ledger.Sound) (opened : ledger.Open number) :
    (ledger.close number).Sound := by
  obtain ⟨mine, found⟩ := Option.ne_none_iff_exists'.mp opened
  have others : ∀ {other serial}, (ledger.close number).table other = some serial →
      other ≠ number ∧ ledger.table other = some serial := by
    intro other serial its
    simp only [Ledger.close, Function.update_apply] at its
    split_ifs at its with same
    exact ⟨same, its⟩
  have count : ∀ serial, (ledger.close number).closes.count (some serial) =
      ledger.closes.count (some serial) + if serial = mine then 1 else 0 := by
    intro serial
    simp only [Ledger.close, found, List.count_append, List.count_singleton]
    by_cases same : serial = mine
    · simp [same]
    · simp [same, Ne.symm same]
  refine ⟨?_, ?_, ?_, sound.born, ?_, ?_, ?_⟩
  · intro astray
    rcases List.mem_append.mp astray with before | now
    · exact sound.hit before
    · exact opened (List.mem_singleton.mp now).symm
  · intro left right serial leftFound rightFound
    exact sound.one_number (others leftFound).2 (others rightFound).2
  · intro other serial its
    exact sound.obtained (others its).2
  · intro serial late
    have early := sound.born mine (sound.obtained found)
    have apart : serial ≠ mine := by
      rintro rfl
      exact absurd late (Nat.not_le.mpr early)
    rw [count, if_neg apart, Nat.add_zero]
    exact sound.unborn serial late
  · intro other serial its
    obtain ⟨apart, before⟩ := others its
    have different : serial ≠ mine := by
      rintro rfl
      exact apart (sound.one_number before found)
    rw [count, if_neg different, Nat.add_zero]
    exact sound.still before
  · intro serial member gone
    rw [count]
    split_ifs with same
    · rw [same, sound.still found]
    · rw [Nat.add_zero]
      apply sound.closed serial member
      intro other its
      apply gone other
      have apart : other ≠ number := by
        rintro rfl
        exact same (Option.some.inj (its.symm.trans found))
      exact (Function.update_of_ne apart _ _).trans its

/-- Closing distinct open numbers, one by one. -/
theorem sound_close_all {numbers : List Nat} (sound : ledger.Sound)
    (opened : ∀ number ∈ numbers, ledger.Open number) (distinct : numbers.Nodup) :
    (ledger.closeAll numbers).Sound ∧
      ∀ other, (ledger.closeAll numbers).Open other ↔ other ∉ numbers ∧ ledger.Open other := by
  induction numbers generalizing ledger with
  | nil => exact ⟨sound, fun other => ⟨fun its => ⟨List.not_mem_nil, its⟩, And.right⟩⟩
  | cons number rest ih =>
      obtain ⟨apart, distinct⟩ := List.nodup_cons.mp distinct
      have later : ∀ other ∈ rest, (ledger.close number).Open other := by
        intro other member
        refine (open_close ledger number other).mpr ⟨?_, opened other (List.mem_cons_of_mem _ member)⟩
        rintro rfl
        exact apart member
      obtain ⟨settled, left_⟩ :=
        ih (sound_close sound (opened number List.mem_cons_self)) later distinct
      refine ⟨settled, ?_⟩
      intro other
      show ((ledger.close number).closeAll rest).Open other ↔ _
      rw [left_, open_close, List.mem_cons, not_or]
      tauto

theorem settled_of_sound (sound : ledger.Sound) (empty : ∀ number, ledger.Free number) :
    ledger.Settled := by
  refine ⟨?_, sound.hit⟩
  intro serial member
  apply sound.closed serial member
  intro number found
  rw [show ledger.table number = none from empty number] at found
  cases found

end Laws

end MarketDataEngine.DescriptorLedger
