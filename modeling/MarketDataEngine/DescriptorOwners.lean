import MarketDataEngine.DescriptorLedger
import Mathlib.Data.List.Nodup
import Mathlib.Data.List.Perm.Basic

/-!
# Owners of descriptors

Objects that own descriptors, over the ledger. What is open is what the owners hold, and no
descriptor has two of them: an owner may take a new one, give all of its own up, or hand them to an
owner that has none.
-/

namespace MarketDataEngine.DescriptorLedger

set_option autoImplicit false

variable {Owner : Type}

structure Held (ledger : Ledger) (held : Owner → List Nat) : Prop where
  sound : ledger.Sound
  covered : ∀ number, ledger.Open number ↔ ∃ owner, number ∈ held owner
  apart : ∀ {left right number}, number ∈ held left → number ∈ held right → left = right
  nodup : ∀ owner, (held owner).Nodup

section Laws

variable {ledger : Ledger} {held : Owner → List Nat} {number : Nat}

theorem free_not_held (holds : Held ledger held) (free : ledger.Free number) (owner : Owner) :
    number ∉ held owner := by
  intro member
  exact (holds.covered number).mpr ⟨owner, member⟩ free

/-- A descriptor that is closed again before anyone owns it. -/
theorem held_transient (holds : Held ledger held) (free : ledger.Free number) :
    Held ((ledger.acquire number).close number) held := by
  have opened : (ledger.acquire number).Open number := by
    rw [open_acquire]
    exact .inl rfl
  constructor
  · exact sound_close (sound_acquire holds.sound free) opened
  · intro other
    rw [open_close, open_acquire, ← holds.covered]
    constructor
    · rintro ⟨apart, same | before⟩
      · exact absurd same apart
      · exact before
    · intro before
      refine ⟨?_, .inr before⟩
      rintro rfl
      exact before free
  · exact holds.apart
  · exact holds.nodup

theorem settled_of_held (holds : Held ledger held) (none_ : ∀ owner, held owner = []) :
    ledger.Settled := by
  apply settled_of_sound holds.sound
  intro number
  rw [← not_open_iff, holds.covered]
  rintro ⟨owner, member⟩
  rw [none_] at member
  exact List.not_mem_nil member

variable [DecidableEq Owner]

theorem held_acquire (holds : Held ledger held) (free : ledger.Free number) (owner : Owner) :
    Held (ledger.acquire number) (Function.update held owner (number :: held owner)) := by
  have new := free_not_held holds free
  have member : ∀ {other value}, value ∈ Function.update held owner (number :: held owner) other →
      other = owner ∧ value = number ∨ value ∈ held other := by
    intro other value its
    by_cases same : other = owner
    · subst same
      rw [Function.update_self] at its
      exact (List.mem_cons.mp its).imp (And.intro rfl) id
    · rw [Function.update_of_ne same] at its
      exact .inr its
  constructor
  · exact sound_acquire holds.sound free
  · intro other
    rw [open_acquire, holds.covered]
    constructor
    · rintro (rfl | ⟨someone, its⟩)
      · refine ⟨owner, ?_⟩
        rw [Function.update_self]
        exact List.mem_cons_self
      · refine ⟨someone, ?_⟩
        by_cases same : someone = owner
        · subst same
          rw [Function.update_self]
          exact List.mem_cons_of_mem _ its
        · rw [Function.update_of_ne same]
          exact its
    · rintro ⟨someone, its⟩
      rcases member its with ⟨-, rfl⟩ | before
      · exact .inl rfl
      · exact .inr ⟨someone, before⟩
  · intro left right value leftIts rightIts
    rcases member leftIts with ⟨leftSame, valueNew⟩ | leftBefore
    · rcases member rightIts with ⟨rightSame, -⟩ | rightBefore
      · rw [leftSame, rightSame]
      · rw [valueNew] at rightBefore
        exact absurd rightBefore (new right)
    · rcases member rightIts with ⟨-, valueNew⟩ | rightBefore
      · rw [valueNew] at leftBefore
        exact absurd leftBefore (new left)
      · exact holds.apart leftBefore rightBefore
  · intro other
    by_cases same : other = owner
    · subst same
      rw [Function.update_self]
      exact List.nodup_cons.mpr ⟨new other, holds.nodup other⟩
    · rw [Function.update_of_ne same]
      exact holds.nodup other

theorem held_released (holds : Held ledger held) (owner : Owner) :
    Held (ledger.closeAll (held owner)) (Function.update held owner []) := by
  obtain ⟨sound, left_⟩ := sound_close_all holds.sound
    (fun number member => (holds.covered number).mpr ⟨owner, member⟩) (holds.nodup owner)
  have member : ∀ {other value}, value ∈ Function.update held owner [] other →
      other ≠ owner ∧ value ∈ held other := by
    intro other value its
    by_cases same : other = owner
    · subst same
      rw [Function.update_self] at its
      exact absurd its List.not_mem_nil
    · rw [Function.update_of_ne same] at its
      exact ⟨same, its⟩
  constructor
  · exact sound
  · intro other
    rw [left_, holds.covered]
    constructor
    · rintro ⟨kept, someone, its⟩
      refine ⟨someone, ?_⟩
      have different : someone ≠ owner := by
        rintro rfl
        exact kept its
      rw [Function.update_of_ne different]
      exact its
    · rintro ⟨someone, its⟩
      obtain ⟨different, before⟩ := member its
      refine ⟨?_, someone, before⟩
      intro mine
      exact different (holds.apart before mine)
  · intro left right value leftIts rightIts
    exact holds.apart (member leftIts).2 (member rightIts).2
  · intro other
    by_cases same : other = owner
    · subst same
      rw [Function.update_self]
      exact List.nodup_nil
    · rw [Function.update_of_ne same]
      exact holds.nodup other

/-- An owner without descriptors takes those of another one over. -/
theorem held_moved (holds : Held ledger held) {source target : Owner} (empty : held target = []) :
    Held ledger (Function.update (Function.update held source []) target (held source)) := by
  have member : ∀ {other value},
      value ∈ Function.update (Function.update held source []) target (held source) other →
      ∃ before, value ∈ held before ∧
        (other = target ∧ before = source ∨ other ≠ target ∧ other ≠ source ∧ before = other) := by
    intro other value its
    by_cases same : other = target
    · subst same
      rw [Function.update_self] at its
      exact ⟨source, its, .inl ⟨rfl, rfl⟩⟩
    · rw [Function.update_of_ne same] at its
      by_cases gone : other = source
      · subst gone
        rw [Function.update_self] at its
        exact absurd its List.not_mem_nil
      · rw [Function.update_of_ne gone] at its
        exact ⟨other, its, .inr ⟨same, gone, rfl⟩⟩
  constructor
  · exact holds.sound
  · intro number
    rw [holds.covered]
    constructor
    · rintro ⟨owner, its⟩
      by_cases moved : owner = source
      · refine ⟨target, ?_⟩
        rw [Function.update_self, ← moved]
        exact its
      · refine ⟨owner, ?_⟩
        have different : owner ≠ target := by
          rintro rfl
          rw [empty] at its
          exact List.not_mem_nil its
        rw [Function.update_of_ne different, Function.update_of_ne moved]
        exact its
    · rintro ⟨owner, its⟩
      obtain ⟨before, held_, -⟩ := member its
      exact ⟨before, held_⟩
  · intro left right value leftIts rightIts
    obtain ⟨leftBefore, leftHeld, leftWas⟩ := member leftIts
    obtain ⟨rightBefore, rightHeld, rightWas⟩ := member rightIts
    have same := holds.apart leftHeld rightHeld
    rcases leftWas with ⟨rfl, rfl⟩ | ⟨-, leftOther, rfl⟩
    · rcases rightWas with ⟨rfl, -⟩ | ⟨-, rightOther, rfl⟩
      · rfl
      · exact absurd same.symm rightOther
    · rcases rightWas with ⟨-, rfl⟩ | ⟨-, -, rfl⟩
      · exact absurd same leftOther
      · exact same
  · intro other
    by_cases same : other = target
    · subst same
      rw [Function.update_self]
      exact holds.nodup source
    · rw [Function.update_of_ne same]
      by_cases gone : other = source
      · subst gone
        rw [Function.update_self]
        exact List.nodup_nil
      · rw [Function.update_of_ne gone]
        exact holds.nodup other

end Laws

end MarketDataEngine.DescriptorLedger
