import MarketDataEngine.BlockedBoundedQueue
import MarketDataEngine.MonitorWakeUps

/-!
# Wake-ups of the blocking queue

Producers wait for free slots, consumers for elements. `enqueue` and `dequeue` take
one unit of the one and announce one unit of the other; `close` is the alert.
`clear` frees every slot and announces nothing.
-/

namespace MarketDataEngine.Containers

open MarketDataEngine.LockedMonitor MarketDataEngine.TransitionSystem

set_option autoImplicit false

namespace BlockedBoundedQueue

variable {α : Type}

def waitsOn : QueueOp α → Option QueueCond
  | .enqueue _ => some .notFull
  | .dequeue => some .notEmpty
  | _ => none

/-- Free slots and stored elements. -/
def supply (queue : BlockedBoundedQueue α) : QueueCond → Nat
  | .notFull => kCapacity - queue.size
  | .notEmpty => queue.size

def Alert (queue : BlockedBoundedQueue α) : Prop := queue.closed = true

theorem waits_section {queue after : BlockedBoundedQueue α} {op : QueueOp α} {cond : QueueCond}
    (section_ : queue.locked op = (after, .wait cond)) :
    waitsOn op = some cond ∧ after = queue ∧ queue.supply cond = 0 ∧ ¬ queue.Alert := by
  cases op with
  | enqueue data =>
      simp only [locked] at section_
      split_ifs at section_ with ready
      · cases section_
      · cases section_
      · cases section_
        have full : ¬ queue.size < kCapacity := fun room => ready (.inl room)
        refine ⟨rfl, rfl, ?_, fun closed => ready (.inr closed)⟩
        exact Nat.sub_eq_zero_of_le (Nat.not_lt.mp full)
  | dequeue =>
      simp only [locked] at section_
      split_ifs at section_ with ready
      · cases section_
      · cases section_
      · cases section_
        have empty : ¬ 0 < queue.size := fun stored => ready (.inl stored)
        refine ⟨rfl, rfl, ?_, fun closed => ready (.inr closed)⟩
        exact Nat.eq_zero_of_not_pos empty
  | _ => cases section_

theorem alert_raised_section {queue after : BlockedBoundedQueue α} {op : QueueOp α}
    {result : QueueResult α} {notifications : List (Scope × QueueCond)}
    (section_ : queue.locked op = (after, .finish result notifications))
    (calm : ¬ queue.Alert) (alarm : after.Alert) (cond : QueueCond) :
    (.all, cond) ∈ notifications := by
  cases op with
  | enqueue data =>
      simp only [locked] at section_
      split_ifs at section_ <;> cases section_ <;> exact absurd alarm calm
  | dequeue =>
      simp only [locked] at section_
      split_ifs at section_ <;> cases section_ <;> exact absurd alarm calm
  | close =>
      cases section_
      cases cond <;> decide
  | _ =>
      cases section_
      exact absurd alarm calm

theorem wake_up_rules : WakeUpRules (monitor α) waitsOn supply Alert where
  waits _ _ _ _ section_ := waits_section section_
  alert_kept _ _ _ _ _ section_ alarm := (closed_section alarm section_).1
  alert_raised _ _ _ _ _ section_ calm alarm := alert_raised_section section_ calm alarm

/-- Every section but `clear` announces what it adds. -/
theorem announced_section {queue after : BlockedBoundedQueue α} {op : QueueOp α}
    {result : QueueResult α} {notifications : List (Scope × QueueCond)}
    (section_ : queue.locked op = (after, .finish result notifications))
    (kept : op ≠ .clear) (calm : ¬ after.Alert) (cond : QueueCond) :
    after.supply cond + taken waitsOn op cond ≤
      queue.supply cond + notifications.count (.one, cond) := by
  cases op with
  | enqueue data =>
      simp only [locked] at section_
      split_ifs at section_ with ready closed
      · cases section_
        exact absurd closed calm
      · cases section_
        have room := ready.resolve_right closed
        cases cond with
        | notFull =>
            simp only [supply, put, taken, waitsOn, ↓reduceIte]
            omega
        | notEmpty => exact Nat.le_refl _
      · cases section_
  | dequeue =>
      simp only [locked] at section_
      split_ifs at section_ with ready finished
      · cases section_
        exact absurd finished.2 calm
      · cases section_
        have stored := ready.resolve_right calm
        cases cond with
        | notFull =>
            simp only [supply, drop, taken, waitsOn]
            simp
            omega
        | notEmpty =>
            simp only [supply, drop, taken, waitsOn, ↓reduceIte]
            omega
      · cases section_
  | clear => exact absurd rfl kept
  | close =>
      cases section_
      exact absurd rfl calm
  | _ =>
      cases section_
      exact Nat.le_refl _

end BlockedBoundedQueue

section WakeUps

variable {Thread α : Type} [Fintype Thread] [DecidableEq Thread]

/-- The units at hand are covered by notifications under way, and behind a `close` by
its `notify_all`. -/
structure NoLostWakeUp (machine : QueueMachine Thread α) : Prop where
  producers : machine.shared.closed = false → 0 < sleepers machine .notFull →
    kCapacity - machine.shared.size ≤
      notified machine .notFull + pending machine .one .notFull
  consumers : machine.shared.closed = false → 0 < sleepers machine .notEmpty →
    machine.shared.size ≤ notified machine .notEmpty + pending machine .one .notEmpty
  closed : machine.shared.closed = true → ∀ cond, 0 < sleepers machine cond →
    0 < pending machine .all cond

/-- A `clear` of an open queue finds no producer asleep, or enough notifications under
way for every slot. -/
def ClearCovered (machine : QueueMachine Thread α) (label : Thread × Move Thread (QueueOp α)) :
    Prop :=
  ∀ notified_, machine.location label.1 = .entering .clear notified_ →
    machine.shared.closed = false → 0 < sleepers machine .notFull →
    kCapacity ≤ notified machine .notFull + pending machine .one .notFull

omit [DecidableEq Thread] in
theorem announces_of_clear_covered {machine : QueueMachine Thread α}
    {label : Thread × Move Thread (QueueOp α)} (clearCovered : ClearCovered machine label) :
    Announces (BlockedBoundedQueue.monitor α) BlockedBoundedQueue.waitsOn
      BlockedBoundedQueue.supply BlockedBoundedQueue.Alert machine label := by
  intro op notified_ shared result notifications at_ section_ calm cond asleep
  by_cases clears : op = .clear
  · subst clears
    cases section_
    cases cond with
    | notFull =>
        have open_ : machine.shared.closed = false := Bool.eq_false_of_not_eq_true calm
        exact .inr (clearCovered notified_ at_ open_ asleep)
    | notEmpty => exact .inl (Nat.zero_le _)
  · exact .inl (BlockedBoundedQueue.announced_section section_ clears calm cond)

omit [DecidableEq Thread] in
theorem no_lost_wake_up_of_covered {machine : QueueMachine Thread α}
    (covered : Covered BlockedBoundedQueue.waitsOn BlockedBoundedQueue.supply
      BlockedBoundedQueue.Alert machine) : NoLostWakeUp machine where
  producers open_ asleep :=
    covered.covered (Bool.eq_false_iff.mp open_) .notFull asleep
  consumers open_ asleep :=
    covered.covered (Bool.eq_false_iff.mp open_) .notEmpty asleep
  closed closed cond asleep := covered.alerted closed cond asleep

/-- In a run in which every `clear` is covered no wake-up is lost. -/
theorem no_lost_wake_up_when_clears_covered {machine : QueueMachine Thread α}
    (reached : ReachesUnder (queueSystem Thread α) ClearCovered machine) :
    NoLostWakeUp machine := by
  have announced : ReachesUnder (queueSystem Thread α)
      (Announces (BlockedBoundedQueue.monitor α) BlockedBoundedQueue.waitsOn
        BlockedBoundedQueue.supply BlockedBoundedQueue.Alert) machine :=
    reaches_under_mono (fun _ _ => announces_of_clear_covered) reached
  exact no_lost_wake_up_of_covered
    (covered_of_reaches BlockedBoundedQueue.wake_up_rules announced)

/-- A consumer sleeps; the other thread clears the queue, puts a value into it and is
about to notify. -/
def notifyUnderWay : List (Bool × Move Bool (QueueOp Nat)) :=
  [(true, .call .dequeue), (true, .enter), (false, .call .clear), (false, .enter),
    (false, .call (.enqueue 7)), (false, .enter)]

theorem no_lost_wake_up_when_notify_under_way :
    ∃ machine, runLabels (queueSystem Bool Nat) newQueueMachine notifyUnderWay = some machine ∧
      sleepers machine .notEmpty = 1 ∧ machine.shared.size = 1 ∧ NoLostWakeUp machine := by
  have new : ReachesUnder (queueSystem Bool Nat) ClearCovered newQueueMachine :=
    .start ⟨⟨rfl, rfl, rfl, rfl⟩, fun _ => rfl, rfl⟩
  let check : QueueMachine Bool Nat → Bool × Move Bool (QueueOp Nat) → Bool :=
    fun machine _ => sleepers machine .notFull == 0
  have sound : ∀ machine label, check machine label = true → ClearCovered machine label := by
    intro machine label checked notified_ at_ open_ asleep
    rw [beq_iff_eq.mp checked] at asleep
    exact absurd asleep (Nat.lt_irrefl 0)
  refine ⟨_, rfl, rfl, rfl, ?_⟩
  apply no_lost_wake_up_when_clears_covered
  exact reaches_under_run sound new (rfl : runChecked _ check _ notifyUnderWay = _)

/-- The condition is exact: a `clear` that is not covered loses the wake-ups. -/
theorem uncovered_clear_loses_wake_up {machine : QueueMachine Thread α} {thread : Thread}
    {notified_ : Option QueueCond}
    (at_ : machine.location thread = .entering .clear notified_)
    (uncovered : ¬ ClearCovered machine (thread, .enter)) :
    ∃ next, (queueSystem Thread α).step machine (thread, .enter) = some next ∧
      ¬ NoLostWakeUp next := by
  unfold ClearCovered at uncovered
  push Not at uncovered
  obtain ⟨notified', at', open_, asleep, few⟩ := uncovered
  have sleepersMoved := sleepers_move machine thread (.outside []) .notFull
  have notifiedMoved := notified_move machine thread (.outside []) .notFull
  have pendingMoved := pending_move machine thread (.outside []) .notFull .one
  simp [at_] at sleepersMoved notifiedMoved pendingMoved
  refine ⟨_, step_enter (BlockedBoundedQueue.monitor α) at_, ?_⟩
  intro noLost
  have covered : kCapacity - 0 ≤ notified (machine.move thread (.outside [])) .notFull +
      pending (machine.move thread (.outside [])) .one .notFull := by
    apply noLost.producers open_
    show 0 < sleepers (machine.move thread (.outside [])) .notFull
    omega
  omega

/-! ## A producer left asleep -/

/-- All threads are between two calls. -/
def idle (queue : BlockedBoundedQueue α)
    (returned : List (Thread × QueueOp α × QueueResult α)) : QueueMachine Thread α :=
  ⟨queue, fun _ => .outside [], returned⟩

theorem enqueue_section {queue : BlockedBoundedQueue α} (open_ : queue.closed = false)
    (room : queue.size < kCapacity) (data : α) :
    queue.locked (.enqueue data) =
      (queue.put data, .finish (.enqueued true) [(.one, .notEmpty)]) := by
  simp only [BlockedBoundedQueue.locked, room, open_, true_or, Bool.false_eq_true, ↓reduceIte]

theorem full_section {queue : BlockedBoundedQueue α} (open_ : queue.closed = false)
    (full : queue.size = kCapacity) (data : α) :
    queue.locked (.enqueue data) = (queue, .wait .notFull) := by
  simp only [BlockedBoundedQueue.locked, full, open_, Nat.lt_irrefl, Bool.false_eq_true, or_self,
    ↓reduceIte]

theorem reaches_enqueued {queue : BlockedBoundedQueue α}
    {returned : List (Thread × QueueOp α × QueueResult α)}
    (reached : Reaches (queueSystem Thread α) (idle queue returned))
    (open_ : queue.closed = false) (room : queue.size < kCapacity) (thread : Thread) (data : α) :
    Reaches (queueSystem Thread α) (idle (queue.put data)
      (returned ++ [(thread, .enqueue data, .enqueued true)])) := by
  let notifying : QueueMachine Thread α :=
    ⟨queue.put data, Function.update (fun _ => .outside []) thread
      (.outside [(.one, .notEmpty)]), returned ++ [(thread, .enqueue data, .enqueued true)]⟩
  have called : Reaches (queueSystem Thread α)
      ((idle queue returned).move thread (.entering (.enqueue data) none)) :=
    reaches_step reached (step_call (BlockedBoundedQueue.monitor α) (.enqueue data) rfl)
  have entered : (queueSystem Thread α).step
      ((idle queue returned).move thread (.entering (.enqueue data) none)) (thread, .enter) =
        some notifying := by
    refine (step_enter _ (Machine.move_location_self _)).trans ?_
    simp only [Machine.enter, BlockedBoundedQueue.monitor, Machine.move, idle,
      enqueue_section open_ room, Function.update_idem]
    rfl
  have final : notifying.move thread (.outside []) = idle (queue.put data)
      (returned ++ [(thread, .enqueue data, .enqueued true)]) := by
    simp only [Machine.move, notifying, idle, Function.update_idem]
    congr 1
    exact Function.update_eq_self thread fun _ => Location.outside []
  have silent : ∀ other, ((notifying.move thread (.outside [])).location other).sleepsOn
      .notEmpty = false := by
    intro other
    rw [final]
    rfl
  have at_ : notifying.location thread = .outside [(.one, .notEmpty)] := by
    simp only [notifying, Function.update_self]
  rw [← final]
  exact reaches_step (reaches_step called entered)
    (step_notify_nobody (BlockedBoundedQueue.monitor α) at_ silent)

theorem reaches_filled {queue : BlockedBoundedQueue α} (constructed : queue.Constructed)
    (thread : Thread) (data : α) {size : Nat} (bounded : size ≤ kCapacity) :
    ∃ (filled : BlockedBoundedQueue α) (returned : List (Thread × QueueOp α × QueueResult α)),
      Reaches (queueSystem Thread α) (idle filled returned) ∧ filled.closed = false ∧
        filled.size = size := by
  induction size with
  | zero =>
      refine ⟨queue, [], ?_, constructed.2.2.2, constructed.2.2.1⟩
      exact reaches_start ⟨constructed, fun _ => rfl, rfl⟩
  | succ size ih =>
      obtain ⟨filled, returned, reached, open_, size_eq⟩ := ih (by omega)
      have room : filled.size < kCapacity := by omega
      refine ⟨filled.put data, _, reaches_enqueued reached open_ room thread data, open_, ?_⟩
      exact congrArg (· + 1) size_eq

end WakeUps

/-- One thread fills the queue and falls asleep in the next `enqueue`; the other one
clears the queue. Nobody is about to wake the sleeper. -/
theorem clear_leaves_producer_asleep :
    ¬ ∀ machine : QueueMachine Bool Nat, Reaches (queueSystem Bool Nat) machine →
      NoLostWakeUp machine := by
  intro noLost
  have constructed : (⟨fun _ => 0, 0, 0, 0, false⟩ : BlockedBoundedQueue Nat).Constructed :=
    ⟨rfl, rfl, rfl, rfl⟩
  obtain ⟨full, returned, reached, open_, size⟩ :=
    reaches_filled constructed false 0 (Nat.le_refl kCapacity)
  let asleep : QueueMachine Bool Nat :=
    ⟨full, Function.update (fun _ => .outside []) false (.sleeping (.enqueue 0) .notFull),
      returned⟩
  let entering : QueueMachine Bool Nat :=
    (idle full returned).move false (.entering (.enqueue 0) none)
  let clearing := asleep.move true (.entering .clear none)
  have called : Reaches (queueSystem Bool Nat) entering :=
    reaches_step reached (step_call (BlockedBoundedQueue.monitor Nat) (.enqueue 0) rfl)
  have at_ : entering.location false = .entering (.enqueue 0) none := rfl
  have waited : (queueSystem Bool Nat).step entering (false, .enter) = some asleep := by
    refine (step_enter (BlockedBoundedQueue.monitor Nat) at_).trans ?_
    simp only [Machine.enter, BlockedBoundedQueue.monitor, Machine.move, entering, idle,
      full_section open_ size, Function.update_idem]
    rfl
  have reachedClearing : Reaches (queueSystem Bool Nat) clearing :=
    reaches_step (reaches_step called waited)
      (step_call (BlockedBoundedQueue.monitor Nat) .clear rfl)
  have uncovered : ¬ ClearCovered clearing (true, .enter) := by
    intro covered
    have one : sleepers clearing .notFull = 1 := rfl
    have nobody : notified clearing .notFull + pending clearing .one .notFull = 0 := rfl
    have enough := covered none rfl open_ (one ▸ Nat.zero_lt_one)
    rw [nobody, kCapacity] at enough
    omega
  obtain ⟨cleared, taken, lost⟩ := uncovered_clear_loses_wake_up rfl uncovered
  exact lost (noLost cleared (reaches_step reachedClearing taken))

end MarketDataEngine.Containers
