import Mathlib.Algebra.BigOperators.Group.Finset.Basic
import MarketDataEngine.LockedMonitor

/-!
# No wake-up is lost

Counting threads by where they are. What a condition variable is waited for comes in
units: free slots, stored elements. The rule asks of every section that it takes a
unit when it was waiting for one and announces every unit it adds by a
`notify_one`. Then, as long as somebody sleeps on the variable, the units at hand are
covered by notifications under way. Once the monitor is on alert nobody goes to
sleep any more, and a sleeper is waiting for the `notify_all` still to come.
-/

namespace MarketDataEngine.LockedMonitor

open MarketDataEngine.TransitionSystem

set_option autoImplicit false

section Counting

variable {Thread State Op Cond Result : Type} [Fintype Thread] [DecidableEq Thread]
variable [DecidableEq Cond]

/-! ## Counting threads -/

def total (weight : Location Op Cond → Nat) (machine : Machine Thread State Op Cond Result) :
    Nat :=
  ∑ thread, weight (machine.location thread)

omit [DecidableEq Cond] in
theorem total_move (weight : Location Op Cond → Nat)
    (machine : Machine Thread State Op Cond Result) (thread : Thread)
    (location : Location Op Cond) :
    total weight (machine.move thread location) + weight (machine.location thread) =
      total weight machine + weight location := by
  have others : ∑ other ∈ Finset.univ.erase thread,
      weight ((machine.move thread location).location other) =
        ∑ other ∈ Finset.univ.erase thread, weight (machine.location other) := by
    apply Finset.sum_congr rfl
    intro other member
    exact congrArg weight (Function.update_of_ne (Finset.ne_of_mem_erase member) _ _)
  have here : (machine.move thread location).location thread = location :=
    Function.update_self _ _ _
  unfold total
  rw [← Finset.add_sum_erase _ _ (Finset.mem_univ thread), others, here,
    ← Finset.add_sum_erase _ (fun other => weight (machine.location other))
      (Finset.mem_univ thread)]
  omega

/-- The threads asleep on a variable that nobody has notified. -/
def sleepers (machine : Machine Thread State Op Cond Result) (cond : Cond) : Nat :=
  total (fun location => (location.sleepsOn cond).toNat) machine

/-- The threads that a notification of the variable has woken and that have not
tried again. -/
def notified (machine : Machine Thread State Op Cond Result) (cond : Cond) : Nat :=
  total (fun location => (location.notifiedBy cond).toNat) machine

/-- The notifications of this kind still to be issued. -/
def pending (machine : Machine Thread State Op Cond Result) (scope : Scope) (cond : Cond) :
    Nat :=
  total (fun location => location.pending.count (scope, cond)) machine

omit [DecidableEq Thread] in
theorem sleepers_eq_zero {machine : Machine Thread State Op Cond Result} {cond : Cond}
    (nobody : ∀ thread, (machine.location thread).sleepsOn cond = false) :
    sleepers machine cond = 0 := by
  unfold sleepers total
  apply Finset.sum_eq_zero
  intro thread _
  exact congrArg Bool.toNat (nobody thread)

section Moves

variable (machine : Machine Thread State Op Cond Result) (thread : Thread)
variable (location : Location Op Cond) (cond : Cond)

theorem sleepers_move :
    sleepers (machine.move thread location) cond +
        ((machine.location thread).sleepsOn cond).toNat =
      sleepers machine cond + (location.sleepsOn cond).toNat :=
  total_move _ machine thread location

theorem notified_move :
    notified (machine.move thread location) cond +
        ((machine.location thread).notifiedBy cond).toNat =
      notified machine cond + (location.notifiedBy cond).toNat :=
  total_move _ machine thread location

theorem pending_move (scope : Scope) :
    pending (machine.move thread location) scope cond +
        (machine.location thread).pending.count (scope, cond) =
      pending machine scope cond + location.pending.count (scope, cond) :=
  total_move (fun location => location.pending.count (scope, cond)) machine thread location

/-- The four counts that the coverage of a variable compares. -/
theorem counts_move :
    (sleepers (machine.move thread location) cond +
        ((machine.location thread).sleepsOn cond).toNat =
      sleepers machine cond + (location.sleepsOn cond).toNat) ∧
    (notified (machine.move thread location) cond +
        ((machine.location thread).notifiedBy cond).toNat =
      notified machine cond + (location.notifiedBy cond).toNat) ∧
    (pending (machine.move thread location) .one cond +
        (machine.location thread).pending.count (.one, cond) =
      pending machine .one cond + location.pending.count (.one, cond)) ∧
    (pending (machine.move thread location) .all cond +
        (machine.location thread).pending.count (.all, cond) =
      pending machine .all cond + location.pending.count (.all, cond)) :=
  ⟨sleepers_move machine thread location cond, notified_move machine thread location cond,
    pending_move machine thread location cond .one,
    pending_move machine thread location cond .all⟩

end Moves

section NotifyAll

omit [DecidableEq Thread]

variable (machine : Machine Thread State Op Cond Result) (cond : Cond)

theorem sleepers_notify_all : sleepers (machine.notifyAll cond) cond = 0 := by
  apply sleepers_eq_zero
  intro thread
  simp only [Machine.notifyAll]
  cases machine.location thread with
  | sleeping op other =>
      by_cases same : other = cond <;> simp [Location.woken, Location.sleepsOn, same]
  | _ => rfl

/-- Only sleepers on the variable are touched. -/
theorem total_notify_all {weight : Location Op Cond → Nat}
    (others : ∀ op awaited, weight ((Location.sleeping op awaited).woken cond) =
      weight (.sleeping op awaited)) :
    total weight (machine.notifyAll cond) = total weight machine := by
  unfold total
  apply Finset.sum_congr rfl
  intro thread _
  simp only [Machine.notifyAll]
  cases machine.location thread with
  | sleeping op awaited => exact others op awaited
  | _ => rfl

theorem pending_notify_all (scope : Scope) (other : Cond) :
    pending (machine.notifyAll cond) scope other = pending machine scope other := by
  apply total_notify_all
  intro op awaited
  by_cases same : awaited = cond <;> simp [Location.woken, same]

theorem others_notify_all {other : Cond} (different : other ≠ cond) :
    sleepers (machine.notifyAll cond) other = sleepers machine other ∧
      notified (machine.notifyAll cond) other = notified machine other := by
  constructor
  · apply total_notify_all
    intro op awaited
    by_cases same : awaited = cond <;> simp [Location.woken, same, Ne.symm different]
  · apply total_notify_all
    intro op awaited
    by_cases same : awaited = cond <;> simp [Location.woken, same, Ne.symm different]

end NotifyAll

end Counting

/-! ## The rule -/

section WakeUps

variable {Thread State Op Cond Result : Type} [Fintype Thread] [DecidableEq Thread]
variable [DecidableEq Cond]
variable (monitor : Monitor State Op Cond Result)

/-- `waitsOn` is the variable an operation may wait on, `supply` the units that are
waited for, and `alert` a state in which nobody has to wait. -/
structure WakeUpRules (waitsOn : Op → Option Cond) (supply : State → Cond → Nat)
    (alert : State → Prop) : Prop where
  waits : ∀ state op shared cond, monitor.locked state op = (shared, .wait cond) →
    waitsOn op = some cond ∧ shared = state ∧ supply state cond = 0 ∧ ¬ alert state
  alert_kept : ∀ state op shared result notifications,
    monitor.locked state op = (shared, .finish result notifications) →
    alert state → alert shared
  alert_raised : ∀ state op shared result notifications,
    monitor.locked state op = (shared, .finish result notifications) →
    ¬ alert state → alert shared → ∀ cond, (.all, cond) ∈ notifications

variable (waitsOn : Op → Option Cond) (supply : State → Cond → Nat) (alert : State → Prop)

/-- The unit that an operation takes. -/
def taken (op : Op) (cond : Cond) : Nat := if waitsOn op = some cond then 1 else 0

/-- A section about to be entered announces the units it adds, or they are covered
already. -/
def Announces (machine : Machine Thread State Op Cond Result)
    (label : Thread × Move Thread Op) : Prop :=
  ∀ op notified_ shared result notifications,
    machine.location label.1 = .entering op notified_ →
    monitor.locked machine.shared op = (shared, .finish result notifications) →
    ¬ alert shared → ∀ cond, 0 < sleepers machine cond →
      supply shared cond + taken waitsOn op cond ≤
          supply machine.shared cond + notifications.count (.one, cond) ∨
        supply shared cond + taken waitsOn op cond ≤
          notified machine cond + pending machine .one cond

/-- Threads wait on the variable of their operation. -/
def Placed (machine : Machine Thread State Op Cond Result) : Prop :=
  ∀ thread op cond, machine.location thread = .entering op (some cond) ∨
    machine.location thread = .sleeping op cond → waitsOn op = some cond

structure Covered (machine : Machine Thread State Op Cond Result) : Prop where
  placed : Placed waitsOn machine
  covered : ¬ alert machine.shared → ∀ cond, 0 < sleepers machine cond →
    supply machine.shared cond ≤ notified machine cond + pending machine .one cond
  alerted : alert machine.shared → ∀ cond, 0 < sleepers machine cond →
    0 < pending machine .all cond

variable {monitor waitsOn supply alert}
variable {machine next : Machine Thread State Op Cond Result} {thread : Thread}

omit [Fintype Thread] [DecidableEq Cond] in
theorem placed_move (placed : Placed waitsOn machine) {location : Location Op Cond}
    (own : ∀ op cond, location = .entering op (some cond) ∨ location = .sleeping op cond →
      waitsOn op = some cond) : Placed waitsOn (machine.move thread location) := by
  intro other op cond at_
  by_cases same : other = thread
  · rw [same, show (machine.move thread location).location thread = location from
      Function.update_self _ _ _] at at_
    exact own op cond at_
  · rw [show (machine.move thread location).location other = machine.location other from
      Function.update_of_ne same _ _] at at_
    exact placed other op cond at_

omit [DecidableEq Thread] in
/-- A step outside the lock. -/
theorem covered_of_counts (covered : Covered waitsOn supply alert machine)
    (shared : next.shared = machine.shared) (placed : Placed waitsOn next)
    (counts : ∀ cond, 0 < sleepers next cond → 0 < sleepers machine cond ∧
      notified machine cond + pending machine .one cond ≤
        notified next cond + pending next .one cond ∧
      pending machine .all cond ≤ pending next .all cond) :
    Covered waitsOn supply alert next where
  placed := placed
  covered := by
    intro calm cond asleep
    rw [shared] at calm ⊢
    obtain ⟨before, units, -⟩ := counts cond asleep
    exact (covered.covered calm cond before).trans units
  alerted := by
    intro alarm cond asleep
    rw [shared] at alarm
    obtain ⟨before, -, rings⟩ := counts cond asleep
    exact (covered.alerted alarm cond before).trans_le rings

/-- A call, or a thread that wakes up by itself. -/
theorem covered_try (covered : Covered waitsOn supply alert machine) (op : Op)
    (unnotified : ∀ cond, (machine.location thread).notifiedBy cond = false)
    (free : (machine.location thread).pending = []) :
    Covered waitsOn supply alert (machine.move thread (.entering op none)) := by
  refine covered_of_counts covered rfl ?_ ?_
  · apply placed_move covered.placed
    rintro other cond (impossible | impossible) <;> cases impossible
  · intro cond asleep
    obtain ⟨sleepersMoved, notifiedMoved, oneMoved, allMoved⟩ :=
      counts_move machine thread (.entering op none) cond
    simp [unnotified cond, free] at sleepersMoved notifiedMoved oneMoved allMoved
    omega

omit [Fintype Thread] [DecidableEq Thread] in
/-- Nothing was notified of a variable other than its own. -/
theorem notified_by_other (placed : Placed waitsOn machine) {op : Op}
    {notified_ : Option Cond} (at_ : machine.location thread = .entering op notified_)
    (cond : Cond) :
    ((machine.location thread).notifiedBy cond).toNat ≤ taken waitsOn op cond := by
  cases notified_ with
  | none =>
      rw [at_]
      exact Nat.zero_le _
  | some other =>
      have own := placed thread op other (.inl at_)
      rw [at_, taken, own]
      by_cases same : other = cond <;> simp [same]

theorem covered_wait (rules : WakeUpRules monitor waitsOn supply alert)
    (covered : Covered waitsOn supply alert machine) {op : Op} {notified_ : Option Cond}
    {shared : State} {cond : Cond} (at_ : machine.location thread = .entering op notified_)
    (section_ : monitor.locked machine.shared op = (shared, .wait cond)) :
    Covered waitsOn supply alert
      { machine.move thread (.sleeping op cond) with shared := shared } := by
  obtain ⟨own, rfl, dry, calm⟩ := rules.waits _ _ _ _ section_
  show Covered waitsOn supply alert (machine.move thread (.sleeping op cond))
  refine ⟨?_, ?_, fun alarm => absurd alarm calm⟩
  · apply placed_move covered.placed
    rintro other awaited (impossible | same)
    · cases impossible
    · cases same
      exact own
  · intro _ other asleep
    show supply machine.shared other ≤ _
    by_cases same : other = cond
    · rw [same]
      omega
    · have sleepersMoved := sleepers_move machine thread (.sleeping op cond) other
      have notifiedMoved := notified_move machine thread (.sleeping op cond) other
      have pendingMoved := pending_move machine thread (.sleeping op cond) other .one
      have unrelated := notified_by_other covered.placed at_ other
      rw [taken, own, if_neg (fun equal => same (Option.some.inj equal).symm)] at unrelated
      simp [at_, Ne.symm same] at sleepersMoved notifiedMoved pendingMoved unrelated
      have units := covered.covered calm other (by omega)
      rw [unrelated] at notifiedMoved
      simp at notifiedMoved
      omega

theorem covered_finish (rules : WakeUpRules monitor waitsOn supply alert)
    (covered : Covered waitsOn supply alert machine) {op : Op} {notified_ : Option Cond}
    {shared : State} {result : Result} {notifications : List (Scope × Cond)}
    {move : Move Thread Op}
    (announces : Announces monitor waitsOn supply alert machine (thread, move))
    (at_ : machine.location thread = .entering op notified_)
    (section_ : monitor.locked machine.shared op = (shared, .finish result notifications)) :
    Covered waitsOn supply alert
      ⟨shared, (machine.move thread (.outside notifications)).location,
        machine.returned ++ [(thread, op, result)]⟩ := by
  let left := machine.move thread (.outside notifications)
  have sleepersMoved : ∀ cond, sleepers left cond = sleepers machine cond := by
    intro cond
    have moved := sleepers_move machine thread (.outside notifications) cond
    simpa [at_] using moved
  have notifiedMoved : ∀ cond, notified machine cond ≤
      notified left cond + taken waitsOn op cond := by
    intro cond
    have moved : notified left cond + _ = _ :=
      notified_move machine thread (.outside notifications) cond
    have own := notified_by_other covered.placed at_ cond
    rw [Location.notified_by_outside, Bool.toNat_false] at moved
    omega
  have pendingMoved : ∀ scope cond, pending left scope cond =
      pending machine scope cond + notifications.count (scope, cond) := by
    intro scope cond
    have moved := pending_move machine thread (.outside notifications) cond scope
    simpa [at_] using moved
  refine ⟨?_, ?_, ?_⟩
  · apply placed_move covered.placed
    rintro other cond (impossible | impossible) <;> cases impossible
  · intro calm cond asleep
    show supply shared cond ≤ notified left cond + pending left .one cond
    have before : 0 < sleepers machine cond := by
      rw [← sleepersMoved cond]
      exact asleep
    have wasCalm : ¬ alert machine.shared := fun alarm =>
      calm (rules.alert_kept _ _ _ _ _ section_ alarm)
    have units := covered.covered wasCalm cond before
    have moved := notifiedMoved cond
    rw [pendingMoved]
    obtain announced | already := announces op notified_ shared result notifications at_
      section_ calm cond before
    · omega
    · omega
  · intro alarm cond asleep
    show 0 < pending left .all cond
    have before : 0 < sleepers machine cond := by
      rw [← sleepersMoved cond]
      exact asleep
    rw [pendingMoved]
    by_cases earlier : alert machine.shared
    · have ringing := covered.alerted earlier cond before
      omega
    · have raised := rules.alert_raised _ _ _ _ _ section_ earlier alarm cond
      have counted := List.count_pos_iff.mpr raised
      omega

theorem covered_notify_one (covered : Covered waitsOn supply alert machine) {cond : Cond}
    {rest : List (Scope × Cond)} {chosen : Thread} {op : Op}
    (at_ : machine.location thread = .outside ((.one, cond) :: rest))
    (other : chosen ≠ thread) (asleep : machine.location chosen = .sleeping op cond) :
    Covered waitsOn supply alert
      ((machine.move thread (.outside rest)).move chosen (.entering op (some cond))) := by
  have own := covered.placed chosen op cond (.inr asleep)
  have still : (machine.move thread (.outside rest)).location chosen = .sleeping op cond := by
    rw [← asleep]
    exact Function.update_of_ne other _ _
  have placedIssued : Placed waitsOn (machine.move thread (.outside rest)) := by
    apply placed_move covered.placed
    rintro op' cond' (impossible | impossible) <;> cases impossible
  refine covered_of_counts covered rfl ?_ ?_
  · apply placed_move placedIssued
    rintro op' cond' (same | impossible)
    · cases same
      exact own
    · cases impossible
  · intro awaited sleeping
    obtain ⟨sleepersIssued, notifiedIssued, oneIssued, allIssued⟩ :=
      counts_move machine thread (.outside rest) awaited
    generalize machine.move thread (.outside rest) = issued at *
    obtain ⟨sleepersWoken, notifiedWoken, oneWoken, allWoken⟩ :=
      counts_move issued chosen (.entering op (some cond)) awaited
    -- The notification under way becomes a notified thread.
    by_cases same : cond = awaited
    · subst same
      simp [at_] at sleepersIssued notifiedIssued oneIssued allIssued
      simp [still] at sleepersWoken notifiedWoken oneWoken allWoken
      omega
    · simp [at_, same] at sleepersIssued notifiedIssued oneIssued allIssued
      simp [still, same] at sleepersWoken notifiedWoken oneWoken allWoken
      omega

theorem covered_notify_nobody (covered : Covered waitsOn supply alert machine) {cond : Cond}
    {rest : List (Scope × Cond)}
    (at_ : machine.location thread = .outside ((.one, cond) :: rest))
    (nobody : ∀ other, (machine.location other).sleepsOn cond = false) :
    Covered waitsOn supply alert (machine.move thread (.outside rest)) := by
  have empty := sleepers_eq_zero nobody
  refine covered_of_counts covered rfl ?_ ?_
  · apply placed_move covered.placed
    rintro op' cond' (impossible | impossible) <;> cases impossible
  · intro awaited sleeping
    obtain ⟨sleepersIssued, notifiedIssued, oneIssued, allIssued⟩ :=
      counts_move machine thread (.outside rest) awaited
    by_cases same : cond = awaited
    · simp [at_, same] at sleepersIssued
      rw [same] at empty
      omega
    · simp [at_, same] at sleepersIssued notifiedIssued oneIssued allIssued
      omega

omit [Fintype Thread] [DecidableEq Thread] in
theorem placed_notify_all (placed : Placed waitsOn machine) {cond : Cond} :
    Placed waitsOn (machine.notifyAll cond) := by
  intro other op awaited
  have before := placed other
  simp only [Machine.notifyAll]
  cases at_ : machine.location other with
  | outside notifications => simp [Location.woken]
  | entering current notified_ =>
      rintro (same | impossible)
      · exact before op awaited (.inl (at_.trans same))
      · cases impossible
  | sleeping current variable_ =>
      have own := before current variable_ (.inr at_)
      by_cases same : variable_ = cond
      · subst same
        simp only [Location.woken, ↓reduceIte]
        rintro (woken | impossible)
        · cases woken
          exact own
        · cases impossible
      · simp only [Location.woken, same, ↓reduceIte]
        rintro (impossible | asleep)
        · cases impossible
        · cases asleep
          exact own

theorem covered_notify_all (covered : Covered waitsOn supply alert machine) {cond : Cond}
    {rest : List (Scope × Cond)}
    (at_ : machine.location thread = .outside ((.all, cond) :: rest)) :
    Covered waitsOn supply alert
      ((machine.move thread (.outside rest)).notifyAll cond) := by
  let issued := machine.move thread (.outside rest)
  have placedIssued : Placed waitsOn issued := by
    apply placed_move covered.placed
    rintro op' cond' (impossible | impossible) <;> cases impossible
  refine covered_of_counts covered rfl ?_ ?_
  · exact placed_notify_all placedIssued
  · intro awaited sleeping
    have different : awaited ≠ cond := by
      rintro rfl
      have nobody := sleepers_notify_all (machine.move thread (.outside rest)) awaited
      omega
    obtain ⟨sleepersKept, notifiedKept⟩ := others_notify_all issued cond different
    have pendingKept := fun scope => pending_notify_all issued cond scope awaited
    obtain ⟨sleepersIssued, notifiedIssued, oneIssued, allIssued⟩ :=
      counts_move machine thread (.outside rest) awaited
    simp [at_, Ne.symm different] at sleepersIssued notifiedIssued oneIssued allIssued
    rw [notifiedKept, pendingKept, pendingKept]
    rw [sleepersKept] at sleeping
    simp only [issued] at sleeping ⊢
    omega

theorem covered_step (rules : WakeUpRules monitor waitsOn supply alert)
    (covered : Covered waitsOn supply alert machine) {label : Thread × Move Thread Op}
    (announces : Announces monitor waitsOn supply alert machine label)
    (stepped : step monitor machine label = some next) :
    Covered waitsOn supply alert next := by
  obtain ⟨thread, move⟩ := label
  cases stepped_of_step stepped with
  | called op at_ moved =>
      rw [moved]
      apply covered_try covered op
      · intro cond
        rw [at_, Location.notified_by_outside]
      · rw [at_, Location.pending_outside]
  | waited op notified_ shared cond at_ section_ moved =>
      rw [moved]
      exact covered_wait rules covered at_ section_
  | finished op notified_ shared result notifications at_ section_ moved =>
      rw [moved]
      exact covered_finish rules covered announces at_ section_
  | wokeUp op cond at_ moved =>
      rw [moved]
      apply covered_try covered op
      · intro cond
        rw [at_, Location.notified_by_sleeping]
      · rw [at_, Location.pending_sleeping]
  | notifiedOne cond rest chosen op at_ other asleep moved =>
      rw [moved]
      exact covered_notify_one covered at_ other asleep
  | notifiedNobody cond rest at_ nobody moved =>
      rw [moved]
      exact covered_notify_nobody covered at_ nobody
  | notifiedAll cond rest at_ moved =>
      rw [moved]
      exact covered_notify_all covered at_

/-- In every run whose sections announce what they add, no wake-up is lost. -/
theorem covered_of_reaches (rules : WakeUpRules monitor waitsOn supply alert)
    {initial : State → Prop}
    (reached : ReachesUnder (system monitor initial)
      (Announces monitor waitsOn supply alert) machine) :
    Covered waitsOn supply alert machine := by
  refine invariant_of_step ?_ ?_ reached
  · rintro machine ⟨-, outside, -⟩
    have nobody : ∀ cond, sleepers machine cond = 0 := by
      intro cond
      apply sleepers_eq_zero
      intro thread
      rw [outside thread, Location.sleeps_on_outside]
    refine ⟨?_, ?_, ?_⟩
    · rintro thread op cond (impossible | impossible) <;> rw [outside thread] at impossible <;>
        cases impossible
    · intro _ cond asleep
      rw [nobody cond] at asleep
      omega
    · intro _ cond asleep
      rw [nobody cond] at asleep
      omega
  · intro machine label next _ covered announces stepped
    exact covered_step rules covered announces stepped

end WakeUps

end MarketDataEngine.LockedMonitor
