import MarketDataEngine.LockedMonitor

/-!
# The blocking queue

`BlockedBoundedQueue` as a monitor: each member function is one locked section, with
the predicate of `wait` in front and the notifications behind the unlock. A section
that waits is run again from the predicate on. `capacity()` reads `size_` without
the lock and is left out.

The abstract layer is a list with a flag. The circular buffer stands for the list,
section by section, so every run of the threads is a run over the list.
-/

namespace MarketDataEngine.Containers

open MarketDataEngine.LockedMonitor MarketDataEngine.TransitionSystem

set_option autoImplicit false

def kCapacity : Nat := 3000

/-- `buffer` is an array of `kCapacity` elements; no index is ever larger. -/
structure BlockedBoundedQueue (α : Type) where
  buffer : Nat → α
  head : Nat
  tail : Nat
  size : Nat
  closed : Bool

inductive QueueOp (α : Type) where
  | enqueue (data : α)
  | dequeue
  | isFull
  | isEmpty
  | size
  | clear
  | close
  | closed
  deriving DecidableEq

inductive QueueCond where
  | notFull
  | notEmpty
  deriving DecidableEq

/-- The return values. `dequeued none` is a false; `clear` returns nothing, what it
threw away is a history. -/
inductive QueueResult (α : Type) where
  | enqueued (ok : Bool)
  | dequeued (out : Option α)
  | cleared (discarded : List α)
  | closed
  | flag (value : Bool)
  | count (value : Nat)
  deriving DecidableEq

namespace BlockedBoundedQueue

variable {α : Type}

/-- The stored elements, oldest first. -/
def contents (queue : BlockedBoundedQueue α) : List α :=
  (List.range queue.size).map fun offset => queue.buffer ((queue.head + offset) % kCapacity)

def put (queue : BlockedBoundedQueue α) (data : α) : BlockedBoundedQueue α :=
  { queue with
    buffer := Function.update queue.buffer queue.tail data
    tail := (queue.tail + 1) % kCapacity
    size := queue.size + 1 }

def drop (queue : BlockedBoundedQueue α) : BlockedBoundedQueue α :=
  { queue with
    head := (queue.head + 1) % kCapacity
    size := queue.size - 1 }

def locked (queue : BlockedBoundedQueue α) :
    QueueOp α → BlockedBoundedQueue α × Outcome QueueCond (QueueResult α)
  | .enqueue data =>
      if queue.size < kCapacity ∨ queue.closed then
        if queue.closed then (queue, .finish (.enqueued false) [])
        else (queue.put data, .finish (.enqueued true) [(.one, .notEmpty)])
      else (queue, .wait .notFull)
  | .dequeue =>
      if 0 < queue.size ∨ queue.closed then
        if queue.size = 0 ∧ queue.closed then (queue, .finish (.dequeued none) [])
        else
          (queue.drop, .finish (.dequeued (some (queue.buffer queue.head)))
            [(.one, .notFull)])
      else (queue, .wait .notEmpty)
  | .isFull => (queue, .finish (.flag (queue.size == kCapacity)) [])
  | .isEmpty => (queue, .finish (.flag (queue.size == 0)) [])
  | .size => (queue, .finish (.count queue.size) [])
  | .clear =>
      ({ queue with head := 0, tail := 0, size := 0 },
        .finish (.cleared queue.contents) [])
  | .close =>
      ({ queue with closed := true },
        .finish .closed [(.all, .notFull), (.all, .notEmpty)])
  | .closed => (queue, .finish (.flag queue.closed) [])

def monitor (α : Type) :
    Monitor (BlockedBoundedQueue α) (QueueOp α) QueueCond (QueueResult α) :=
  ⟨locked⟩

/-- A new queue; the elements of its array may be anything. -/
def Constructed (queue : BlockedBoundedQueue α) : Prop :=
  queue.head = 0 ∧ queue.tail = 0 ∧ queue.size = 0 ∧ queue.closed = false

structure WellFormed (queue : BlockedBoundedQueue α) : Prop where
  size_le : queue.size ≤ kCapacity
  head_lt : queue.head < kCapacity
  tail_lt : queue.tail < kCapacity
  tail_eq : queue.tail = (queue.head + queue.size) % kCapacity

end BlockedBoundedQueue

/-- A queue used by these threads. -/
abbrev QueueMachine (Thread α : Type) :=
  Machine Thread (BlockedBoundedQueue α) (QueueOp α) QueueCond (QueueResult α)

def queueSystem (Thread α : Type) [Fintype Thread] [DecidableEq Thread] :
    System (QueueMachine Thread α) (Thread × Move Thread (QueueOp α)) :=
  system (BlockedBoundedQueue.monitor α) BlockedBoundedQueue.Constructed

/-! ## The closable bounded FIFO -/

structure ClosableFifo (α : Type) where
  contents : List α
  closed : Bool

namespace ClosableFifo

variable {α : Type} (capacity : Nat)

/-- An enqueue waits for room unless the FIFO is closed, a dequeue for an element. -/
def locked (fifo : ClosableFifo α) :
    QueueOp α → ClosableFifo α × Outcome QueueCond (QueueResult α)
  | .enqueue data =>
      if fifo.closed then (fifo, .finish (.enqueued false) [])
      else if fifo.contents.length = capacity then (fifo, .wait .notFull)
      else
        ({ fifo with contents := fifo.contents ++ [data] },
          .finish (.enqueued true) [(.one, .notEmpty)])
  | .dequeue =>
      match fifo.contents with
      | out :: rest =>
          ({ fifo with contents := rest }, .finish (.dequeued (some out)) [(.one, .notFull)])
      | [] => if fifo.closed then (fifo, .finish (.dequeued none) []) else (fifo, .wait .notEmpty)
  | .isFull => (fifo, .finish (.flag (fifo.contents.length == capacity)) [])
  | .isEmpty => (fifo, .finish (.flag (fifo.contents.length == 0)) [])
  | .size => (fifo, .finish (.count fifo.contents.length) [])
  | .clear => ({ fifo with contents := [] }, .finish (.cleared fifo.contents) [])
  | .close =>
      ({ fifo with closed := true },
        .finish .closed [(.all, .notFull), (.all, .notEmpty)])
  | .closed => (fifo, .finish (.flag fifo.closed) [])

def monitor (α : Type) :
    Monitor (ClosableFifo α) (QueueOp α) QueueCond (QueueResult α) :=
  ⟨locked capacity⟩

end ClosableFifo

/-! ## The circular buffer is the list -/

namespace BlockedBoundedQueue

variable {α : Type}

def fifo (queue : BlockedBoundedQueue α) : ClosableFifo α := ⟨queue.contents, queue.closed⟩

@[simp] theorem contents_length (queue : BlockedBoundedQueue α) :
    queue.contents.length = queue.size := by
  simp [contents]

/-- The cell behind the last element is not one of the stored ones. -/
theorem contents_put {queue : BlockedBoundedQueue α} (wellFormed : queue.WellFormed)
    (room : queue.size < kCapacity) (data : α) :
    (queue.put data).contents = queue.contents ++ [data] := by
  have head := wellFormed.head_lt
  have tail := wellFormed.tail_eq
  simp only [contents, put, List.range_succ, List.map_append, List.map_singleton]
  rw [← tail, Function.update_self]
  congr 1
  apply List.map_congr_left
  intro offset member
  apply Function.update_of_ne
  rw [List.mem_range] at member
  rw [tail]
  simp only [kCapacity] at *
  omega

theorem contents_drop {queue : BlockedBoundedQueue α} (stored : 0 < queue.size) :
    queue.contents = queue.buffer (queue.head % kCapacity) :: queue.drop.contents := by
  obtain ⟨count, size⟩ := Nat.exists_eq_add_of_lt stored
  simp only [contents, drop]
  rw [show queue.size = count + 1 by omega, List.range_succ_eq_map, List.map_cons,
    List.map_map, Nat.add_zero, Nat.add_sub_cancel]
  congr 1
  apply List.map_congr_left
  intro offset _
  have step : (queue.head + Nat.succ offset) % kCapacity =
      ((queue.head + 1) % kCapacity + offset) % kCapacity := by
    rw [Nat.mod_add_mod]
    congr 1
    omega
  rw [Function.comp_apply, step]

theorem well_formed_put {queue : BlockedBoundedQueue α} (wellFormed : queue.WellFormed)
    (room : queue.size < kCapacity) (data : α) : (queue.put data).WellFormed := by
  obtain ⟨sizeLe, headLt, tailLt, tailEq⟩ := wellFormed
  refine ⟨room, headLt, Nat.mod_lt _ (by decide), ?_⟩
  simp only [put]
  rw [tailEq, Nat.mod_add_mod, Nat.add_assoc]

theorem well_formed_drop {queue : BlockedBoundedQueue α} (wellFormed : queue.WellFormed)
    (stored : 0 < queue.size) : queue.drop.WellFormed := by
  obtain ⟨sizeLe, headLt, tailLt, tailEq⟩ := wellFormed
  refine ⟨?_, Nat.mod_lt _ (by decide), tailLt, ?_⟩
  · simp only [drop]
    omega
  · simp only [drop]
    rw [tailEq, Nat.mod_add_mod, show queue.head + 1 + (queue.size - 1) = queue.head + queue.size
      by omega]

theorem well_formed_constructed {queue : BlockedBoundedQueue α} (constructed : queue.Constructed) :
    queue.WellFormed := by
  obtain ⟨head, tail, size, -⟩ := constructed
  refine ⟨?_, ?_, ?_, ?_⟩ <;> simp only [head, tail, size] <;> decide

theorem contents_of_empty {queue : BlockedBoundedQueue α} (empty : queue.size = 0) :
    queue.contents = [] := by
  rw [contents, empty]
  rfl

theorem locked_enqueue_fifo {queue : BlockedBoundedQueue α} (wellFormed : queue.WellFormed)
    (data : α) :
    ClosableFifo.locked kCapacity queue.fifo (.enqueue data) =
      ((queue.locked (.enqueue data)).1.fifo, (queue.locked (.enqueue data)).2) := by
  have bounded := wellFormed.size_le
  simp only [ClosableFifo.locked, locked, fifo, contents_length]
  by_cases closed : queue.closed = true
  · simp only [closed, or_true, ↓reduceIte]
  · rw [if_neg closed]
    by_cases full : queue.size = kCapacity
    · rw [if_pos full, if_neg (not_or.mpr ⟨by omega, closed⟩)]
    · have room : queue.size < kCapacity := by omega
      rw [if_neg full, if_pos (.inl room), if_neg closed, contents_put wellFormed room]
      rfl

theorem locked_dequeue_fifo {queue : BlockedBoundedQueue α} (wellFormed : queue.WellFormed) :
    ClosableFifo.locked kCapacity queue.fifo .dequeue =
      ((queue.locked .dequeue).1.fifo, (queue.locked .dequeue).2) := by
  simp only [ClosableFifo.locked, locked, fifo]
  by_cases stored : 0 < queue.size
  · have first : queue.head % kCapacity = queue.head := Nat.mod_eq_of_lt wellFormed.head_lt
    rw [if_pos (.inl stored), if_neg (by omega), contents_drop stored, first]
    rfl
  · have empty : queue.size = 0 := by omega
    by_cases closed : queue.closed = true
    · simp only [contents_of_empty empty, empty, closed, or_true, and_self, ↓reduceIte]
    · simp only [contents_of_empty empty, empty, closed, Nat.lt_irrefl, or_self,
        Bool.false_eq_true, ↓reduceIte]

theorem locked_well_formed {queue : BlockedBoundedQueue α} (wellFormed : queue.WellFormed)
    (op : QueueOp α) : (queue.locked op).1.WellFormed := by
  cases op with
  | enqueue data =>
      simp only [locked]
      split_ifs with ready closed
      · exact wellFormed
      · exact well_formed_put wellFormed (ready.resolve_right closed) data
      · exact wellFormed
  | dequeue =>
      simp only [locked]
      split_ifs with ready finished
      · exact wellFormed
      · refine well_formed_drop wellFormed ?_
        rcases ready with stored | closed
        · exact stored
        · exact Nat.pos_of_ne_zero fun empty => finished ⟨empty, closed⟩
      · exact wellFormed
  | clear =>
      have positive : 0 < kCapacity := by decide
      exact ⟨Nat.zero_le _, positive, positive, rfl⟩
  | close =>
      obtain ⟨sizeLe, headLt, tailLt, tailEq⟩ := wellFormed
      exact ⟨sizeLe, headLt, tailLt, tailEq⟩
  | _ => exact wellFormed

/-- Section by section the buffer does what the list does. -/
theorem simulates_fifo : Simulates (monitor α) (ClosableFifo.monitor kCapacity α)
    WellFormed fifo where
  valid queue op wellFormed := locked_well_formed wellFormed op
  locked queue op wellFormed := by
    cases op with
    | enqueue data => exact locked_enqueue_fifo wellFormed data
    | dequeue => exact locked_dequeue_fifo wellFormed
    | isFull => simp [monitor, ClosableFifo.monitor, locked, ClosableFifo.locked, fifo]
    | isEmpty => simp [monitor, ClosableFifo.monitor, locked, ClosableFifo.locked, fifo]
    | size => simp [monitor, ClosableFifo.monitor, locked, ClosableFifo.locked, fifo]
    | clear => rfl
    | close => rfl
    | closed => rfl

end BlockedBoundedQueue

/-! ## Histories -/

inductive Removal where
  | dequeued
  | discarded
  deriving DecidableEq

/-- The value that an operation with this result has put into the queue. -/
def enqueuedBy {α : Type} : QueueOp α → QueueResult α → Option α
  | .enqueue data, .enqueued true => some data
  | _, _ => none

def dequeuedBy {α : Type} : QueueResult α → Option α
  | .dequeued out => out
  | _ => none

def removedBy {α : Type} : QueueResult α → List (α × Removal)
  | .dequeued (some out) => [(out, .dequeued)]
  | .cleared discarded => discarded.map fun data => (data, .discarded)
  | _ => []

section History

variable {Thread α : Type}

/-- The values of the enqueues that returned true. -/
def enqueuedValues (returned : List (Thread × QueueOp α × QueueResult α)) : List α :=
  returned.filterMap fun entry => enqueuedBy entry.2.1 entry.2.2

/-- The values that dequeues returned. -/
def dequeuedValues (returned : List (Thread × QueueOp α × QueueResult α)) : List α :=
  returned.filterMap fun entry => dequeuedBy entry.2.2

/-- What left the queue, and how. -/
def removedValues (returned : List (Thread × QueueOp α × QueueResult α)) :
    List (α × Removal) :=
  returned.flatMap fun entry => removedBy entry.2.2

theorem enqueued_values_append (returned : List (Thread × QueueOp α × QueueResult α))
    (thread : Thread) (op : QueueOp α) (result : QueueResult α) :
    enqueuedValues (returned ++ [(thread, op, result)]) =
      enqueuedValues returned ++ (enqueuedBy op result).toList := by
  unfold enqueuedValues
  rw [List.filterMap_append, List.filterMap_cons]
  cases enqueuedBy op result with
  | none => rfl
  | some data => rfl

theorem removed_values_append (returned : List (Thread × QueueOp α × QueueResult α))
    (thread : Thread) (op : QueueOp α) (result : QueueResult α) :
    removedValues (returned ++ [(thread, op, result)]) =
      removedValues returned ++ removedBy result := by
  unfold removedValues
  rw [List.flatMap_append, List.flatMap_singleton]

theorem dequeued_by_eq (result : QueueResult α) :
    (dequeuedBy result).toList =
      ((removedBy result).filter fun entry => entry.2 = .dequeued).map Prod.fst := by
  cases result with
  | dequeued out => cases out <;> rfl
  | cleared discarded => simp [dequeuedBy, removedBy, List.filter_map]
  | _ => rfl

theorem dequeued_values_eq (returned : List (Thread × QueueOp α × QueueResult α)) :
    dequeuedValues returned =
      ((removedValues returned).filter fun entry => entry.2 = .dequeued).map Prod.fst := by
  induction returned with
  | nil => rfl
  | cons entry rest ih =>
      have first := dequeued_by_eq entry.2.2
      unfold dequeuedValues removedValues at ih ⊢
      rw [List.flatMap_cons, List.filter_append, List.map_append, ← ih, ← first,
        List.filterMap_cons]
      cases dequeuedBy entry.2.2 with
      | none => rfl
      | some out => rfl

/-- A section that returns moves values through the list in order. -/
theorem fifo_section_history {capacity : Nat} {fifo after : ClosableFifo α} {op : QueueOp α}
    {result : QueueResult α} {notifications : List (Scope × QueueCond)}
    (section_ : fifo.locked capacity op = (after, .finish result notifications)) :
    fifo.contents ++ (enqueuedBy op result).toList =
      (removedBy result).map Prod.fst ++ after.contents := by
  cases op with
  | enqueue data =>
      simp only [ClosableFifo.locked] at section_
      split_ifs at section_ <;> cases section_ <;> simp [enqueuedBy, removedBy]
  | dequeue =>
      simp only [ClosableFifo.locked] at section_
      cases stored : fifo.contents with
      | nil =>
          rw [stored] at section_
          simp only at section_
          split_ifs at section_ <;> cases section_
          simp [enqueuedBy, removedBy, stored]
      | cons out rest =>
          rw [stored] at section_
          cases section_
          simp [enqueuedBy, removedBy]
  | clear =>
      cases section_
      simp [enqueuedBy, removedBy, Function.comp_def]
  | _ =>
      cases section_
      simp [enqueuedBy, removedBy]

theorem fifo_section_waits {capacity : Nat} {fifo after : ClosableFifo α} {op : QueueOp α}
    {cond : QueueCond} (section_ : fifo.locked capacity op = (after, .wait cond)) :
    after = fifo := by
  cases op with
  | enqueue data =>
      simp only [ClosableFifo.locked] at section_
      split_ifs at section_ <;> cases section_
      rfl
  | dequeue =>
      simp only [ClosableFifo.locked] at section_
      split at section_
      · cases section_
      · split_ifs at section_ <;> cases section_
        rfl
  | _ => cases section_

def Conserves (machine : Machine Thread (ClosableFifo α) (QueueOp α) QueueCond (QueueResult α)) :
    Prop :=
  enqueuedValues machine.returned =
    (removedValues machine.returned).map Prod.fst ++ machine.shared.contents

variable [Fintype Thread] [DecidableEq Thread]

theorem conserves_step {capacity : Nat}
    {machine next : Machine Thread (ClosableFifo α) (QueueOp α) QueueCond (QueueResult α)}
    {label : Thread × Move Thread (QueueOp α)} (conserves : Conserves machine)
    (taken : step (ClosableFifo.monitor capacity α) machine label = some next) :
    Conserves next := by
  unfold Conserves at conserves ⊢
  cases section_of_step taken with
  | outside shared returned =>
      rw [shared, returned]
      exact conserves
  | waited op cond section_ returned =>
      rw [fifo_section_waits section_, returned]
      exact conserves
  | finished op result notifications section_ returned =>
      have history := fifo_section_history section_
      rw [returned, enqueued_values_append, removed_values_append, List.map_append, conserves,
        List.append_assoc, List.append_assoc, history]

/-- What the threads may do from here on. -/
def queueFrom (machine : QueueMachine Thread α) :
    System (QueueMachine Thread α) (Thread × Move Thread (QueueOp α)) where
  start := fun first => first = machine
  step := step (BlockedBoundedQueue.monitor α)

theorem closed_section {queue after : BlockedBoundedQueue α} {op : QueueOp α}
    {result : QueueResult α} {notifications : List (Scope × QueueCond)}
    (closed : queue.closed = true)
    (section_ : queue.locked op = (after, .finish result notifications)) :
    after.closed = true ∧ enqueuedBy op result = none := by
  cases op with
  | enqueue data =>
      simp only [BlockedBoundedQueue.locked, closed, or_true, ↓reduceIte] at section_
      cases section_
      exact ⟨closed, rfl⟩
  | dequeue =>
      simp only [BlockedBoundedQueue.locked] at section_
      split_ifs at section_ <;> cases section_ <;> exact ⟨closed, rfl⟩
  | close =>
      cases section_
      exact ⟨rfl, rfl⟩
  | _ =>
      cases section_
      exact ⟨closed, rfl⟩

theorem closed_section_returns {queue after : BlockedBoundedQueue α} {op : QueueOp α}
    {cond : QueueCond} (closed : queue.closed = true) :
    queue.locked op ≠ (after, .wait cond) := by
  intro section_
  cases op with
  | enqueue data =>
      simp only [BlockedBoundedQueue.locked, closed, or_true, ↓reduceIte] at section_
      cases section_
  | dequeue =>
      simp only [BlockedBoundedQueue.locked, closed, or_true, ↓reduceIte] at section_
      split_ifs at section_ <;> cases section_
  | _ => cases section_

/-- A closed queue stays closed, and no enqueue returns true any more. -/
theorem closed_step {machine next : QueueMachine Thread α}
    {label : Thread × Move Thread (QueueOp α)} (closed : machine.shared.closed = true)
    (taken : step (BlockedBoundedQueue.monitor α) machine label = some next) :
    next.shared.closed = true ∧
      enqueuedValues next.returned = enqueuedValues machine.returned := by
  cases section_of_step taken with
  | outside shared returned =>
      rw [shared, returned]
      exact ⟨closed, rfl⟩
  | waited op cond section_ returned => exact absurd section_ (closed_section_returns closed)
  | finished op result notifications section_ returned =>
      obtain ⟨still, nothing⟩ := closed_section closed section_
      rw [returned, enqueued_values_append, nothing]
      exact ⟨still, List.append_nil _⟩

theorem closed_for_good {machine later : QueueMachine Thread α}
    (closed : machine.shared.closed = true) (reached : Reaches (queueFrom machine) later) :
    later.shared.closed = true ∧
      enqueuedValues later.returned = enqueuedValues machine.returned := by
  induction reached with
  | start initial =>
      rw [show _ = machine from initial]
      exact ⟨closed, rfl⟩
  | step _ _ taken ih =>
      obtain ⟨stillClosed, sameValues⟩ := closed_step ih.1 taken
      exact ⟨stillClosed, sameValues.trans ih.2⟩

/-- A dequeue of a closed queue returns the oldest element, and false if there is none. -/
theorem closed_dequeue_section {queue : BlockedBoundedQueue α} (wellFormed : queue.WellFormed)
    (closed : queue.closed = true) :
    ∃ after notifications, queue.locked .dequeue =
        (after, .finish (.dequeued queue.contents.head?) notifications) ∧
      after.contents = queue.contents.tail := by
  have section_ := BlockedBoundedQueue.locked_dequeue_fifo wellFormed
  cases stored : queue.contents with
  | nil =>
      simp only [ClosableFifo.locked, BlockedBoundedQueue.fifo, stored, closed, ↓reduceIte]
        at section_
      obtain ⟨after, outcome⟩ := Prod.mk.inj section_
      refine ⟨(queue.locked .dequeue).1, [], Prod.ext rfl outcome.symm, ?_⟩
      exact (congrArg ClosableFifo.contents after).symm
  | cons out rest =>
      simp only [ClosableFifo.locked, BlockedBoundedQueue.fifo, stored] at section_
      obtain ⟨after, outcome⟩ := Prod.mk.inj section_
      refine ⟨(queue.locked .dequeue).1, [(.one, .notFull)], Prod.ext rfl outcome.symm, ?_⟩
      exact (congrArg ClosableFifo.contents after).symm

theorem dequeued_none_section {queue after : BlockedBoundedQueue α} {op : QueueOp α}
    {notifications : List (Scope × QueueCond)}
    (section_ : queue.locked op = (after, .finish (.dequeued none) notifications)) :
    queue.closed = true ∧ queue.contents = [] := by
  cases op with
  | dequeue =>
      simp only [BlockedBoundedQueue.locked] at section_
      split_ifs at section_ with ready drained
      · exact ⟨drained.2, BlockedBoundedQueue.contents_of_empty drained.1⟩
      · cases section_
      · cases section_
  | enqueue data =>
      simp only [BlockedBoundedQueue.locked] at section_
      split_ifs at section_ <;> cases section_
  | _ => cases section_

theorem constructed_fifo {queue : BlockedBoundedQueue α} (constructed : queue.Constructed) :
    queue.fifo = ⟨[], false⟩ := by
  obtain ⟨-, -, size, closed⟩ := constructed
  rw [BlockedBoundedQueue.fifo, BlockedBoundedQueue.contents_of_empty size, closed]

theorem conserves_reachable {capacity : Nat}
    {machine : Machine Thread (ClosableFifo α) (QueueOp α) QueueCond (QueueResult α)}
    (reached : Reaches
      (system (ClosableFifo.monitor capacity α) fun fifo => fifo = ⟨[], false⟩) machine) :
    Conserves machine := by
  refine invariant_of_step ?_ ?_ reached
  · rintro machine ⟨shared, -, returned⟩
    unfold Conserves
    rw [shared, returned]
    rfl
  · intro machine label next _ conserves _ taken
    exact conserves_step conserves taken

/-- The queue, in a state its threads can reach: a run over the list with the same
calls and results, whose values leave in the order in which they came. -/
structure RefinesFifo (machine : QueueMachine Thread α) : Prop where
  run : Reaches (system (ClosableFifo.monitor kCapacity α) fun fifo => fifo = ⟨[], false⟩)
    (machine.mapShared BlockedBoundedQueue.fifo)
  indices : machine.shared.WellFormed
  conserved : enqueuedValues machine.returned =
    (removedValues machine.returned).map Prod.fst ++ machine.shared.contents
  dequeued : dequeuedValues machine.returned =
    ((removedValues machine.returned).filter fun entry => entry.2 = .dequeued).map Prod.fst
  closed_for_good : machine.shared.closed = true → ∀ later,
    Reaches (queueFrom machine) later → later.shared.closed = true ∧
      enqueuedValues later.returned = enqueuedValues machine.returned
  drains : machine.shared.closed = true → ∀ thread notified,
    machine.location thread = .entering .dequeue notified →
    ∃ next, step (BlockedBoundedQueue.monitor α) machine (thread, .enter) = some next ∧
      next.returned = machine.returned ++
        [(thread, .dequeue, .dequeued machine.shared.contents.head?)] ∧
      next.shared.contents = machine.shared.contents.tail
  false_when_drained : ∀ label next op,
    step (BlockedBoundedQueue.monitor α) machine label = some next →
    next.returned = machine.returned ++ [(label.1, op, .dequeued none)] →
    machine.shared.closed = true ∧ machine.shared.contents = []

theorem drains_of_closed {machine : QueueMachine Thread α}
    (wellFormed : machine.shared.WellFormed) (closed : machine.shared.closed = true)
    {thread : Thread} {notified : Option QueueCond}
    (at_ : machine.location thread = .entering .dequeue notified) :
    ∃ next, step (BlockedBoundedQueue.monitor α) machine (thread, .enter) = some next ∧
      next.returned = machine.returned ++
        [(thread, .dequeue, .dequeued machine.shared.contents.head?)] ∧
      next.shared.contents = machine.shared.contents.tail := by
  obtain ⟨after, notifications, section_, rest⟩ := closed_dequeue_section wellFormed closed
  refine ⟨_, step_enter (BlockedBoundedQueue.monitor α) at_, ?_, ?_⟩
  · simp only [Machine.enter, BlockedBoundedQueue.monitor, section_]
  · simp only [Machine.enter, BlockedBoundedQueue.monitor, section_]
    exact rest

theorem drained_of_false {machine next : QueueMachine Thread α}
    {label : Thread × Move Thread (QueueOp α)} {op : QueueOp α}
    (taken : step (BlockedBoundedQueue.monitor α) machine label = some next)
    (returned : next.returned = machine.returned ++ [(label.1, op, .dequeued none)]) :
    machine.shared.closed = true ∧ machine.shared.contents = [] := by
  have longer : next.returned ≠ machine.returned := by
    rw [returned]
    simp
  cases section_of_step taken with
  | outside shared same => exact absurd same longer
  | waited op' cond section_ same => exact absurd same longer
  | finished op' result notifications section_ added =>
      have entry := List.append_cancel_left (returned.symm.trans added)
      cases entry
      exact dequeued_none_section section_

/-- Any number of threads, any interleaving of the locked sections, any choice of
whom to wake, wake-ups without a notification included. -/
theorem blocked_bounded_queue_refines_fifo {machine : QueueMachine Thread α}
    (reached : Reaches (queueSystem Thread α) machine) : RefinesFifo machine := by
  have starts : ∀ queue : BlockedBoundedQueue α, queue.Constructed →
      queue.WellFormed ∧ queue.fifo = ⟨[], false⟩ := fun queue constructed =>
    ⟨BlockedBoundedQueue.well_formed_constructed constructed, constructed_fifo constructed⟩
  have mapped : machine.shared.WellFormed ∧ Reaches
      (system (ClosableFifo.monitor kCapacity α) fun fifo => fifo = ⟨[], false⟩)
      (machine.mapShared BlockedBoundedQueue.fifo) :=
    reaches_map_shared BlockedBoundedQueue.simulates_fifo starts reached
  obtain ⟨wellFormed, run⟩ := mapped
  exact {
    run := run
    indices := wellFormed
    conserved := conserves_reachable run
    dequeued := dequeued_values_eq machine.returned
    closed_for_good := fun closed later from_ => closed_for_good closed from_
    drains := fun closed thread notified at_ => drains_of_closed wellFormed closed at_
    false_when_drained := fun label next op taken returned => drained_of_false taken returned }

end History

/-- A consumer falls asleep, a producer wakes it up, the queue is closed behind the
value. -/
def closedHandOver : List (Bool × Move Bool (QueueOp Nat)) :=
  [(true, .call .dequeue), (true, .enter), (false, .call (.enqueue 7)), (false, .enter),
    (false, .notify (some true)), (false, .call .close), (false, .enter), (true, .enter)]

def newQueueMachine : QueueMachine Bool Nat :=
  ⟨⟨fun _ => 0, 0, 0, 0, false⟩, fun _ => .outside [], []⟩

theorem blocked_bounded_queue_refines_fifo_hand_over :
    ∃ machine, runLabels (queueSystem Bool Nat) newQueueMachine closedHandOver = some machine ∧
      dequeuedValues machine.returned = [7] ∧ machine.shared.closed = true ∧
      RefinesFifo machine := by
  have new : Reaches (queueSystem Bool Nat) newQueueMachine :=
    reaches_start ⟨⟨rfl, rfl, rfl, rfl⟩, fun _ => rfl, rfl⟩
  refine ⟨_, rfl, by decide, by decide, ?_⟩
  apply blocked_bounded_queue_refines_fifo
  exact reaches_run new (rfl : runLabels _ _ closedHandOver = _)

end MarketDataEngine.Containers
