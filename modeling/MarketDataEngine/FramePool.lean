import MarketDataEngine.RingLinearization
import MarketDataEngine.WireCodec

/-!
# The frame pool

Slots and two rings of slot indices. `init` resets both rings, whatever was in
them, and pushes every index into the free ring with the sequential `push`;
`initStep` is the same access by access, for a pool that is in use.
-/

namespace MarketDataEngine.Containers

open MarketDataEngine.Protocol MarketDataEngine.SteppedObject

set_option autoImplicit false

inductive PoolRing where
  | free
  | ready
  deriving DecidableEq

structure FramePool (capacity : Capacity) where
  slots : Nat → Frame
  rings : PoolRing → RingBuffer Nat capacity

variable {α : Type} {capacity : Capacity}

def RingBuffer.pushAll (ring : RingBuffer α capacity) (values : List α) :
    RingBuffer α capacity :=
  values.foldl (fun current value => (current.push value).1) ring

namespace FramePool

def initRings (rings : PoolRing → RingBuffer Nat capacity) :
    PoolRing → RingBuffer Nat capacity
  | .free => (rings .free).reset.pushAll (List.range capacity.val)
  | .ready => (rings .ready).reset

def init (pool : FramePool capacity) : FramePool capacity :=
  { pool with rings := initRings pool.rings }

end FramePool

namespace RingBuffer

theorem push_contents (ring : RingBuffer α capacity) (value : α)
    (room : ring.count < capacity.val) :
    (ring.push value).1.contents = ring.contents ++ [value] ∧
      (ring.push value).1.head = ring.head := by
  have notFull : ¬ ring.tail - ring.head = capacity.size := by
    rw [ring.full_iff]
    omega
  rw [push, if_neg notFull]
  refine ⟨?_, rfl⟩
  have stored := contents_advance_tail (ring.write ring.tail value) room
  rw [ring.contents_write value room] at stored
  refine stored.trans ?_
  simp [write]

theorem push_accepts (ring : RingBuffer α capacity) (value : α)
    (room : ring.count < capacity.val) : (ring.push value).2 = true := by
  have notFull : ¬ ring.tail - ring.head = capacity.size := by
    rw [ring.full_iff]
    omega
  rw [push, if_neg notFull]

/-- A pop takes the oldest value, if there is one. -/
theorem pop_contents (ring : RingBuffer α capacity) :
    ring.pop.2 = ring.contents.head? ∧ ring.pop.1.contents = ring.contents.tail := by
  by_cases empty : ring.head = ring.tail
  · have nothing := ring.empty_iff.mp empty
    rw [pop, if_pos empty, nothing]
    exact ⟨rfl, rfl⟩
  · have stored : 0 < ring.count := by
      rw [← contents_length]
      exact List.length_pos_iff.mpr (mt ring.empty_iff.mpr empty)
    rw [pop, if_neg empty, ring.contents_advance_head stored]
    exact ⟨rfl, rfl⟩

theorem push_all_contents (values : List α) (ring : RingBuffer α capacity)
    (room : ring.count + values.length ≤ capacity.val) :
    (ring.pushAll values).contents = ring.contents ++ values ∧
      (ring.pushAll values).head = ring.head := by
  induction values generalizing ring with
  | nil => simp [pushAll]
  | cons value rest ih =>
      rw [List.length_cons] at room
      obtain ⟨stored, head⟩ := ring.push_contents value (by omega)
      have counted : (ring.push value).1.count = ring.count + 1 := by
        rw [← contents_length, stored, List.length_append, contents_length]
        rfl
      obtain ⟨restStored, restHead⟩ := ih (ring.push value).1 (by omega)
      refine ⟨?_, restHead.trans head⟩
      show ((ring.push value).1.pushAll rest).contents = _
      rw [restStored, stored, List.append_assoc]
      rfl

theorem reset_contents (ring : RingBuffer α capacity) : ring.reset.contents = [] :=
  ring.reset.empty_iff.mp rfl

end RingBuffer

theorem init_free (rings : PoolRing → RingBuffer Nat capacity) :
    (FramePool.initRings rings .free).contents = List.range capacity.val ∧
      (FramePool.initRings rings .free).head = 0 := by
  have empty : (rings .free).reset.count = 0 := by
    rw [← RingBuffer.contents_length, RingBuffer.reset_contents]
    rfl
  obtain ⟨stored, head⟩ := (rings .free).reset.push_all_contents
    (List.range capacity.val) (by rw [empty, List.length_range, Nat.zero_add])
  rw [RingBuffer.reset_contents] at stored
  exact ⟨stored, head⟩

theorem init_ready (rings : PoolRing → RingBuffer Nat capacity) :
    (FramePool.initRings rings .ready).contents = [] :=
  RingBuffer.reset_contents _

theorem init_bounded (rings : PoolRing → RingBuffer Nat capacity) (name : PoolRing) :
    (FramePool.initRings rings name).Bounded := by
  unfold RingBuffer.Bounded
  rw [← RingBuffer.contents_length]
  cases name with
  | free =>
      rw [(init_free rings).1, List.length_range]
  | ready =>
      rw [init_ready]
      exact Nat.zero_le _

/-- The free ring right after `init`, counter by counter and cell by cell. -/
theorem init_free_eq (rings : PoolRing → RingBuffer Nat capacity) :
    FramePool.initRings rings .free = ⟨0, capacity.size, fun cell => cell.val⟩ := by
  obtain ⟨stored, head⟩ := init_free rings
  generalize FramePool.initRings rings .free = ring at stored head
  obtain ⟨ringHead, tail, buffer⟩ := ring
  obtain rfl : ringHead = 0 := head
  have counted : RingBuffer.count (⟨0, tail, buffer⟩ : RingBuffer Nat capacity) =
      capacity.val := by
    rw [← RingBuffer.contents_length, stored, List.length_range]
  congr 1
  · have last := RingBuffer.tail_eq (⟨0, tail, buffer⟩ : RingBuffer Nat capacity)
    rw [counted] at last
    exact last.trans (UInt64.zero_add _)
  · funext cell
    have entry : (RingBuffer.contents (⟨0, tail, buffer⟩ :
        RingBuffer Nat capacity))[cell.val]? = some cell.val := by
      rw [stored, List.getElem?_range cell.isLt]
    unfold RingBuffer.contents at entry
    rw [counted, List.getElem?_map, List.getElem?_range cell.isLt] at entry
    have value : buffer (capacity.cell (0 + UInt64.ofNat cell.val)) = cell.val :=
      Option.some.inj entry
    have selected : capacity.cell (0 + UInt64.ofNat cell.val) = cell := by
      apply Fin.ext
      rw [capacity.cell_add_val]
      simp [Nat.mod_eq_of_lt cell.isLt]
    rwa [selected] at value

/-! ## One access of `init` after the other -/

/-- How far `init` has run. -/
inductive InitPoint where
  | resetHead (name : PoolRing)
  | resetTail (name : PoolRing)
  | push (idx : Nat) (pc : Option (RingPc Nat))
  | done
  deriving DecidableEq

/-- The test of the loop over the indices. -/
def InitPoint.next (capacity : Capacity) (idx : Nat) : InitPoint :=
  if idx < capacity.val then .push idx none else .done

/-- The accesses that are left, at most. -/
def InitPoint.left (capacity : Capacity) : InitPoint → Nat
  | .resetHead .free => 6 * capacity.val + 9
  | .resetTail .free => 6 * capacity.val + 8
  | .resetHead .ready => 6 * capacity.val + 7
  | .resetTail .ready => 6 * capacity.val + 6
  | .push idx none => 6 * (capacity.val - idx) + 5
  | .push idx (some (.headLoaded _)) => 6 * (capacity.val - idx) + 4
  | .push idx (some (.tailLoaded _ _)) => 6 * (capacity.val - idx) + 3
  | .push idx (some (.admitted _)) => 6 * (capacity.val - idx) + 2
  | .push idx (some (.written _)) => 6 * (capacity.val - idx) + 1
  | .push idx (some (.cellRead _ _)) => 6 * (capacity.val - idx) + 1
  | .done => 0

/-- Only a `pop` reads a cell. -/
def InitPoint.Pushing : InitPoint → Prop
  | .push _ (some (.cellRead _ _)) => False
  | _ => True

namespace FramePool

variable (rings : PoolRing → RingBuffer Nat capacity)

def initStep : InitPoint → (PoolRing → RingBuffer Nat capacity) × InitPoint
  | .resetHead name =>
      (Function.update rings name { rings name with head := 0 }, .resetTail name)
  | .resetTail .free =>
      (Function.update rings .free { rings .free with tail := 0 }, .resetHead .ready)
  | .resetTail .ready =>
      (Function.update rings .ready { rings .ready with tail := 0 }, .next capacity 0)
  | .push idx pc =>
      let result := pushStep (rings .free) idx pc
      (Function.update rings .free result.1,
        Sum.elim (fun later => .push idx (some later)) (fun _ => .next capacity (idx + 1)) result.2)
  | .done => (rings, .done)

/-- The rest of a push that nothing comes between. -/
def pushRest (ring : RingBuffer Nat capacity) (idx : Nat) :
    Option (RingPc Nat) → RingBuffer Nat capacity
  | none => (ring.push idx).1
  | some (.headLoaded h) =>
      if ring.tail - h = capacity.size then ring
      else { ring.write ring.tail idx with tail := ring.tail + 1 }
  | some (.tailLoaded h t) =>
      if t - h = capacity.size then ring else { ring.write t idx with tail := t + 1 }
  | some (.admitted t) => { ring.write t idx with tail := t + 1 }
  | some (.written t) => { ring with tail := t + 1 }
  | some (.cellRead _ _) => ring

/-- The pushes of the indices from here on. -/
def pushFrom (ring : RingBuffer Nat capacity) (idx : Nat) : RingBuffer Nat capacity :=
  ring.pushAll (List.range' idx (capacity.val - idx))

/-- What the rest of `init` makes of the rings if nothing comes between. -/
def initRest : InitPoint → PoolRing → RingBuffer Nat capacity
  | .resetHead .free, .free => pushFrom (rings .free).reset 0
  | .resetTail .free, .free => pushFrom { rings .free with tail := 0 } 0
  | .resetHead .ready, .free => pushFrom (rings .free) 0
  | .resetTail .ready, .free => pushFrom (rings .free) 0
  | .push idx pc, .free => pushFrom (pushRest (rings .free) idx pc) (idx + 1)
  | .done, .free => rings .free
  | .resetHead _, .ready => (rings .ready).reset
  | .resetTail .free, .ready => (rings .ready).reset
  | .resetTail .ready, .ready => { rings .ready with tail := 0 }
  | .push _ _, .ready => rings .ready
  | .done, .ready => rings .ready

theorem push_step_rest (ring : RingBuffer Nat capacity) (idx : Nat) (pc : Option (RingPc Nat)) :
    Sum.elim (fun later => pushRest (pushStep ring idx pc).1 idx (some later))
      (fun _ => (pushStep ring idx pc).1) (pushStep ring idx pc).2 = pushRest ring idx pc := by
  cases pc with
  | none =>
      by_cases full : ring.tail - ring.head = capacity.size
      · simp [pushStep, pushRest, RingBuffer.push, full]
      · simp [pushStep, pushRest, RingBuffer.push, full]
  | some pc =>
      cases pc with
      | headLoaded h => rfl
      | tailLoaded h t =>
          simp only [pushStep, pushRest]
          split_ifs with full
          · rfl
          · rfl
      | admitted t => rfl
      | written t => rfl
      | cellRead h other => rfl

theorem push_from_next (ring : RingBuffer Nat capacity) (idx : Nat) (name : PoolRing) :
    initRest (Function.update rings .free ring) (.next capacity idx) name =
      match name with
      | .free => pushFrom ring idx
      | .ready => rings .ready := by
  unfold InitPoint.next
  split_ifs with inside
  · cases name with
    | free =>
        have more : capacity.val - idx = capacity.val - (idx + 1) + 1 := by omega
        show pushFrom (ring.push idx).1 (idx + 1) = pushFrom ring idx
        rw [pushFrom, pushFrom, more, List.range'_succ]
        rfl
    | ready => rfl
  · cases name with
    | free =>
        have none_ : capacity.val - idx = 0 := by omega
        show ring = pushFrom ring idx
        rw [pushFrom, none_]
        rfl
    | ready => rfl

/-- Each access leaves what the rest of `init` will have made. -/
theorem init_step_rest (point : InitPoint) :
    initRest (initStep rings point).1 (initStep rings point).2 = initRest rings point := by
  funext name
  cases point with
  | resetHead reset => cases reset <;> cases name <;> rfl
  | resetTail reset =>
      cases reset with
      | free => cases name <;> rfl
      | ready =>
          have same : Function.update rings .ready { rings .ready with tail := 0 } =
              Function.update (Function.update rings .ready { rings .ready with tail := 0 })
                .free (rings .free) := by
            funext other
            cases other <;> rfl
          simp only [initStep]
          rw [same, push_from_next]
          cases name <;> rfl
  | push idx pc =>
      have rest := push_step_rest (rings .free) idx pc
      simp only [initStep]
      cases outcome : (pushStep (rings .free) idx pc).2 with
      | inl later =>
          rw [outcome] at rest
          simp only [Sum.elim_inl] at rest ⊢
          cases name with
          | free =>
              show pushFrom (pushRest _ idx (some later)) (idx + 1) = _
              rw [Function.update_self, rest]
              rfl
          | ready => rfl
      | inr ok =>
          rw [outcome] at rest
          simp only [Sum.elim_inr] at rest ⊢
          rw [push_from_next, rest]
          cases name <;> rfl
  | done => rfl

/-- A `ready` that is as new is reset to what it is. -/
theorem init_step_ready (head : (rings .ready).head = 0) (tail : (rings .ready).tail = 0)
    (point : InitPoint) : (initStep rings point).1 .ready = rings .ready := by
  cases point with
  | resetHead name =>
      cases name with
      | free => rfl
      | ready =>
          show ({ rings .ready with head := 0 } : RingBuffer Nat capacity) = rings .ready
          rw [← head]
  | resetTail name =>
      cases name with
      | free => rfl
      | ready =>
          show ({ rings .ready with tail := 0 } : RingBuffer Nat capacity) = rings .ready
          rw [← tail]
  | push idx pc => rfl
  | done => rfl

theorem init_rest_done : initRest rings .done = rings := by
  funext name
  cases name <;> rfl

theorem init_rest_begin : initRest rings (.resetHead .free) = initRings rings := by
  funext name
  cases name with
  | free =>
      show pushFrom (rings .free).reset 0 = (rings .free).reset.pushAll (List.range capacity.val)
      rw [pushFrom, Nat.sub_zero, List.range_eq_range']
  | ready => rfl

theorem init_left_next (idx : Nat) :
    (InitPoint.next capacity (idx + 1)).left capacity < 6 * (capacity.val - idx) + 1 ∧
      (InitPoint.next capacity idx).Pushing := by
  unfold InitPoint.next
  constructor
  · split_ifs with inside
    · simp only [InitPoint.left]
      omega
    · simp only [InitPoint.left]
      omega
  · split_ifs with inside
    · trivial
    · trivial

theorem init_step_left {point : InitPoint} (pushing : point.Pushing) (more : point ≠ .done) :
    (initStep rings point).2.left capacity < point.left capacity ∧
      (initStep rings point).2.Pushing := by
  cases point with
  | resetHead name =>
      cases name with
      | free => exact ⟨Nat.lt_succ_self _, trivial⟩
      | ready => exact ⟨Nat.lt_succ_self _, trivial⟩
  | resetTail name =>
      cases name with
      | free => exact ⟨Nat.lt_succ_self _, trivial⟩
      | ready =>
          have first : (InitPoint.next capacity 0).left capacity < 6 * capacity.val + 6 := by
            unfold InitPoint.next
            split_ifs with inside
            · exact Nat.lt_succ_self _
            · exact Nat.succ_pos _
          exact ⟨first, (init_left_next 0).2⟩
  | push idx pc =>
      have next := @init_left_next capacity idx
      have later := (@init_left_next capacity (idx + 1)).2
      cases pc with
      | none => exact ⟨Nat.lt_succ_self _, trivial⟩
      | some pc =>
          cases pc with
          | headLoaded h => exact ⟨Nat.lt_succ_self _, trivial⟩
          | tailLoaded h t =>
              simp only [initStep, pushStep]
              split_ifs with full
              · refine ⟨?_, later⟩
                show (InitPoint.next capacity (idx + 1)).left capacity <
                  6 * (capacity.val - idx) + 3
                omega
              · exact ⟨Nat.lt_succ_self _, trivial⟩
          | admitted t => exact ⟨Nat.lt_succ_self _, trivial⟩
          | written t => exact ⟨next.1, later⟩
          | cellRead h other => exact pushing.elim
  | done => exact absurd rfl more

end FramePool

/-! ## Threads over a pool -/

abbrev PoolCall := RingCall PoolRing Nat

abbrev poolLinearization (capacity : Capacity) :=
  ringLinearization PoolRing Nat capacity

/-- A step of one thread in which a ring operation is one transition. -/
def queueStep {Memory Input Location : Type} (capacity : Capacity)
    (action : Action PoolCall RingRet Memory Input Location)
    (queues : PoolRing → List Nat) (memory : Memory) (input : Input) :
    Option ((PoolRing → List Nat) × Memory × Location) :=
  actionStep (fifoObject PoolRing Nat capacity) action queues memory input

end MarketDataEngine.Containers
