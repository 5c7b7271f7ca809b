import MarketDataEngine.RingBuffer
import MarketDataEngine.SteppedObject

/-!
# Ring buffers are linearizable while each end has one user at a time

A family of ring buffers, indexed by name, is a shared object whose methods
run in the micro-steps of `RingBuffer`. Its specification is one bounded FIFO
list per name. The points at which a method takes effect are

* `push`: the load of `head_` when the ring is full there, else the store of
  `tail_`;
* `pop`: the load of `tail_` when the ring is empty there, else the store of
  `head_`;
* `empty`: the load of `tail_`.

A call claims the producer end or the consumer end of its ring, and two calls
conflict when they claim the same end. Nothing is assumed about which thread
claims it: the source comment "single-producer / single-consumer" is needed
only at each moment, not over the whole run.
-/

namespace MarketDataEngine.Containers

open MarketDataEngine.SteppedObject

set_option autoImplicit false

variable {α : Type} {capacity : Capacity}

/-! ## The bounded FIFO -/

def fifoPush (capacity : Capacity) (queue : List α) (data : α) : List α × Bool :=
  if queue.length = capacity.val then (queue, false) else (queue ++ [data], true)

def fifoPop (queue : List α) : List α × Option α :=
  match queue with
  | [] => ([], none)
  | data :: rest => (rest, some data)

/-! ## What a running push knows -/

/-- The head a push has loaded may be stale; it is still at most `Capacity`
behind the tail, and the ring has not grown since. -/
def PushValid (ring : RingBuffer α capacity) (data : α) : RingPc α → Prop
  | .headLoaded h =>
      ring.count ≤ (ring.tail - h).toNat ∧ (ring.tail - h).toNat ≤ capacity.val
  | .tailLoaded h t =>
      t = ring.tail ∧ ring.count ≤ (t - h).toNat ∧ (t - h).toNat ≤ capacity.val
  | .admitted t => t = ring.tail ∧ ring.count < capacity.val
  | .written t => t = ring.tail ∧ ring.count < capacity.val ∧
      ring.buffer (capacity.cell t) = data
  | .cellRead _ _ => False

def pushOutcome (ring : RingBuffer α capacity) : RingPc α → Option Bool
  | .headLoaded h => if ring.tail - h = capacity.size then some false else none
  | .tailLoaded h t => if t - h = capacity.size then some false else none
  | _ => none

theorem push_decides (ring : RingBuffer α capacity) (data : α)
    (pc : Option (RingPc α)) (after : RingBuffer α capacity)
    (result : RingPc α ⊕ Bool) (bounded : ring.Bounded)
    (known : ∀ current, pc = some current → PushValid ring data current)
    (step : pushStep ring data pc = (after, result)) :
    after.Bounded ∧
      (∀ current, result = .inl current → PushValid after data current) ∧
      ((after.contents = ring.contents ∧
          Sum.elim (pushOutcome after) some result =
            pc.bind (pushOutcome ring)) ∨
        (pc.bind (pushOutcome ring) = none ∧
          ∃ value, Sum.elim (pushOutcome after) some result = some value ∧
            fifoPush capacity ring.contents data = (after.contents, value))) := by
  cases pc with
  | none =>
      obtain ⟨rfl, rfl⟩ := Prod.mk.inj step
      refine ⟨bounded, ?_, ?_⟩
      · rintro _ ⟨⟩
        exact ⟨Nat.le_refl _, bounded⟩
      · by_cases full : ring.tail - ring.head = capacity.size
        · right
          refine ⟨rfl, false, by simp [pushOutcome, full], ?_⟩
          simp [fifoPush, RingBuffer.contents_length, (ring.full_iff).mp full]
        · left
          exact ⟨rfl, by simp [pushOutcome, full]⟩
  | some pc =>
      have valid := known pc rfl
      cases pc with
      | headLoaded h =>
          obtain ⟨rfl, rfl⟩ := Prod.mk.inj step
          refine ⟨bounded, ?_, .inl ⟨rfl, rfl⟩⟩
          rintro _ ⟨⟩
          exact ⟨rfl, valid⟩
      | tailLoaded h t =>
          by_cases full : t - h = capacity.size
          · simp only [pushStep, full, if_true] at step
            obtain ⟨rfl, rfl⟩ := Prod.mk.inj step
            exact ⟨bounded, by rintro _ ⟨⟩, .inl ⟨rfl, by simp [pushOutcome, full]⟩⟩
          · simp only [pushStep, full, if_false] at step
            obtain ⟨rfl, rfl⟩ := Prod.mk.inj step
            refine ⟨bounded, ?_, .inl ⟨rfl, by simp [pushOutcome, full]⟩⟩
            rintro _ ⟨⟩
            obtain ⟨current, notGrown, recent⟩ := valid
            have notFull : (t - h).toNat ≠ capacity.val := by
              rw [← capacity.size_to_nat, ne_eq, UInt64.toNat_inj]
              exact full
            exact ⟨current, by omega⟩
      | admitted t =>
          obtain ⟨rfl, rfl⟩ := Prod.mk.inj step
          obtain ⟨rfl, room⟩ := valid
          refine ⟨bounded, ?_, .inl ⟨ring.contents_write data room, rfl⟩⟩
          rintro _ ⟨⟩
          exact ⟨rfl, room, Function.update_self _ _ _⟩
      | written t =>
          obtain ⟨rfl, rfl⟩ := Prod.mk.inj step
          obtain ⟨rfl, room, cell⟩ := valid
          have grown := ring.count_advance_tail room
          refine ⟨by rw [RingBuffer.Bounded, grown]; omega, by rintro _ ⟨⟩, .inr ?_⟩
          refine ⟨rfl, true, rfl, ?_⟩
          rw [ring.contents_advance_tail room, cell]
          simp [fifoPush, RingBuffer.contents_length, Nat.ne_of_lt room]
      | cellRead h other => exact valid.elim

/-! ## What a running pop or emptiness test knows -/

def PopValid (ring : RingBuffer α capacity) : RingPc α → Prop
  | .headLoaded h => h = ring.head
  | .tailLoaded h t => h = ring.head ∧ (h ≠ t → 0 < ring.count)
  | .admitted h => h = ring.head ∧ 0 < ring.count
  | .cellRead h data => h = ring.head ∧ 0 < ring.count ∧
      ring.buffer (capacity.cell h) = data
  | .written _ => False

def popOutcome : RingPc α → Option (Option α)
  | .tailLoaded h t => if h = t then some none else none
  | _ => none

def EmptyValid (ring : RingBuffer α capacity) : RingPc α → Prop
  | .headLoaded h => h = ring.head
  | _ => False

theorem count_pos_of_ne (ring : RingBuffer α capacity)
    (different : ring.head ≠ ring.tail) : 0 < ring.count := by
  rw [← RingBuffer.contents_length, List.length_pos_iff]
  exact fun none => different ((ring.empty_iff).mpr none)

theorem pop_decides (ring : RingBuffer α capacity)
    (pc : Option (RingPc α)) (after : RingBuffer α capacity)
    (result : RingPc α ⊕ Option α) (bounded : ring.Bounded)
    (known : ∀ current, pc = some current → PopValid ring current)
    (step : popStep ring pc = (after, result)) :
    after.Bounded ∧
      (∀ current, result = .inl current → PopValid after current) ∧
      ((after.contents = ring.contents ∧
          Sum.elim popOutcome some result = pc.bind popOutcome) ∨
        (pc.bind popOutcome = none ∧
          ∃ value, Sum.elim popOutcome some result = some value ∧
            fifoPop ring.contents = (after.contents, value))) := by
  cases pc with
  | none =>
      obtain ⟨rfl, rfl⟩ := Prod.mk.inj step
      refine ⟨bounded, ?_, .inl ⟨rfl, rfl⟩⟩
      rintro _ ⟨⟩
      exact rfl
  | some pc =>
      have valid := known pc rfl
      cases pc with
      | headLoaded h =>
          obtain ⟨rfl, rfl⟩ := Prod.mk.inj step
          obtain rfl : h = ring.head := valid
          refine ⟨bounded, ?_, ?_⟩
          · rintro _ ⟨⟩
            exact ⟨rfl, count_pos_of_ne ring⟩
          · by_cases isEmpty : ring.head = ring.tail
            · right
              refine ⟨rfl, none, by simp [popOutcome, isEmpty], ?_⟩
              simp [fifoPop, (ring.empty_iff).mp isEmpty]
            · left
              exact ⟨rfl, by simp [popOutcome, isEmpty]⟩
      | tailLoaded h t =>
          by_cases isEmpty : h = t
          · simp only [popStep, isEmpty, if_true] at step
            obtain ⟨rfl, rfl⟩ := Prod.mk.inj step
            exact ⟨bounded, by rintro _ ⟨⟩, .inl ⟨rfl, by simp [popOutcome, isEmpty]⟩⟩
          · simp only [popStep, isEmpty, if_false] at step
            obtain ⟨rfl, rfl⟩ := Prod.mk.inj step
            refine ⟨bounded, ?_, .inl ⟨rfl, by simp [popOutcome, isEmpty]⟩⟩
            rintro _ ⟨⟩
            exact ⟨valid.1, valid.2 isEmpty⟩
      | admitted h =>
          obtain ⟨rfl, rfl⟩ := Prod.mk.inj step
          obtain ⟨current, stored⟩ := valid
          refine ⟨bounded, ?_, .inl ⟨rfl, rfl⟩⟩
          rintro _ ⟨⟩
          exact ⟨current, stored, rfl⟩
      | cellRead h data =>
          obtain ⟨rfl, rfl⟩ := Prod.mk.inj step
          obtain ⟨rfl, stored, cell⟩ := valid
          have shrunk := ring.count_advance_head stored
          have queue := ring.contents_advance_head stored
          refine ⟨?_, by rintro _ ⟨⟩, .inr ⟨rfl, some data, rfl, ?_⟩⟩
          · unfold RingBuffer.Bounded at bounded ⊢
            omega
          · rw [queue, cell]
            rfl
      | written t => exact valid.elim

theorem empty_decides (ring : RingBuffer α capacity)
    (pc : Option (RingPc α)) (after : RingBuffer α capacity)
    (result : RingPc α ⊕ Bool) (bounded : ring.Bounded)
    (known : ∀ current, pc = some current → EmptyValid ring current)
    (step : emptyStep ring pc = (after, result)) :
    after.Bounded ∧
      (∀ current, result = .inl current → EmptyValid after current) ∧
      after.contents = ring.contents ∧
      ∀ value, result = .inr value → value = ring.contents.isEmpty := by
  cases pc with
  | none =>
      obtain ⟨rfl, rfl⟩ := Prod.mk.inj step
      refine ⟨bounded, ?_, rfl, by rintro _ ⟨⟩⟩
      rintro _ ⟨⟩
      exact rfl
  | some pc =>
      have valid := known pc rfl
      cases pc with
      | headLoaded h =>
          obtain ⟨rfl, rfl⟩ := Prod.mk.inj step
          obtain rfl : h = ring.head := valid
          refine ⟨bounded, by rintro _ ⟨⟩, rfl, ?_⟩
          rintro _ ⟨⟩
          rw [Bool.eq_iff_iff, beq_iff_eq, List.isEmpty_iff]
          exact ring.empty_iff
      | tailLoaded h t => exact valid.elim
      | admitted h => exact valid.elim
      | written t => exact valid.elim
      | cellRead h data => exact valid.elim

/-! ## The two ends leave each other alone -/

/-- A producer-end step keeps the consumer end's facts: it moves only the
tail, and writes only a cell that holds no stored value. -/
theorem pop_valid_of_push_step (ring : RingBuffer α capacity) (data : α)
    (pc : Option (RingPc α)) (popPc : RingPc α)
    (known : ∀ current, pc = some current → PushValid ring data current)
    (valid : PopValid ring popPc) :
    PopValid (pushStep ring data pc).1 popPc := by
  cases pc with
  | none => exact valid
  | some pc =>
      have pushValid := known pc rfl
      cases pc with
      | headLoaded h => exact valid
      | tailLoaded h t =>
          simp only [pushStep]
          split_ifs <;> exact valid
      | cellRead h other => exact valid
      | admitted t =>
          obtain ⟨rfl, room⟩ := pushValid
          cases popPc with
          | headLoaded h => exact valid
          | tailLoaded h t => exact valid
          | admitted h => exact valid
          | written t => exact valid
          | cellRead h value =>
              obtain ⟨rfl, stored, cell⟩ := valid
              refine ⟨rfl, stored, ?_⟩
              have apart := ring.free_cell_unoccupied room stored
              rw [show UInt64.ofNat 0 = 0 from rfl, UInt64.add_zero] at apart
              exact (Function.update_of_ne apart _ _).trans cell
      | written t =>
          obtain ⟨rfl, room, -⟩ := pushValid
          have grown := ring.count_advance_tail room
          have stored : 0 < (pushStep ring data (some (.written ring.tail))).1.count :=
            by rw [show (pushStep ring data (some (.written ring.tail))).1 =
                  { ring with tail := ring.tail + 1 } from rfl, grown]; omega
          cases popPc with
          | headLoaded h => exact valid
          | tailLoaded h t => exact ⟨valid.1, fun _ => stored⟩
          | admitted h => exact ⟨valid.1, stored⟩
          | written t => exact valid
          | cellRead h value => exact ⟨valid.1, stored, valid.2.2⟩

theorem head_of_push_step (ring : RingBuffer α capacity) (data : α)
    (pc : Option (RingPc α)) : (pushStep ring data pc).1.head = ring.head := by
  unfold pushStep
  split <;> try rfl
  split_ifs <;> rfl

/-- A consumer-end step keeps the producer end's facts: it moves only the
head, so the ring can only have become emptier. -/
theorem push_valid_of_pop_step (ring : RingBuffer α capacity) (data : α)
    (pc : Option (RingPc α)) (pushPc : RingPc α)
    (known : ∀ current, pc = some current → PopValid ring current)
    (valid : PushValid ring data pushPc) :
    PushValid (popStep ring pc).1 data pushPc := by
  cases pc with
  | none => exact valid
  | some pc =>
      have popValid := known pc rfl
      cases pc with
      | headLoaded h => exact valid
      | tailLoaded h t =>
          simp only [popStep]
          split_ifs <;> exact valid
      | admitted h => exact valid
      | written t => exact valid
      | cellRead h value =>
          obtain ⟨rfl, stored, -⟩ := popValid
          have shrunk := ring.count_advance_head stored
          have smaller : (popStep ring (some (.cellRead ring.head value))).1.count ≤
              ring.count := by
            rw [show (popStep ring (some (.cellRead ring.head value))).1 =
              { ring with head := ring.head + 1 } from rfl]
            omega
          cases pushPc with
          | headLoaded h => exact ⟨smaller.trans valid.1, valid.2⟩
          | tailLoaded h t => exact ⟨valid.1, smaller.trans valid.2.1, valid.2.2⟩
          | admitted t => exact ⟨valid.1, smaller.trans_lt valid.2⟩
          | written t => exact ⟨valid.1, smaller.trans_lt valid.2.1, valid.2.2⟩
          | cellRead h other => exact valid

theorem tail_of_pop_step (ring : RingBuffer α capacity)
    (pc : Option (RingPc α)) : (popStep ring pc).1.tail = ring.tail := by
  unfold popStep
  split <;> try rfl
  split_ifs <;> rfl

theorem empty_step_ring (ring : RingBuffer α capacity)
    (pc : Option (RingPc α)) : (emptyStep ring pc).1 = ring := by
  unfold emptyStep
  split <;> rfl

theorem push_outcome_of_tail {left right : RingBuffer α capacity}
    (sameTail : left.tail = right.tail) : pushOutcome left = pushOutcome right := by
  funext pc
  cases pc <;> simp [pushOutcome, sameTail]

/-! ## Calls that are decided early

Only a failure is decided before the call returns: a success takes effect with
its last step. -/

theorem push_outcome_fails {ring : RingBuffer α capacity} {pc : RingPc α}
    {ok : Bool} (decided : pushOutcome ring pc = some ok) : ok = false := by
  cases pc <;> simp only [pushOutcome] at decided
  case headLoaded h =>
    split_ifs at decided
    exact (Option.some.inj decided).symm
  case tailLoaded h t =>
    split_ifs at decided
    exact (Option.some.inj decided).symm
  all_goals cases decided

theorem pop_outcome_fails {pc : RingPc α} {result : Option α}
    (decided : popOutcome pc = some result) : result = none := by
  cases pc <;> simp only [popOutcome] at decided
  case tailLoaded h t =>
    split_ifs at decided
    exact (Option.some.inj decided).symm
  all_goals cases decided

/-! ## Families of rings -/

inductive RingCall (Ring α : Type) where
  | push (ring : Ring) (data : α)
  | pop (ring : Ring)
  | empty (ring : Ring)

inductive RingEnd where
  | producer
  | consumer
  deriving DecidableEq

variable {Ring : Type}

def RingCall.claims : RingCall Ring α → RingEnd × Ring
  | .push ring _ => (.producer, ring)
  | .pop ring => (.consumer, ring)
  | .empty ring => (.consumer, ring)

def RingRet : RingCall Ring α → Type
  | .push _ _ => Bool
  | .pop _ => Option α
  | .empty _ => Bool

section Family

variable [DecidableEq Ring]

def ringStep (rings : Ring → RingBuffer α capacity) :
    (call : RingCall Ring α) → Option (RingPc α) →
      (Ring → RingBuffer α capacity) × (RingPc α ⊕ RingRet call)
  | .push ring data, pc =>
      let result := pushStep (rings ring) data pc
      (Function.update rings ring result.1, result.2)
  | .pop ring, pc =>
      let result := popStep (rings ring) pc
      (Function.update rings ring result.1, result.2)
  | .empty ring, pc =>
      let result := emptyStep (rings ring) pc
      (Function.update rings ring result.1, result.2)

def fifoExec (capacity : Capacity) (queues : Ring → List α) :
    (call : RingCall Ring α) → (Ring → List α) × RingRet call
  | .push ring data =>
      let result := fifoPush capacity (queues ring) data
      (Function.update queues ring result.1, result.2)
  | .pop ring =>
      let result := fifoPop (queues ring)
      (Function.update queues ring result.1, result.2)
  | .empty ring => (queues, (queues ring).isEmpty)

def ringObject (Ring α : Type) [DecidableEq Ring] (capacity : Capacity) :
    MicroObject (RingCall Ring α) RingRet where
  State := Ring → RingBuffer α capacity
  Pc := RingPc α
  step := ringStep

def fifoObject (Ring α : Type) [DecidableEq Ring] (capacity : Capacity) :
    AtomicObject (RingCall Ring α) RingRet where
  State := Ring → List α
  exec := fifoExec capacity

def ringPcValid (rings : Ring → RingBuffer α capacity) :
    RingCall Ring α → RingPc α → Prop
  | .push ring data, pc => PushValid (rings ring) data pc
  | .pop ring, pc => PopValid (rings ring) pc
  | .empty ring, pc => EmptyValid (rings ring) pc

def ringOutcome (rings : Ring → RingBuffer α capacity) :
    (call : RingCall Ring α) → RingPc α → Option (RingRet call)
  | .push ring _, pc => pushOutcome (rings ring) pc
  | .pop _, pc => popOutcome pc
  | .empty _, _ => none

def ringContents (rings : Ring → RingBuffer α capacity) : Ring → List α :=
  fun ring => (rings ring).contents

theorem ring_contents_update (rings : Ring → RingBuffer α capacity)
    (name : Ring) (ring : RingBuffer α capacity) :
    ringContents (Function.update rings name ring) =
      Function.update (ringContents rings) name ring.contents := by
  funext other
  by_cases same : other = name
  · subst same
    simp [ringContents]
  · simp [ringContents, same]

theorem bounded_update {rings : Ring → RingBuffer α capacity}
    (bounded : ∀ name, (rings name).Bounded) {name : Ring}
    {ring : RingBuffer α capacity} (updated : ring.Bounded) :
    ∀ other, (Function.update rings name ring other).Bounded := by
  intro other
  by_cases same : other = name
  · subst same
    simpa using updated
  · simpa [same] using bounded other

theorem ring_step_decides (rings : Ring → RingBuffer α capacity)
    (call : RingCall Ring α) (pc : Option (RingPc α))
    (bounded : ∀ name, (rings name).Bounded)
    (known : ∀ current, pc = some current → ringPcValid rings call current) :
    (∀ name, ((ringStep rings call pc).1 name).Bounded) ∧
      (∀ current, (ringStep rings call pc).2 = .inl current →
        ringPcValid (ringStep rings call pc).1 call current) ∧
      ((ringContents (ringStep rings call pc).1 = ringContents rings ∧
          Sum.elim (ringOutcome (ringStep rings call pc).1 call) some
              (ringStep rings call pc).2 =
            pc.bind (ringOutcome rings call)) ∨
        (pc.bind (ringOutcome rings call) = none ∧
          ∃ value, Sum.elim (ringOutcome (ringStep rings call pc).1 call) some
              (ringStep rings call pc).2 = some value ∧
            fifoExec capacity (ringContents rings) call =
              (ringContents (ringStep rings call pc).1, value))) := by
  cases call with
  | push name data =>
      obtain ⟨ringBounded, pcValid, effect⟩ := push_decides (rings name) data pc
        (pushStep (rings name) data pc).1 (pushStep (rings name) data pc).2
        (bounded name) known rfl
      have outcomeAfter : ringOutcome (ringStep rings (.push name data) pc).1
          (.push name data) = pushOutcome (pushStep (rings name) data pc).1 := by
        funext current
        show pushOutcome (Function.update rings name _ name) current = _
        rw [Function.update_self]
      refine ⟨bounded_update bounded ringBounded, ?_, ?_⟩
      · intro current running
        simp only [ringPcValid, ringStep, Function.update_self]
        exact pcValid current running
      · simp only [ringStep, ring_contents_update]
        rcases effect with ⟨same, outcome⟩ | ⟨undecided, value, decided, exec⟩
        · left
          refine ⟨?_, ?_⟩
          · rw [same]
            exact Function.update_eq_self name (ringContents rings)
          · exact (congrArg (fun after => Sum.elim after some
              (pushStep (rings name) data pc).2) outcomeAfter).trans outcome
        · right
          refine ⟨undecided, value, ?_, ?_⟩
          · exact (congrArg (fun after => Sum.elim after some
              (pushStep (rings name) data pc).2) outcomeAfter).trans decided
          · simp only [fifoExec, ringContents, exec]
  | pop name =>
      obtain ⟨ringBounded, pcValid, effect⟩ := pop_decides (rings name) pc
        (popStep (rings name) pc).1 (popStep (rings name) pc).2
        (bounded name) known rfl
      refine ⟨bounded_update bounded ringBounded, ?_, ?_⟩
      · intro current running
        simp only [ringPcValid, ringStep, Function.update_self]
        exact pcValid current running
      · simp only [ringStep, ring_contents_update]
        rcases effect with ⟨same, outcome⟩ | ⟨undecided, value, decided, exec⟩
        · left
          refine ⟨?_, outcome⟩
          rw [same]
          exact Function.update_eq_self name (ringContents rings)
        · right
          refine ⟨undecided, value, decided, ?_⟩
          simp only [fifoExec, ringContents, exec]
  | empty name =>
      obtain ⟨ringBounded, pcValid, same, returned⟩ := empty_decides (rings name)
        pc (emptyStep (rings name) pc).1 (emptyStep (rings name) pc).2
        (bounded name) known rfl
      have undecided : pc.bind (ringOutcome rings (.empty name)) = none := by
        cases pc <;> rfl
      refine ⟨bounded_update bounded ringBounded, ?_, ?_⟩
      · intro current running
        simp only [ringPcValid, ringStep, Function.update_self]
        exact pcValid current running
      · simp only [ringStep, ring_contents_update, same]
        have unchanged : Function.update (ringContents rings) name
            (rings name).contents = ringContents rings :=
          Function.update_eq_self name (ringContents rings)
        rw [unchanged, undecided]
        cases result : (emptyStep (rings name) pc).2 with
        | inl current => exact .inl ⟨rfl, rfl⟩
        | inr value =>
            right
            refine ⟨rfl, value, rfl, ?_⟩
            rw [returned value result]
            rfl

omit [DecidableEq Ring] in
/-- Facts and outcomes of a call depend only on the ring it claims. -/
theorem ring_facts_local {left right : Ring → RingBuffer α capacity}
    {call : RingCall Ring α} (pc : RingPc α)
    (same : left call.claims.2 = right call.claims.2)
    (known : ringPcValid right call pc) :
    ringPcValid left call pc ∧
      ringOutcome left call pc = ringOutcome right call pc := by
  cases call with
  | push name data =>
      change left name = right name at same
      refine ⟨?_, ?_⟩
      · show PushValid (left name) data pc
        rw [same]
        exact known
      · show pushOutcome (left name) pc = pushOutcome (right name) pc
        rw [same]
  | pop name =>
      change left name = right name at same
      refine ⟨?_, rfl⟩
      show PopValid (left name) pc
      rw [same]
      exact known
  | empty name =>
      change left name = right name at same
      refine ⟨?_, rfl⟩
      show EmptyValid (left name) pc
      rw [same]
      exact known

theorem ring_step_elsewhere (rings : Ring → RingBuffer α capacity)
    (call : RingCall Ring α) (pc : Option (RingPc α)) {name : Ring}
    (different : name ≠ call.claims.2) :
    (ringStep rings call pc).1 name = rings name := by
  cases call <;> exact Function.update_of_ne different _ _

theorem ring_step_frame (rings : Ring → RingBuffer α capacity)
    (call : RingCall Ring α) (pc : Option (RingPc α))
    (other : RingCall Ring α) (otherPc : RingPc α)
    (known : ∀ current, pc = some current → ringPcValid rings call current)
    (otherKnown : ringPcValid rings other otherPc)
    (apart : ¬ call.claims = other.claims) :
    ringPcValid (ringStep rings call pc).1 other otherPc ∧
      ringOutcome (ringStep rings call pc).1 other otherPc =
        ringOutcome rings other otherPc := by
  by_cases sameRing : other.claims.2 = call.claims.2
  · -- The same ring from its other end.
    cases call with
    | push name data =>
        cases other with
        | push otherName otherData =>
            obtain rfl : otherName = name := sameRing
            exact (apart rfl).elim
        | pop otherName =>
            obtain rfl : otherName = name := sameRing
            refine ⟨?_, rfl⟩
            simp only [ringStep, ringPcValid, Function.update_self]
            exact pop_valid_of_push_step (rings otherName) data pc otherPc known
              otherKnown
        | empty otherName =>
            obtain rfl : otherName = name := sameRing
            refine ⟨?_, rfl⟩
            simp only [ringStep, ringPcValid, Function.update_self]
            have head := head_of_push_step (rings otherName) data pc
            cases otherPc with
            | headLoaded h => exact Eq.trans otherKnown head.symm
            | tailLoaded h t => exact otherKnown.elim
            | admitted h => exact otherKnown.elim
            | written t => exact otherKnown.elim
            | cellRead h value => exact otherKnown.elim
    | pop name =>
        cases other with
        | push otherName data =>
            obtain rfl : otherName = name := sameRing
            refine ⟨?_, ?_⟩
            · simp only [ringStep, ringPcValid, Function.update_self]
              exact push_valid_of_pop_step (rings otherName) data pc otherPc known
                otherKnown
            · show pushOutcome (Function.update rings otherName _ otherName) otherPc = _
              rw [Function.update_self,
                push_outcome_of_tail (tail_of_pop_step (rings otherName) pc)]
              rfl
        | pop otherName =>
            obtain rfl : otherName = name := sameRing
            exact (apart rfl).elim
        | empty otherName =>
            obtain rfl : otherName = name := sameRing
            exact (apart rfl).elim
    | empty name =>
        have unchanged : (ringStep rings (.empty name) pc).1 = rings := by
          simp only [ringStep, empty_step_ring]
          exact Function.update_eq_self name rings
        rw [unchanged]
        exact ⟨otherKnown, rfl⟩
  · exact ring_facts_local otherPc (ring_step_elsewhere rings call pc sameRing)
      otherKnown

/-- The linearization of a family of rings: two calls conflict when they
claim the same end of the same ring. -/
def ringLinearization (Ring α : Type) [DecidableEq Ring] (capacity : Capacity) :
    Linearization (ringObject Ring α capacity) (fifoObject Ring α capacity) where
  Conflict left right := left.claims = right.claims
  conflict_symm := Eq.symm
  Valid rings := ∀ name : Ring, RingBuffer.Bounded (rings name)
  PcValid := ringPcValid
  abstract := ringContents
  outcome := ringOutcome
  decides rings call pc bounded known :=
    ring_step_decides rings call pc bounded known
  frame rings call pc other otherPc _ known otherKnown apart :=
    ring_step_frame rings call pc other otherPc known otherKnown apart

end Family

end MarketDataEngine.Containers
