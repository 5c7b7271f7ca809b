import MarketDataEngine.RingLinearization

/-!
# One producer and one consumer on a ring buffer

The client that the ring buffer was written for: one thread pushes values
chosen from outside, one other thread pops, in every interleaving of their
micro-steps. Each thread's location keeps the values its own successful calls
have handled, so the two lists are histories of results and nothing else.
-/

namespace MarketDataEngine.Containers

open MarketDataEngine.TransitionSystem MarketDataEngine.SteppedObject

set_option autoImplicit false

variable {α : Type} {capacity : Capacity}

inductive Party where
  | producer
  | consumer
  deriving DecidableEq

def Party.ringEnd : Party → RingEnd
  | .producer => .producer
  | .consumer => .consumer

theorem party_of_ring_end {left right : Party}
    (same : left.ringEnd = right.ringEnd) : left = right := by
  cases left <;> cases right <;> first | rfl | cases same

inductive ProducerLocation (α : Type) where
  | idle (pushed : List α)
  | pushing (pushed : List α) (data : α)

namespace ProducerLocation

/-- The values of the successful pushes so far. -/
def pushed : ProducerLocation α → List α
  | .idle pushed => pushed
  | .pushing pushed _ => pushed

end ProducerLocation

structure ConsumerLocation (α : Type) where
  /-- The values returned by the successful pops so far. -/
  popped : List α

def PartyLocation (α : Type) : Party → Type
  | .producer => ProducerLocation α
  | .consumer => ConsumerLocation α

def pushReturned (pushed : List α) (data : α) (ok : Bool) : ProducerLocation α :=
  .idle (if ok then pushed ++ [data] else pushed)

def popReturned (popped : List α) (result : Option α) : ConsumerLocation α :=
  ⟨popped ++ result.toList⟩

def producerAction : ProducerLocation α →
    Action (RingCall Unit α) RingRet Unit α (ProducerLocation α)
  | .idle pushed => .memory fun memory data => some (memory, .pushing pushed data)
  | .pushing pushed data => .call (.push () data) (pushReturned pushed data)

def consumerAction (location : ConsumerLocation α) :
    Action (RingCall Unit α) RingRet Unit α (ConsumerLocation α) :=
  .call (.pop ()) (popReturned location.popped)

def pairProgram (α : Type) : Program Party (RingCall Unit α) RingRet Unit α where
  Location := PartyLocation α
  action
    | .producer, location => producerAction location
    | .consumer, location => consumerAction location

@[simp] theorem pair_action_producer (location : ProducerLocation α) :
    (pairProgram α).action .producer location = producerAction location := rfl

@[simp] theorem pair_action_consumer (location : ConsumerLocation α) :
    (pairProgram α).action .consumer location = consumerAction location := rfl

abbrev PairState (α : Type) (capacity : Capacity) :=
  FineState (ringObject Unit α capacity) (pairProgram α)

abbrev PairSpecState (α : Type) (capacity : Capacity) :=
  AtomicState (fifoObject Unit α capacity) (pairProgram α)

namespace PairState

variable (state : PairState α capacity)

def ring : RingBuffer α capacity := state.shared ()

def producer : ProducerLocation α := state.location .producer

def consumer : ConsumerLocation α := state.location .consumer

end PairState

/-- Both counters start at the same value, whatever it is, and the cells hold
whatever they hold. -/
def PairStart (state : PairState α capacity) : Prop :=
  state.ring.head = state.ring.tail ∧ state.producer = .idle [] ∧
    state.consumer = ⟨[]⟩ ∧ ∀ party, state.pc party = none

def PairSpecStart (state : PairSpecState α capacity) : Prop :=
  state.shared () = ([] : List α) ∧
    state.location .producer = ProducerLocation.idle ([] : List α) ∧
    state.location .consumer = (⟨[]⟩ : ConsumerLocation α)

def pairSystem (α : Type) (capacity : Capacity) :
    System (PairState α capacity) (Party × α) :=
  fineSystem (pairProgram α) PairStart

def pairSpec (α : Type) (capacity : Capacity) :
    System (PairSpecState α capacity) (Party × α) :=
  atomicSystem (pairProgram α) PairSpecStart

def pairAbstract (state : PairState α capacity) : PairSpecState α capacity :=
  abstractState (pairProgram α) (ringLinearization Unit α capacity) state

/-! ## The bounded FIFO under one producer and one consumer -/

/-- What is queued is what was pushed and not yet popped. -/
def QueueAccounts (state : PairSpecState α capacity) : Prop :=
  ProducerLocation.pushed (state.location .producer) =
    ConsumerLocation.popped (state.location .consumer) ++ state.shared ()

theorem queue_accounts_step {state next : PairSpecState α capacity}
    {label : Party × α} (accounts : QueueAccounts state)
    (taken : atomicStep (pairProgram α) state label = some next) :
    QueueAccounts next := by
  obtain ⟨party, input⟩ := label
  unfold QueueAccounts at accounts
  cases party with
  | producer =>
      cases at_ : (state.location .producer : ProducerLocation α) with
      | idle pushed =>
          simp only [atomicStep, pair_action_producer, producerAction, at_] at taken
          cases taken
          rw [at_] at accounts
          exact accounts
      | pushing pushed data =>
          simp only [atomicStep, pair_action_producer, producerAction, at_] at taken
          cases taken
          rw [at_] at accounts
          show (pushReturned pushed data
              (fifoPush capacity (state.shared ()) data).2).pushed = _ ++
            (fifoPush capacity (state.shared ()) data).1
          change pushed = _ ++ _ at accounts
          unfold fifoPush
          split_ifs
          · exact accounts
          · rw [← List.append_assoc]
            exact congrArg (· ++ [data]) accounts
  | consumer =>
      simp only [atomicStep] at taken
      cases taken
      show _ = (_ ++ (fifoPop (state.shared ())).2.toList) ++ (fifoPop (state.shared ())).1
      refine accounts.trans ?_
      cases (state.shared () : List α) with
      | nil => simp [fifoPop]
      | cons data rest => simp [fifoPop]

theorem queue_accounts {state : PairSpecState α capacity}
    (reached : Reaches (pairSpec α capacity) state) : QueueAccounts state := by
  refine invariant_of_step ?_ ?_ reached
  · rintro state ⟨empty, producer, consumer⟩
    unfold QueueAccounts
    rw [empty, producer, consumer]
    rfl
  · intro state label next _ accounts _ taken
    exact queue_accounts_step accounts taken

/-! ## The ring refines it -/

theorem pair_initial (state : PairState α capacity) (start : PairStart state) :
    FineValid (pairProgram α) (ringLinearization Unit α capacity) state ∧
      PairSpecStart (pairAbstract state) := by
  obtain ⟨counters, producer, consumer, idle⟩ := start
  have empty : state.ring.contents = [] := state.ring.empty_iff.mp counters
  refine ⟨fine_valid_of_idle ?_ idle, empty, ?_, ?_⟩
  · intro name
    have none : state.ring.count = 0 := by
      rw [← RingBuffer.contents_length, empty]
      rfl
    show state.ring.count ≤ capacity.val
    omega
  · exact (decided_location_idle (idle .producer)).trans producer
  · exact (decided_location_idle (idle .consumer)).trans consumer

/-- Each party claims only its own end of the ring. -/
theorem party_claims {party : Party} {location : PartyLocation α party}
    {call : RingCall Unit α} {next : RingRet call → PartyLocation α party}
    (action : (pairProgram α).action party location = .call call next) :
    call.claims.1 = party.ringEnd := by
  cases party with
  | producer =>
      cases location with
      | idle pushed => cases action
      | pushing pushed data =>
          cases action
          rfl
  | consumer =>
      cases action
      rfl

theorem pair_starts_alone (state : PairState α capacity) (label : Party × α) :
    StartsAlone (pairProgram α) (ringLinearization Unit α capacity) state label := by
  rintro - call next action other otherCall otherPc different ⟨⟨otherNext, otherAction⟩, -⟩ same
  have claims : call.claims.1 = otherCall.claims.1 := congrArg Prod.fst same
  rw [party_claims action, party_claims otherAction] at claims
  exact different (party_of_ring_end claims).symm

theorem pair_linearizes {state : PairState α capacity}
    (reached : Reaches (pairSystem α capacity) state) :
    FineValid (pairProgram α) (ringLinearization Unit α capacity) state ∧
      Reaches (pairSpec α capacity) (pairAbstract state) := by
  apply guarded_run_linearizes pair_initial
  apply reaches_under_of_automatic_guard _ reached
  intro state label next _ _
  exact pair_starts_alone state label

/-- A call that is decided but has not returned is one that will fail, and a
failure adds nothing to either history. -/
theorem pushed_of_decided (state : PairState α capacity) :
    ProducerLocation.pushed ((pairAbstract state).location .producer) =
      state.producer.pushed := by
  show ProducerLocation.pushed (decidedLocation (pairProgram α)
    (ringLinearization Unit α capacity) state .producer) = state.producer.pushed
  cases at_ : state.producer with
  | idle pushed =>
      have action : (pairProgram α).action .producer (state.location .producer) =
          producerAction (.idle pushed) := congrArg producerAction at_
      simp only [decidedLocation, action, producerAction]
      exact congrArg ProducerLocation.pushed at_
  | pushing pushed data =>
      have action : (pairProgram α).action .producer (state.location .producer) =
          .call (.push () data) (pushReturned pushed data) :=
        congrArg producerAction at_
      rw [decided_location_call action]
      split
      · rename_i ok decided
        obtain ⟨pc, -, outcome⟩ := Option.bind_eq_some_iff.mp decided
        obtain rfl : ok = false := push_outcome_fails outcome
        rfl
      · exact congrArg ProducerLocation.pushed at_

theorem popped_of_decided (state : PairState α capacity) :
    ConsumerLocation.popped ((pairAbstract state).location .consumer) =
      state.consumer.popped := by
  show ConsumerLocation.popped (decidedLocation (pairProgram α)
    (ringLinearization Unit α capacity) state .consumer) = state.consumer.popped
  have action : (pairProgram α).action .consumer (state.location .consumer) =
      .call (.pop ()) (popReturned state.consumer.popped) := rfl
  rw [decided_location_call action]
  split
  · rename_i result decided
    obtain ⟨pc, -, outcome⟩ := Option.bind_eq_some_iff.mp decided
    obtain rfl : result = none := pop_outcome_fails outcome
    exact List.append_nil _
  · rfl

theorem pushed_eq_popped_append_contents {state : PairState α capacity}
    (reached : Reaches (pairSystem α capacity) state) :
    state.producer.pushed = state.consumer.popped ++ state.ring.contents := by
  have accounts := queue_accounts (pair_linearizes reached).2
  unfold QueueAccounts at accounts
  rw [pushed_of_decided, popped_of_decided] at accounts
  exact accounts

/-! ## When a call fails -/

theorem consumer_step_keeps_producer {state next : PairState α capacity}
    {input : α}
    (taken : fineStep (pairProgram α) state (.consumer, input) = some next) :
    next.producer = state.producer ∧ next.pc .producer = state.pc .producer ∧
      next.ring.tail = state.ring.tail := by
  have moved : callStep (pairProgram α) state .consumer (.pop ())
      (popReturned state.consumer.popped) = next := Option.some.inj taken
  subst moved
  exact ⟨rfl, rfl, tail_of_pop_step state.ring (state.pc .consumer)⟩

theorem producer_step_keeps_consumer {state next : PairState α capacity}
    {input : α}
    (taken : fineStep (pairProgram α) state (.producer, input) = some next) :
    next.consumer = state.consumer ∧ next.pc .consumer = state.pc .consumer := by
  unfold fineStep at taken
  cases at_ : state.producer with
  | idle pushed =>
      have action : (pairProgram α).action .producer (state.location .producer) =
          producerAction (.idle pushed) := congrArg producerAction at_
      simp only [action, producerAction] at taken
      cases taken
      exact ⟨rfl, rfl⟩
  | pushing pushed data =>
      have action : (pairProgram α).action .producer (state.location .producer) =
          .call (.push () data) (pushReturned pushed data) :=
        congrArg producerAction at_
      simp only [action] at taken
      cases taken
      exact ⟨rfl, rfl⟩

/-- The step of a producer that is pushing is one micro-step of `push`. -/
theorem producer_step_pushing {state next : PairState α capacity} {input : α}
    {pushed : List α} {data : α} (at_ : state.producer = .pushing pushed data)
    (taken : fineStep (pairProgram α) state (.producer, input) = some next) :
    next.ring = (pushStep state.ring data (state.pc .producer)).1 ∧
      next.pc .producer =
        (pushStep state.ring data (state.pc .producer)).2.getLeft? ∧
      next.producer = Sum.elim (fun _ => state.producer)
        (pushReturned pushed data)
        (pushStep state.ring data (state.pc .producer)).2 := by
  have action : (pairProgram α).action .producer (state.location .producer) =
      .call (.push () data) (pushReturned pushed data) := congrArg producerAction at_
  unfold fineStep at taken
  simp only [action] at taken
  cases taken
  exact ⟨rfl, rfl, rfl⟩

/-- While one `push` runs, the counters it has loaded are those of the state
in which it loaded `head_`: nobody else moves the tail. -/
def PushTracks (before state : PairState α capacity) : Prop :=
  state.producer = before.producer ∧
    match state.pc .producer with
    | some (.headLoaded h) =>
        h = before.ring.head ∧ state.ring.tail = before.ring.tail
    | some (.tailLoaded h t) => h = before.ring.head ∧ t = before.ring.tail
    | _ => True

theorem push_tracks_step {before state next : PairState α capacity}
    {label : Party × α} {pushed : List α} {data : α}
    (pushing : before.producer = .pushing pushed data)
    (tracks : PushTracks before state)
    (running : (state.pc .producer).isSome)
    (stillRunning : (next.pc .producer).isSome)
    (taken : fineStep (pairProgram α) state label = some next) :
    PushTracks before next := by
  obtain ⟨same, counters⟩ := tracks
  obtain ⟨party, input⟩ := label
  cases party with
  | consumer =>
      obtain ⟨sameProducer, samePc, sameTail⟩ := consumer_step_keeps_producer taken
      unfold PushTracks
      rw [samePc, sameTail]
      exact ⟨sameProducer.trans same, counters⟩
  | producer =>
      obtain ⟨ring, pc, location⟩ := producer_step_pushing (same.trans pushing) taken
      cases at_ : state.pc .producer with
      | none => simp [at_] at running
      | some current =>
          rw [at_] at counters ring pc location
          unfold PushTracks
          cases current with
          | headLoaded h =>
              rw [pc, location, ring]
              exact ⟨same, counters⟩
          | tailLoaded h t =>
              simp only [pushStep] at ring pc location
              split_ifs at ring pc location
              · rw [pc] at stillRunning
                exact absurd stillRunning Bool.false_ne_true
              · rw [pc, location]
                exact ⟨same, trivial⟩
          | admitted t =>
              rw [pc, location]
              exact ⟨same, trivial⟩
          | written t =>
              rw [pc] at stillRunning
              exact absurd stillRunning Bool.false_ne_true
          | cellRead h other =>
              rw [pc, location]
              exact ⟨same, trivial⟩

theorem during_call_running {party : Party} {first last : PairState α capacity}
    {Tracks : PairState α capacity → Prop}
    (initial : Tracks first)
    (preserved : ∀ state label next, Tracks state → (state.pc party).isSome →
      (next.pc party).isSome →
      fineStep (pairProgram α) state label = some next → Tracks next)
    (during : DuringCall (pairProgram α) party first last)
    (running : (last.pc party).isSome) : Tracks last := by
  induction during with
  | start start =>
      cases start
      exact initial
  | step prior inside taken ih =>
      exact preserved _ _ _ (ih inside) inside running taken

/-- A `push` that returns false found `Capacity` stored values at the moment
it loaded `head_`. -/
theorem push_fails_only_full {before loaded last after : PairState α capacity}
    {first second : α} {pushed : List α} {data : α}
    (idle : before.pc .producer = none)
    (pushing : before.producer = .pushing pushed data)
    (load : fineStep (pairProgram α) before (.producer, first) = some loaded)
    (during : DuringCall (pairProgram α) .producer loaded last)
    (running : (last.pc .producer).isSome)
    (returns : fineStep (pairProgram α) last (.producer, second) = some after)
    (failed : after.producer = .idle pushed) :
    before.ring.contents.length = capacity.val := by
  have tracks : PushTracks before last := by
    refine during_call_running ?_ ?_ during running
    · obtain ⟨ring, pc, location⟩ := producer_step_pushing pushing load
      rw [idle] at ring pc location
      unfold PushTracks
      rw [pc, location, ring]
      exact ⟨rfl, rfl, rfl⟩
    · intro state label next tracks inside stillInside taken
      exact push_tracks_step pushing tracks inside stillInside taken
  obtain ⟨same, counters⟩ := tracks
  obtain ⟨-, -, location⟩ := producer_step_pushing (same.trans pushing) returns
  rw [failed] at location
  cases at_ : last.pc .producer with
  | none => simp [at_] at running
  | some current =>
      rw [at_] at counters location
      cases current with
      | headLoaded h =>
          have impossible := location.trans (same.trans pushing)
          cases impossible
      | tailLoaded h t =>
          obtain ⟨rfl, rfl⟩ := counters
          simp only [pushStep] at location
          split_ifs at location with full
          · rw [RingBuffer.contents_length]
            exact before.ring.full_iff.mp full
          · have impossible := location.trans (same.trans pushing)
            cases impossible
      | admitted t =>
          have impossible := location.trans (same.trans pushing)
          cases impossible
      | written t =>
          have lengths : pushed = pushed ++ [data] := ProducerLocation.idle.inj location
          simp at lengths
      | cellRead h other =>
          have impossible := location.trans (same.trans pushing)
          cases impossible

/-- While one `pop` runs after its load of `tail_`, it holds the counters of
that moment. -/
def PopTracks (h : UInt64) (before state : PairState α capacity) : Prop :=
  state.consumer = before.consumer ∧
    match state.pc .consumer with
    | some (.headLoaded _) => False
    | some (.tailLoaded head tail) => head = h ∧ tail = before.ring.tail
    | _ => True

theorem consumer_step_popping {state next : PairState α capacity} {input : α}
    (taken : fineStep (pairProgram α) state (.consumer, input) = some next) :
    next.pc .consumer = (popStep state.ring (state.pc .consumer)).2.getLeft? ∧
      next.consumer = Sum.elim (fun _ => state.consumer)
        (popReturned state.consumer.popped)
        (popStep state.ring (state.pc .consumer)).2 := by
  have moved : callStep (pairProgram α) state .consumer (.pop ())
      (popReturned state.consumer.popped) = next := Option.some.inj taken
  subst moved
  exact ⟨rfl, rfl⟩

theorem pop_tracks_step {h : UInt64} {before state next : PairState α capacity}
    {label : Party × α} (tracks : PopTracks h before state)
    (running : (state.pc .consumer).isSome)
    (stillRunning : (next.pc .consumer).isSome)
    (taken : fineStep (pairProgram α) state label = some next) :
    PopTracks h before next := by
  obtain ⟨same, counters⟩ := tracks
  obtain ⟨party, input⟩ := label
  cases party with
  | producer =>
      obtain ⟨sameConsumer, samePc⟩ := producer_step_keeps_consumer taken
      unfold PopTracks
      rw [samePc]
      exact ⟨sameConsumer.trans same, counters⟩
  | consumer =>
      obtain ⟨pc, location⟩ := consumer_step_popping taken
      cases at_ : state.pc .consumer with
      | none => simp [at_] at running
      | some current =>
          rw [at_] at counters pc location
          unfold PopTracks
          cases current with
          | headLoaded head => exact counters.elim
          | tailLoaded head tail =>
              simp only [popStep] at pc location
              split_ifs at pc location
              · rw [pc] at stillRunning
                exact absurd stillRunning Bool.false_ne_true
              · rw [pc, location]
                exact ⟨same, trivial⟩
          | admitted head =>
              rw [pc, location]
              exact ⟨same, trivial⟩
          | cellRead head data =>
              rw [pc] at stillRunning
              exact absurd stillRunning Bool.false_ne_true
          | written tail =>
              rw [pc, location]
              exact ⟨same, trivial⟩

/-- A `pop` that returns false found the ring empty at the moment it loaded
`tail_`. -/
theorem pop_fails_only_empty {before loaded last after : PairState α capacity}
    {first second : α} {h : UInt64}
    (reached : Reaches (pairSystem α capacity) before)
    (headLoaded : before.pc .consumer = some (.headLoaded h))
    (load : fineStep (pairProgram α) before (.consumer, first) = some loaded)
    (during : DuringCall (pairProgram α) .consumer loaded last)
    (running : (last.pc .consumer).isSome)
    (returns : fineStep (pairProgram α) last (.consumer, second) = some after)
    (returned : after.pc .consumer = none)
    (failed : after.consumer.popped = before.consumer.popped) :
    before.ring.contents = [] := by
  have current : h = before.ring.head :=
    (pair_linearizes reached).1.pc_valid .consumer (.pop ()) (.headLoaded h)
      ⟨⟨popReturned before.consumer.popped, rfl⟩, headLoaded⟩
  have tracks : PopTracks h before last := by
    refine during_call_running ?_ ?_ during running
    · obtain ⟨pc, location⟩ := consumer_step_popping load
      rw [headLoaded] at pc location
      unfold PopTracks
      rw [pc, location]
      exact ⟨rfl, rfl, rfl⟩
    · intro state label next tracks inside stillInside taken
      exact pop_tracks_step tracks inside stillInside taken
  obtain ⟨same, counters⟩ := tracks
  obtain ⟨pc, location⟩ := consumer_step_popping returns
  rw [returned] at pc
  cases at_ : last.pc .consumer with
  | none => simp [at_] at running
  | some current =>
      rw [at_] at counters pc location
      cases current with
      | headLoaded head => exact counters.elim
      | tailLoaded head tail =>
          obtain ⟨rfl, rfl⟩ := counters
          simp only [popStep] at pc
          split_ifs at pc with empty
          · exact before.ring.empty_iff.mp (current ▸ empty)
          · cases pc
      | admitted head => cases pc
      | cellRead head data =>
          rw [location] at failed
          have lengths : last.consumer.popped ++ [data] = before.consumer.popped := failed
          rw [same] at lengths
          simp at lengths
      | written tail => cases pc

/-- The ring buffer is a linearizable bounded FIFO for one producer and one
consumer, for every start value of the counters and through their wrap-around.
The last two parts are about one call each: `state` is the moment of the
decisive load, and `after` is where the call returns without success. -/
theorem ring_buffer_linearizable_fifo (α : Type) (capacity : Capacity)
    (state : PairState α capacity) (reached : Reaches (pairSystem α capacity) state) :
    Reaches (pairSpec α capacity) (pairAbstract state) ∧
      state.consumer.popped <+: state.producer.pushed ∧
      state.ring.contents.length ≤ capacity.val ∧
      (∀ t, state.pc .producer = some (.admitted t) →
        ∀ offset, offset < state.ring.contents.length →
          capacity.cell (state.ring.head + UInt64.ofNat offset) ≠
            capacity.cell t) ∧
      (∀ (loaded last after : PairState α capacity) (first second : α)
          (pushed : List α) (data : α),
        state.pc .producer = none → state.producer = .pushing pushed data →
        fineStep (pairProgram α) state (.producer, first) = some loaded →
        DuringCall (pairProgram α) .producer loaded last →
        (last.pc .producer).isSome →
        fineStep (pairProgram α) last (.producer, second) = some after →
        after.producer = .idle pushed →
        state.ring.contents.length = capacity.val) ∧
      (∀ (loaded last after : PairState α capacity) (first second : α)
          (h : UInt64),
        state.pc .consumer = some (.headLoaded h) →
        fineStep (pairProgram α) state (.consumer, first) = some loaded →
        DuringCall (pairProgram α) .consumer loaded last →
        (last.pc .consumer).isSome →
        fineStep (pairProgram α) last (.consumer, second) = some after →
        after.pc .consumer = none →
        after.consumer.popped = state.consumer.popped →
        state.ring.contents = []) := by
  obtain ⟨valid, linear⟩ := pair_linearizes reached
  refine ⟨linear, ?_, ?_, ?_, ?_, ?_⟩
  · exact ⟨state.ring.contents, (pushed_eq_popped_append_contents reached).symm⟩
  · rw [RingBuffer.contents_length]
    exact valid.object_valid ()
  · intro t admitted offset stored
    rw [RingBuffer.contents_length] at stored
    obtain ⟨call, ⟨next, action⟩, -⟩ := valid.only_calls_run .producer _ admitted
    cases at_ : state.producer with
    | idle pushed =>
        rw [show (pairProgram α).action .producer (state.location .producer) =
          producerAction (.idle pushed) from congrArg producerAction at_] at action
        cases action
    | pushing pushed data =>
        have isPush : (pairProgram α).action .producer (state.location .producer) =
            .call (.push () data) (pushReturned pushed data) :=
          congrArg producerAction at_
        obtain ⟨rfl, room⟩ : t = state.ring.tail ∧ state.ring.count < capacity.val :=
          valid.pc_valid .producer (.push () data) (.admitted t)
            ⟨⟨_, isPush⟩, admitted⟩
        exact state.ring.free_cell_unoccupied room stored
  · intro loaded last after first second pushed data idle pushing load during
      running returns failed
    exact push_fails_only_full idle pushing load during running returns failed
  · intro loaded last after first second h headLoaded load during running returns
      returned failed
    exact pop_fails_only_empty reached headLoaded load during running returns
      returned failed

def capacityTwo : Capacity := ⟨2, by decide, by decide, by decide⟩

/-- Counters one step before their wrap-around. -/
def wrappingStart : PairState Nat capacityTwo where
  shared := fun _ => ⟨UInt64.ofNat (2 ^ 64 - 1), UInt64.ofNat (2 ^ 64 - 1), fun _ => 0⟩
  memory := ()
  location
    | .producer => ProducerLocation.idle ([] : List Nat)
    | .consumer => (⟨[]⟩ : ConsumerLocation Nat)
  pc := fun _ => none

/-- The producer pushes 7, 8 while 7 is popped, and 9; it is about to load `head_` for 10. -/
def fullAcrossWrap : Option (PairState Nat capacityTwo) :=
  runLabels (pairSystem Nat capacityTwo) wrappingStart
    (List.replicate 6 (.producer, 7) ++
      (List.replicate 6 [(.producer, 8), (.consumer, 0)]).flatten ++
      List.replicate 6 (.producer, 9) ++ [(.producer, 10)])

theorem ring_full_across_wrap :
    ∃ state, fullAcrossWrap = some state ∧
      state.consumer.popped <+: state.producer.pushed ∧
      state.consumer.popped = [7] ∧ state.producer.pushed = [7, 8, 9] ∧
      state.ring.contents.length = capacityTwo.val := by
  have started : PairStart wrappingStart := ⟨rfl, rfl, rfl, fun _ => rfl⟩
  obtain ⟨state, run⟩ : ∃ state, fullAcrossWrap = some state :=
    Option.isSome_iff_exists.mp rfl
  have facts := ring_buffer_linearizable_fifo Nat capacityTwo state
    (reaches_run (reaches_start started) run)
  have final : state = fullAcrossWrap.get rfl := by simp [run]
  obtain ⟨loaded, load⟩ : ∃ loaded, fineStep (pairProgram Nat) state
      (.producer, 0) = some loaded := by
    subst final
    exact Option.isSome_iff_exists.mp rfl
  obtain ⟨last, tailLoad⟩ : ∃ last, fineStep (pairProgram Nat) loaded
      (.producer, 0) = some last := by
    subst final
    cases load
    exact Option.isSome_iff_exists.mp rfl
  obtain ⟨after, check⟩ : ∃ after, fineStep (pairProgram Nat) last
      (.producer, 0) = some after := by
    subst final
    cases load
    cases tailLoad
    exact Option.isSome_iff_exists.mp rfl
  refine ⟨state, run, facts.2.1, by subst final; rfl, by subst final; rfl, ?_⟩
  refine facts.2.2.2.2.1 loaded last after 0 0 [7, 8, 9] 10 ?_ ?_ load
    (.step (.start rfl) ?_ tailLoad) ?_ check ?_
  · subst final
    rfl
  · subst final
    rfl
  · subst final
    cases load
    rfl
  · subst final
    cases load
    cases tailLoad
    rfl
  · subst final
    cases load
    cases tailLoad
    cases check
    rfl

end MarketDataEngine.Containers
