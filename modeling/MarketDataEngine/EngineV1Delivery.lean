import MarketDataEngine.EngineV1Ownership

/-!
# Every interleaving of engine v1

The queue-level invariant says who calls what, and that is all the ring buffers
ask for: each end of each ring has one thread. So the runs of the micro-steps
are runs over atomic queues, and the invariant holds in them word for word.
-/

namespace MarketDataEngine.EngineV1

open MarketDataEngine.Protocol MarketDataEngine.Containers MarketDataEngine.Engine
open MarketDataEngine.TransitionSystem MarketDataEngine.SteppedObject

set_option autoImplicit false

variable {order : ByteOrder} {capacity : Capacity}

/-- The state over atomic queues that a state stands for. -/
def queueView (state : State order capacity) : QueueState order capacity :=
  abstractState (program order) (poolLinearization capacity) state

theorem start_linearizes (state : State order capacity) (start : Start state) :
    FineValid (program order) (poolLinearization capacity) state ∧
      QueueStart (queueView state) := by
  obtain ⟨⟨rings, init⟩, memory, server, consumer, control, idle⟩ := start
  have contents : ∀ name, (queueView state).queue name =
      (FramePool.initRings rings name).contents := fun name =>
    congrArg RingBuffer.contents (congrFun init name)
  refine ⟨fine_valid_of_idle ?_ idle, ?_, ?_, memory, ?_, ?_, ?_⟩
  · intro name
    rw [show state.shared name = _ from congrFun init name]
    exact init_bounded rings name
  · rw [contents]
    exact (init_free rings).1
  · rw [contents]
    exact init_ready rings
  · exact (decided_location_idle (idle .server)).trans server
  · exact (decided_location_idle (idle .consumer)).trans consumer
  · exact (decided_location_idle (idle .control)).trans control

/-! ## One thread for each end of each ring -/

def Unrefused : (thread : Thread) → Location thread → Prop
  | .server, location => ServerLocation.refused location = false
  | .consumer, _ => True
  | .control, _ => True

/-- The thread that an end of a ring belongs to. -/
def endOwner : RingEnd × PoolRing → Thread
  | (.producer, .free) => .consumer
  | (.consumer, .free) => .server
  | (.producer, .ready) => .server
  | (.consumer, .ready) => .consumer

theorem call_claims_own_end {thread : Thread} {location : Location thread}
    {call : PoolCall} {next : RingRet call → Location thread}
    (unrefused : Unrefused thread location)
    (action : (program order).action thread location = .call call next) :
    endOwner call.claims = thread := by
  cases thread with
  | server =>
      change serverAction location = .call call next at action
      cases location with
      | takeSlot events datagram batch =>
          cases action
          rfl
      | publish events idx batch =>
          cases action
          rfl
      | giveBack events idx batch => exact absurd unrefused Bool.true_eq_false.mp
      | _ => cases action
  | consumer =>
      change consumerAction order location = .call call next at action
      cases location with
      | emptyTest =>
          cases action
          rfl
      | take =>
          cases action
          rfl
      | recycle idx =>
          cases action
          rfl
      | _ => cases action
  | control =>
      change controlAction location = .call call next at action
      cases location <;> cases action

theorem unrefused_of_reaches {state : State order capacity}
    (reached : ReachesUnder (system order capacity)
      (StartsAlone (program order) (poolLinearization capacity)) state)
    (thread : Thread) : Unrefused thread (state.location thread) := by
  refine location_of_atomic start_linearizes ?_ ?_ reached thread
  · intro state start
    exact start.2.2.2.2.2
  · intro state reached thread
    cases thread with
    | server => exact (owned_of_reaches reached).published
    | consumer => trivial
    | control => trivial

/-- The discipline of the ring buffers is not an assumption: every run keeps it. -/
theorem reaches_alone {state : State order capacity}
    (reached : Reaches (system order capacity) state) :
    ReachesUnder (system order capacity)
      (StartsAlone (program order) (poolLinearization capacity)) state := by
  refine reaches_under_of_automatic_guard ?_ reached
  intro state label next prior _ _ call nextLocation action other otherCall otherPc
    different progress conflict
  obtain ⟨⟨otherNext, otherAction⟩, -⟩ := progress
  have own := call_claims_own_end (unrefused_of_reaches prior label.1) action
  have others := call_claims_own_end (unrefused_of_reaches prior other) otherAction
  rw [show call.claims = otherCall.claims from conflict] at own
  exact different (others.symm.trans own)

theorem view_owned {state : State order capacity}
    (reached : Reaches (system order capacity) state) :
    StateOwned (queueView state) :=
  owned_of_reaches (guarded_run_linearizes start_linearizes (reaches_alone reached)).2

/-! ## Calls in progress -/

/-- A call that is decided before it returns is a failing one. The only failure
the invariant leaves is a `pop` of an empty ring, and that one moves no index. -/
theorem server_of_view {state : State order capacity}
    (owned : StateOwned (queueView state)) (unrefused : state.server.refused = false) :
    (queueView state).server.held = state.server.held ∧
      (queueView state).server.copied = state.server.copied := by
  obtain same | ⟨call, next, pc, value, action, -, outcome, decided⟩ :=
    decided_location_cases (poolLinearization capacity) state .server
  · exact ⟨congrArg ServerLocation.held same, congrArg ServerLocation.copied same⟩
  · have published := owned.published
    change (queueView state).server = next value at decided
    change serverAction state.server = .call call next at action
    rw [decided] at published ⊢
    cases at_ : state.server with
    | takeSlot events datagram batch =>
        rw [at_] at action
        cases action
        obtain rfl : value = none := pop_outcome_fails outcome
        exact ⟨rfl, rfl⟩
    | publish events idx batch =>
        rw [at_] at action
        cases action
        obtain rfl : value = false := push_outcome_fails outcome
        exact absurd published Bool.true_eq_false.mp
    | giveBack events idx batch =>
        rw [at_] at unrefused
        exact absurd unrefused Bool.true_eq_false.mp
    | _ =>
        rw [at_] at action
        cases action

theorem consumer_of_view {state : State order capacity}
    (owned : StateOwned (queueView state)) :
    (queueView state).consumer.held = state.consumer.held ∧
      (queueView state).consumer.undecoded = state.consumer.undecoded := by
  obtain same | ⟨call, next, pc, value, action, -, outcome, decided⟩ :=
    decided_location_cases (poolLinearization capacity) state .consumer
  · exact ⟨congrArg ConsumerLocation.held same,
      congrArg ConsumerLocation.undecoded same⟩
  · have recycled := owned.recycled
    change (queueView state).consumer = next value at decided
    change consumerAction order state.consumer = .call call next at action
    rw [decided] at recycled ⊢
    cases at_ : state.consumer with
    | emptyTest =>
        rw [at_] at action
        cases action
        cases outcome
    | take =>
        rw [at_] at action
        cases action
        obtain rfl : value = none := pop_outcome_fails outcome
        exact ⟨rfl, rfl⟩
    | recycle idx =>
        rw [at_] at action
        cases action
        obtain rfl : value = false := push_outcome_fails outcome
        exact absurd rfl recycled
    | _ =>
        rw [at_] at action
        cases action

/-! ## The bytes of a slot -/

/-- The server writes a slot only while it holds the index, before publishing. -/
theorem server_effect_slots {server next : ServerLocation} {memory after : Memory}
    {input : Input} {effect : Memory → Input → Option (Memory × ServerLocation)}
    (action : serverAction server = .memory effect)
    (result : effect memory input = some (after, next)) :
    after.slots = memory.slots ∨ ∃ events idx datagram batch,
      server = .copySlot events idx datagram batch ∧
        after.slots = Function.update memory.slots idx (bufferFrame datagram) := by
  obtain ⟨slots, -⟩ | rfl | ⟨events, idx, datagram, batch, at_, rfl⟩ :=
    server_effect_cases action result
  · exact .inl slots
  · exact .inl rfl
  · exact .inr ⟨events, idx, datagram, batch, at_, rfl⟩

theorem consumer_effect_slots {consumer next : ConsumerLocation}
    {memory after : Memory} {input : Input}
    {effect : Memory → Input → Option (Memory × ConsumerLocation)}
    (action : consumerAction order consumer = .memory effect)
    (result : effect memory input = some (after, next)) :
    after.slots = memory.slots := by
  cases consumer <;> cases action <;> cases result <;> rfl

theorem step_slots {state next : State order capacity} {label : Thread × Input}
    (taken : fineStep (program order) state label = some next) :
    next.memory.slots = state.memory.slots ∨ ∃ events idx datagram batch,
      state.server = .copySlot events idx datagram batch ∧
        next.memory.slots =
          Function.update state.memory.slots idx (bufferFrame datagram) := by
  obtain ⟨thread, input⟩ := label
  unfold fineStep at taken
  cases action : (program order).action thread (state.location thread) with
  | halt => simp [action] at taken
  | call call nextLocation =>
      simp only [action, Option.some.injEq] at taken
      subst taken
      exact .inl rfl
  | memory effect =>
      simp only [action, Option.map_eq_some_iff] at taken
      obtain ⟨⟨memory, location⟩, result, rfl⟩ := taken
      cases thread with
      | server => exact server_effect_slots action result
      | consumer => exact .inl (consumer_effect_slots action result)
      | control => exact .inl (control_effect_frame action result).1

/-- The indices between their `ready.push` and their `free.push`. -/
def published (state : State order capacity) : List Nat :=
  state.server.copied ++ (state.ring .ready).contents ++ state.consumer.held

theorem published_slot_unchanged {state next : State order capacity}
    {label : Thread × Input} (reached : Reaches (system order capacity) state)
    (taken : fineStep (program order) state label = some next) {idx : Nat}
    (member : idx ∈ published state) :
    next.memory.slots idx = state.memory.slots idx := by
  obtain same | ⟨events, written, datagram, batch, at_, slots⟩ := step_slots taken
  · rw [same]
  · have owned := view_owned reached
    obtain ⟨serverHeld, -⟩ := server_of_view owned
      (unrefused_of_reaches (reaches_alone reached) .server)
    obtain ⟨consumerHeld, -⟩ := consumer_of_view owned
    have held : written ∈ (queueView state).server.held := by
      rw [serverHeld, at_]
      exact List.mem_singleton_self written
    obtain ⟨notReady, notConsumed⟩ := server_held_apart owned held
    rw [slots]
    refine Function.update_of_ne ?_ _ _
    rintro rfl
    unfold published at member
    rw [at_] at member
    rcases List.mem_append.mp member with ready | consumed
    · exact notReady ready
    · rw [consumerHeld] at notConsumed
      exact notConsumed consumed

/-! ## Engine v1 -/

/-- In every interleaving every index has one place, `ready.push` never fails,
only the consumer pushes to the free ring, a published slot keeps its bytes, and
frames are decoded in the order in which their datagrams were accepted. -/
theorem slot_ownership_and_fifo_delivery (order : ByteOrder)
    (state : State order kPoolCapacity)
    (reached : Reaches (system order kPoolCapacity) state) :
    ((state.ring .free).contents ++ (state.ring .ready).contents ++
        state.server.held ++ state.consumer.held).Perm (List.range 4096) ∧
      state.server.refused = false ∧
      (∀ thread call next,
        (program order).action thread (state.location thread) = .call call next →
        call.claims = (.producer, .free) → thread = .consumer) ∧
      (∀ label next, fineStep (program order) state label = some next →
        ∀ idx ∈ published state,
          next.memory.slots idx = state.memory.slots idx) ∧
      state.memory.session.decoded.map Vector.toList <+: state.memory.accepted ∧
      state.memory.accepted.Sublist state.memory.obtained ∧
      (∀ datagram ∈ state.memory.accepted, datagram.length = kWireSize) := by
  have owned := view_owned reached
  have unrefused := unrefused_of_reaches (reaches_alone reached)
  obtain ⟨serverHeld, serverCopied⟩ := server_of_view owned (unrefused .server)
  obtain ⟨consumerHeld, -⟩ := consumer_of_view owned
  have full : ∀ datagram ∈ state.memory.accepted, datagram.length = kWireSize :=
    fun datagram member => owned.full_length datagram (List.mem_append_left _ member)
  refine ⟨?_, unrefused .server, ?_, ?_, ?_, ?_, full⟩
  · have placed := owned.placed
    unfold places at placed
    rw [serverHeld, consumerHeld] at placed
    exact placed
  · intro thread call next action claims
    have own := call_claims_own_end (unrefused thread) action
    rw [claims] at own
    exact own.symm
  · intro label next taken idx member
    exact published_slot_unchanged reached taken member
  · have bytes : state.memory.accepted =
        (state.memory.accepted.map bufferFrame).map Vector.toList := by
      rw [List.map_map]
      conv_lhs => rw [← List.map_id state.memory.accepted]
      apply List.map_congr_left
      intro datagram member
      exact (buffer_frame_to_list (full datagram member)).symm
    have flow : state.memory.accepted.map bufferFrame =
        state.memory.session.decoded ++ _ := owned.flow
    rw [bytes, flow, List.map_append]
    exact List.prefix_append _ _
  · obtain ⟨handled, split, sublist⟩ := owned.arrival
    change state.memory.obtained = _ at split
    rw [split, List.append_assoc]
    exact sublist.trans (List.sublist_append_left _ _)

/-- The engine right after `init` on a zeroed pool. -/
def freshState : State .little kPoolCapacity where
  shared
    | .free => ⟨0, kPoolCapacity.size, fun cell => cell.val⟩
    | .ready => ⟨0, 0, fun _ => 0⟩
  memory := startMemory fun _ => Vector.replicate kWireSize 0
  location
    | .server => ServerLocation.loopTest
    | .consumer => ConsumerLocation.loopTest
    | .control => ControlLocation.clearRunning
  pc := fun _ => none

theorem fresh_state_start : Start freshState := by
  refine ⟨⟨fun _ => ⟨0, 0, fun _ => 0⟩, ?_⟩, ⟨_, rfl⟩, rfl, rfl, rfl, fun _ => rfl⟩
  funext name
  cases name with
  | free => exact (init_free_eq _).symm
  | ready => rfl

/-- One datagram of 44 bytes arrives, is published and is decoded. -/
def oneDatagramRun : Option (State .little kPoolCapacity) :=
  runLabels (system .little kPoolCapacity) freshState
    (ticks .server 1 ++ epollReply (.events (.socket false) []) ++ ticks .server 1 ++
      recvReply (.batch (List.replicate 44 7) []) ++ ticks .server 12 ++
      ticks .consumer 7)

theorem one_datagram_delivered :
    ∃ state, oneDatagramRun = some state ∧
      state.memory.session.decoded.length = 1 ∧
      state.memory.session.decoded.map Vector.toList <+: state.memory.accepted ∧
      ((state.ring .free).contents ++ (state.ring .ready).contents ++
        state.server.held ++ state.consumer.held).Perm (List.range 4096) := by
  obtain ⟨state, run⟩ : ∃ state, oneDatagramRun = some state :=
    Option.isSome_iff_exists.mp rfl
  have facts := slot_ownership_and_fifo_delivery .little state
    (reaches_run (reaches_start fresh_state_start) run)
  have final : state = oneDatagramRun.get rfl := by simp [run]
  refine ⟨state, run, ?_, facts.2.2.2.2.1, facts.1⟩
  subst final
  rfl

end MarketDataEngine.EngineV1
