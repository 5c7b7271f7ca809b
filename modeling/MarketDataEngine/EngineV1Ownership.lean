import MarketDataEngine.EngineV1Model

/-!
# Slot ownership and delivery in engine v1

One invariant closes the circle. Over atomic queues every index has one place,
so the ready ring is never full when the server publishes, so the server never
gives an index back, so each end of each ring belongs to one thread. Then no two
conflicting ring calls overlap, and every interleaving of the micro-steps is a
run over atomic queues.
-/

namespace MarketDataEngine.EngineV1

open MarketDataEngine.Protocol MarketDataEngine.Containers MarketDataEngine.Engine
open MarketDataEngine.TransitionSystem MarketDataEngine.SteppedObject

set_option autoImplicit false

variable {order : ByteOrder} {capacity : Capacity}

namespace ServerLocation

/-- The server's local `idx`. -/
def held : ServerLocation → List Nat
  | .copySlot _ idx _ _ => [idx]
  | .publish _ idx _ => [idx]
  | .dropRefused _ idx _ => [idx]
  | .giveBack _ idx _ => [idx]
  | _ => []

/-- `ready.push` has returned false. -/
def refused : ServerLocation → Bool
  | .dropRefused _ _ _ => true
  | .giveBack _ _ _ => true
  | _ => false

/-- The slot is filled and its index not yet published. -/
def copied : ServerLocation → List Nat
  | .publish _ idx _ => [idx]
  | _ => []

/-- A datagram that passed the length test. -/
def checked : ServerLocation → List Datagram
  | .takeSlot _ datagram _ => [datagram]
  | .copySlot _ _ datagram _ => [datagram]
  | _ => []

/-- The datagrams behind the ones already checked. -/
def waiting : ServerLocation → List Datagram
  | .inspect _ batch => batch
  | .dropInvalid _ batch => batch
  | .takeSlot _ _ batch => batch
  | .dropNoSlot _ batch => batch
  | .copySlot _ _ _ batch => batch
  | .publish _ _ batch => batch
  | .dropRefused _ _ batch => batch
  | .giveBack _ _ batch => batch
  | _ => []

end ServerLocation

namespace ConsumerLocation

/-- The consumer's local `idx`. -/
def held : ConsumerLocation → List Nat
  | .stage idx _ => [idx]
  | .recycle idx => [idx]
  | _ => []

def undecoded : ConsumerLocation → List Nat
  | .stage idx .decode => [idx]
  | _ => []

end ConsumerLocation

/-- Every index the engine can see, place by place. -/
def places (queues : PoolRing → List Nat) (server : ServerLocation)
    (consumer : ConsumerLocation) : List Nat :=
  queues .free ++ queues .ready ++ server.held ++ consumer.held

structure Owned (capacity : Capacity) (queues : PoolRing → List Nat)
    (memory : Memory) (server : ServerLocation) (consumer : ConsumerLocation) :
    Prop where
  placed : (places queues server consumer).Perm (List.range capacity.val)
  published : server.refused = false
  recycled : consumer ≠ .recycled false
  /-- The accepted datagrams are the decoded ones and then, oldest first, those
  whose slots are on their way to the decoder. -/
  flow : memory.accepted.map bufferFrame = memory.session.decoded ++
    (consumer.undecoded ++ queues .ready ++ server.copied).map memory.slots
  full_length : ∀ datagram ∈ memory.accepted ++ server.checked,
    datagram.length = kWireSize
  arrival : ∃ handled, memory.obtained = handled ++ server.checked ++ server.waiting ∧
    memory.accepted.Sublist handled

section Places

variable {queues : PoolRing → List Nat} {memory : Memory}
variable {server : ServerLocation} {consumer : ConsumerLocation}

theorem places_length (owned : Owned capacity queues memory server consumer) :
    (queues .free).length + (queues .ready).length + server.held.length +
      consumer.held.length = capacity.val := by
  have length := owned.placed.length_eq
  simpa only [places, List.length_append, List.length_range] using length

/-- What the server holds is nowhere else. -/
theorem server_held_apart (owned : Owned capacity queues memory server consumer)
    {idx : Nat} (held : idx ∈ server.held) :
    idx ∉ queues .ready ∧ idx ∉ consumer.held := by
  have nodup : (places queues server consumer).Nodup :=
    owned.placed.nodup_iff.mpr List.nodup_range
  unfold places at nodup
  rw [List.nodup_append, List.nodup_append] at nodup
  obtain ⟨⟨-, -, ringsApart⟩, -, consumerApart⟩ := nodup
  refine ⟨?_, ?_⟩
  · intro ready
    exact ringsApart idx (List.mem_append_right _ ready) idx held rfl
  · intro consumed
    exact consumerApart idx (List.mem_append_right _ held) idx consumed rfl

theorem undecoded_subset_held (consumer : ConsumerLocation) :
    consumer.undecoded ⊆ consumer.held := by
  cases consumer with
  | stage idx point => cases point <;> simp [ConsumerLocation.undecoded,
      ConsumerLocation.held]
  | _ => exact fun _ member => absurd member List.not_mem_nil

end Places

/-! ## The server thread -/

theorem msg_len_full {datagram : Datagram}
    (valid : ¬ (truncated datagram || msgLen datagram != kWireSize) = true) :
    datagram.length = kWireSize := by
  simp only [truncated, msgLen, kBufSize, kWireSize, Bool.or_eq_true,
    bne_iff_ne, ne_eq, not_or, not_not] at valid ⊢
  omega

theorem buffer_frame_to_list {datagram : Datagram}
    (full : datagram.length = kWireSize) :
    (bufferFrame datagram).toList = datagram := by
  apply List.ext_getElem
  · simp [full]
  · intro position inFrame inDatagram
    simp [bufferFrame, inDatagram]

section Server

variable {queues : PoolRing → List Nat} {memory : Memory}
variable {server : ServerLocation} {consumer : ConsumerLocation}

/-- A step of the server that moves no index and copies no frame. Datagrams may
come in (`fresh`) or be done with (`settled`). -/
theorem owned_server_quiet {after : Memory} {next : ServerLocation}
    (fresh settled : List Datagram)
    (owned : Owned capacity queues memory server consumer)
    (held : next.held = server.held) (published : next.refused = false)
    (copied : next.copied = server.copied) (slots : after.slots = memory.slots)
    (accepted : after.accepted = memory.accepted)
    (decoded : after.session.decoded = memory.session.decoded)
    (full : ∀ datagram ∈ next.checked, datagram.length = kWireSize)
    (obtained : after.obtained = memory.obtained ++ fresh)
    (moved : server.checked ++ server.waiting ++ fresh =
      settled ++ next.checked ++ next.waiting) :
    Owned capacity queues after next consumer where
  placed := by
    unfold places
    rw [held]
    exact owned.placed
  published := published
  recycled := owned.recycled
  flow := by
    rw [accepted, decoded, copied, slots]
    exact owned.flow
  full_length := by
    intro datagram member
    rw [accepted] at member
    rcases List.mem_append.mp member with earlier | current
    · exact owned.full_length datagram (List.mem_append_left _ earlier)
    · exact full datagram current
  arrival := by
    obtain ⟨handled, split, sublist⟩ := owned.arrival
    refine ⟨handled ++ settled, ?_, ?_⟩
    · rw [obtained, split]
      simp only [List.append_assoc] at moved ⊢
      rw [moved]
    · rw [accepted]
      exact sublist.trans (List.sublist_append_left _ _)

theorem owned_take_slot {events : List SocketEvent} {datagram : Datagram}
    {batch : List Datagram}
    (owned : Owned capacity queues memory (.takeSlot events datagram batch) consumer) :
    Owned capacity (fifoExec capacity queues (.pop .free)).1 memory
      (takeReturned events datagram batch
        (fifoExec capacity queues (.pop .free)).2) consumer := by
  have full := owned.full_length datagram (by simp [ServerLocation.checked])
  simp only [fifoExec]
  cases free : queues .free with
  | nil =>
      have unchanged : Function.update queues .free (fifoPop ([] : List Nat)).1 =
          queues := by
        rw [show (fifoPop ([] : List Nat)).1 = queues .free from free.symm]
        exact Function.update_eq_self _ _
      rw [unchanged]
      exact owned_server_quiet [] [datagram] owned rfl rfl rfl rfl rfl rfl
        (fun _ member => absurd member List.not_mem_nil)
        (List.append_nil _).symm (List.append_nil _)
  | cons idx rest =>
      have placed := owned.placed
      refine ⟨?_, rfl, owned.recycled, owned.flow, owned.full_length, owned.arrival⟩
      refine List.Perm.trans (List.perm_iff_count.mpr fun value => ?_) placed
      simp only [places, free, fifoPop, takeReturned, ServerLocation.held,
        Function.update_self, ne_eq, reduceCtorEq, not_false_eq_true,
        Function.update_of_ne, List.count_append, List.count_cons, List.count_nil]
      omega

theorem owned_copy_slot {events : List SocketEvent} {idx : Nat} {datagram : Datagram}
    {batch : List Datagram}
    (owned : Owned capacity queues memory (.copySlot events idx datagram batch)
      consumer) :
    Owned capacity queues (memory.copy idx datagram) (.publish events idx batch)
      consumer := by
  obtain ⟨notReady, notConsumed⟩ := server_held_apart owned
    (show idx ∈ [idx] from List.mem_singleton_self idx)
  refine ⟨owned.placed, rfl, owned.recycled, ?_, ?_, ?_⟩
  · have untouched : (consumer.undecoded ++ queues .ready).map
        (memory.copy idx datagram).slots =
          (consumer.undecoded ++ queues .ready).map memory.slots := by
      apply List.map_congr_left
      intro other member
      refine Function.update_of_ne ?_ _ _
      rintro rfl
      rcases List.mem_append.mp member with pending | ready
      · exact notConsumed (undecoded_subset_held consumer pending)
      · exact notReady ready
    have flow := owned.flow
    simp only [ServerLocation.copied, List.append_nil] at flow ⊢
    rw [List.map_append, untouched, ← List.append_assoc]
    simp only [Memory.copy, List.map_append, List.map_cons, List.map_nil,
      Function.update_self]
    rw [flow, List.map_append]
  · intro other member
    simpa [ServerLocation.checked, Memory.copy] using owned.full_length other
      (by simpa [ServerLocation.checked, Memory.copy] using member)
  · obtain ⟨handled, split, sublist⟩ := owned.arrival
    exact ⟨handled ++ [datagram], by
      simpa [ServerLocation.checked, ServerLocation.waiting, Memory.copy] using split,
      sublist.append_right [datagram]⟩

/-- The index in the server's hand leaves room in the ready ring. -/
theorem owned_publish {events : List SocketEvent} {idx : Nat} {batch : List Datagram}
    (owned : Owned capacity queues memory (.publish events idx batch) consumer) :
    Owned capacity (fifoExec capacity queues (.push .ready idx)).1 memory
      (publishReturned events idx batch
        (fifoExec capacity queues (.push .ready idx)).2) consumer := by
  have lengths := places_length owned
  have room : ¬ (queues .ready).length = capacity.val := by
    simp only [ServerLocation.held, List.length_cons, List.length_nil] at lengths
    omega
  simp only [fifoExec, fifoPush, if_neg room]
  refine ⟨?_, rfl, owned.recycled, ?_, owned.full_length, owned.arrival⟩
  · refine List.Perm.trans (List.perm_iff_count.mpr fun value => ?_) owned.placed
    simp only [places, publishReturned, ServerLocation.held, ↓reduceIte,
      Function.update_self, ne_eq, reduceCtorEq, not_false_eq_true,
      Function.update_of_ne, List.count_append, List.count_cons, List.count_nil]
    omega
  · refine owned.flow.trans ?_
    simp [publishReturned, ServerLocation.copied]

theorem owned_server_step {input : Input} {nextQueues : PoolRing → List Nat}
    {after : Memory} {next : ServerLocation}
    (owned : Owned capacity queues memory server consumer)
    (step : queueStep capacity (serverAction server) queues memory input =
      some (nextQueues, after, next)) :
    Owned capacity nextQueues after next consumer := by
  have none_checked : ∀ datagram ∈ ([] : List Datagram), datagram.length = kWireSize :=
    fun _ member => absurd member List.not_mem_nil
  cases server with
  | loopTest =>
      cases step
      cases memory.handleRunning <;>
        exact owned_server_quiet [] [] owned rfl rfl rfl rfl rfl rfl none_checked
          (List.append_nil _).symm rfl
  | wait =>
      have quiet : ∀ location : ServerLocation, location = .loopTest ∨
          location = .leave ∨ (∃ events, location = .dispatch events) →
          Owned capacity queues memory location consumer := by
        rintro location (rfl | rfl | ⟨events, rfl⟩) <;>
          exact owned_server_quiet [] [] owned rfl rfl rfl rfl rfl rfl none_checked
            (List.append_nil _).symm rfl
      cases input with
      | tick => cases step
      | recv reply => cases step
      | epoll reply =>
          cases reply with
          | failed =>
              cases step
              exact quiet _ (.inr (.inl rfl))
          | interrupted =>
              cases step
              exact quiet _ (.inl rfl)
          | timeout =>
              cases step
              exact quiet _ (.inl rfl)
          | events first rest =>
              simp only [queueStep, actionStep, serverAction] at step
              split_ifs at step
              · cases step
                exact quiet _ (.inr (.inr ⟨_, rfl⟩))
              · cases step
  | dispatch events =>
      cases step
      cases events with
      | nil =>
          exact owned_server_quiet [] [] owned rfl rfl rfl rfl rfl rfl none_checked
            (List.append_nil _).symm rfl
      | cons event rest =>
          cases event with
          | wake =>
              exact owned_server_quiet [] [] owned rfl rfl rfl rfl rfl rfl
                none_checked (List.append_nil _).symm rfl
          | other =>
              exact owned_server_quiet [] [] owned rfl rfl rfl rfl rfl rfl
                none_checked (List.append_nil _).symm rfl
          | socket failed =>
              cases failed <;>
                exact owned_server_quiet [] [] owned rfl rfl rfl rfl rfl rfl
                  none_checked (List.append_nil _).symm rfl
  | receive events =>
      have quiet : ∀ location : ServerLocation, location = .receive events ∨
          location = .dispatch events →
          Owned capacity queues memory location consumer := by
        rintro location (rfl | rfl) <;>
          exact owned_server_quiet [] [] owned rfl rfl rfl rfl rfl rfl none_checked
            (List.append_nil _).symm rfl
      cases input with
      | tick => cases step
      | epoll reply => cases step
      | recv reply =>
          cases reply with
          | failed =>
              cases step
              exact quiet _ (.inr rfl)
          | interrupted =>
              cases step
              exact quiet _ (.inl rfl)
          | again =>
              cases step
              exact quiet _ (.inr rfl)
          | nothing =>
              cases step
              exact quiet _ (.inr rfl)
          | batch first rest =>
              simp only [queueStep, actionStep, serverAction, receiveReply] at step
              split_ifs at step
              · cases step
                exact owned_server_quiet (first :: rest) [] owned rfl rfl rfl rfl rfl
                  rfl none_checked rfl rfl
              · cases step
  | inspect events batch =>
      cases step
      cases batch with
      | nil =>
          exact owned_server_quiet [] [] owned rfl rfl rfl rfl rfl rfl none_checked
            (List.append_nil _).symm rfl
      | cons datagram batch =>
          simp only [inspectNext]
          split_ifs with invalid
          · exact owned_server_quiet [] [datagram] owned rfl rfl rfl rfl rfl rfl
              none_checked (List.append_nil _).symm (List.append_nil _)
          · refine owned_server_quiet [] [] owned rfl rfl rfl rfl rfl rfl ?_
              (List.append_nil _).symm (List.append_nil _)
            intro other member
            rw [List.mem_singleton.mp member]
            exact msg_len_full invalid
  | dropInvalid events batch =>
      cases step
      exact owned_server_quiet [] [] owned rfl rfl rfl rfl rfl rfl none_checked
        (List.append_nil _).symm (List.append_nil _)
  | takeSlot events datagram batch =>
      cases step
      exact owned_take_slot owned
  | dropNoSlot events batch =>
      cases step
      exact owned_server_quiet [] [] owned rfl rfl rfl rfl rfl rfl none_checked
        (List.append_nil _).symm (List.append_nil _)
  | copySlot events idx datagram batch =>
      cases step
      exact owned_copy_slot owned
  | publish events idx batch =>
      cases step
      exact owned_publish owned
  | dropRefused events idx batch => exact absurd owned.published Bool.true_eq_false.mp
  | giveBack events idx batch => exact absurd owned.published Bool.true_eq_false.mp
  | leave =>
      cases step
      exact owned_server_quiet [] [] owned rfl rfl rfl rfl rfl rfl none_checked
        (List.append_nil _).symm rfl
  | finished => cases step

end Server

/-! ## The consumer thread -/

section Consumer

variable {queues : PoolRing → List Nat} {memory : Memory}
variable {server : ServerLocation} {consumer : ConsumerLocation}

theorem owned_consumer_quiet {after : Memory} {next : ConsumerLocation}
    (owned : Owned capacity queues memory server consumer)
    (held : next.held = consumer.held) (recycled : next ≠ .recycled false)
    (undecoded : next.undecoded = consumer.undecoded)
    (slots : after.slots = memory.slots)
    (accepted : after.accepted = memory.accepted)
    (obtained : after.obtained = memory.obtained)
    (decoded : after.session.decoded = memory.session.decoded) :
    Owned capacity queues after server next where
  placed := by
    unfold places
    rw [held]
    exact owned.placed
  published := owned.published
  recycled := recycled
  flow := by
    rw [accepted, decoded, undecoded, slots]
    exact owned.flow
  full_length := by
    rw [accepted]
    exact owned.full_length
  arrival := by
    rw [accepted, obtained]
    exact owned.arrival

theorem owned_take
    (owned : Owned capacity queues memory server .take) :
    Owned capacity (fifoExec capacity queues (.pop .ready)).1 memory server
      (popReturned (fifoExec capacity queues (.pop .ready)).2) := by
  simp only [fifoExec]
  cases ready : queues .ready with
  | nil =>
      have unchanged : Function.update queues .ready (fifoPop ([] : List Nat)).1 =
          queues := by
        rw [show (fifoPop ([] : List Nat)).1 = queues .ready from ready.symm]
        exact Function.update_eq_self _ _
      rw [unchanged]
      exact owned_consumer_quiet owned rfl (by simp [fifoPop, popReturned]) rfl rfl rfl
        rfl rfl
  | cons idx rest =>
      refine ⟨?_, owned.published, by simp [fifoPop, popReturned], ?_,
        owned.full_length, owned.arrival⟩
      · refine List.Perm.trans (List.perm_iff_count.mpr fun value => ?_) owned.placed
        simp only [places, ready, fifoPop, popReturned, ConsumerLocation.held,
          Function.update_self, ne_eq, reduceCtorEq, not_false_eq_true,
          Function.update_of_ne, List.count_append, List.count_cons, List.count_nil]
        omega
      · have flow := owned.flow
        rw [ready] at flow
        refine flow.trans ?_
        simp [fifoPop, popReturned, ConsumerLocation.undecoded]

theorem undecoded_stage (idx : Nat) (point : StagePoint) :
    (ConsumerLocation.stage idx point).undecoded =
      if point = .decode then [idx] else [] := by
  cases point <;> rfl

/-- The consumer keeps its index through the stage, and its slot is decoded by
the first step. -/
theorem stage_next_facts (order : ByteOrder) (idx : Nat) (point : StagePoint) (memory : Memory) :
    (stageNext order idx point memory).2.held = [idx] ∧
      (stageNext order idx point memory).2.undecoded = [] ∧
      (stageNext order idx point memory).2 ≠ .recycled false := by
  have leaves := stage_step_leaves_decode order (memory.slots idx) memory.session point
  simp only [stageNext]
  cases after : (stageStep order (memory.slots idx) memory.session point).2 with
  | none => exact ⟨rfl, rfl, by simp⟩
  | some later =>
      rw [after] at leaves
      refine ⟨rfl, ?_, by simp⟩
      rw [undecoded_stage, if_neg (fun same => leaves (by rw [same]))]

theorem owned_stage {idx : Nat} {point : StagePoint}
    (owned : Owned capacity queues memory server (.stage idx point)) :
    Owned capacity queues (stageNext order idx point memory).1 server
      (stageNext order idx point memory).2 := by
  obtain ⟨held, undecoded, recycled⟩ := stage_next_facts order idx point memory
  refine ⟨?_, owned.published, recycled, ?_, owned.full_length, owned.arrival⟩
  · unfold places
    rw [held]
    exact owned.placed
  · have flow := owned.flow
    rw [undecoded_stage] at flow
    rw [undecoded]
    refine flow.trans ?_
    simp only [stageNext, stage_step_decoded]
    split_ifs <;> simp

theorem owned_recycle {idx : Nat}
    (owned : Owned capacity queues memory server (.recycle idx)) :
    Owned capacity (fifoExec capacity queues (.push .free idx)).1 memory server
      (.recycled (fifoExec capacity queues (.push .free idx)).2) := by
  have lengths := places_length owned
  have room : ¬ (queues .free).length = capacity.val := by
    simp only [ConsumerLocation.held, List.length_cons, List.length_nil] at lengths
    omega
  simp only [fifoExec, fifoPush, if_neg room]
  refine ⟨?_, owned.published, by simp, owned.flow, owned.full_length, owned.arrival⟩
  refine List.Perm.trans (List.perm_iff_count.mpr fun value => ?_) owned.placed
  simp only [places, ConsumerLocation.held, Function.update_self, ne_eq, reduceCtorEq,
    not_false_eq_true, Function.update_of_ne, List.count_append, List.count_cons,
    List.count_nil]
  omega

theorem owned_consumer_step {input : Input} {nextQueues : PoolRing → List Nat}
    {after : Memory} {next : ConsumerLocation}
    (owned : Owned capacity queues memory server consumer)
    (step : queueStep capacity (consumerAction order consumer) queues memory input =
      some (nextQueues, after, next)) :
    Owned capacity nextQueues after server next := by
  cases consumer with
  | loopTest =>
      cases step
      cases memory.running <;>
        exact owned_consumer_quiet owned rfl (by simp) rfl rfl rfl rfl rfl
  | emptyTest =>
      cases step
      show Owned capacity queues memory server
        (emptyReturned (queues .ready).isEmpty)
      cases (queues .ready).isEmpty <;>
        exact owned_consumer_quiet owned rfl (by simp [emptyReturned]) rfl rfl rfl rfl
          rfl
  | take =>
      cases step
      exact owned_take owned
  | stage idx point =>
      cases step
      exact owned_stage owned
  | recycle idx =>
      cases step
      exact owned_recycle owned
  | recycled ok =>
      cases step
      exact owned_consumer_quiet owned rfl (by simp) rfl rfl rfl rfl rfl
  | leave =>
      cases step
      exact owned_consumer_quiet owned rfl (by simp) rfl rfl rfl rfl rfl
  | finished => cases step

end Consumer

/-! ## Whole runs over atomic queues -/

def StateOwned (state : QueueState order capacity) : Prop :=
  Owned capacity state.queue state.memory state.server state.consumer

/-- Every slot is free and nothing has been received. -/
theorem owned_begin {queues : PoolRing → List Nat} {memory : Memory}
    (free : queues .free = List.range capacity.val) (ready : queues .ready = [])
    (obtained : memory.obtained = []) (accepted : memory.accepted = [])
    (decoded : memory.session.decoded = []) :
    Owned capacity queues memory .loopTest .loopTest := by
  refine ⟨?_, rfl, by simp, ?_, ?_, ?_⟩
  · unfold places
    rw [free, ready]
    simp [ServerLocation.held, ConsumerLocation.held]
  · rw [ready, accepted, decoded]
    rfl
  · rw [accepted]
    exact fun _ member => absurd member List.not_mem_nil
  · rw [obtained, accepted]
    exact ⟨[], rfl, List.nil_sublist _⟩

theorem owned_start {state : QueueState order capacity} (start : QueueStart state) :
    StateOwned state := by
  obtain ⟨free, ready, ⟨slots, memory⟩, server, consumer, -⟩ := start
  unfold StateOwned
  rw [memory, server, consumer]
  exact owned_begin free ready rfl rfl rfl

/-- `stop()` touches flags only. -/
theorem control_step_frame {queues nextQueues : PoolRing → List Nat}
    {memory after : Memory} {control next : ControlLocation} {input : Input}
    (step : queueStep capacity (controlAction control) queues memory input =
      some (nextQueues, after, next)) :
    nextQueues = queues ∧ after.slots = memory.slots ∧
      after.session = memory.session ∧ after.accepted = memory.accepted ∧
      after.obtained = memory.obtained := by
  cases control with
  | clearRunning =>
      cases step
      exact ⟨rfl, rfl, rfl, rfl, rfl⟩
  | exchange =>
      cases step
      exact ⟨rfl, rfl, rfl, rfl, rfl⟩
  | wake =>
      cases step
      exact ⟨rfl, rfl, rfl, rfl, rfl⟩
  | joinServer =>
      simp only [queueStep, actionStep, controlAction] at step
      split_ifs at step
      · cases step
        exact ⟨rfl, rfl, rfl, rfl, rfl⟩
      · cases step
  | joinConsumer =>
      simp only [queueStep, actionStep, controlAction] at step
      split_ifs at step
      · cases step
        exact ⟨rfl, rfl, rfl, rfl, rfl⟩
      · cases step
  | returned => cases step

theorem owned_step {state next : QueueState order capacity} {label : Thread × Input}
    (owned : StateOwned state)
    (taken : atomicStep (program order) state label = some next) :
    StateOwned next := by
  unfold StateOwned at owned ⊢
  cases moves_of_step taken with
  | server step consumer _ =>
      rw [consumer]
      exact owned_server_step owned step
  | consumer step server _ =>
      rw [server]
      exact owned_consumer_step owned step
  | control step server consumer =>
      obtain ⟨queues, slots, session, accepted, obtained⟩ := control_step_frame step
      rw [queues, server, consumer]
      have decoded : next.memory.session.decoded = state.memory.session.decoded := by
        rw [session]
      exact owned_consumer_quiet owned rfl owned.recycled rfl slots accepted obtained
        decoded

theorem owned_of_reaches {state : QueueState order capacity}
    (reached : Reaches (queueSystem order capacity) state) : StateOwned state := by
  refine invariant_of_step ?_ ?_ reached
  · exact fun _ start => owned_start start
  · intro state label next _ owned _ taken
    exact owned_step owned taken

end MarketDataEngine.EngineV1
