import MarketDataEngine.EngineV1Ownership

/-!
# The counters of engine v1

Over atomic queues every datagram that `recvmmsg` returned is counted once or in
flight: in the server's current batch, in the ready ring, or in the consumer's
hand. Counters are taken modulo 2^64.
-/

namespace MarketDataEngine.EngineV1

open MarketDataEngine.Protocol MarketDataEngine.Containers MarketDataEngine.Engine
open MarketDataEngine.TransitionSystem MarketDataEngine.SteppedObject

set_option autoImplicit false

variable {order : ByteOrder} {capacity : Capacity}

/-- The datagrams of the current batch not yet published or counted as dropped. -/
def ServerLocation.pending : ServerLocation → Nat
  | .inspect _ batch => batch.length
  | .dropInvalid _ batch => batch.length + 1
  | .takeSlot _ _ batch => batch.length + 1
  | .dropNoSlot _ batch => batch.length + 1
  | .copySlot _ _ _ batch => batch.length + 1
  | .publish _ _ batch => batch.length + 1
  | .dropRefused _ _ batch => batch.length + 1
  | .giveBack _ _ batch => batch.length
  | _ => 0

def ConsumerLocation.unclassified : ConsumerLocation → Nat
  | .stage _ _ => 1
  | _ => 0

def inFlight (queues : PoolRing → List Nat) (server : ServerLocation)
    (consumer : ConsumerLocation) : Nat :=
  (queues .ready).length + consumer.unclassified + server.pending

/-- Every datagram obtained is counted or in flight. -/
def Accounted (queues : PoolRing → List Nat) (memory : Memory)
    (server : ServerLocation) (consumer : ConsumerLocation) : Prop :=
  UInt64.ofNat memory.obtained.length = memory.session.metrics.settled +
    UInt64.ofNat (inFlight queues server consumer)

section Steps

variable {queues nextQueues : PoolRing → List Nat} {memory after : Memory}
variable {server nextServer : ServerLocation}
variable {consumer nextConsumer : ConsumerLocation}

theorem accounted_of_moves (accounted : Accounted queues memory server consumer)
    (session : after.session = memory.session)
    (obtained : after.obtained = memory.obtained)
    (flight : inFlight nextQueues nextServer nextConsumer =
      inFlight queues server consumer) :
    Accounted nextQueues after nextServer nextConsumer := by
  unfold Accounted
  rw [session, obtained, flight]
  exact accounted

theorem accounted_drop (accounted : Accounted queues memory server consumer)
    (flight : inFlight queues nextServer consumer + 1 =
      inFlight queues server consumer) :
    Accounted queues memory.dropOne nextServer consumer := by
  show UInt64.ofNat memory.obtained.length =
    (memory.session.metrics.incDrops 1).settled + _
  rw [show UInt64.ofNat memory.obtained.length = _ from accounted]
  refine Metrics.settled_takes_off _ 0 ?_ flight.symm (Nat.add_zero _).symm
  rw [Metrics.settled_inc_drops]
  exact UInt64.add_zero _

theorem accounted_batch {events : List SocketEvent} {batch : List Datagram}
    (accounted : Accounted queues memory (.receive events) consumer) :
    Accounted queues { memory with obtained := memory.obtained ++ batch }
      (.inspect events batch) consumer := by
  unfold Accounted at accounted ⊢
  simp only [inFlight, ServerLocation.pending, List.length_append, Nat.add_zero,
    UInt64.ofNat_add] at accounted ⊢
  rw [accounted, UInt64.add_assoc]

theorem accounted_take_slot (capacity : Capacity) {events : List SocketEvent}
    {datagram : Datagram} {batch : List Datagram}
    (accounted : Accounted queues memory (.takeSlot events datagram batch) consumer) :
    Accounted (fifoExec capacity queues (.pop .free)).1 memory
      (takeReturned events datagram batch
        (fifoExec capacity queues (.pop .free)).2) consumer := by
  refine accounted_of_moves accounted rfl rfl ?_
  simp only [fifoExec, inFlight, ne_eq, reduceCtorEq, not_false_eq_true,
    Function.update_of_ne]
  cases queues .free <;> rfl

theorem accounted_publish {events : List SocketEvent} {idx : Nat}
    {batch : List Datagram}
    (accounted : Accounted queues memory (.publish events idx batch) consumer) :
    Accounted (fifoExec capacity queues (.push .ready idx)).1 memory
      (publishReturned events idx batch
        (fifoExec capacity queues (.push .ready idx)).2) consumer := by
  simp only [fifoExec, fifoPush]
  split_ifs
  · refine accounted_of_moves accounted rfl rfl ?_
    simp [inFlight, publishReturned, ServerLocation.pending]
  · refine accounted_of_moves accounted rfl rfl ?_
    simp only [inFlight, publishReturned, ServerLocation.pending, ↓reduceIte,
      Function.update_self, List.length_append, List.length_singleton]
    omega

theorem accounted_free_push {idx : Nat}
    (accounted : Accounted queues memory server consumer)
    (pending : nextServer.pending = server.pending)
    (unclassified : nextConsumer.unclassified = consumer.unclassified) :
    Accounted (fifoExec capacity queues (.push .free idx)).1 memory nextServer
      nextConsumer := by
  refine accounted_of_moves accounted rfl rfl ?_
  simp only [inFlight, fifoExec, pending, unclassified, ne_eq, reduceCtorEq,
    not_false_eq_true, Function.update_of_ne]

theorem accounted_server_step {input : Input}
    (accounted : Accounted queues memory server consumer)
    (step : queueStep capacity (serverAction server) queues memory input =
      some (nextQueues, after, nextServer)) :
    Accounted nextQueues after nextServer consumer := by
  have quiet : ∀ location : ServerLocation, location.pending = server.pending →
      Accounted queues memory location consumer := by
    intro location same
    refine accounted_of_moves accounted rfl rfl ?_
    unfold inFlight
    rw [same]
  cases server with
  | loopTest =>
      cases step
      cases memory.handleRunning <;> exact quiet _ rfl
  | wait =>
      cases input with
      | epoll reply =>
          cases reply with
          | events first rest =>
              simp only [queueStep, actionStep, serverAction] at step
              split_ifs at step
              · cases step
                exact quiet _ rfl
              · cases step
          | _ =>
              cases step
              exact quiet _ rfl
      | _ => cases step
  | dispatch events =>
      cases step
      cases events with
      | nil => exact quiet _ rfl
      | cons event rest =>
          cases event with
          | wake => exact accounted_of_moves accounted rfl rfl rfl
          | other => exact quiet _ rfl
          | socket failed =>
              cases failed <;> exact accounted_of_moves accounted rfl rfl rfl
  | receive events =>
      cases input with
      | recv reply =>
          cases reply with
          | batch first rest =>
              simp only [queueStep, actionStep, serverAction, receiveReply] at step
              split_ifs at step
              · cases step
                exact accounted_batch accounted
              · cases step
          | _ =>
              cases step
              exact quiet _ rfl
      | _ => cases step
  | inspect events batch =>
      cases step
      cases batch with
      | nil => exact quiet _ rfl
      | cons datagram batch =>
          simp only [inspectNext]
          split_ifs
          · exact quiet _ rfl
          · exact quiet _ rfl
  | dropInvalid events batch =>
      cases step
      exact accounted_drop accounted rfl
  | takeSlot events datagram batch =>
      cases step
      exact accounted_take_slot capacity accounted
  | dropNoSlot events batch =>
      cases step
      exact accounted_drop accounted rfl
  | copySlot events idx datagram batch =>
      cases step
      exact accounted_of_moves accounted rfl rfl rfl
  | publish events idx batch =>
      cases step
      exact accounted_publish accounted
  | dropRefused events idx batch =>
      cases step
      exact accounted_drop accounted rfl
  | giveBack events idx batch =>
      cases step
      exact accounted_free_push accounted rfl rfl
  | leave =>
      cases step
      exact accounted_of_moves accounted rfl rfl rfl
  | finished => cases step

theorem accounted_take (capacity : Capacity)
    (accounted : Accounted queues memory server .take) :
    Accounted (fifoExec capacity queues (.pop .ready)).1 memory server
      (popReturned (fifoExec capacity queues (.pop .ready)).2) := by
  refine accounted_of_moves accounted rfl rfl ?_
  simp only [fifoExec, inFlight, Function.update_self]
  cases queues .ready with
  | nil => rfl
  | cons idx rest =>
      simp only [fifoPop, popReturned, ConsumerLocation.unclassified, List.length_cons]

theorem accounted_stage {idx : Nat} {point : StagePoint}
    (accounted : Accounted queues memory server (.stage idx point)) :
    Accounted queues (stageNext order idx point memory).1 server
      (stageNext order idx point memory).2 := by
  have settles := stage_step_settles order (memory.slots idx) memory.session point
  have later : (stageNext order idx point memory).2.unclassified =
      (stageStep order (memory.slots idx) memory.session point).2.toList.length := by
    simp only [stageNext]
    cases (stageStep order (memory.slots idx) memory.session point).2 <;> rfl
  show UInt64.ofNat memory.obtained.length = _
  rw [show UInt64.ofNat memory.obtained.length = _ from accounted]
  refine Metrics.settled_takes_off ((queues .ready).length + server.pending) _ settles
    ?_ ?_
  · simp only [inFlight, ConsumerLocation.unclassified]
    omega
  · unfold inFlight
    rw [later]
    omega

theorem accounted_consumer_step {input : Input}
    (accounted : Accounted queues memory server consumer)
    (step : queueStep capacity (consumerAction order consumer) queues memory input =
      some (nextQueues, after, nextConsumer)) :
    Accounted nextQueues after server nextConsumer := by
  have quiet : ∀ location : ConsumerLocation,
      location.unclassified = consumer.unclassified →
      Accounted queues memory server location := by
    intro location same
    refine accounted_of_moves accounted rfl rfl ?_
    unfold inFlight
    rw [same]
  cases consumer with
  | loopTest =>
      cases step
      cases memory.running <;> exact quiet _ rfl
  | emptyTest =>
      cases step
      show Accounted queues memory server (emptyReturned (queues .ready).isEmpty)
      cases (queues .ready).isEmpty <;> exact quiet _ rfl
  | take =>
      cases step
      exact accounted_take capacity accounted
  | stage idx point =>
      cases step
      exact accounted_stage accounted
  | recycle idx =>
      cases step
      exact accounted_free_push accounted rfl rfl
  | recycled ok =>
      cases step
      exact quiet _ rfl
  | leave =>
      cases step
      exact accounted_of_moves accounted rfl rfl rfl
  | finished => cases step

end Steps

def StateAccounted (state : QueueState order capacity) : Prop :=
  Accounted state.queue state.memory state.server state.consumer

theorem accounted_start {state : QueueState order capacity} (start : QueueStart state) :
    StateAccounted state := by
  obtain ⟨-, ready, ⟨slots, memory⟩, server, consumer, -⟩ := start
  unfold StateAccounted Accounted inFlight
  rw [memory, server, consumer, ready]
  rfl

theorem accounted_step {state next : QueueState order capacity}
    {label : Thread × Input} (accounted : StateAccounted state)
    (taken : atomicStep (program order) state label = some next) :
    StateAccounted next := by
  unfold StateAccounted at accounted ⊢
  cases moves_of_step taken with
  | server step consumer _ =>
      rw [consumer]
      exact accounted_server_step accounted step
  | consumer step server _ =>
      rw [server]
      exact accounted_consumer_step accounted step
  | control step server consumer =>
      obtain ⟨queues, -, session, -, obtained⟩ := control_step_frame step
      rw [queues, server, consumer]
      exact accounted_of_moves accounted session obtained rfl

theorem accounted_of_reaches {state : QueueState order capacity}
    (reached : Reaches (queueSystem order capacity) state) : StateAccounted state := by
  refine invariant_of_step ?_ ?_ reached
  · exact fun _ start => accounted_start start
  · intro state label next _ accounted _ taken
    exact accounted_step accounted taken

end MarketDataEngine.EngineV1
