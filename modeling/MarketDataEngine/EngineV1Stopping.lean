import MarketDataEngine.EngineShutdown
import MarketDataEngine.ReporterJoin

/-!
# Engine v1: what `stop()` waits for

With both flags cleared the server thread leaves its outer loop, but the inner loop around
`recvmmsg` tests no flag: it ends when the socket has run dry. So the steps that `stop()` waits for
are bounded by what is on the way through the engine and by the datagrams that still arrive. The
join of the reporter waits for the end of a report and for the timer besides. An operation on a
ring is one step.
-/

namespace MarketDataEngine.EngineV1

open MarketDataEngine.Protocol MarketDataEngine.Containers MarketDataEngine.Engine
open MarketDataEngine.TransitionSystem MarketDataEngine.SteppedObject

set_option autoImplicit false

variable {order : ByteOrder} {capacity : Capacity}

/-! ## What is left to do -/

/-- The rest of the events and of the outer loop, from a `recvmmsg` on. -/
def receiveSteps (events : List SocketEvent) : Nat := 2 * events.length + 4

/-- As above, behind the datagrams of a batch, of at most six steps each. -/
def inspectSteps (events : List SocketEvent) (batch : List Datagram) : Nat :=
  6 * batch.length + 1 + receiveSteps events

namespace ServerLocation

/-- The steps the server thread may still take once its flag is cleared and no datagram comes. -/
def steps : ServerLocation → Nat
  | .loopTest => 2
  | .wait => 2 * kMaxEvents + 4
  | .dispatch events => 2 * events.length + 3
  | .receive events => receiveSteps events
  | .inspect events batch => inspectSteps events batch
  | .dropInvalid events batch => inspectSteps events batch + 1
  | .takeSlot events _ batch => inspectSteps events batch + 5
  | .dropNoSlot events batch => inspectSteps events batch + 1
  | .copySlot events _ _ batch => inspectSteps events batch + 4
  | .publish events _ batch => inspectSteps events batch + 3
  | .dropRefused events _ batch => inspectSteps events batch + 2
  | .giveBack events _ batch => inspectSteps events batch + 1
  | .leave => 1
  | .finished => 0

/-- The datagrams of its batch that the server thread may still publish. -/
def ahead : ServerLocation → Nat
  | .inspect _ batch => batch.length
  | .dropInvalid _ batch => batch.length
  | .takeSlot _ _ batch => batch.length + 1
  | .dropNoSlot _ batch => batch.length
  | .copySlot _ _ _ batch => batch.length + 1
  | .publish _ _ batch => batch.length + 1
  | .dropRefused _ _ batch => batch.length
  | .giveBack _ _ batch => batch.length
  | _ => 0

def events : ServerLocation → List SocketEvent
  | .dispatch events => events
  | .receive events => events
  | .inspect events _ => events
  | .dropInvalid events _ => events
  | .takeSlot events _ _ => events
  | .dropNoSlot events _ => events
  | .copySlot events _ _ _ => events
  | .publish events _ _ => events
  | .dropRefused events _ _ => events
  | .giveBack events _ _ => events
  | _ => []

end ServerLocation

/-- The steps the consumer may still take but for the frames that wait for it. -/
def ConsumerLocation.steps (waiting : Nat) : ConsumerLocation → Nat
  | .loopTest => 3
  | .emptyTest => 2
  | .take => if waiting = 0 then 4 else 1
  | .stage _ point => point.steps + 5
  | .recycle _ => 5
  | .recycled _ => 4
  | .leave => 1
  | .finished => 0

def ControlLocation.steps : ControlLocation → Nat
  | .clearRunning => 5
  | .exchange => 4
  | .wake => 3
  | .joinServer => 2
  | .joinConsumer => 1
  | .returned => 0

/-- What a frame costs the consumer. -/
def kFrameSteps : Nat := 9

/-- What an answer of `recvmmsg` adds: the work on its datagrams, or another call. -/
def laterSteps : Thread × Input → Nat
  | (.server, .recv (.batch _ rest)) => 17 * (rest.length + 1)
  | (.server, .recv .interrupted) => 1
  | _ => 0

/-! ## Every step is paid for -/

section Steps

variable {queues nextQueues : PoolRing → List Nat} {memory after : Memory} {input : Input}

/-- What a step of the server thread does once its flag is cleared. -/
structure ServerPaid (queues nextQueues : PoolRing → List Nat) (memory after : Memory)
    (server next : ServerLocation) (gain : Nat) : Prop where
  running : after.running = memory.running
  stopped : after.handleRunning = false
  less : next.steps + kFrameSteps * ((nextQueues .ready).length + next.ahead) <
    server.steps + kFrameSteps * ((queues .ready).length + server.ahead) + gain
  grows : (queues .ready).length ≤ (nextQueues .ready).length

theorem server_paid_quiet {server next : ServerLocation} {gain : Nat}
    (running : after.running = memory.running) (stopped : after.handleRunning = false)
    (ready : nextQueues .ready = queues .ready) (less : next.steps < server.steps)
    (ahead : next.ahead ≤ server.ahead) :
    ServerPaid queues nextQueues memory after server next gain := by
  constructor
  · exact running
  · exact stopped
  · rw [ready]
    have paid := Nat.mul_le_mul_left kFrameSteps
      (Nat.add_le_add_left ahead (queues .ready).length)
    omega
  · rw [ready]

theorem dispatch_paid {gain : Nat} (events : List SocketEvent)
    (stopped : memory.handleRunning = false) :
    ServerPaid queues queues memory (dispatchNext memory events).1 (.dispatch events)
      (dispatchNext memory events).2 gain := by
  cases events with
  | nil => exact server_paid_quiet rfl stopped rfl (Nat.lt_succ_self 2) (Nat.le_refl _)
  | cons event rest =>
      have less : 2 * rest.length + 4 < 2 * (rest.length + 1) + 3 := by omega
      cases event with
      | wake =>
          exact server_paid_quiet rfl rfl rfl (Nat.lt_of_succ_lt less) (Nat.le_refl _)
      | other =>
          exact server_paid_quiet rfl stopped rfl (Nat.lt_of_succ_lt less) (Nat.le_refl _)
      | socket failed =>
          cases failed with
          | true =>
              refine server_paid_quiet rfl rfl rfl ?_ (Nat.le_refl _)
              exact Nat.lt_of_le_of_lt (Nat.le_add_left 2 (2 * rest.length + 2)) less
          | false => exact server_paid_quiet rfl stopped rfl less (Nat.le_refl _)

/-- The answers of `recvmmsg`; only datagrams and interrupts lead back to it. -/
theorem receive_paid {events : List SocketEvent} {reply : RecvReply} {next : ServerLocation}
    (stopped : memory.handleRunning = false)
    (returned : receiveReply memory events reply = some (after, next)) :
    ServerPaid queues queues memory after (.receive events) next
      (laterSteps (.server, .recv reply)) := by
  cases reply with
  | batch first rest =>
      simp only [receiveReply] at returned
      split_ifs at returned
      cases returned
      refine ⟨rfl, stopped, ?_, Nat.le_refl _⟩
      simp only [ServerLocation.steps, ServerLocation.ahead, inspectSteps, laterSteps,
        kFrameSteps, List.length_cons]
      omega
  | interrupted =>
      cases returned
      exact ⟨rfl, stopped, Nat.lt_succ_self _, Nat.le_refl _⟩
  | again =>
      cases returned
      exact server_paid_quiet rfl stopped rfl (Nat.lt_succ_self _) (Nat.le_refl _)
  | failed =>
      cases returned
      exact server_paid_quiet rfl stopped rfl (Nat.lt_succ_self _) (Nat.le_refl _)
  | nothing =>
      cases returned
      exact server_paid_quiet rfl stopped rfl (Nat.lt_succ_self _) (Nat.le_refl _)

theorem inspect_paid (events : List SocketEvent) (batch : List Datagram) :
    (inspectNext events batch).steps < inspectSteps events batch ∧
      (inspectNext events batch).ahead ≤ batch.length := by
  cases batch with
  | nil =>
      refine ⟨?_, Nat.le_refl 0⟩
      simp only [inspectNext, ServerLocation.steps, inspectSteps, List.length_nil]
      omega
  | cons datagram rest =>
      simp only [inspectNext]
      split_ifs
      · refine ⟨?_, Nat.le_succ _⟩
        simp only [ServerLocation.steps, inspectSteps, List.length_cons]
        omega
      · refine ⟨?_, Nat.le_refl _⟩
        simp only [ServerLocation.steps, inspectSteps, List.length_cons]
        omega

theorem publish_paid {events : List SocketEvent} {idx gain : Nat} {batch : List Datagram}
    {next : ServerLocation} (stopped : memory.handleRunning = false)
    (step : queueStep capacity (serverAction (.publish events idx batch)) queues memory input =
      some (nextQueues, after, next)) :
    ServerPaid queues nextQueues memory after (.publish events idx batch) next gain := by
  simp only [queueStep, actionStep, serverAction, fifoObject, fifoExec, fifoPush] at step
  split_ifs at step
  · cases step
    rw [Function.update_eq_self]
    exact server_paid_quiet rfl stopped rfl (Nat.lt_succ_self _) (Nat.le_succ _)
  · cases step
    constructor
    · rfl
    · exact stopped
    · rw [Function.update_self, List.length_append]
      simp only [publishReturned, if_true, ServerLocation.steps, ServerLocation.ahead,
        List.length_singleton, kFrameSteps]
      omega
    · rw [Function.update_self, List.length_append]
      exact Nat.le_add_right _ _

theorem server_paid {server next : ServerLocation} (stopped : memory.handleRunning = false)
    (step : queueStep capacity (serverAction server) queues memory input =
      some (nextQueues, after, next)) :
    ServerPaid queues nextQueues memory after server next (laterSteps (.server, input)) := by
  cases server with
  | loopTest =>
      cases step
      rw [stopped, if_neg Bool.false_ne_true]
      exact server_paid_quiet rfl stopped rfl (Nat.lt_succ_self 1) (Nat.le_refl _)
  | wait =>
      cases input with
      | epoll reply =>
          cases reply with
          | events first rest =>
              simp only [queueStep, actionStep, serverAction] at step
              split_ifs at step with possible
              · cases step
                have few : (first :: rest).length ≤ kMaxEvents := by
                  unfold eventsPossible at possible
                  simp only [Bool.and_eq_true, decide_eq_true_eq] at possible
                  exact possible.1
                refine server_paid_quiet rfl stopped rfl ?_ (Nat.le_refl _)
                simp only [ServerLocation.steps]
                omega
              · cases step
          | failed =>
              cases step
              exact server_paid_quiet rfl stopped rfl (show 1 < 68 by decide) (Nat.le_refl _)
          | interrupted =>
              cases step
              exact server_paid_quiet rfl stopped rfl (show 2 < 68 by decide) (Nat.le_refl _)
          | timeout =>
              cases step
              exact server_paid_quiet rfl stopped rfl (show 2 < 68 by decide) (Nat.le_refl _)
      | _ => cases step
  | dispatch events =>
      cases step
      exact dispatch_paid events stopped
  | receive events =>
      cases input with
      | recv reply =>
          obtain ⟨⟨reached, location⟩, returned, same⟩ := Option.map_eq_some_iff.mp step
          cases same
          exact receive_paid stopped returned
      | _ => cases step
  | inspect events batch =>
      cases step
      obtain ⟨less, ahead⟩ := inspect_paid events batch
      exact server_paid_quiet rfl stopped rfl less ahead
  | dropInvalid events batch =>
      cases step
      exact server_paid_quiet rfl stopped rfl (Nat.lt_succ_self _) (Nat.le_refl _)
  | takeSlot events datagram batch =>
      cases step
      show ServerPaid _ _ _ _ _ (takeReturned events datagram batch (fifoPop (queues .free)).2) _
      cases (fifoPop (queues .free)).2 with
      | none =>
          refine server_paid_quiet rfl stopped rfl ?_ (Nat.le_succ _)
          exact Nat.add_lt_add_left (show 1 < 5 by decide) _
      | some idx => exact server_paid_quiet rfl stopped rfl (Nat.lt_succ_self _) (Nat.le_refl _)
  | dropNoSlot events batch =>
      cases step
      exact server_paid_quiet rfl stopped rfl (Nat.lt_succ_self _) (Nat.le_refl _)
  | copySlot events idx datagram batch =>
      cases step
      exact server_paid_quiet rfl stopped rfl (Nat.lt_succ_self _) (Nat.le_refl _)
  | publish events idx batch => exact publish_paid stopped step
  | dropRefused events idx batch =>
      cases step
      exact server_paid_quiet rfl stopped rfl (Nat.lt_succ_self _) (Nat.le_refl _)
  | giveBack events idx batch =>
      cases step
      exact server_paid_quiet rfl stopped rfl (Nat.lt_succ_self _) (Nat.le_refl _)
  | leave =>
      cases step
      exact server_paid_quiet rfl stopped rfl Nat.zero_lt_one (Nat.le_refl _)
  | finished => cases step

/-- What a step of the consumer does once its flag is cleared. -/
structure ConsumerPaid (queues nextQueues : PoolRing → List Nat) (memory after : Memory)
    (consumer next : ConsumerLocation) : Prop where
  running : after.running = memory.running
  handle : after.handleRunning = memory.handleRunning
  less : kFrameSteps * (nextQueues .ready).length + next.steps (nextQueues .ready).length <
    kFrameSteps * (queues .ready).length + consumer.steps (queues .ready).length

theorem consumer_paid_quiet {consumer next : ConsumerLocation}
    (flags : after.running = memory.running ∧ after.handleRunning = memory.handleRunning)
    (ready : nextQueues .ready = queues .ready)
    (less : next.steps (queues .ready).length < consumer.steps (queues .ready).length) :
    ConsumerPaid queues nextQueues memory after consumer next := by
  constructor
  · exact flags.1
  · exact flags.2
  · rw [ready]
    exact Nat.add_lt_add_left less _

theorem take_paid {next : ConsumerLocation}
    (step : queueStep capacity (consumerAction order .take) queues memory input =
      some (nextQueues, after, next)) :
    ConsumerPaid queues nextQueues memory after .take next := by
  simp only [queueStep, actionStep, consumerAction, fifoObject, fifoExec] at step
  cases step
  cases waiting : queues .ready with
  | nil =>
      refine ⟨rfl, rfl, ?_⟩
      rw [Function.update_self, waiting]
      exact Nat.lt_succ_self 3
  | cons idx rest =>
      refine ⟨rfl, rfl, ?_⟩
      rw [Function.update_self, waiting]
      simp only [fifoPop, popReturned, ConsumerLocation.steps, StagePoint.steps, kFrameSteps,
        List.length_cons, Nat.add_one_ne_zero, if_false]
      omega

theorem consumer_paid {consumer next : ConsumerLocation} (stopped : memory.running = false)
    (step : queueStep capacity (consumerAction order consumer) queues memory input =
      some (nextQueues, after, next)) :
    ConsumerPaid queues nextQueues memory after consumer next := by
  cases consumer with
  | loopTest =>
      cases step
      rw [stopped, if_neg Bool.false_ne_true]
      exact consumer_paid_quiet ⟨rfl, rfl⟩ rfl (Nat.lt_succ_self 2)
  | emptyTest =>
      cases step
      show ConsumerPaid queues queues memory memory _ (emptyReturned (queues .ready).isEmpty)
      cases waiting : queues .ready with
      | nil => exact consumer_paid_quiet ⟨rfl, rfl⟩ rfl (Nat.lt_succ_self 1)
      | cons idx rest =>
          refine consumer_paid_quiet ⟨rfl, rfl⟩ rfl ?_
          rw [waiting]
          exact Nat.lt_succ_self 1
  | take => exact take_paid step
  | stage idx point =>
      cases step
      refine consumer_paid_quiet ⟨rfl, rfl⟩ rfl ?_
      simp only [stageNext]
      cases more : (stageStep order (memory.slots idx) memory.session point).2 with
      | some later => exact Nat.add_lt_add_right (stage_step_fewer more) 5
      | none => exact Nat.lt_add_of_pos_left (stage_steps_bounds point).1
  | recycle idx =>
      cases step
      exact consumer_paid_quiet ⟨rfl, rfl⟩ rfl (Nat.lt_succ_self 4)
  | recycled ok =>
      cases step
      exact consumer_paid_quiet ⟨rfl, rfl⟩ rfl (Nat.lt_succ_self 3)
  | leave =>
      cases step
      exact consumer_paid_quiet ⟨rfl, rfl⟩ rfl Nat.zero_lt_one
  | finished => cases step

theorem consumer_steps_antitone (consumer : ConsumerLocation) {fewer more : Nat}
    (le : fewer ≤ more) : consumer.steps more ≤ consumer.steps fewer := by
  cases consumer with
  | take =>
      simp only [ConsumerLocation.steps]
      split_ifs
      · exact Nat.le_refl _
      · omega
      · omega
      · exact Nat.le_refl _
  | _ => exact Nat.le_refl _

theorem control_paid {control next : ControlLocation}
    (step : queueStep capacity (controlAction control) queues memory input =
      some (nextQueues, after, next)) :
    next.steps < control.steps ∧ (memory.running = false → after.running = false) ∧
      (memory.handleRunning = false → after.handleRunning = false) := by
  cases control with
  | clearRunning =>
      cases step
      exact ⟨Nat.lt_succ_self 4, fun _ => rfl, id⟩
  | exchange =>
      cases step
      refine ⟨?_, id, fun _ => rfl⟩
      cases memory.handleRunning with
      | true => exact Nat.lt_succ_self 3
      | false => exact show 1 < 4 by decide
  | wake =>
      cases step
      exact ⟨Nat.lt_succ_self 2, id, id⟩
  | joinServer =>
      simp only [queueStep, actionStep, controlAction] at step
      split_ifs at step
      · cases step
        exact ⟨Nat.lt_succ_self 1, id, id⟩
      · cases step
  | joinConsumer =>
      simp only [queueStep, actionStep, controlAction] at step
      split_ifs at step
      · cases step
        exact ⟨Nat.lt_succ_self 0, id, id⟩
      · cases step
  | returned => cases step

/-- What every step of the server thread keeps: its events and its batch are no more than it asked
for, and it says when it is through. -/
structure ServerKept (memory after : Memory) (server next : ServerLocation) : Prop where
  events : server.events.length ≤ kMaxEvents → next.events.length ≤ kMaxEvents
  batch : server.ahead ≤ kBatch → next.ahead ≤ kBatch
  server_done : memory.serverDone = server.done → after.serverDone = next.done
  consumer_done : after.consumerDone = memory.consumerDone

theorem server_kept_quiet {server next : ServerLocation}
    (events : next.events.length ≤ server.events.length) (ahead : next.ahead ≤ server.ahead)
    (flags : after.serverDone = memory.serverDone ∧ after.consumerDone = memory.consumerDone)
    (still : server.done = false) (later : next.done = false) :
    ServerKept memory after server next := by
  constructor
  · exact events.trans
  · exact ahead.trans
  · intro known
    rw [flags.1, known, still, later]
  · exact flags.2

theorem dispatch_kept (events : List SocketEvent) :
    ServerKept memory (dispatchNext memory events).1 (.dispatch events)
      (dispatchNext memory events).2 := by
  cases events with
  | nil => exact server_kept_quiet (Nat.le_refl _) (Nat.le_refl _) ⟨rfl, rfl⟩ rfl rfl
  | cons event rest =>
      cases event with
      | wake => exact server_kept_quiet (Nat.le_succ _) (Nat.le_refl _) ⟨rfl, rfl⟩ rfl rfl
      | other => exact server_kept_quiet (Nat.le_succ _) (Nat.le_refl _) ⟨rfl, rfl⟩ rfl rfl
      | socket failed =>
          cases failed with
          | true => exact server_kept_quiet (Nat.zero_le _) (Nat.le_refl _) ⟨rfl, rfl⟩ rfl rfl
          | false => exact server_kept_quiet (Nat.le_succ _) (Nat.le_refl _) ⟨rfl, rfl⟩ rfl rfl

theorem receive_kept {events : List SocketEvent} {reply : RecvReply} {next : ServerLocation}
    (returned : receiveReply memory events reply = some (after, next)) :
    ServerKept memory after (.receive events) next := by
  cases reply with
  | batch first rest =>
      simp only [receiveReply] at returned
      split_ifs at returned with few
      cases returned
      exact ⟨id, fun _ => few, id, rfl⟩
  | interrupted | again | failed | nothing =>
      cases returned
      exact server_kept_quiet (Nat.le_refl _) (Nat.le_refl _) ⟨rfl, rfl⟩ rfl rfl

theorem wait_kept {next : ServerLocation}
    (step : queueStep capacity (serverAction .wait) queues memory input =
      some (nextQueues, after, next)) : ServerKept memory after .wait next := by
  cases input with
  | epoll reply =>
      cases reply with
      | events first rest =>
          simp only [queueStep, actionStep, serverAction] at step
          split_ifs at step with possible
          · cases step
            unfold eventsPossible at possible
            simp only [Bool.and_eq_true, decide_eq_true_eq] at possible
            exact ⟨fun _ => possible.1, fun _ => Nat.zero_le _, id, rfl⟩
          · cases step
      | failed | interrupted | timeout =>
          cases step
          exact server_kept_quiet (Nat.le_refl _) (Nat.le_refl _) ⟨rfl, rfl⟩ rfl rfl
  | _ => cases step

theorem server_kept {server next : ServerLocation}
    (step : queueStep capacity (serverAction server) queues memory input =
      some (nextQueues, after, next)) : ServerKept memory after server next := by
  cases server with
  | loopTest =>
      cases step
      cases memory.handleRunning with
      | _ => exact server_kept_quiet (Nat.le_refl _) (Nat.le_refl _) ⟨rfl, rfl⟩ rfl rfl
  | wait => exact wait_kept step
  | dispatch events =>
      cases step
      exact dispatch_kept events
  | receive events =>
      cases input with
      | recv reply =>
          obtain ⟨⟨reached, location⟩, returned, same⟩ := Option.map_eq_some_iff.mp step
          cases same
          exact receive_kept returned
      | _ => cases step
  | inspect events batch =>
      cases step
      cases batch with
      | nil => exact server_kept_quiet (Nat.le_refl _) (Nat.le_refl _) ⟨rfl, rfl⟩ rfl rfl
      | cons datagram rest =>
          simp only [inspectNext]
          split_ifs
          · exact server_kept_quiet (Nat.le_refl _) (Nat.le_succ _) ⟨rfl, rfl⟩ rfl rfl
          · exact server_kept_quiet (Nat.le_refl _) (Nat.le_refl _) ⟨rfl, rfl⟩ rfl rfl
  | takeSlot events datagram batch =>
      cases step
      show ServerKept memory memory _
        (takeReturned events datagram batch (fifoPop (queues .free)).2)
      cases (fifoPop (queues .free)).2 with
      | none => exact server_kept_quiet (Nat.le_refl _) (Nat.le_succ _) ⟨rfl, rfl⟩ rfl rfl
      | some idx => exact server_kept_quiet (Nat.le_refl _) (Nat.le_refl _) ⟨rfl, rfl⟩ rfl rfl
  | publish events idx batch =>
      cases step
      show ServerKept memory memory _ (publishReturned events idx batch _)
      unfold publishReturned
      split_ifs
      · exact server_kept_quiet (Nat.le_refl _) (Nat.le_succ _) ⟨rfl, rfl⟩ rfl rfl
      · exact server_kept_quiet (Nat.le_refl _) (Nat.le_succ _) ⟨rfl, rfl⟩ rfl rfl
  | dropInvalid events batch
  | dropNoSlot events batch
  | copySlot events idx datagram batch
  | dropRefused events idx batch
  | giveBack events idx batch =>
      cases step
      exact server_kept_quiet (Nat.le_refl _) (Nat.le_refl _) ⟨rfl, rfl⟩ rfl rfl
  | leave =>
      cases step
      exact ⟨fun _ => Nat.zero_le _, fun _ => Nat.zero_le _, fun _ => rfl, rfl⟩
  | finished => cases step

theorem consumer_kept {consumer next : ConsumerLocation}
    (step : queueStep capacity (consumerAction order consumer) queues memory input =
      some (nextQueues, after, next)) :
    (memory.consumerDone = consumer.done → after.consumerDone = next.done) ∧
      after.serverDone = memory.serverDone := by
  cases consumer with
  | loopTest =>
      cases step
      cases memory.running with
      | _ => exact ⟨id, rfl⟩
  | emptyTest =>
      cases step
      show (_ → _ = (emptyReturned (queues .ready).isEmpty).done) ∧ _
      cases (queues .ready).isEmpty with
      | _ => exact ⟨id, rfl⟩
  | take =>
      cases step
      show (_ → _ = (popReturned (fifoPop (queues .ready)).2).done) ∧ _
      cases (fifoPop (queues .ready)).2 with
      | _ => exact ⟨id, rfl⟩
  | stage idx point =>
      cases step
      refine ⟨?_, rfl⟩
      simp only [stageNext]
      cases (stageStep order (memory.slots idx) memory.session point).2 with
      | _ => exact id
  | recycle idx =>
      cases step
      exact ⟨id, rfl⟩
  | recycled ok =>
      cases step
      exact ⟨id, rfl⟩
  | leave =>
      cases step
      exact ⟨fun _ => rfl, rfl⟩
  | finished => cases step

theorem control_kept {control next : ControlLocation}
    (step : queueStep capacity (controlAction control) queues memory input =
      some (nextQueues, after, next)) :
    after.serverDone = memory.serverDone ∧ after.consumerDone = memory.consumerDone := by
  cases control with
  | joinServer =>
      simp only [queueStep, actionStep, controlAction] at step
      split_ifs at step
      · cases step
        exact ⟨rfl, rfl⟩
      · cases step
  | joinConsumer =>
      simp only [queueStep, actionStep, controlAction] at step
      split_ifs at step
      · cases step
        exact ⟨rfl, rfl⟩
      · cases step
  | returned => cases step
  | clearRunning | exchange | wake =>
      cases step
      exact ⟨rfl, rfl⟩

theorem server_steps_le {server : ServerLocation} (events : server.events.length ≤ kMaxEvents)
    (few : server.ahead ≤ kBatch) : server.steps + kFrameSteps * server.ahead ≤ 551 := by
  cases server with
  | _ =>
      simp only [ServerLocation.events, kMaxEvents] at events
      simp only [ServerLocation.ahead, kBatch] at few
      simp only [ServerLocation.steps, ServerLocation.ahead, inspectSteps, receiveSteps,
        kFrameSteps, kMaxEvents]
      omega

theorem consumer_steps_le (consumer : ConsumerLocation) (waiting : Nat) :
    consumer.steps waiting ≤ 9 := by
  cases consumer with
  | take =>
      simp only [ConsumerLocation.steps]
      split_ifs
      · decide
      · decide
  | stage idx point => exact Nat.add_le_add_right (stage_steps_bounds point).2 5
  | _ => exact Nat.le_of_ble_eq_true rfl

/-- The server thread can always go on until it is through. -/
theorem server_moves (queues : PoolRing → List Nat) (memory : Memory) {server : ServerLocation}
    (working : server.done = false) :
    ∃ input, (queueStep capacity (serverAction server) queues memory input).isSome = true := by
  cases server with
  | finished => cases working
  | wait => exact ⟨.epoll .timeout, rfl⟩
  | receive events => exact ⟨.recv .again, rfl⟩
  | _ => exact ⟨.tick, rfl⟩

theorem consumer_moves (queues : PoolRing → List Nat) (memory : Memory)
    {consumer : ConsumerLocation} (working : consumer.done = false) :
    ∃ input, (queueStep capacity (consumerAction order consumer) queues memory input).isSome =
      true := by
  cases consumer with
  | finished => cases working
  | _ => exact ⟨.tick, rfl⟩

end Steps

/-! ## The whole engine -/

def QueueState.stepsLeft (state : QueueState order capacity) : Nat :=
  state.server.steps + kFrameSteps * ((state.queue .ready).length + state.server.ahead) +
    state.consumer.steps (state.queue .ready).length + state.control.steps

/-- Both flags are cleared. -/
def FlagsDown (state : QueueState order capacity) : Prop :=
  state.memory.running = false ∧ state.memory.handleRunning = false

structure StopKnown (state : QueueState order capacity) : Prop where
  events : state.server.events.length ≤ kMaxEvents
  batch : state.server.ahead ≤ kBatch
  server_done : state.memory.serverDone = state.server.done
  consumer_done : state.memory.consumerDone = state.consumer.done

theorem stop_known_step {state next : QueueState order capacity} {label : Thread × Input}
    (known : StopKnown state) (taken : atomicStep (program order) state label = some next) :
    StopKnown next := by
  cases moves_of_step taken with
  | server step consumer control =>
      obtain ⟨events, batch, serverDone, consumerDone⟩ := server_kept step
      constructor
      · exact events known.events
      · exact batch known.batch
      · exact serverDone known.server_done
      · rw [consumerDone, consumer]
        exact known.consumer_done
  | consumer step server control =>
      obtain ⟨consumerDone, serverDone⟩ := consumer_kept step
      constructor
      · rw [server]
        exact known.events
      · rw [server]
        exact known.batch
      · rw [serverDone, server]
        exact known.server_done
      · exact consumerDone known.consumer_done
  | control step server consumer =>
      obtain ⟨serverDone, consumerDone⟩ := control_kept step
      constructor
      · rw [server]
        exact known.events
      · rw [server]
        exact known.batch
      · rw [serverDone, server]
        exact known.server_done
      · rw [consumerDone, consumer]
        exact known.consumer_done

theorem stop_known_of_reaches {state : QueueState order capacity}
    (reached : Reaches (queueSystem order capacity) state) : StopKnown state := by
  apply invariant_of_step _ _ reached
  · rintro state ⟨-, -, ⟨slots, memory⟩, server, consumer, -⟩
    constructor
    · rw [server]
      exact Nat.zero_le _
    · rw [server]
      exact Nat.zero_le _
    · rw [memory, server]
      rfl
    · rw [memory, consumer]
      rfl
  · intro state label next prior known allowed taken
    exact stop_known_step known taken

theorem flags_down_step {state next : QueueState order capacity} {label : Thread × Input}
    (down : FlagsDown state) (taken : atomicStep (program order) state label = some next) :
    FlagsDown next ∧ next.stepsLeft + 1 ≤ state.stepsLeft + laterSteps label := by
  unfold QueueState.stepsLeft
  cases moves_of_step taken with
  | server step consumer control =>
      obtain ⟨running, handle, less, grows⟩ := server_paid down.2 step
      refine ⟨⟨running.trans down.1, handle⟩, ?_⟩
      rw [consumer, control]
      have kept := consumer_steps_antitone state.consumer grows
      omega
  | consumer step server control =>
      obtain ⟨running, handle, less⟩ := consumer_paid down.1 step
      refine ⟨⟨running.trans down.1, handle.trans down.2⟩, ?_⟩
      rw [server, control, Nat.mul_add, Nat.mul_add]
      omega
  | control step server consumer =>
      obtain ⟨less, running, handle⟩ := control_paid step
      obtain ⟨queues, -⟩ := control_step_frame step
      refine ⟨⟨running down.1, handle down.2⟩, ?_⟩
      rw [queues, server, consumer]
      omega

theorem thread_moves {state : QueueState order capacity} {thread : Thread} {input : Input}
    (some_ : (queueStep capacity ((program order).action thread (state.location thread))
      state.queue state.memory input).isSome = true) :
    ∃ label next, (queueSystem order capacity).step state label = some next := by
  obtain ⟨⟨shared, memory, location⟩, step⟩ := Option.isSome_iff_exists.mp some_
  exact ⟨(thread, input), _, atomic_step_of_action _ step⟩

/-- Until everything is over, some thread can go on. -/
theorem engine_moves {state : QueueState order capacity} (known : StopKnown state)
    (working : ¬ Stopped state) :
    ∃ label next, (queueSystem order capacity).step state label = some next := by
  cases serverDone : state.server.done with
  | false =>
      obtain ⟨input, some_⟩ := @server_moves capacity state.queue state.memory _ serverDone
      exact @thread_moves _ _ state .server input some_
  | true =>
      cases consumerDone : state.consumer.done with
      | false =>
          obtain ⟨input, some_⟩ :=
            @consumer_moves order capacity state.queue state.memory _ consumerDone
          exact @thread_moves _ _ state .consumer input some_
      | true =>
          apply @thread_moves _ _ state .control .tick
          show (queueStep capacity (controlAction state.control) _ _ _).isSome = true
          cases at_ : state.control with
          | returned => exact absurd ⟨at_, serverDone, consumerDone⟩ working
          | joinServer =>
              simp only [queueStep, actionStep, controlAction, known.server_done, serverDone,
                if_true]
              rfl
          | joinConsumer =>
              simp only [queueStep, actionStep, controlAction, known.consumer_done, consumerDone,
                if_true]
              rfl
          | _ => rfl

/-- The engine with its reporter. A report loads the five counters; the pool is a member of the
engine. -/
def reportedEngine (order : ByteOrder) (capacity : Capacity) :
    ReportedEngine (QueueState order capacity) (Thread × Input) where
  system := queueSystem order capacity
  running := fun state => state.memory.running
  joined := fun state => decide (state.control = .returned)
  accesses := 5
  releases := false

/-- Once both flags are cleared: the server thread, the consumer, the reporter and `stop()`
together take at most 9 steps for every frame in the ready ring, 575 more, 17 for every datagram
that `recvmmsg` still returns and one for every time it is interrupted, and until everything is
over one of them can take a step. -/
theorem stop_bounded_by_arrivals (order : ByteOrder) (capacity : Capacity)
    (state final : WithReporter (QueueState order capacity))
    (reached : Reaches (reportedEngine order capacity).withReporter state)
    (down : FlagsDown state.engine) (labels : List (ReportedLabel (Thread × Input)))
    (run : runLabels (reportedEngine order capacity).withReporter state labels = some final) :
    labels.length ≤ 9 * (state.engine.queue .ready).length + 575 +
        (labels.map (laterReported laterSteps)).sum ∧
      (final.Over Stopped ∨ ∃ label next,
        (reportedEngine order capacity).withReporter.step final label = some next) := by
  have known := stop_known_of_reaches (engine_reached reached).1
  have finalKnown := stop_known_of_reaches (engine_reached (reaches_run reached run)).1
  have steps := @reported_steps_le _ _ (reportedEngine order capacity) FlagsDown
    QueueState.stepsLeft laterSteps (fun _ _ _ down taken => flags_down_step down taken)
    (fun _ down => down.1) state final labels reached down run
  have server := server_steps_le known.events known.batch
  have consumer :=
    consumer_steps_le state.engine.consumer (state.engine.queue .ready).length
  have control : state.engine.control.steps ≤ 5 := by
    cases state.engine.control with
    | _ => decide
  have bound : state.engine.stepsLeft ≤ 9 * (state.engine.queue .ready).length + 565 := by
    unfold QueueState.stepsLeft
    rw [Nat.mul_add]
    have cost : kFrameSteps * (state.engine.queue .ready).length =
      9 * (state.engine.queue .ready).length := rfl
    omega
  have accesses : (reportedEngine order capacity).accesses = 5 := rfl
  refine ⟨by omega, ?_⟩
  have moves : Stopped final.engine ∨
      ∃ label next, (queueSystem order capacity).step final.engine label = some next := by
    by_cases ended : Stopped final.engine
    · exact .inl ended
    · exact .inr (engine_moves finalKnown ended)
  exact reported_moves moves fun ended => decide_eq_true ended.1

/-- The server thread is in its drain, the reporter loads its counters, and `stop()` waits. -/
def drainStarts : List (ReportedLabel (Thread × Input)) :=
  (ticks .server 1 ++ epollReply (.events (.socket false) []) ++ ticks .server 1).map
      ReportedLabel.engine ++
    [ReportedLabel.reporter .expired, .reporter .expired, .reporter .expired] ++
    (ticks .control 3).map ReportedLabel.engine

/-- `stop()` while the server thread drains the socket; two more datagrams come, and the eventfd
ends the wait. The reporter ends its report. -/
def stopWhileDraining : List (ReportedLabel (Thread × Input)) :=
  (recvReply (.batch [] [[]]) ++ ticks .server 5 ++ recvReply .interrupted ++ recvReply .again ++
    ticks .server 3 ++ ticks .consumer 3 ++ ticks .control 2).map
      ReportedLabel.engine ++
    List.replicate 8 (ReportedLabel.reporter .expired) ++ [ReportedLabel.stop]

/-- The new engine with its reporter. -/
def freshReported : WithReporter (QueueState .little kPoolCapacity) :=
  ⟨freshQueues, .loopTest, .joinReporter⟩

theorem stop_while_draining_bounded :
    ∃ state final, Reaches (reportedEngine .little kPoolCapacity).withReporter state ∧
      FlagsDown state.engine ∧ state.reporter = .report 5 ∧
      runLabels (reportedEngine .little kPoolCapacity).withReporter state stopWhileDraining =
        some final ∧
      final.Over Stopped ∧
      stopWhileDraining.length ≤ 575 + (stopWhileDraining.map (laterReported laterSteps)).sum := by
  obtain ⟨state, started, running, handle, ready, report, final, run, control, server, consumer,
      reporter, tail⟩ :
      ∃ state, runLabels (reportedEngine .little kPoolCapacity).withReporter freshReported
          drainStarts = some state ∧ state.engine.memory.running = false ∧
        state.engine.memory.handleRunning = false ∧ state.engine.queue .ready = [] ∧
        state.reporter = .report 5 ∧
        ∃ final, runLabels (reportedEngine .little kPoolCapacity).withReporter state
            stopWhileDraining = some final ∧
          final.engine.control = .returned ∧ final.engine.server.done = true ∧
          final.engine.consumer.done = true ∧ final.reporter = .finished ∧
          final.tail = .returned :=
    ⟨_, rfl, rfl, rfl, rfl, rfl, _, rfl, rfl, rfl, rfl, rfl, rfl⟩
  have start : (reportedEngine .little kPoolCapacity).withReporter.start freshReported :=
    ⟨fresh_queues_start, rfl, rfl⟩
  have reached := reaches_run (reaches_start start) started
  have bound := (stop_bounded_by_arrivals .little kPoolCapacity state final reached
    ⟨running, handle⟩ stopWhileDraining run).1
  rw [ready] at bound
  exact ⟨state, final, reached, ⟨running, handle⟩, report, run,
    ⟨⟨control, server, consumer⟩, reporter, tail⟩, by simpa using bound⟩

/-! ## No bound without silence -/

/-- A datagram that is too short, received and dropped in the inner loop. -/
def shortDatagram : List (Thread × Input) := recvReply (.batch [] []) ++ ticks .server 3

/-- The server thread is in its inner loop and `stop()` waits for it. -/
def Outwaited (state : QueueState order capacity) : Prop :=
  FlagsDown state ∧ state.server = .receive [] ∧ state.control = .joinServer

theorem server_step_from {state : QueueState order capacity} {server next : ServerLocation}
    {input : Input} {queues : PoolRing → List Nat} {memory : Memory}
    (at_ : state.server = server)
    (step : queueStep capacity (serverAction server) state.queue state.memory input =
      some (queues, memory, next)) :
    ∃ after, (queueSystem order capacity).step state (.server, input) = some after ∧
      after.memory = memory ∧ after.server = next ∧ after.control = state.control := by
  rw [← at_] at step
  exact ⟨_, atomic_step_of_action (program order) step, rfl, rfl, rfl⟩

theorem short_datagram_round {state : QueueState order capacity} (before : Outwaited state) :
    ∃ after, runLabels (queueSystem order capacity) state shortDatagram = some after ∧
      Outwaited after := by
  obtain ⟨⟨running, handle⟩, server, control⟩ := before
  obtain ⟨received, first, memory1, server1, control1⟩ :=
    @server_step_from order capacity state _ _ (.recv (.batch [] [])) state.queue _ server rfl
  obtain ⟨refused, second, memory2, server2, control2⟩ :=
    @server_step_from order capacity received _ _ .tick received.queue _ server1 rfl
  obtain ⟨dropped, third, memory3, server3, control3⟩ :=
    @server_step_from order capacity refused _ _ .tick refused.queue _ server2 rfl
  obtain ⟨back, fourth, memory4, server4, control4⟩ :=
    @server_step_from order capacity dropped _ _ .tick dropped.queue _ server3 rfl
  refine ⟨back, ?_, ⟨?_, ?_⟩, server4, ?_⟩
  · simp only [shortDatagram, recvReply, ticks, List.replicate, List.cons_append,
      List.nil_append, runLabels, first, second, third, fourth, Option.bind_some]
  · rw [memory4, memory3, memory2, memory1]
    exact running
  · rw [memory4, memory3, memory2, memory1]
    exact handle
  · rw [control4, control3, control2, control1]
    exact control

/-- The server thread is in its inner loop, and `stop()` has come to wait for it. -/
def joinStarts : List (Thread × Input) :=
  ticks .server 1 ++ epollReply (.events (.socket false) []) ++ ticks .server 1 ++
    ticks .control 3

/-- However long one waits, `stop()` may still be waiting: with datagrams that keep coming the
server thread takes any number of steps, all in its inner loop, although both flags are cleared. -/
theorem stop_outwaited_by_arrivals (rounds : Nat) :
    ∃ state final labels, Reaches (queueSystem .little kPoolCapacity) state ∧ Outwaited state ∧
      runLabels (queueSystem .little kPoolCapacity) state labels = some final ∧
      (∀ label ∈ labels, label.1 = .server) ∧ rounds ≤ labels.length ∧ Outwaited final := by
  obtain ⟨state, started, running, handle, server, control⟩ :
      ∃ state, runLabels (queueSystem .little kPoolCapacity) freshQueues joinStarts =
        some state ∧ state.memory.running = false ∧ state.memory.handleRunning = false ∧
        state.server = .receive [] ∧ state.control = .joinServer :=
    ⟨_, rfl, rfl, rfl, rfl, rfl⟩
  have goes_on : ∀ (rounds : Nat) (state : QueueState .little kPoolCapacity), Outwaited state →
      ∃ final labels, runLabels (queueSystem .little kPoolCapacity) state labels = some final ∧
        (∀ label ∈ labels, label.1 = .server) ∧ rounds ≤ labels.length ∧ Outwaited final := by
    intro rounds
    induction rounds with
    | zero =>
        exact fun state waits => ⟨state, [], rfl, List.forall_mem_nil _, Nat.le_refl 0, waits⟩
    | succ rounds ih =>
        intro state waits
        obtain ⟨after, round, waitsAfter⟩ := short_datagram_round waits
        obtain ⟨final, labels, run, own, long, waitsFinal⟩ := ih after waitsAfter
        have ownRound : ∀ label ∈ shortDatagram, label.1 = .server := by
          simp [shortDatagram, recvReply, ticks]
        refine ⟨final, shortDatagram ++ labels, ?_, ?_, ?_, waitsFinal⟩
        · exact run_labels_append round run
        · exact List.forall_mem_append.mpr ⟨ownRound, own⟩
        · have taken : shortDatagram.length = 4 := rfl
          rw [List.length_append, taken]
          omega
  have waits : Outwaited state := ⟨⟨running, handle⟩, server, control⟩
  obtain ⟨final, labels, run, own, long, waitsFinal⟩ := goes_on rounds state waits
  exact ⟨state, final, labels, reaches_run (reaches_start fresh_queues_start) started, waits, run,
    own, long, waitsFinal⟩

end MarketDataEngine.EngineV1
