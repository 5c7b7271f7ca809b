import MarketDataEngine.ConsumerReplay
import MarketDataEngine.EngineShutdown
import MarketDataEngine.EngineV1Lifecycle
import MarketDataEngine.EngineV2Restart

/-!
# A second session beside a first one

Engine v1 keeps its sequence tracker and its slots through a restart. The slots do not matter:
a slot is filled before it is read, so an engine whose pool holds anything else goes the same
way. The tracker matters for the first message of the session. If that message is the one the
sessions before have left as expected, or if they have left none, the engine classifies it and
everything behind it as a new engine does.
-/

namespace MarketDataEngine.Engine

open MarketDataEngine.Protocol

set_option autoImplicit false

/-- The left session has other counters to start from. As long as it has classified nothing
its tracker may be anything, and the right one has seen nothing. -/
structure SessionsAlike (base : Metrics) (left right : Session) (point : Option StagePoint) :
    Prop where
  msg : left.msg = right.msg
  decoded : left.decoded = right.decoded
  metrics : left.metrics = base.add right.metrics
  trackers : left.tracker = right.tracker ∨
    right.tracker.seqInitialized = false ∧ left.classified = [] ∧
      ∀ missing, point ≠ some (.closeGap missing)

/-- The message about to be classified is not the first one of the session, or it is the
expected one, or none is expected. -/
def ContinuesWith (session : Session) : Prop :=
  session.classified = [] → session.tracker.seqInitialized = true →
    session.msg.seqNum = session.tracker.expectedSeqNum

section Stage

variable {base : Metrics} {left right : Session} {point later : Option StagePoint}

theorem sessions_alike_later (alike : SessionsAlike base left right point)
    (outside : ∀ missing, later ≠ some (.closeGap missing)) :
    SessionsAlike base left right later :=
  ⟨alike.msg, alike.decoded, alike.metrics, alike.trackers.imp_right fun unseen =>
    ⟨unseen.1, unseen.2.1, outside⟩⟩

theorem sessions_alike_drop_one (alike : SessionsAlike base left right point) :
    SessionsAlike base left.dropOne right.dropOne point := by
  refine ⟨alike.msg, alike.decoded, ?_, alike.trackers⟩
  simp only [Session.dropOne, alike.metrics, Metrics.add, Metrics.incDrops, UInt64.add_assoc]

/-- Two verdicts that both accept the message or both drop it. -/
theorem sessions_alike_finish (alike : SessionsAlike base left right point)
    {verdict other : Verdict} (accepted : verdict.accepted = other.accepted)
    (tracker : left.tracker.advance left.msg.seqNum verdict =
      right.tracker.advance right.msg.seqNum other) :
    SessionsAlike base (left.finish verdict) (right.finish other) none := by
  refine ⟨alike.msg, alike.decoded, ?_, .inl tracker⟩
  simp only [Session.finish, accepted]
  split_ifs
  · simp only [alike.metrics, Metrics.add, Metrics.incProcessed, UInt64.add_assoc]
  · simp only [alike.metrics, Metrics.add, Metrics.incDrops, UInt64.add_assoc]

/-- The first message of the session: the left tracker expects it or nothing. -/
theorem classify_first_alike {order : ByteOrder} {frame : Frame}
    (alike : SessionsAlike base left right (some .classify))
    (unseen : right.tracker.seqInitialized = false) (nothing : left.classified = [])
    (continues : ContinuesWith left) :
    (stageStep order frame left .classify).2 = (stageStep order frame right .classify).2 ∧
      SessionsAlike base (stageStep order frame left .classify).1
        (stageStep order frame right .classify).1 (stageStep order frame left .classify).2 := by
  have first : right.tracker.verdict right.msg.seqNum = .first := by
    simp [SequenceTracker.verdict, unseen]
  cases known : left.tracker.seqInitialized with
  | false =>
      have also : left.tracker.verdict left.msg.seqNum = .first := by
        simp [SequenceTracker.verdict, known]
      simp only [stageStep, first, also]
      refine ⟨trivial, sessions_alike_finish alike rfl ?_⟩
      simp only [SequenceTracker.advance, alike.msg]
  | true =>
      have expected := continues nothing known
      have inOrder : left.tracker.verdict left.msg.seqNum = .inOrder := by
        simp [SequenceTracker.verdict, known, expected]
      simp only [stageStep, first, inOrder]
      refine ⟨trivial, sessions_alike_finish alike rfl ?_⟩
      simp only [SequenceTracker.advance, ← alike.msg, expected, known]

theorem stage_step_alike {order : ByteOrder} {frame : Frame} {point : StagePoint}
    (alike : SessionsAlike base left right (some point))
    (continues : point = .classify → ContinuesWith left) :
    (stageStep order frame left point).2 = (stageStep order frame right point).2 ∧
      SessionsAlike base (stageStep order frame left point).1
        (stageStep order frame right point).1 (stageStep order frame left point).2 := by
  cases point with
  | decode =>
      rw [stage_step_decode, stage_step_decode]
      refine ⟨rfl, rfl, congrArg (· ++ [frame]) alike.decoded, alike.metrics,
        alike.trackers.imp_right fun unseen => ⟨unseen.1, unseen.2.1, by simp⟩⟩
  | countReceived =>
      refine ⟨rfl, alike.msg, alike.decoded, ?_,
        alike.trackers.imp_right fun unseen => ⟨unseen.1, unseen.2.1, by simp [stageStep]⟩⟩
      simp only [stageStep, alike.metrics, Metrics.add, Metrics.incReceived, UInt64.add_assoc]
  | classify =>
      rcases alike.trackers with same | ⟨unseen, nothing, -⟩
      · have verdict : left.tracker.verdict left.msg.seqNum =
            right.tracker.verdict right.msg.seqNum := by rw [same, alike.msg]
        have advance : ∀ verdict, left.tracker.advance left.msg.seqNum verdict =
            right.tracker.advance right.msg.seqNum verdict := by
          intro verdict
          rw [same, alike.msg]
        simp only [stageStep, verdict]
        cases right.tracker.verdict right.msg.seqNum with
        | gap missing =>
            refine ⟨rfl, alike.msg, alike.decoded, ?_, .inl same⟩
            simp only [alike.metrics, Metrics.add, Metrics.incSeqNumGaps, UInt64.add_assoc]
        | first => exact ⟨rfl, sessions_alike_finish alike rfl (advance _)⟩
        | inOrder => exact ⟨rfl, sessions_alike_finish alike rfl (advance _)⟩
        | old => exact ⟨rfl, sessions_alike_finish alike rfl (advance _)⟩
      · exact classify_first_alike alike unseen nothing (continues rfl)
  | closeGap missing =>
      rcases alike.trackers with same | ⟨-, -, impossible⟩
      · refine ⟨rfl, sessions_alike_finish alike rfl ?_⟩
        rw [same, alike.msg]
      · exact absurd rfl (impossible missing)
  | countDecodeError =>
      refine ⟨rfl, alike.msg, alike.decoded, ?_,
        alike.trackers.imp_right fun unseen => ⟨unseen.1, unseen.2.1, by simp [stageStep]⟩⟩
      simp only [stageStep, alike.metrics, Metrics.add, Metrics.incDecodeError, UInt64.add_assoc]

/-- Behind `decode` the stage does not look at the frame again. -/
theorem stage_step_other_frame (order : ByteOrder) (frame other : Frame) (session : Session)
    {point : StagePoint} (started : point ≠ .decode) :
    stageStep order frame session point = stageStep order other session point := by
  cases point with
  | decode => exact absurd rfl started
  | _ => rfl

end Stage

end MarketDataEngine.Engine

namespace MarketDataEngine.EngineV1

open MarketDataEngine.Protocol MarketDataEngine.Containers MarketDataEngine.Engine
open MarketDataEngine.TransitionSystem MarketDataEngine.SteppedObject

set_option autoImplicit false

variable {order : ByteOrder} {capacity : Capacity}

/-- The engine when the threads of a successful `run()` start, `before` being the memory that
the sessions before have left. -/
def QueueRestart (before : Memory) (state : QueueState order capacity) : Prop :=
  state.queue .free = List.range capacity.val ∧ state.queue .ready = [] ∧
    state.memory = before.restarted ∧
    state.server = .loopTest ∧ state.consumer = .loopTest ∧ state.control = .clearRunning

/-- That is where a `run()` that is not rejected takes any engine. -/
theorem started_restarts (life : Life order capacity) :
    QueueRestart life.engine.memory (queueView life.started.engine) := by
  have idle : ∀ thread, (queueView life.started.engine).location thread =
      life.started.engine.location thread := by
    intro thread
    unfold queueView abstractState
    exact decided_location_idle rfl
  exact ⟨(init_free life.engine.ring).1, init_ready life.engine.ring, rfl, idle .server,
    idle .consumer, idle .control⟩

/-- A session of single ring accesses that begins there is a session over atomic queues, each
ring operation at the access where it takes effect. -/
theorem started_run_linearizes (life : Life order capacity) {labels : List (Thread × Input)}
    {final : State order capacity}
    (run : runLabels (system order capacity) life.started.engine labels = some final) :
    ∃ visible, visible.Sublist labels ∧
      runLabels (queueSystem order capacity) (queueView life.started.engine) visible =
        some (queueView final) := by
  have kept : EngineKept life.started.engine :=
    engine_kept_start life.engine.ring rfl life.engine.memory rfl rfl rfl fun _ => rfl
  refine run_labels_refine queueView ?_ kept run
  intro state label next kept taken
  exact ⟨engine_kept_step kept taken,
    (fine_step_refines kept.valid (starts_alone kept label) taken).2⟩

theorem started_eq {life after : Life order capacity} (started : life.run = .started after) :
    after = life.started := by
  unfold Life.run at started
  split_ifs at started
  cases started
  rfl

/-- The first message of the session is the expected one, or none is expected. -/
def Continues (state : QueueState order capacity) (label : Thread × Input) : Prop :=
  label.1 = .consumer → ∀ idx, state.consumer = .stage idx .classify →
    ContinuesWith state.memory.session

/-- The same flags and histories; the slots may hold anything. -/
def MemoriesAlike (base : Metrics) (left right : Memory) (point : Option StagePoint) : Prop :=
  ∃ slots session, left = { right with slots := slots, session := session } ∧
    SessionsAlike base session right.session point

section Effects

variable {base : Metrics} {left right after : Memory} {input : Input} {point : Option StagePoint}

theorem memories_alike_later {later : Option StagePoint}
    (alike : MemoriesAlike base left right point)
    (outside : ∀ missing, later ≠ some (.closeGap missing)) :
    MemoriesAlike base left right later := by
  obtain ⟨slots, session, same, sessions⟩ := alike
  exact ⟨slots, session, same, sessions_alike_later sessions outside⟩

/-- The server does not look into slots and session. -/
theorem server_effect_alike {server next : ServerLocation}
    {effect : Memory → Input → Option (Memory × ServerLocation)}
    (alike : MemoriesAlike base left right point) (action : serverAction server = .memory effect)
    (result : effect left input = some (after, next)) :
    ∃ other, effect right input = some (other, next) ∧ MemoriesAlike base after other point := by
  obtain ⟨slots, session, rfl, sessions⟩ := alike
  cases server with
  | wait =>
      cases action
      cases input with
      | epoll reply =>
          cases reply with
          | events first rest =>
              simp only at result ⊢
              rw [show eventsPossible { right with slots := slots, session := session } =
                eventsPossible right from rfl] at result
              split_ifs at result ⊢
              cases result
              exact ⟨right, rfl, slots, session, rfl, sessions⟩
          | _ =>
              cases result
              exact ⟨right, rfl, slots, session, rfl, sessions⟩
      | _ => cases result
  | dispatch events =>
      cases action
      cases events with
      | nil =>
          cases result
          exact ⟨right, rfl, slots, session, rfl, sessions⟩
      | cons event rest =>
          cases event with
          | socket failed =>
              cases failed <;> cases result <;> exact ⟨_, rfl, slots, session, rfl, sessions⟩
          | _ =>
              cases result
              exact ⟨_, rfl, slots, session, rfl, sessions⟩
  | receive events =>
      cases action
      cases input with
      | recv reply =>
          cases reply with
          | batch first rest =>
              simp only [receiveReply] at result ⊢
              split_ifs at result ⊢
              cases result
              exact ⟨_, rfl, slots, session, rfl, sessions⟩
          | _ =>
              cases result
              exact ⟨right, rfl, slots, session, rfl, sessions⟩
      | _ => cases result
  | copySlot events idx datagram batch =>
      cases action
      cases result
      exact ⟨_, rfl, _, session, rfl, sessions⟩
  | dropInvalid events batch =>
      cases action
      cases result
      exact ⟨_, rfl, slots, _, rfl, sessions_alike_drop_one sessions⟩
  | dropNoSlot events batch =>
      cases action
      cases result
      exact ⟨_, rfl, slots, _, rfl, sessions_alike_drop_one sessions⟩
  | dropRefused events idx batch =>
      cases action
      cases result
      exact ⟨_, rfl, slots, _, rfl, sessions_alike_drop_one sessions⟩
  | takeSlot events datagram batch => cases action
  | publish events idx batch => cases action
  | giveBack events idx batch => cases action
  | finished => cases action
  | _ =>
      cases action
      cases result
      exact ⟨_, rfl, slots, session, rfl, sessions⟩

theorem control_effect_alike {control next : ControlLocation}
    {effect : Memory → Input → Option (Memory × ControlLocation)}
    (alike : MemoriesAlike base left right point) (action : controlAction control = .memory effect)
    (result : effect left input = some (after, next)) :
    ∃ other, effect right input = some (other, next) ∧ MemoriesAlike base after other point := by
  obtain ⟨slots, session, rfl, sessions⟩ := alike
  cases control with
  | joinServer =>
      cases action
      simp only at result ⊢
      split_ifs at result ⊢
      cases result
      exact ⟨right, rfl, slots, session, rfl, sessions⟩
  | joinConsumer =>
      cases action
      simp only at result ⊢
      split_ifs at result ⊢
      cases result
      exact ⟨right, rfl, slots, session, rfl, sessions⟩
  | returned => cases action
  | _ =>
      cases action
      cases result
      exact ⟨_, rfl, slots, session, rfl, sessions⟩

/-- The slot that is decoded next holds the same bytes on both sides: it was filled in this
session, with the datagram behind those already decoded. -/
theorem next_slot_alike {queues : PoolRing → List Nat} {server : ServerLocation} {idx : Nat}
    {point : Option StagePoint} (alike : MemoriesAlike base left right point)
    (ownedLeft : Owned capacity queues left server (.stage idx .decode))
    (ownedRight : Owned capacity queues right server (.stage idx .decode)) :
    left.slots idx = right.slots idx := by
  have flowLeft := ownedLeft.flow
  have flowRight := ownedRight.flow
  obtain ⟨slots, session, rfl, sessions⟩ := alike
  rw [show ({ right with slots := slots, session := session } : Memory).accepted =
      right.accepted from rfl, flowRight,
    show ({ right with slots := slots, session := session } : Memory).session.decoded =
      right.session.decoded from sessions.decoded] at flowLeft
  have same := List.map_inj_left.mp (List.append_cancel_left flowLeft) idx (by
    simp [ConsumerLocation.undecoded])
  exact same.symm

theorem consumer_effect_alike {queues : PoolRing → List Nat} {server : ServerLocation}
    {consumer next : ConsumerLocation}
    {effect : Memory → Input → Option (Memory × ConsumerLocation)}
    (alike : MemoriesAlike base left right consumer.point)
    (ownedLeft : Owned capacity queues left server consumer)
    (ownedRight : Owned capacity queues right server consumer)
    (continues : ∀ idx, consumer = .stage idx .classify → ContinuesWith left.session)
    (action : consumerAction order consumer = .memory effect)
    (result : effect left input = some (after, next)) :
    ∃ other, effect right input = some (other, next) ∧
      MemoriesAlike base after other next.point := by
  cases consumer with
  | stage idx point =>
      cases action
      have frames : stageStep order (left.slots idx) right.session point =
          stageStep order (right.slots idx) right.session point := by
        by_cases first : point = .decode
        · subst first
          rw [next_slot_alike alike ownedLeft ownedRight]
        · exact stage_step_other_frame order _ _ _ first
      obtain ⟨slots, session, rfl, sessions⟩ := alike
      obtain ⟨sameLater, later⟩ := @stage_step_alike _ _ _ order (slots idx) point sessions
        fun at_ => continues idx (by rw [at_])
      cases result
      have reached : (stageNext order idx point
          { right with slots := slots, session := session }).2.point =
          (stageStep order (slots idx) session point).2 := by
        simp only [stageNext]
        cases (stageStep order (slots idx) session point).2 <;> rfl
      refine ⟨(stageNext order idx point right).1, ?_, slots, _, rfl, ?_⟩
      · unfold stageNext
        simp only [sameLater, frames]
      · show SessionsAlike base _ (stageStep order (right.slots idx) right.session point).1
          (stageNext order idx point { right with slots := slots, session := session }).2.point
        rw [reached, ← frames]
        exact later
  | loopTest =>
      cases action
      obtain ⟨slots, session, rfl, sessions⟩ := alike
      cases result
      refine ⟨right, rfl, slots, session, rfl, sessions_alike_later sessions ?_⟩
      cases right.running <;> simp [ConsumerLocation.point]
  | recycled ok =>
      cases action
      cases result
      exact ⟨right, rfl, memories_alike_later alike (by simp [ConsumerLocation.point])⟩
  | leave =>
      cases action
      obtain ⟨slots, session, rfl, sessions⟩ := alike
      cases result
      exact ⟨_, rfl, slots, session, rfl,
        sessions_alike_later sessions (by simp [ConsumerLocation.point])⟩
  | emptyTest => cases action
  | take => cases action
  | recycle idx => cases action
  | finished => cases action

end Effects

/-! ## Whole sessions -/

/-- The same queues, the same points and memories alike. -/
def StatesAlike (base : Metrics) (left right : QueueState order capacity) : Prop :=
  ∃ memory, left = { right with memory := memory } ∧
    MemoriesAlike base memory right.memory right.consumer.point ∧
    StateOwned left ∧ StateOwned right

section Sessions

variable {base : Metrics} {left right next : QueueState order capacity} {label : Thread × Input}

/-- A thread takes the step with either memory, if its calls and effects allow it. -/
theorem queue_step_alike {Location : Type} {action : EngineAction Location}
    {queues nextQueues : PoolRing → List Nat} {memory other after : Memory} {input : Input}
    {location : Location} (point : Location → Option StagePoint)
    (calls : ∀ call next result, action = .call call next →
      MemoriesAlike base memory other (point (next result)))
    (effects : ∀ effect after next, action = .memory effect →
      effect memory input = some (after, next) →
      ∃ result, effect other input = some (result, next) ∧
        MemoriesAlike base after result (point next))
    (step : queueStep capacity action queues memory input = some (nextQueues, after, location)) :
    ∃ result, queueStep capacity action queues other input = some (nextQueues, result, location) ∧
      MemoriesAlike base after result (point location) := by
  cases action with
  | halt => cases step
  | call call next =>
      cases step
      exact ⟨other, rfl, calls call next _ rfl⟩
  | memory effect =>
      obtain ⟨⟨moved, reached⟩, taken, same⟩ := Option.map_eq_some_iff.mp step
      cases same
      obtain ⟨result, follows, alike⟩ := effects effect moved reached rfl taken
      refine ⟨result, ?_, alike⟩
      show (effect other input).map _ = _
      rw [follows]
      rfl

theorem consumer_step_alike {queues nextQueues : PoolRing → List Nat} {memory other after : Memory}
    {input : Input} {server : ServerLocation} {consumer location : ConsumerLocation}
    (alike : MemoriesAlike base memory other consumer.point)
    (ownedLeft : Owned capacity queues memory server consumer)
    (ownedRight : Owned capacity queues other server consumer)
    (continues : ∀ idx, consumer = .stage idx .classify → ContinuesWith memory.session)
    (step : queueStep capacity (consumerAction order consumer) queues memory input =
      some (nextQueues, after, location)) :
    ∃ result, queueStep capacity (consumerAction order consumer) queues other input =
        some (nextQueues, result, location) ∧ MemoriesAlike base after result location.point := by
  refine queue_step_alike ConsumerLocation.point ?_ ?_ step
  · intro call next result action
    apply memories_alike_later alike
    intro missing inside
    obtain ⟨-, outside | outside⟩ := consumer_call_point action result
    · rw [outside] at inside
      cases inside
    · rw [outside] at inside
      cases inside
  · intro effect after next action result
    exact consumer_effect_alike alike ownedLeft ownedRight continues action result

/-- Whatever the left engine does, the right one does too. -/
theorem states_alike_step (alike : StatesAlike base left right) (continues : Continues left label)
    (taken : atomicStep (program order) left label = some next) :
    ∃ other, atomicStep (program order) right label = some other ∧
      StatesAlike base next other := by
  obtain ⟨memory, rfl, memories, ownedLeft, ownedRight⟩ := alike
  have ownedNext := owned_step ownedLeft taken
  obtain ⟨thread, input⟩ := label
  obtain ⟨location, step, moved⟩ := atomic_step_eq_some _ taken
  have follows : ∃ result, actionStep (fifoObject PoolRing Nat capacity)
      ((program order).action thread (right.location thread)) right.shared right.memory input =
        some (next.shared, result, location) ∧
      MemoriesAlike base next.memory result next.consumer.point := by
    cases thread with
    | server =>
        have apart : Thread.consumer ≠ Thread.server := nofun
        have stays : next.consumer = right.consumer :=
          (congrFun moved .consumer).trans (Function.update_of_ne apart location right.location)
        rw [stays]
        exact queue_step_alike (fun _ => right.consumer.point) (fun _ _ _ _ => memories)
          (fun _ _ _ action result => server_effect_alike memories action result) step
    | consumer =>
        have reached : next.consumer = location :=
          (congrFun moved .consumer).trans (Function.update_self _ _ _)
        rw [reached]
        exact consumer_step_alike memories ownedLeft ownedRight (continues rfl) step
    | control =>
        have apart : Thread.consumer ≠ Thread.control := nofun
        have stays : next.consumer = right.consumer :=
          (congrFun moved .consumer).trans (Function.update_of_ne apart location right.location)
        rw [stays]
        exact queue_step_alike (fun _ => right.consumer.point) (fun _ _ _ _ => memories)
          (fun _ _ _ action result => control_effect_alike memories action result) step
  obtain ⟨result, stepped, later⟩ := follows
  have other : atomicStep (program order) right (thread, input) =
      some { next with memory := result } := by
    rw [@atomic_step_of_action _ _ _ _ _ _ _ (program order) right (thread, input) _ _ _ stepped]
    show some (AtomicState.mk next.shared result _) = some (AtomicState.mk _ _ next.location)
    rw [moved]
  exact ⟨_, other, next.memory, rfl, later, ownedNext, owned_step ownedRight other⟩

/-- The queues and the threads of a session that begins do not depend on the sessions before. -/
theorem queue_restart_eq {before other : Memory} (restart : QueueRestart before left)
    (new : QueueRestart other right) : left = { right with memory := before.restarted } := by
  obtain ⟨free, ready, memory, server, consumer, control⟩ := restart
  obtain ⟨newFree, newReady, -, newServer, newConsumer, newControl⟩ := new
  have queues : left.shared = right.shared := by
    funext name
    cases name with
    | free => exact free.trans newFree.symm
    | ready => exact ready.trans newReady.symm
  have threads : left.location = right.location := by
    funext thread
    cases thread with
    | server => exact server.trans newServer.symm
    | consumer => exact consumer.trans newConsumer.symm
    | control => exact control.trans newControl.symm
  show AtomicState.mk left.shared left.memory left.location = _
  rw [queues, threads, memory]

theorem owned_restart {before : Memory} (restart : QueueRestart before left) : StateOwned left := by
  obtain ⟨free, ready, memory, server, consumer, -⟩ := restart
  unfold StateOwned
  rw [memory, server, consumer]
  exact owned_begin free ready rfl rfl rfl

theorem restart_alike {before other : Memory} (restart : QueueRestart before left)
    (new : QueueRestart other right) (fresh : other.session = .fresh) :
    StatesAlike before.session.metrics left right := by
  have memory : right.memory = other.restarted := new.2.2.1
  have consumer : right.consumer = .loopTest := new.2.2.2.2.1
  refine ⟨before.restarted, queue_restart_eq restart new, ?_, owned_restart restart,
    owned_restart new⟩
  refine ⟨before.slots, before.restarted.session, ?_, ?_⟩
  · rw [memory]
    rfl
  · rw [memory]
    have session : other.restarted.session = .fresh := by
      simp only [Memory.restarted, fresh]
    rw [session]
    refine ⟨rfl, rfl, (Metrics.add_zero _).symm, .inr ⟨rfl, rfl, ?_⟩⟩
    rw [consumer]
    simp [ConsumerLocation.point]

theorem second_session_alike {life after fresh new : Life order capacity}
    (restarted : life.run = .started after) (initial : fresh.Initial)
    (started : fresh.run = .started new) {labels : List (Thread × Input)}
    {final : QueueState order capacity}
    (run : RunsUnder (queueSystem order capacity) Continues (queueView after.engine) labels final) :
    ∃ other, runLabels (queueSystem order capacity) (queueView new.engine) labels = some other ∧
      final.memory.session.metrics.since life.engine.memory.session.metrics =
        other.memory.session.metrics ∧
      final.shared = other.shared ∧ final.location = other.location := by
  obtain rfl := started_eq restarted
  obtain rfl := started_eq started
  have alike := restart_alike (started_restarts life) (started_restarts fresh) initial.session
  have stepped : ∀ (left right : QueueState order capacity) label next,
      StatesAlike life.engine.memory.session.metrics left right → Continues left label →
      (queueSystem order capacity).step left label = some next →
      ∃ other, (queueSystem order capacity).step right label = some other ∧
        StatesAlike life.engine.memory.session.metrics next other :=
    fun _ _ _ _ alike continues taken => states_alike_step alike continues taken
  obtain ⟨other, ran, memory, rfl, ⟨slots, session, same, sessions⟩, -⟩ :=
    runs_alike stepped alike run
  refine ⟨other, ran, ?_, rfl, rfl⟩
  show memory.session.metrics.since _ = _
  rw [same, sessions.metrics, Metrics.add_since]

end Sessions

/-! ## Sessions of one datagram -/

def continues (state : QueueState order capacity) (label : Thread × Input) : Bool :=
  !(label.1 == .consumer && state.consumer.point == some .classify &&
    state.memory.session.classified.isEmpty && state.memory.session.tracker.seqInitialized) ||
    state.memory.session.msg.seqNum == state.memory.session.tracker.expectedSeqNum

theorem continues_of_check (state : QueueState order capacity) (label : Thread × Input)
    (checked : continues state label = true) : Continues state label := by
  intro consumer idx at_ nothing known
  simpa [continues, consumer, at_, nothing, known, ConsumerLocation.point] using checked

/-- A datagram arrives, is processed, and `stop()` returns. -/
def firstSession : List LifeLabel :=
  (ticks .server 1 ++ epollReply (.events (.socket false) []) ++ ticks .server 1 ++
    recvReply (.batch (List.replicate 44 7) []) ++ ticks .server 13 ++ recvReply .again ++
    ticks .server 1 ++ ticks .consumer 15 ++ ticks .control 3 ++ ticks .consumer 4 ++
    ticks .server 2 ++ ticks .control 2).map fun label => .thread label.1 label.2

/-- A datagram arrives and is classified. -/
def secondSession (datagram : Datagram) : List (Thread × Input) :=
  ticks .server 1 ++ epollReply (.events (.socket false) []) ++ ticks .server 1 ++
    recvReply (.batch datagram []) ++ ticks .server 4 ++ ticks .consumer 5

/-- The engine over atomic queues when the session behind `before` begins. -/
def restartedQueues (before : Memory) : QueueState .little kPoolCapacity :=
  { freshQueues with memory := before.restarted }

theorem restarted_queues_eq {before : Memory} {state : QueueState .little kPoolCapacity}
    (restart : QueueRestart before state) : state = restartedQueues before := by
  have fresh : QueueRestart newLife.engine.memory freshQueues :=
    ⟨fresh_queues_start.1, rfl, rfl, rfl, rfl, rfl⟩
  exact queue_restart_eq restart fresh

/-- A stopped engine with its threads joined. -/
def restartable (life : Life order capacity) : Bool :=
  decide (life.engine.control = .returned) && !life.engine.memory.handleRunning &&
    !(life.ioJoinable || life.consumerJoinable)

theorem run_starts {life : Life order capacity} (stopped : restartable life = true) :
    life.engine.control = .returned ∧ life.run = .started life.started := by
  simp only [restartable, Bool.and_eq_true, Bool.not_eq_true', decide_eq_true_eq] at stopped
  obtain ⟨⟨returned, handle⟩, joinable⟩ := stopped
  refine ⟨returned, ?_⟩
  unfold Life.run
  simp only [handle, joinable, Bool.false_eq_true, ↓reduceIte]

end MarketDataEngine.EngineV1

namespace MarketDataEngine.Engine

open MarketDataEngine.Protocol MarketDataEngine.Containers MarketDataEngine.TransitionSystem

/-- Any first session, then `stop()` and a restart. Engine v1 goes through its next session as
a new engine does, if the first message of the session is the one left as expected or none is
expected. Engine v2 always does. -/
theorem restarted_engine_forgets (order : ByteOrder) (capacity : Capacity) :
    (∀ life after fresh new : EngineV1.Life order capacity, life.run = .started after →
      fresh.Initial → fresh.run = .started new → ∀ labels final,
      RunsUnder (EngineV1.queueSystem order capacity) EngineV1.Continues
        (EngineV1.queueView after.engine) labels final →
      ∃ other, runLabels (EngineV1.queueSystem order capacity) (EngineV1.queueView new.engine)
          labels = some other ∧
        final.memory.session.metrics.since life.engine.memory.session.metrics =
          other.memory.session.metrics ∧
        final.shared = other.shared ∧ final.location = other.location) ∧
    ∀ before contents labels,
      (runLabels (EngineV2.system order capacity) (EngineV2.restartedState order before contents)
          labels).map (fun state => (state.memory.session.metrics.since before.session.metrics,
            state.shared, state.location)) =
        (runLabels (EngineV2.system order capacity) (EngineV2.startedState order contents)
          labels).map (fun state => (state.memory.session.metrics, state.shared,
            state.location)) := by
  refine ⟨?_, EngineV2.restarted_runs_alike⟩
  intro life after fresh new restarted initial started labels final run
  exact EngineV1.second_session_alike restarted initial started run

section Runs

open MarketDataEngine.EngineV1

/-- The second session goes on with the sequence number behind the one of the first. -/
theorem continued_session_alike :
    ∃ life after new final other, Reaches (lives .little EngineV1.kPoolCapacity) life ∧
      life.engine.memory.session.tracker.seqInitialized = true ∧
      life.run = .started after ∧ newLife.run = .started new ∧
      RunsUnder (queueSystem .little EngineV1.kPoolCapacity) Continues
        (EngineV1.queueView after.engine) (secondSession ((List.replicate 44 7).set 7 8)) final ∧
      runLabels (queueSystem .little EngineV1.kPoolCapacity) (EngineV1.queueView new.engine)
        (secondSession ((List.replicate 44 7).set 7 8)) = some other ∧
      final.memory.session.metrics.since life.engine.memory.session.metrics =
        other.memory.session.metrics := by
  have outcome : (runLabels (lives .little EngineV1.kPoolCapacity) startedLife firstSession).map
      (fun life => (restartable life, life.engine.memory.session.tracker.seqInitialized,
        (runChecked (queueSystem .little EngineV1.kPoolCapacity) continues
          (restartedQueues life.engine.memory)
          (secondSession ((List.replicate 44 7).set 7 8))).isSome)) = some (true, true, true) := by
    decide +kernel
  obtain ⟨life, ran, seen⟩ := Option.map_eq_some_iff.mp outcome
  obtain ⟨stopped, seen⟩ := Prod.mk.inj seen
  obtain ⟨known, second⟩ := Prod.mk.inj seen
  obtain ⟨final, checked⟩ := Option.isSome_iff_exists.mp second
  rw [← restarted_queues_eq (started_restarts life)] at checked
  have restarted := (run_starts stopped).2
  have started : newLife.run = .started newLife.started := (run_starts rfl).2
  have run := runs_under_of_checked continues_of_check checked
  obtain ⟨other, follows, increments, -⟩ :=
    (restarted_engine_forgets .little EngineV1.kPoolCapacity).1 life _ newLife _ restarted
      new_life_initial started _ final run
  exact ⟨life, _, _, final, other, reaches_run started_life_reached ran, known, restarted, started,
    run, follows, increments⟩

/-- Engine v1 gets the same datagram in two sessions. The second drops it, and a new engine
processes it. -/
theorem second_session_drops :
    ∃ life after new final other, Reaches (lives .little EngineV1.kPoolCapacity) life ∧
      life.engine.control = .returned ∧ life.run = .started after ∧
      newLife.Initial ∧ newLife.run = .started new ∧
      runLabels (queueSystem .little EngineV1.kPoolCapacity) (EngineV1.queueView after.engine)
        (secondSession (List.replicate 44 7)) = some final ∧
      runLabels (queueSystem .little EngineV1.kPoolCapacity) (EngineV1.queueView new.engine)
        (secondSession (List.replicate 44 7)) = some other ∧
      final.memory.session.metrics.since life.engine.memory.session.metrics = ⟨0, 1, 0, 1, 0⟩ ∧
      other.memory.session.metrics = ⟨1, 1, 0, 0, 0⟩ := by
  have outcome : (runLabels (lives .little EngineV1.kPoolCapacity) startedLife firstSession).map
      (fun life => (restartable life,
        (runLabels (queueSystem .little EngineV1.kPoolCapacity) (restartedQueues life.engine.memory)
          (secondSession (List.replicate 44 7))).map fun final =>
            final.memory.session.metrics.since life.engine.memory.session.metrics)) =
      some (true, some ⟨0, 1, 0, 1, 0⟩) := by
    decide +kernel
  have fresh : (runLabels (queueSystem .little EngineV1.kPoolCapacity)
      (restartedQueues newLife.engine.memory) (secondSession (List.replicate 44 7))).map
        (fun other => other.memory.session.metrics) = some ⟨1, 1, 0, 0, 0⟩ := by
    decide +kernel
  obtain ⟨life, ran, seen⟩ := Option.map_eq_some_iff.mp outcome
  obtain ⟨stopped, second⟩ := Prod.mk.inj seen
  obtain ⟨final, secondRun, increments⟩ := Option.map_eq_some_iff.mp second
  obtain ⟨other, freshRun, counted⟩ := Option.map_eq_some_iff.mp fresh
  rw [← restarted_queues_eq (started_restarts life)] at secondRun
  rw [← restarted_queues_eq (started_restarts newLife)] at freshRun
  obtain ⟨returned, restarted⟩ := run_starts stopped
  exact ⟨life, _, _, final, other, reaches_run started_life_reached ran, returned, restarted,
    new_life_initial, (run_starts rfl).2, secondRun, freshRun, increments, counted⟩

end Runs

end MarketDataEngine.Engine
