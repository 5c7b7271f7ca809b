import MarketDataEngine.EngineV2Model

/-!
# Engine v2 from `receive()` to `stop()` and again

The control thread makes calls of `receive()` and `stop()` one after the other, step by step,
while the I/O thread and the consumer of the engine run their loops. Allocating the pool,
opening the receiver and creating a thread may fail; the reporter may leave at any time. The
workers read the member `pool_`, which is why a worker may not outlive it.

Every pool that is allocated gets a serial number. `ioFailed` is a history: since the last
`stop()` the I/O thread has met a receive error and cleared `running_`. A thread that was
never started counts as finished.
-/

namespace MarketDataEngine.EngineV2

open MarketDataEngine.Protocol MarketDataEngine.Containers MarketDataEngine.Engine
open MarketDataEngine.Net MarketDataEngine.TransitionSystem MarketDataEngine.SteppedObject

set_option autoImplicit false

variable {order : ByteOrder} {capacity : Capacity}

/-! ## What `receive()` does to the memory -/

namespace Memory

variable (memory : Memory)

/-- `recv_ready_ns_` and the latencies are cleared. -/
def clearStamps : Memory := { memory with recvReadyNs := fun _ => 0, latencies := [] }

/-- A new pool; the histories of what it receives begin with it. -/
def newPool (slots : Nat → Frame) : Memory :=
  { memory with slots := slots, obtained := [], abandonedFrames := [], abandonedIndices := [] }

/-- The counters are kept. `msg` is a local of `process`. -/
def resetTracker : Memory :=
  { memory with session := { Session.fresh with metrics := memory.session.metrics } }

/-- `Receiver::open` closes the receiver first; its statistics are kept. -/
def openReceiver (ok : Bool) : Memory :=
  { memory with receiver := { memory.receiver.close with fdOpen := ok } }

def closeReceiver : Memory := { memory with receiver := memory.receiver.close }

def start : Memory := { memory with running := true }

def startIo : Memory := { memory with ioDone := false }

def startConsumer : Memory := { memory with consumerDone := false }

/-- The memory when the threads of a successful `receive()` start. -/
def restarted (slots : Nat → Frame) : Memory :=
  let reset := (memory.clearStamps.newPool slots).resetTracker
  (reset.openReceiver true).start.startIo.startConsumer

end Memory

/-! ## The calls -/

inductive StopPoint where
  | clearRunning
  | closeReceiver
  | joinIo
  | joinConsumer
  | joinReporter
  | releasePool
  deriving DecidableEq

/-- The points of the calls. `refused` is the return of `false` by a `receive()` that did not
find the engine running; `stopping true` is the `stop()` inside `receive()`. -/
inductive LifePoint where
  | idle
  | test
  | clear
  | createPool
  | resetTracker
  | openReceiver
  | storeRunning
  | spawnIo
  | spawnConsumer
  | spawnReporter
  | refused
  | stopping (inReceive : Bool) (point : StopPoint)
  deriving DecidableEq

/-- The memory of a new pool, which `create_frame_pool` initialises. -/
structure PoolContents (capacity : Capacity) where
  slots : Nat → Frame
  rings : PoolRing → RingBuffer Nat capacity

/-- `ok` is whether the call at this point succeeds. -/
inductive LifeLabel (capacity : Capacity) where
  | receive
  | stop
  | control (ok : Bool)
  | createPool (contents : Option (PoolContents capacity))
  | worker (thread : Thread) (input : Input)
  | reporterLeaves

structure Life (order : ByteOrder) (capacity : Capacity) where
  point : LifePoint
  engine : State order capacity
  pool : Option Nat
  nextPool : Nat
  released : List Nat
  ioJoinable : Bool
  consumerJoinable : Bool
  reporterJoinable : Bool
  reporterDone : Bool
  ioFailed : Bool

def IoLocation.isFinished : IoLocation → Bool
  | .finished => true
  | _ => false

def ConsumerLocation.isFinished : ConsumerLocation → Bool
  | .finished => true
  | _ => false

/-- Where `running_` is cleared because of a receive error. -/
def IoLocation.storesError : IoLocation → Bool
  | .errorStore => true
  | _ => false

namespace Life

variable (life : Life order capacity)

def goto (point : LifePoint) : Life order capacity := { life with point := point }

def withMemory (memory : Memory) : Life order capacity :=
  { life with engine := { life.engine with memory := memory } }

def running : Bool := life.engine.memory.running

/-- `release_pool` -/
def releasePool : Life order capacity :=
  { life with pool := none, released := life.released ++ life.pool.toList }

def createPool : Option (PoolContents capacity) → Life order capacity
  | none => { life with pool := none, point := .refused }
  | some contents =>
      { life with
        point := .resetTracker
        pool := some life.nextPool
        nextPool := life.nextPool + 1
        engine := { life.engine with
          shared := FramePool.initRings contents.rings
          memory := life.engine.memory.newPool contents.slots } }

/-- `io_thread_ = std::thread(...)`, which is `std::terminate` over a joinable thread. -/
def spawnIo : Option (Life order capacity) :=
  if life.ioJoinable then none
  else some { life with
    point := .spawnConsumer
    ioJoinable := true
    engine := memoryStep (program order) life.engine .io life.engine.memory.startIo .loopTest }

def spawnConsumer : Option (Life order capacity) :=
  if life.consumerJoinable then none
  else some { life with
    point := .spawnReporter
    consumerJoinable := true
    engine := memoryStep (program order) life.engine .consumer
      life.engine.memory.startConsumer .loopTest }

def spawnReporter : Option (Life order capacity) :=
  if life.reporterJoinable then none
  else some { life with point := .idle, reporterJoinable := true, reporterDone := false }

/-- A step of `stop()`. A join of a joinable thread waits for its end. -/
def stopStep (inReceive : Bool) : StopPoint → Option (Life order capacity)
  | .clearRunning =>
      some ((life.withMemory life.engine.memory.stop).goto (.stopping inReceive .closeReceiver))
  | .closeReceiver =>
      some ((life.withMemory life.engine.memory.closeReceiver).goto (.stopping inReceive .joinIo))
  | .joinIo =>
      if life.ioJoinable && !life.engine.io.isFinished then none
      else some { life with point := .stopping inReceive .joinConsumer, ioJoinable := false }
  | .joinConsumer =>
      if life.consumerJoinable && !life.engine.consumer.isFinished then none
      else some { life with
        point := .stopping inReceive .joinReporter, consumerJoinable := false }
  | .joinReporter =>
      if life.reporterJoinable && !life.reporterDone then none
      else some { life with
        point := .stopping inReceive .releasePool, reporterJoinable := false }
  | .releasePool =>
      some { life.releasePool with
        point := if inReceive then .refused else .idle
        ioFailed := false }

/-- A step of the call under way. -/
def controlStep (ok : Bool) : Option (Life order capacity) :=
  match life.point with
  | .idle => none
  | .test => some (life.goto (if life.running then .idle else .clear))
  | .clear => some ((life.withMemory life.engine.memory.clearStamps).goto .createPool)
  | .createPool => none
  | .resetTracker =>
      some ((life.withMemory life.engine.memory.resetTracker).goto .openReceiver)
  | .openReceiver =>
      let opened := life.withMemory (life.engine.memory.openReceiver ok)
      some (if ok then opened.goto .storeRunning else opened.releasePool.goto .refused)
  | .storeRunning => some ((life.withMemory life.engine.memory.start).goto .spawnIo)
  | .spawnIo => if ok then life.spawnIo else some (life.goto (.stopping true .clearRunning))
  | .spawnConsumer =>
      if ok then life.spawnConsumer else some (life.goto (.stopping true .clearRunning))
  | .spawnReporter =>
      if ok then life.spawnReporter else some (life.goto (.stopping true .clearRunning))
  | .refused => some (life.goto .idle)
  | .stopping inReceive point => life.stopStep inReceive point

def workerStep (input : Input) : Thread → Option (Life order capacity)
  | .io =>
      (fineStep (program order) life.engine (.io, input)).map fun engine =>
        { life with
          engine := engine
          ioFailed := life.ioFailed || life.engine.io.storesError }
  | .consumer =>
      (fineStep (program order) life.engine (.consumer, input)).map fun engine =>
        { life with engine := engine }
  | .control => none

def step : LifeLabel capacity → Option (Life order capacity)
  | .receive => if life.point = .idle then some (life.goto .test) else none
  | .stop =>
      if life.point = .idle then some (life.goto (.stopping false .clearRunning)) else none
  | .control ok => life.controlStep ok
  | .createPool contents =>
      if life.point = .createPool then some (life.createPool contents) else none
  | .worker thread input => life.workerStep input thread
  | .reporterLeaves => some { life with reporterDone := true }

/-- `Engine engine;` -/
structure Initial (life : Life order capacity) : Prop where
  point : life.point = .idle
  pool : life.pool = none
  nextPool : life.nextPool = 0
  released : life.released = []
  threads : life.ioJoinable = false ∧ life.consumerJoinable = false ∧
    life.reporterJoinable = false
  workers : life.engine.io = .finished ∧ life.engine.consumer = .finished
  running : life.running = false
  ioFailed : life.ioFailed = false

end Life

def lives (order : ByteOrder) (capacity : Capacity) :
    System (Life order capacity) (LifeLabel capacity) where
  start := Life.Initial
  step := Life.step

/-- No `receive()` finds the engine stopped by a receive error: `stop()` comes first. -/
def StoppedAfterError (life : Life order capacity) : LifeLabel capacity → Prop
  | .control _ => life.point = .test → life.ioFailed = false
  | _ => True

/-- What the lifecycle is to guarantee. -/
structure LifeSafe (life : Life order capacity) : Prop where
  /-- No thread is assigned over a joinable one. -/
  io_assigned : life.point = .spawnIo → life.ioJoinable = false
  consumer_assigned : life.point = .spawnConsumer → life.consumerJoinable = false
  reporter_assigned : life.point = .spawnReporter → life.reporterJoinable = false
  /-- No pool is overwritten, and so none is leaked. -/
  pool_assigned : life.point = .createPool → life.pool = none
  none_leaked : ∀ serial < life.nextPool, serial ∈ life.released ∨ life.pool = some serial
  /-- The workers run on a pool that has not been released. -/
  on_pool : life.engine.io ≠ .finished ∨ life.engine.consumer ≠ .finished →
    ∃ serial, life.pool = some serial ∧ serial ∉ life.released
  refused_clean : life.point = .refused → life.pool = none ∧ life.ioJoinable = false ∧
    life.consumerJoinable = false ∧ life.reporterJoinable = false

/-! ## What every step keeps -/

/-- The serial numbers of the pools: each is released or the current one. -/
structure PoolsKept (life : Life order capacity) : Prop where
  placed : ∀ serial < life.nextPool, serial ∈ life.released ∨ life.pool = some serial
  current : ∀ serial, life.pool = some serial → serial < life.nextPool ∧ serial ∉ life.released
  older : ∀ serial ∈ life.released, serial < life.nextPool

/-- What is known at a point of a call. -/
def Life.AtPoint (life : Life order capacity) : LifePoint → Prop
  | .idle => life.pool = none ∨ life.running = true ∨ life.ioFailed = true
  | .test => life.pool = none ∨ life.running = true ∨ life.ioFailed = true
  | .clear => life.pool = none
  | .createPool => life.pool = none
  | .resetTracker => life.pool ≠ none ∧ life.ioJoinable = false ∧
      life.consumerJoinable = false ∧ life.reporterJoinable = false
  | .openReceiver => life.pool ≠ none ∧ life.ioJoinable = false ∧
      life.consumerJoinable = false ∧ life.reporterJoinable = false
  | .storeRunning => life.pool ≠ none ∧ life.ioJoinable = false ∧
      life.consumerJoinable = false ∧ life.reporterJoinable = false
  | .spawnIo => (life.pool ≠ none ∧ (life.running = true ∨ life.ioFailed = true)) ∧
      life.ioJoinable = false ∧ life.consumerJoinable = false ∧ life.reporterJoinable = false
  | .spawnConsumer => (life.pool ≠ none ∧ (life.running = true ∨ life.ioFailed = true)) ∧
      life.consumerJoinable = false ∧ life.reporterJoinable = false
  | .spawnReporter => (life.pool ≠ none ∧ (life.running = true ∨ life.ioFailed = true)) ∧
      life.reporterJoinable = false
  | .refused => life.pool = none
  | .stopping _ .joinConsumer => life.ioJoinable = false
  | .stopping _ .joinReporter => life.ioJoinable = false ∧ life.consumerJoinable = false
  | .stopping _ .releasePool => life.ioJoinable = false ∧ life.consumerJoinable = false ∧
      life.reporterJoinable = false
  | .stopping _ _ => True

structure LifeKept (life : Life order capacity) : Prop where
  io_alive : life.engine.io ≠ .finished → life.ioJoinable = true
  consumer_alive : life.engine.consumer ≠ .finished → life.consumerJoinable = true
  pooled : life.pool = none → life.ioJoinable = false ∧ life.consumerJoinable = false ∧
    life.reporterJoinable = false
  pools : PoolsKept life
  at_point : life.AtPoint life.point

section Steps

variable {life next : Life order capacity}

theorem kept_initial (initial : life.Initial) : LifeKept life := by
  refine ⟨fun alive => absurd initial.workers.1 alive, fun alive => absurd initial.workers.2 alive,
    fun _ => initial.threads, ⟨?_, ?_, ?_⟩, ?_⟩
  · intro serial early
    rw [initial.nextPool] at early
    exact absurd early (Nat.not_lt_zero serial)
  · intro serial its
    rw [initial.pool] at its
    cases its
  · intro serial member
    rw [initial.released] at member
    exact absurd member List.not_mem_nil
  · rw [initial.point]
    exact .inl initial.pool

theorem safe_of_kept (kept : LifeKept life) : LifeSafe life := by
  have at_point := kept.at_point
  have apart : ∀ {point}, life.point = point → life.AtPoint point := by
    intro point at_
    rw [← at_]
    exact at_point
  refine ⟨fun at_ => (apart at_).2.1, fun at_ => (apart at_).2.1, fun at_ => (apart at_).2,
    fun at_ => apart at_, kept.pools.placed, ?_, ?_⟩
  · intro alive
    have pooled : life.pool ≠ none := by
      intro none_
      obtain ⟨io, consumer, -⟩ := kept.pooled none_
      rcases alive with running | running
      · exact absurd (io.symm.trans (kept.io_alive running)) Bool.false_ne_true
      · exact absurd (consumer.symm.trans (kept.consumer_alive running)) Bool.false_ne_true
    obtain ⟨serial, its⟩ := Option.ne_none_iff_exists'.mp pooled
    exact ⟨serial, its, (kept.pools.current serial its).2⟩
  · intro at_
    exact ⟨apart at_, kept.pooled (apart at_)⟩

/-! ## The workers -/

theorem io_effect_running {io next : IoLocation} {memory after : Memory} {input : Input}
    {effect : Memory → Input → Option (Memory × IoLocation)}
    (action : ioAction io = .memory effect) (result : effect memory input = some (after, next)) :
    after.running = memory.running ∨ io.storesError = true := by
  have returned_running : ∀ site indices returned,
      (receiveReturned memory site indices returned).1.running = memory.running := by
    rintro site indices ⟨receiver, result⟩
    cases result <;> rfl
  cases io with
  | reserve site indices =>
      simp only [ioAction] at action
      split_ifs at action
      cases action
      cases result
      exact .inl rfl
  | receive site indices =>
      cases site with
      | outer =>
          cases action
          simp only at result
          split at result
          · obtain ⟨returned, -, moved⟩ := Option.map_eq_some_iff.mp result
            have running := returned_running .outer indices returned
            rw [moved] at running
            exact .inl running
          · cases result
      | drain =>
          cases action
          simp only at result
          split at result
          · obtain ⟨returned, -, moved⟩ := Option.map_eq_some_iff.mp result
            have running := returned_running .drain indices returned
            rw [moved] at running
            exact .inl running
          · cases result
  | batchTest frames unused =>
      cases action
      simp only at result
      split_ifs at result <;> cases result <;> exact .inl rfl
  | clock frames unused =>
      cases action
      simp only at result
      split at result <;> cases result
      exact .inl rfl
  | errorStore => exact .inr rfl
  | release afterRelease indices =>
      cases indices with
      | nil =>
          cases action
          cases result
          exact .inl rfl
      | cons idx rest => cases action
  | readyPush idx batch => cases action
  | dropReturn refused idx batch => cases action
  | finished => cases action
  | _ =>
      cases action
      cases result
      exact .inl rfl

theorem consumer_effect_running {consumer next : ConsumerLocation} {memory after : Memory}
    {input : Input} {effect : Memory → Input → Option (Memory × ConsumerLocation)}
    (action : consumerAction order consumer = .memory effect)
    (result : effect memory input = some (after, next)) : after.running = memory.running := by
  cases consumer with
  | collect indices =>
      simp only [consumerAction] at action
      split_ifs at action
      cases action
      cases result
      rfl
  | clock startNs work =>
      cases action
      simp only at result
      split at result <;> cases result
      unfold recordLatency
      split_ifs <;> rfl
  | recycle indices =>
      cases indices with
      | nil =>
          cases action
          cases result
          rfl
      | cons idx rest => cases action
  | emptyTest => cases action
  | finished => cases action
  | _ =>
      cases action
      cases result
      rfl

/-- A step of the I/O thread keeps the consumer where it is, and `running_` unless it meets
an error. -/
theorem io_step_frame {state after : State order capacity} {input : Input}
    (taken : fineStep (program order) state (.io, input) = some after) :
    state.io ≠ .finished ∧ after.consumer = state.consumer ∧
      (after.memory.running = state.memory.running ∨ state.io.storesError = true) := by
  obtain ⟨others, memory⟩ := fine_step_frame (program order) taken
  refine ⟨?_, others .consumer nofun, ?_⟩
  · intro finished
    apply fine_step_not_halted (program order) taken
    show ioAction state.io = .halt
    rw [finished]
    rfl
  · rcases memory with ⟨_, _, -, same⟩ | ⟨effect, location, action, result, -⟩
    · exact .inl (by rw [same])
    · exact io_effect_running action result

theorem consumer_step_frame {state after : State order capacity} {input : Input}
    (taken : fineStep (program order) state (.consumer, input) = some after) :
    state.consumer ≠ .finished ∧ after.io = state.io ∧
      after.memory.running = state.memory.running := by
  obtain ⟨others, memory⟩ := fine_step_frame (program order) taken
  refine ⟨?_, others .io nofun, ?_⟩
  · intro finished
    apply fine_step_not_halted (program order) taken
    show consumerAction order state.consumer = .halt
    rw [finished]
    rfl
  · rcases memory with ⟨_, _, -, same⟩ | ⟨effect, location, action, result, -⟩
    · rw [same]
    · exact consumer_effect_running action result

/-- A worker may clear `running_` if this is remembered. -/
theorem at_point_engine {engine : State order capacity} {ioFailed : Bool}
    (running : life.running = true ∨ life.ioFailed = true →
      engine.memory.running = true ∨ ioFailed = true) {point : LifePoint}
    (known : life.AtPoint point) :
    ({ life with engine := engine, ioFailed := ioFailed } : Life order capacity).AtPoint point := by
  cases point with
  | idle => exact known.imp_right running
  | test => exact known.imp_right running
  | spawnIo => exact ⟨⟨known.1.1, running known.1.2⟩, known.2⟩
  | spawnConsumer => exact ⟨⟨known.1.1, running known.1.2⟩, known.2⟩
  | spawnReporter => exact ⟨⟨known.1.1, running known.1.2⟩, known.2⟩
  | stopping inReceive point => cases point <;> exact known
  | _ => exact known

theorem kept_worker (kept : LifeKept life) {thread : Thread} {input : Input}
    (taken : life.workerStep input thread = some next) : LifeKept next := by
  cases thread with
  | io =>
      obtain ⟨engine, moved, rfl⟩ := Option.map_eq_some_iff.mp taken
      obtain ⟨alive, consumer, running⟩ := io_step_frame moved
      refine ⟨fun _ => kept.io_alive alive, ?_, kept.pooled,
        ⟨kept.pools.placed, kept.pools.current, kept.pools.older⟩, at_point_engine ?_ kept.at_point⟩
      · rw [consumer]
        exact kept.consumer_alive
      · rintro (on | failed)
        · rcases running with same | stores
          · exact .inl (same.trans on)
          · exact .inr (by rw [stores, Bool.or_true])
        · exact .inr (by rw [failed, Bool.true_or])
  | consumer =>
      obtain ⟨engine, moved, rfl⟩ := Option.map_eq_some_iff.mp taken
      obtain ⟨alive, io, running⟩ := consumer_step_frame moved
      refine ⟨?_, fun _ => kept.consumer_alive alive, kept.pooled,
        ⟨kept.pools.placed, kept.pools.current, kept.pools.older⟩, at_point_engine ?_ kept.at_point⟩
      · rw [io]
        exact kept.io_alive
      · rw [running]
        exact id
  | control => cases taken

/-! ## The calls -/

/-- The call goes on; at most the memory changes. -/
theorem kept_memory (kept : LifeKept life) (memory : Memory) {point : LifePoint}
    (known : ((life.withMemory memory).goto point).AtPoint point) :
    LifeKept ((life.withMemory memory).goto point) :=
  ⟨kept.io_alive, kept.consumer_alive, kept.pooled,
    ⟨kept.pools.placed, kept.pools.current, kept.pools.older⟩, known⟩

theorem kept_goto (kept : LifeKept life) {point : LifePoint} (known : life.AtPoint point) :
    LifeKept (life.goto point) := by
  apply kept_memory kept life.engine.memory
  cases point with
  | stopping inReceive point => cases point <;> exact known
  | _ => exact known

theorem pools_released (pools : PoolsKept life) : PoolsKept life.releasePool := by
  refine ⟨?_, nofun, ?_⟩
  · intro serial early
    refine .inl (List.mem_append.mpr ?_)
    rcases pools.placed serial early with before | current
    · exact .inl before
    · rw [current]
      exact .inr (List.mem_singleton_self serial)
  · intro serial member
    rcases List.mem_append.mp member with before | now
    · exact pools.older serial before
    · exact (pools.current serial (Option.mem_toList.mp now)).1

/-- The pool is released once no thread is joinable. -/
theorem kept_released (kept : LifeKept life) (joined : life.ioJoinable = false ∧
    life.consumerJoinable = false ∧ life.reporterJoinable = false) {point : LifePoint}
    {ioFailed : Bool} (clean : point = .idle ∨ point = .refused) :
    LifeKept { life.releasePool with point := point, ioFailed := ioFailed } := by
  have pools := pools_released kept.pools
  refine ⟨kept.io_alive, kept.consumer_alive, fun _ => joined,
    ⟨pools.placed, pools.current, pools.older⟩, ?_⟩
  rcases clean with rfl | rfl
  · exact .inl rfl
  · rfl

theorem kept_created (kept : LifeKept life) (at_ : life.point = .createPool)
    (contents : Option (PoolContents capacity)) : LifeKept (life.createPool contents) := by
  have none_ : life.pool = none := by
    have known := kept.at_point
    rw [at_] at known
    exact known
  have joined := kept.pooled none_
  have pools := kept.pools
  cases contents with
  | none =>
      refine ⟨kept.io_alive, kept.consumer_alive, fun _ => joined, ⟨?_, nofun, pools.older⟩, rfl⟩
      intro serial early
      rcases pools.placed serial early with before | current
      · exact .inl before
      · rw [none_] at current
        cases current
  | some contents =>
      refine ⟨kept.io_alive, kept.consumer_alive, nofun, ⟨?_, ?_, ?_⟩, nofun, joined⟩
      · intro serial early
        rcases Nat.lt_succ_iff_lt_or_eq.mp early with before | rfl
        · rcases pools.placed serial before with released | current
          · exact .inl released
          · rw [none_] at current
            cases current
        · exact .inr rfl
      · intro serial current
        obtain rfl : life.nextPool = serial := Option.some.inj current
        refine ⟨Nat.lt_succ_self _, ?_⟩
        intro member
        exact absurd (pools.older _ member) (Nat.lt_irrefl _)
      · intro serial member
        exact Nat.lt_succ_of_lt (pools.older serial member)

theorem consumer_beside_io (state : State order capacity) (memory : Memory) (io : IoLocation) :
    State.consumer (memoryStep (program order) state .io memory io) = state.consumer :=
  Function.update_of_ne (show Thread.consumer ≠ Thread.io from nofun) io state.location

theorem io_beside_consumer (state : State order capacity) (memory : Memory)
    (consumer : ConsumerLocation) :
    State.io (memoryStep (program order) state .consumer memory consumer) = state.io :=
  Function.update_of_ne (show Thread.io ≠ Thread.consumer from nofun) consumer state.location

theorem kept_spawn_io (kept : LifeKept life) (known : life.AtPoint .spawnIo)
    (taken : life.spawnIo = some next) : LifeKept next := by
  obtain ⟨⟨pooled, running⟩, -, others⟩ := known
  unfold Life.spawnIo at taken
  split_ifs at taken
  cases taken
  refine ⟨fun _ => rfl, ?_, fun none_ => absurd none_ pooled,
    ⟨kept.pools.placed, kept.pools.current, kept.pools.older⟩, ⟨pooled, running⟩, others⟩
  intro alive
  apply kept.consumer_alive
  intro finished
  apply alive
  exact (consumer_beside_io life.engine _ _).trans finished

theorem kept_spawn_consumer (kept : LifeKept life) (known : life.AtPoint .spawnConsumer)
    (taken : life.spawnConsumer = some next) : LifeKept next := by
  obtain ⟨⟨pooled, running⟩, -, others⟩ := known
  unfold Life.spawnConsumer at taken
  split_ifs at taken
  cases taken
  refine ⟨?_, fun _ => rfl, fun none_ => absurd none_ pooled,
    ⟨kept.pools.placed, kept.pools.current, kept.pools.older⟩, ⟨pooled, running⟩, others⟩
  intro alive
  apply kept.io_alive
  intro finished
  apply alive
  exact (io_beside_consumer life.engine _ _).trans finished

theorem kept_spawn_reporter (kept : LifeKept life) (known : life.AtPoint .spawnReporter)
    (taken : life.spawnReporter = some next) : LifeKept next := by
  obtain ⟨⟨pooled, running⟩, -⟩ := known
  unfold Life.spawnReporter at taken
  split_ifs at taken
  cases taken
  exact ⟨kept.io_alive, kept.consumer_alive, fun none_ => absurd none_ pooled,
    ⟨kept.pools.placed, kept.pools.current, kept.pools.older⟩, .inr running⟩

theorem io_finished {io : IoLocation} (finished : io.isFinished = true) : io = .finished := by
  cases io <;> first | rfl | cases finished

theorem consumer_finished {consumer : ConsumerLocation} (finished : consumer.isFinished = true) :
    consumer = .finished := by
  cases consumer <;> first | rfl | cases finished

theorem kept_stop (kept : LifeKept life) {inReceive : Bool} {point : StopPoint}
    (at_ : life.point = .stopping inReceive point)
    (taken : life.stopStep inReceive point = some next) : LifeKept next := by
  have known := kept.at_point
  rw [at_] at known
  have pools := kept.pools
  cases point with
  | clearRunning =>
      cases taken
      exact kept_memory kept _ trivial
  | closeReceiver =>
      cases taken
      exact kept_memory kept _ trivial
  | joinIo =>
      simp only [Life.stopStep] at taken
      split_ifs at taken with waits
      cases taken
      refine ⟨?_, kept.consumer_alive, fun none_ => ⟨rfl, (kept.pooled none_).2⟩,
        ⟨pools.placed, pools.current, pools.older⟩, rfl⟩
      intro alive
      -- A thread that is alive is joinable, so its join would wait.
      refine absurd ?_ waits
      rw [kept.io_alive alive, Bool.true_and, Bool.not_eq_true', Bool.eq_false_iff]
      exact fun finished => alive (io_finished finished)
  | joinConsumer =>
      simp only [Life.stopStep] at taken
      split_ifs at taken with waits
      cases taken
      refine ⟨kept.io_alive, ?_, fun none_ => ⟨known, rfl, (kept.pooled none_).2.2⟩,
        ⟨pools.placed, pools.current, pools.older⟩, known, rfl⟩
      intro alive
      refine absurd ?_ waits
      rw [kept.consumer_alive alive, Bool.true_and, Bool.not_eq_true', Bool.eq_false_iff]
      exact fun finished => alive (consumer_finished finished)
  | joinReporter =>
      simp only [Life.stopStep] at taken
      split_ifs at taken
      cases taken
      exact ⟨kept.io_alive, kept.consumer_alive, fun _ => ⟨known.1, known.2, rfl⟩,
        ⟨pools.placed, pools.current, pools.older⟩, known.1, known.2, rfl⟩
  | releasePool =>
      cases taken
      apply kept_released kept known
      cases inReceive
      · exact .inl rfl
      · exact .inr rfl

theorem kept_control (kept : LifeKept life) {ok : Bool}
    (guarded : life.point = .test → life.ioFailed = false)
    (taken : life.controlStep ok = some next) : LifeKept next := by
  have known := kept.at_point
  unfold Life.controlStep at taken
  split at taken
  · cases taken
  · next at_ =>
      rw [at_] at known
      cases taken
      split_ifs with running
      · exact kept_goto kept known
      · apply kept_goto kept
        rcases known with none_ | on | failed
        · exact none_
        · exact absurd on running
        · rw [guarded at_] at failed
          cases failed
  · next at_ =>
      rw [at_] at known
      cases taken
      exact kept_memory kept _ known
  · cases taken
  · next at_ =>
      rw [at_] at known
      cases taken
      exact kept_memory kept _ known
  · next at_ =>
      rw [at_] at known
      cases taken
      have opened := kept_memory kept (life.engine.memory.openReceiver ok)
        (show Life.AtPoint _ .storeRunning from known)
      split_ifs
      · exact opened
      · exact kept_released opened known.2 (.inr rfl)
  · next at_ =>
      rw [at_] at known
      cases taken
      exact kept_memory kept _ ⟨⟨known.1, .inl rfl⟩, known.2⟩
  · next at_ =>
      rw [at_] at known
      split_ifs at taken
      · exact kept_spawn_io kept known taken
      · cases taken
        exact kept_goto kept trivial
  · next at_ =>
      rw [at_] at known
      split_ifs at taken
      · exact kept_spawn_consumer kept known taken
      · cases taken
        exact kept_goto kept trivial
  · next at_ =>
      rw [at_] at known
      split_ifs at taken
      · exact kept_spawn_reporter kept known taken
      · cases taken
        exact kept_goto kept trivial
  · next at_ =>
      rw [at_] at known
      cases taken
      exact kept_goto kept (.inl known)
  · next at_ => exact kept_stop kept at_ taken

theorem kept_step (kept : LifeKept life) {label : LifeLabel capacity}
    (guarded : StoppedAfterError life label) (taken : life.step label = some next) :
    LifeKept next := by
  have known := kept.at_point
  cases label with
  | receive =>
      simp only [Life.step] at taken
      split_ifs at taken with at_
      cases taken
      rw [at_] at known
      exact kept_goto kept known
  | stop =>
      simp only [Life.step] at taken
      split_ifs at taken
      cases taken
      exact kept_goto kept trivial
  | control ok => exact kept_control kept guarded taken
  | createPool contents =>
      simp only [Life.step] at taken
      split_ifs at taken with at_
      cases taken
      exact kept_created kept at_ contents
  | worker thread input => exact kept_worker kept taken
  | reporterLeaves =>
      cases taken
      exact ⟨kept.io_alive, kept.consumer_alive, kept.pooled,
        ⟨kept.pools.placed, kept.pools.current, kept.pools.older⟩,
        @at_point_engine _ _ life life.engine life.ioFailed id _ known⟩

end Steps

/-- Calls of `receive()` and `stop()` in any order, with every failure and every interleaving,
as long as `stop()` comes before the next `receive()` once the I/O thread has failed. -/
theorem lifecycle_safe {life : Life order capacity}
    (reached : ReachesUnder (lives order capacity) StoppedAfterError life) : LifeSafe life := by
  apply safe_of_kept
  refine invariant_of_step ?_ ?_ reached
  · exact fun state initial => kept_initial initial
  · intro state label after _ kept guarded taken
    exact kept_step kept guarded taken

def stoppedAfterError (life : Life order capacity) : LifeLabel capacity → Bool
  | .control _ => life.point != .test || !life.ioFailed
  | _ => true

theorem stopped_after_error_of_check (life : Life order capacity) (label : LifeLabel capacity)
    (checked : stoppedAfterError life label = true) : StoppedAfterError life label := by
  cases label with
  | control ok =>
      intro at_
      simpa [stoppedAfterError, at_] using checked
  | _ => trivial

/-- A zeroed pool. -/
def zeroedPool : PoolContents kPoolCapacity :=
  ⟨fun _ => Vector.replicate kWireSize 0, fun _ => ⟨0, 0, fun _ => 0⟩⟩

def newLife : Life .little kPoolCapacity where
  point := .idle
  engine :=
    { shared := zeroedPool.rings
      memory :=
        { startMemory zeroedPool.slots with
          running := false, receiver := ⟨false, false, ⟨0, 0, 0, 0⟩⟩ }
      location := fun
        | .io => IoLocation.finished
        | .consumer => ConsumerLocation.finished
        | .control => ControlLocation.returned
      pc := fun _ => none }
  pool := none
  nextPool := 0
  released := []
  ioJoinable := false
  consumerJoinable := false
  reporterJoinable := false
  reporterDone := true
  ioFailed := false

theorem new_life_initial : newLife.Initial :=
  ⟨rfl, rfl, rfl, rfl, ⟨rfl, rfl, rfl⟩, ⟨rfl, rfl⟩, rfl, rfl⟩

def workerTicks (thread : Thread) (count : Nat) : List (LifeLabel kPoolCapacity) :=
  List.replicate count (.worker thread .tick)

/-- A `receive()` in which everything succeeds. -/
def receiveCalls (contents : PoolContents capacity) : List (LifeLabel capacity) :=
  [LifeLabel.receive, .control true, .control true, .createPool (some contents)] ++
    List.replicate 6 (LifeLabel.control true)

def receiveCall : List (LifeLabel kPoolCapacity) := receiveCalls zeroedPool

/-- `stop()`; the workers see the flag and leave. -/
def stopCall : List (LifeLabel kPoolCapacity) :=
  [LifeLabel.stop, .control true, .control true] ++ workerTicks .io 2 ++
    [LifeLabel.control true] ++ workerTicks .consumer 4 ++
    [LifeLabel.control true, .reporterLeaves, .control true, .control true]

theorem pool_released_after_stop :
    ∃ life, ReachesUnder (lives .little kPoolCapacity) StoppedAfterError life ∧
      life.point = .idle ∧ life.nextPool = 2 ∧ life.released = [0, 1] ∧ LifeSafe life := by
  obtain ⟨life, run, point, pools, released⟩ : ∃ life,
      runChecked (lives .little kPoolCapacity) stoppedAfterError newLife
        (receiveCall ++ stopCall ++ receiveCall ++ stopCall) = some life ∧
        life.point = .idle ∧ life.nextPool = 2 ∧ life.released = [0, 1] :=
    ⟨_, rfl, rfl, rfl, rfl⟩
  have begun : ReachesUnder (lives .little kPoolCapacity) StoppedAfterError newLife :=
    .start new_life_initial
  have reached := reaches_under_run stopped_after_error_of_check begun run
  exact ⟨life, reached, point, pools, released, lifecycle_safe reached⟩

/-- The engine with its threads started, over these rings. -/
def startedLife (rings : PoolRing → RingBuffer Nat kPoolCapacity) : Life .little kPoolCapacity :=
  { newLife with
    engine :=
      { shared := rings
        memory := newLife.engine.memory.restarted zeroedPool.slots
        location := Function.update
          (Function.update newLife.engine.location Thread.io IoLocation.loopTest)
          Thread.consumer ConsumerLocation.loopTest
        pc := fun _ => none }
    pool := some 0
    nextPool := 1
    ioJoinable := true
    consumerJoinable := true
    reporterJoinable := true
    reporterDone := false }

theorem receive_call_starts :
    runLabels (lives .little kPoolCapacity) newLife receiveCall =
      some (startedLife (FramePool.initRings zeroedPool.rings)) := rfl

/-- The rings of a new pool. -/
def newRings : PoolRing → RingBuffer Nat kPoolCapacity
  | .free => ⟨0, kPoolCapacity.size, fun cell => cell.val⟩
  | .ready => ⟨0, 0, fun _ => 0⟩

theorem zeroed_pool_rings : FramePool.initRings zeroedPool.rings = newRings := by
  funext name
  cases name with
  | free => exact init_free_eq _
  | ready => rfl

/-- The I/O thread reserves 32 slots, `epoll_create1` fails, it gives the slots back, clears
`running_` and ends. Then `receive()` is called again and comes to its new pool. -/
def errorThenReceive : List (LifeLabel kPoolCapacity) :=
  workerTicks .io 163 ++ [LifeLabel.worker .io (.epoll false [] [])] ++ workerTicks .io 196 ++
    [LifeLabel.receive, .control true, .control true]

theorem restart_after_error_leaks :
    ¬ ∀ life, Reaches (lives .little kPoolCapacity) life → LifeSafe life := by
  intro safe
  have outcome : (runLabels (lives .little kPoolCapacity) (startedLife newRings)
      errorThenReceive).map (fun life => (life.point, life.pool)) = some (.createPool, some 0) := by
    decide +kernel
  obtain ⟨life, run, seen⟩ := Option.map_eq_some_iff.mp outcome
  obtain ⟨point, pool⟩ := Prod.mk.inj seen
  have started : Reaches (lives .little kPoolCapacity) (startedLife newRings) := by
    rw [← zeroed_pool_rings]
    exact reaches_run (reaches_start new_life_initial) receive_call_starts
  have overwritten := (safe life (reaches_run started run)).pool_assigned point
  rw [pool] at overwritten
  cases overwritten

end MarketDataEngine.EngineV2
