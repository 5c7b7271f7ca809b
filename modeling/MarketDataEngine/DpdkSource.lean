import MarketDataEngine.DpdkPort

/-!
# Engine v3: the DPDK receive source

`DpdkRxSourceImpl` over the functions of DPDK that it calls; `calls` is the history of these calls.
The source keeps to the order of the library as long as no stop and no close fails. It looks at
neither result, and `close` frees the pool all the same.
-/

namespace MarketDataEngine.EngineV3

set_option autoImplicit false

/-! ## The source -/

/-- `DpdkRxSource::Config` -/
structure SourceConfig where
  portId : UInt16 := 0
  queueId : UInt16 := 0
  rxDesc : UInt16 := 1024
  mbufPoolSize : UInt32 := 8192
  mbufCacheSize : UInt32 := 256
  socketId : Int := -1
  promiscuous : Bool := true
  mempoolName : String := "md_engine_rx"

structure DpdkRxSource (dpdk : Dpdk) where
  cfg : SourceConfig
  mbufPool : Option dpdk.Pool
  isOpen : Bool
  library : dpdk.State
  calls : List (DpdkCall dpdk)

/-- A packet points into its mbuf. -/
structure RxPacket (dpdk : Dpdk) where
  handle : dpdk.Mbuf
  len : Nat

def kMaxBurst : Nat := 256

/-- What `poll` asks for. -/
def pollCount (capacity : Nat) : UInt16 :=
  UInt16.ofNat (if capacity < kMaxBurst then capacity else kMaxBurst)

namespace DpdkRxSource

variable {dpdk : Dpdk} (source : DpdkRxSource dpdk)

def called (library : dpdk.State) (call : DpdkCall dpdk) : DpdkRxSource dpdk :=
  { source with library := library, calls := call :: source.calls }

def createPool (socketId : Int) : DpdkRxSource dpdk × Option dpdk.Pool :=
  let request : PoolRequest :=
    ⟨source.cfg.mempoolName ++ "_" ++ toString source.cfg.portId, source.cfg.mbufPoolSize,
      source.cfg.mbufCacheSize, 0, dpdk.defaultBufSize, socketId⟩
  let result := dpdk.rtePktmbufPoolCreate request source.library
  (source.called result.1 (.poolCreate result.2), result.2)

def configure : DpdkRxSource dpdk × Int :=
  let result := dpdk.rteEthDevConfigure source.cfg.portId 1 0 source.library
  (source.called result.1 (.configure result.2), result.2)

def setupQueue (socketId : Int) (pool : dpdk.Pool) : DpdkRxSource dpdk × Int :=
  let result := dpdk.rteEthRxQueueSetup source.cfg.portId source.cfg.queueId source.cfg.rxDesc
    socketId pool source.library
  (source.called result.1 (.rxQueueSetup pool result.2), result.2)

def startPort : DpdkRxSource dpdk × Int :=
  let result := dpdk.rteEthDevStart source.cfg.portId source.library
  (source.called result.1 (.start result.2), result.2)

/-- A failure is only logged. -/
def enablePromiscuous : DpdkRxSource dpdk :=
  let result := dpdk.rteEthPromiscuousEnable source.cfg.portId source.library
  source.called result.1 (.promiscuousEnable result.2)

/-- The result is ignored. -/
def stopPort : DpdkRxSource dpdk :=
  let result := dpdk.rteEthDevStop source.cfg.portId source.library
  source.called result.1 (.stop result.2)

/-- The result is ignored. -/
def closePort : DpdkRxSource dpdk :=
  let result := dpdk.rteEthDevClose source.cfg.portId source.library
  source.called result.1 (.close result.2)

def freePool (pool : dpdk.Pool) : DpdkRxSource dpdk :=
  source.called (dpdk.rteMempoolFree pool source.library) (.poolFree pool)

def freeMbuf (mbuf : dpdk.Mbuf) : DpdkRxSource dpdk :=
  source.called (dpdk.rtePktmbufFree mbuf source.library) (.mbufFree mbuf)

/-- `reset_mbuf_pool` -/
def resetMbufPool : DpdkRxSource dpdk :=
  match source.mbufPool with
  | some pool => { source.freePool pool with mbufPool := none }
  | none => source

/-- `open` behind the start of the port. -/
def opened : DpdkRxSource dpdk :=
  let enabled := if source.cfg.promiscuous then source.enablePromiscuous else source
  { enabled with isOpen := true }

/-- `open` behind the mbuf pool. -/
def bringUp (socketId : Int) (pool : dpdk.Pool) : DpdkRxSource dpdk × Bool :=
  let configured := source.configure
  if configured.2 < 0 then (configured.1.resetMbufPool, false)
  else
    let queue := configured.1.setupQueue socketId pool
    if queue.2 < 0 then (queue.1.closePort.resetMbufPool, false)
    else
      let started := queue.1.startPort
      if started.2 < 0 then (started.1.closePort.resetMbufPool, false)
      else (started.1.opened, true)

def socketId : Int :=
  if 0 ≤ source.cfg.socketId then source.cfg.socketId
  else dpdk.rteEthDevSocketId source.cfg.portId source.library

/-- `open` -/
def openSource : DpdkRxSource dpdk × Bool :=
  if source.isOpen then (source, true)
  else if source.cfg.queueId ≠ 0 then (source, false)
  else
    match source.mbufPool with
    | some pool => source.bringUp source.socketId pool
    | none =>
        let created := source.createPool source.socketId
        match created.2 with
        | some pool => { created.1 with mbufPool := some pool }.bringUp source.socketId pool
        | none => (created.1, false)

/-- `close` -/
def closeSource : DpdkRxSource dpdk :=
  if !source.isOpen && source.mbufPool.isNone then source
  else
    let down := if source.isOpen then { source.stopPort.closePort with isOpen := false }
      else source
    down.resetMbufPool

/-- `poll` -/
def poll (capacity : Nat) : DpdkRxSource dpdk × List (RxPacket dpdk) :=
  let received := dpdk.rteEthRxBurst source.cfg.portId source.cfg.queueId (pollCount capacity)
    source.library
  (source.called received.1 (.rxBurst received.2),
    received.2.map fun mbuf => ⟨mbuf, (dpdk.data received.1 mbuf).length⟩)

/-- `release` -/
def release (packets : List (RxPacket dpdk)) : DpdkRxSource dpdk :=
  packets.foldl (fun source packet => source.freeMbuf packet.handle) source

end DpdkRxSource

/-! ## What every call keeps -/

namespace DpdkRxSource

variable {dpdk : Dpdk} (source : DpdkRxSource dpdk)

/-- An open source has started its port over its pool. -/
def usage (held : List dpdk.Mbuf) : Usage dpdk where
  port :=
    match source.mbufPool with
    | some pool => .started pool
    | none => .idle
  pools := source.mbufPool.toList
  lent := held

end DpdkRxSource

/-- The source between two calls, with these mbufs received and not yet freed. -/
structure SourceKept {dpdk : Dpdk} (source : DpdkRxSource dpdk) (held : List dpdk.Mbuf) :
    Prop where
  pool : source.mbufPool.isSome = source.isOpen
  pools : moved DpdkCall.created source.calls =
    moved DpdkCall.freed source.calls ++ source.mbufPool.toList
  mbufs : moved DpdkCall.obtained source.calls = moved DpdkCall.returned source.calls ++ held
  idle : source.isOpen = false → held = []
  documented : Obeyed source.calls → Documented source.calls (source.usage held)

/-- The source in the middle of `open` or `close`, with a pool and no mbufs out. -/
structure Midway {dpdk : Dpdk} (source : DpdkRxSource dpdk) (pool : dpdk.Pool)
    (port : PortUse dpdk.Pool) : Prop where
  closed : source.isOpen = false
  mine : source.mbufPool = some pool
  pools : moved DpdkCall.created source.calls = moved DpdkCall.freed source.calls ++ [pool]
  mbufs : moved DpdkCall.obtained source.calls = moved DpdkCall.returned source.calls
  documented : Obeyed source.calls → Documented source.calls ⟨port, [pool], []⟩

section Calls

variable {dpdk : Dpdk} {source : DpdkRxSource dpdk} {pool : dpdk.Pool}
  {port next : PortUse dpdk.Pool} {held : List dpdk.Mbuf}

/-- A call on the port with a result that says where the port is. -/
theorem midway_called (midway : Midway source pool port) {call : DpdkCall dpdk}
    (library : dpdk.State)
    (quiet : call.created = [] ∧ call.freed = [] ∧ call.obtained = [] ∧ call.returned = [])
    (used : call.Obeyed → Used ⟨port, [pool], []⟩ call ⟨next, [pool], []⟩) :
    Midway (source.called library call) pool next := by
  obtain ⟨closed, mine, pools, mbufs, documented⟩ := midway
  obtain ⟨created, freed, obtained, returned⟩ := quiet
  constructor
  · exact closed
  · exact mine
  · show moved _ source.calls ++ call.created = moved _ source.calls ++ call.freed ++ [pool]
    rw [created, freed, List.append_nil, List.append_nil]
    exact pools
  · show moved _ source.calls ++ call.obtained = moved _ source.calls ++ call.returned
    rw [obtained, returned, List.append_nil, List.append_nil]
    exact mbufs
  · intro obeyed
    obtain ⟨its, earlier⟩ := obeyed_cons obeyed
    exact .call (documented earlier) (used its)

theorem configure_midway (midway : Midway source pool .idle) :
    Midway source.configure.1 pool (if source.configure.2 < 0 then .idle else .configured) :=
  midway_called midway _ ⟨rfl, rfl, rfl, rfl⟩ fun _ => .configure rfl rfl

theorem setup_queue_midway (midway : Midway source pool .configured) (socketId : Int) :
    Midway (source.setupQueue socketId pool).1 pool
      (if (source.setupQueue socketId pool).2 < 0 then .configured else .ready pool) :=
  midway_called midway _ ⟨rfl, rfl, rfl, rfl⟩ fun _ =>
    .rxQueueSetup (List.mem_singleton_self pool) rfl

theorem start_port_midway (midway : Midway source pool (.ready pool)) :
    Midway source.startPort.1 pool
      (if source.startPort.2 < 0 then .ready pool else .started pool) :=
  midway_called midway _ ⟨rfl, rfl, rfl, rfl⟩ fun _ => .start rfl

/-- A close that succeeds leaves the port idle. -/
theorem close_port_midway (midway : Midway source pool port) (stopped : port.isStarted = false) :
    Midway source.closePort pool .idle :=
  midway_called midway _ ⟨rfl, rfl, rfl, rfl⟩ fun obeyed =>
    .close stopped (if_neg (Int.not_lt.mpr obeyed)).symm

/-- The pool goes once no port uses it. -/
theorem reset_midway (midway : Midway source pool .idle) :
    SourceKept source.resetMbufPool [] := by
  obtain ⟨closed, mine, pools, mbufs, documented⟩ := midway
  have reset : source.resetMbufPool = { source.freePool pool with mbufPool := none } := by
    simp only [DpdkRxSource.resetMbufPool, mine]
  rw [reset]
  constructor
  · exact closed.symm
  · show moved _ source.calls ++ [] = moved _ source.calls ++ [pool] ++ []
    rw [List.append_nil, List.append_nil]
    exact pools
  · show moved _ source.calls ++ [] = moved _ source.calls ++ [] ++ []
    simpa only [List.append_nil] using mbufs
  · exact fun _ => rfl
  · intro obeyed
    have unused : (PortUse.idle : PortUse dpdk.Pool).pool ≠ some pool := nofun
    exact .call (documented (obeyed_cons obeyed).2) (.poolFree [] [] unused)

theorem opened_midway (midway : Midway source pool (.started pool)) :
    SourceKept source.opened [] := by
  have enabled : Midway (if source.cfg.promiscuous then source.enablePromiscuous else source)
      pool (.started pool) := by
    split_ifs
    · exact midway_called midway _ ⟨rfl, rfl, rfl, rfl⟩ fun _ => .promiscuousEnable _
    · exact midway
  unfold DpdkRxSource.opened
  generalize (if source.cfg.promiscuous then source.enablePromiscuous else source) = ready
    at enabled
  obtain ⟨closed, mine, pools, mbufs, documented⟩ := enabled
  constructor
  · show ready.mbufPool.isSome = true
    rw [mine]
    rfl
  · show moved _ ready.calls = moved _ ready.calls ++ ready.mbufPool.toList
    rw [mine]
    exact pools
  · show moved _ ready.calls = moved _ ready.calls ++ []
    rw [List.append_nil]
    exact mbufs
  · exact nofun
  · unfold DpdkRxSource.usage
    simp only [mine]
    exact documented

/-- `open` succeeds if and only if it leaves the source open. -/
structure OpenKept (outcome : DpdkRxSource dpdk × Bool) : Prop where
  kept : SourceKept outcome.1 []
  answer : outcome.1.isOpen = outcome.2

theorem reset_is_open : source.resetMbufPool.isOpen = source.isOpen := by
  unfold DpdkRxSource.resetMbufPool
  cases source.mbufPool with
  | none => rfl
  | some pool => rfl

theorem open_refused (midway : Midway source pool .idle) :
    OpenKept (source.resetMbufPool, false) :=
  ⟨reset_midway midway, reset_is_open.trans midway.closed⟩

theorem bring_up_kept (midway : Midway source pool .idle) (socketId : Int) :
    OpenKept (source.bringUp socketId pool) := by
  have configured := configure_midway midway
  unfold DpdkRxSource.bringUp
  simp only
  split_ifs with unconfigured unqueued unstarted
  · rw [if_pos unconfigured] at configured
    exact open_refused configured
  all_goals
    rw [if_neg unconfigured] at configured
    have queued := setup_queue_midway configured socketId
  · rw [if_pos unqueued] at queued
    exact open_refused (close_port_midway queued rfl)
  all_goals
    rw [if_neg unqueued] at queued
    have started := start_port_midway queued
  · rw [if_pos unstarted] at started
    exact open_refused (close_port_midway started rfl)
  · rw [if_neg unstarted] at started
    exact ⟨opened_midway started, rfl⟩

theorem closed_parts (kept : SourceKept source held) (closed : source.isOpen = false) :
    source.mbufPool = none ∧ held = [] := by
  refine ⟨?_, kept.idle closed⟩
  have none_ := kept.pool
  rw [closed] at none_
  exact Option.isSome_eq_false_iff.mp none_ |> Option.isNone_iff_eq_none.mp

/-- A source that is open stays as it is. -/
theorem open_again (opened : source.isOpen = true) : source.openSource = (source, true) := by
  unfold DpdkRxSource.openSource
  exact if_pos opened

theorem create_pool_kept (kept : SourceKept source []) (closed : source.isOpen = false)
    (socketId : Int) :
    match (source.createPool socketId).2 with
    | some pool =>
        Midway { (source.createPool socketId).1 with mbufPool := some pool } pool .idle
    | none => SourceKept (source.createPool socketId).1 [] := by
  obtain ⟨none_, -⟩ := closed_parts kept closed
  obtain ⟨-, pools, mbufs, idle, documented⟩ := kept
  rw [none_, Option.toList_none, List.append_nil] at pools
  rw [List.append_nil] at mbufs
  unfold DpdkRxSource.usage at documented
  simp only [none_, Option.toList_none] at documented
  unfold DpdkRxSource.createPool
  simp only
  generalize dpdk.rtePktmbufPoolCreate _ source.library = result
  obtain ⟨library, created⟩ := result
  have grown : Obeyed (.poolCreate created :: source.calls) →
      Documented (.poolCreate created :: source.calls) ⟨.idle, created.toList ++ [], []⟩ :=
    fun obeyed => .call (documented (obeyed_cons obeyed).2) (.poolCreate created)
  cases created with
  | some pool =>
      constructor
      · exact closed
      · rfl
      · show moved _ source.calls ++ [pool] = moved _ source.calls ++ [] ++ [pool]
        rw [pools, List.append_nil]
      · show moved _ source.calls ++ [] = moved _ source.calls ++ []
        rw [mbufs]
      · exact grown
  | none =>
      constructor
      · show source.mbufPool.isSome = source.isOpen
        rw [none_, closed]
        rfl
      · show moved _ source.calls ++ [] = moved _ source.calls ++ [] ++ source.mbufPool.toList
        rw [none_, pools]
        simp only [Option.toList_none, List.append_nil]
      · show moved _ source.calls ++ [] = moved _ source.calls ++ [] ++ []
        simpa only [List.append_nil] using mbufs
      · exact fun _ => rfl
      · unfold DpdkRxSource.usage DpdkRxSource.called
        simp only [none_]
        exact grown

theorem open_kept (kept : SourceKept source []) : OpenKept source.openSource := by
  cases state : source.isOpen with
  | true =>
      rw [open_again state]
      exact ⟨kept, state⟩
  | false =>
      have created := create_pool_kept kept state
      unfold DpdkRxSource.openSource
      rw [state, if_neg Bool.false_ne_true]
      by_cases other : source.cfg.queueId ≠ 0
      · rw [if_pos other]
        exact ⟨kept, state⟩
      · rw [if_neg other]
        simp only [(closed_parts kept state).1]
        have fresh := created source.socketId
        cases outcome : (source.createPool source.socketId).2 with
        | some pool =>
            rw [outcome] at fresh
            exact bring_up_kept fresh source.socketId
        | none =>
            rw [outcome] at fresh
            exact ⟨fresh, state⟩

/-- The parts of an open source. -/
theorem opened_parts (kept : SourceKept source held) (opened : source.isOpen = true) :
    ∃ pool, source.mbufPool = some pool ∧
      moved DpdkCall.created source.calls = moved DpdkCall.freed source.calls ++ [pool] ∧
      (Obeyed source.calls → Documented source.calls ⟨.started pool, [pool], held⟩) := by
  obtain ⟨pool, mine⟩ := Option.isSome_iff_exists.mp (kept.pool.trans opened)
  have pools := kept.pools
  have documented := kept.documented
  unfold DpdkRxSource.usage at documented
  simp only [mine, Option.toList_some] at pools documented
  exact ⟨pool, mine, pools, documented⟩

/-- `close` with every packet released. -/
theorem close_kept (kept : SourceKept source []) :
    SourceKept source.closeSource [] ∧ source.closeSource.isOpen = false := by
  cases state : source.isOpen with
  | false =>
      have same : source.closeSource = source := by
        unfold DpdkRxSource.closeSource
        simp [state, (closed_parts kept state).1]
      rw [same]
      exact ⟨kept, state⟩
  | true =>
      obtain ⟨pool, mine, pools, documented⟩ := opened_parts kept state
      have mbufs := kept.mbufs
      rw [List.append_nil] at mbufs
      have started : Midway { source with isOpen := false } pool (.started pool) :=
        ⟨rfl, mine, pools, mbufs, documented⟩
      have stopped : Midway { source with isOpen := false }.stopPort pool (.ready pool) :=
        midway_called started _ ⟨rfl, rfl, rfl, rfl⟩ fun obeyed =>
          .stop (if_neg (Int.not_lt.mpr obeyed)).symm
      have closed := close_port_midway stopped rfl
      have closes : source.closeSource =
          { source with isOpen := false }.stopPort.closePort.resetMbufPool := by
        unfold DpdkRxSource.closeSource
        simp only [state, Bool.not_true, Bool.false_and, Bool.false_eq_true, if_false, if_true]
        rfl
      rw [closes]
      exact ⟨reset_midway closed, reset_is_open.trans closed.closed⟩

/-- `close` goes on when the stop has failed. -/
theorem failed_stop_undocumented (kept : SourceKept source held) (opened : source.isOpen = true)
    (failed : (dpdk.rteEthDevStop source.cfg.portId source.library).2 < 0) (usage : Usage dpdk) :
    ¬ Documented source.closeSource.calls usage := by
  obtain ⟨pool, mine, -, -⟩ := opened_parts kept opened
  have calls : source.closeSource.calls = .poolFree pool ::
      .close (dpdk.rteEthDevClose source.cfg.portId source.stopPort.library).2 ::
      .stop (dpdk.rteEthDevStop source.cfg.portId source.library).2 :: source.calls := by
    unfold DpdkRxSource.closeSource DpdkRxSource.resetMbufPool
    simp only [opened, Bool.not_true, Bool.false_and, Bool.false_eq_true, if_false, if_true]
    simp only [DpdkRxSource.closePort, DpdkRxSource.stopPort, DpdkRxSource.called, mine]
    rfl
  rw [calls]
  intro documented
  obtain ⟨_, documented, -⟩ := documented_cons documented
  obtain ⟨_, documented, closes⟩ := documented_cons documented
  obtain ⟨_, -, stops⟩ := documented_cons documented
  exact absurd (close_needs_stop stops closes) (Int.not_le.mpr failed)

theorem poll_handles (source : DpdkRxSource dpdk) (capacity : Nat) :
    (source.poll capacity).2.map RxPacket.handle =
      (dpdk.rteEthRxBurst source.cfg.portId source.cfg.queueId (pollCount capacity)
        source.library).2 := by
  unfold DpdkRxSource.poll
  rw [List.map_map]
  exact List.map_id _

theorem poll_kept (kept : SourceKept source []) (opened : source.isOpen = true) (capacity : Nat) :
    SourceKept (source.poll capacity).1 ((source.poll capacity).2.map RxPacket.handle) := by
  obtain ⟨pool, mine, pools, documented⟩ := opened_parts kept opened
  have mbufs := kept.mbufs
  rw [poll_handles]
  unfold DpdkRxSource.poll
  simp only
  generalize dpdk.rteEthRxBurst source.cfg.portId source.cfg.queueId (pollCount capacity)
    source.library = received
  constructor
  · exact kept.pool
  · show moved _ source.calls ++ [] = moved _ source.calls ++ [] ++ source.mbufPool.toList
    rw [mine, pools, List.append_nil, List.append_nil]
    rfl
  · show moved _ source.calls ++ received.2 = moved _ source.calls ++ [] ++ received.2
    rw [mbufs]
  · exact fun closed => absurd (opened.symm.trans closed) Bool.noConfusion
  · intro obeyed
    show Documented _ (source.usage received.2)
    unfold DpdkRxSource.usage
    rw [mine]
    exact .call (documented (obeyed_cons obeyed).2) (.rxBurst received.2)

/-- The first of the mbufs that are out is freed. -/
theorem free_mbuf_kept {mbuf : dpdk.Mbuf} (kept : SourceKept source (mbuf :: held))
    (opened : source.isOpen = true) : SourceKept (source.freeMbuf mbuf) held := by
  obtain ⟨pool, mine, pools, documented⟩ := opened_parts kept opened
  constructor
  · exact kept.pool
  · show moved _ source.calls ++ [] = moved _ source.calls ++ [] ++ source.mbufPool.toList
    rw [mine, pools, List.append_nil, List.append_nil]
    rfl
  · show moved _ source.calls ++ [] = moved _ source.calls ++ [mbuf] ++ held
    rw [kept.mbufs, List.append_nil, List.append_assoc]
    rfl
  · exact fun closed => absurd (opened.symm.trans closed) Bool.noConfusion
  · intro obeyed
    show Documented _ (source.usage held)
    unfold DpdkRxSource.usage
    rw [mine]
    exact .call (documented (obeyed_cons obeyed).2) (.mbufFree [] held)

theorem release_is_open (packets : List (RxPacket dpdk)) :
    (source.release packets).isOpen = source.isOpen := by
  unfold DpdkRxSource.release
  induction packets generalizing source with
  | nil => rfl
  | cons packet rest ih => exact ih

theorem release_kept {packets : List (RxPacket dpdk)} (opened : source.isOpen = true)
    (kept : SourceKept source (packets.map RxPacket.handle)) :
    SourceKept (source.release packets) [] ∧ (source.release packets).isOpen = true := by
  refine ⟨?_, (release_is_open packets).trans opened⟩
  unfold DpdkRxSource.release
  induction packets generalizing source with
  | nil => exact kept
  | cons packet rest ih =>
      have freed := free_mbuf_kept kept opened
      exact ih opened freed

/-- The frames that wait in the queue of the source. -/
def ReceiveLaws.queue (laws : ReceiveLaws dpdk) (source : DpdkRxSource dpdk) :
    List (List UInt8) :=
  laws.waiting source.cfg.portId source.cfg.queueId source.library

end Calls

/-! ## Any order of calls -/

/-- `burst` is a `poll` whose packets are released; only an open source is polled. Between two
calls the library may change in any way. -/
inductive SourceCall (dpdk : Dpdk) where
  | openSource
  | burst (capacity : Nat)
  | closeSource
  | outside (change : dpdk.State → dpdk.State)

def DpdkRxSource.call {dpdk : Dpdk} (source : DpdkRxSource dpdk) :
    SourceCall dpdk → DpdkRxSource dpdk
  | .openSource => source.openSource.1
  | .burst capacity =>
      if source.isOpen then
        let polled := source.poll capacity
        polled.1.release polled.2
      else source
  | .closeSource => source.closeSource
  | .outside change => { source with library := change source.library }

/-- A source that has not been opened, over a library in any state. -/
structure DpdkRxSource.New {dpdk : Dpdk} (source : DpdkRxSource dpdk) : Prop where
  closed : source.isOpen = false
  no_pool : source.mbufPool = none
  no_calls : source.calls = []

theorem kept_new {dpdk : Dpdk} {source : DpdkRxSource dpdk} (new : source.New) :
    SourceKept source [] := by
  obtain ⟨closed, noPool, noCalls⟩ := new
  constructor
  · rw [closed, noPool]
    rfl
  · rw [noCalls, noPool]
    rfl
  · rw [noCalls]
    rfl
  · exact fun _ => rfl
  · intro _
    unfold DpdkRxSource.usage
    rw [noCalls, noPool]
    exact .start

theorem call_kept {dpdk : Dpdk} {source : DpdkRxSource dpdk} (kept : SourceKept source [])
    (call : SourceCall dpdk) : SourceKept (source.call call) [] := by
  cases call with
  | openSource => exact (open_kept kept).kept
  | burst capacity =>
      simp only [DpdkRxSource.call]
      split_ifs with opened
      · have polled := poll_kept kept opened capacity
        have running : (source.poll capacity).1.isOpen = true := opened
        exact (release_kept running polled).1
      · exact kept
  | closeSource => exact (close_kept kept).1
  | outside change =>
      exact ⟨kept.pool, kept.pools, kept.mbufs, kept.idle, kept.documented⟩

/-- Whatever the library does and in whatever order the calls come: the source has a pool exactly
while it is open, every pool but the current one was freed once, every mbuf that was received was
freed once, and as long as every stop and every close has succeeded, the library was used in its
order and an open source has started its port over its pool. If the stop fails, `close` breaks
this order. -/
theorem source_lifecycle (dpdk : Dpdk) (source : DpdkRxSource dpdk) (new : source.New)
    (calls : List (SourceCall dpdk)) :
    SourceKept (calls.foldl DpdkRxSource.call source) [] ∧
      ((calls.foldl DpdkRxSource.call source).isOpen = true →
        (dpdk.rteEthDevStop (calls.foldl DpdkRxSource.call source).cfg.portId
          (calls.foldl DpdkRxSource.call source).library).2 < 0 →
        ∀ usage, ¬ Documented (calls.foldl DpdkRxSource.call source).closeSource.calls usage) := by
  have run : ∀ source : DpdkRxSource dpdk, SourceKept source [] →
      SourceKept (calls.foldl DpdkRxSource.call source) [] := by
    induction calls with
    | nil => exact fun source kept => kept
    | cons call rest ih => exact fun source kept => ih (source.call call) (call_kept kept call)
  have kept := run source (kept_new new)
  exact ⟨kept, fun opened failed usage => failed_stop_undocumented kept opened failed usage⟩

def newSource (refusals : Nat) (mbufs : UInt32) : DpdkRxSource portInMemory where
  cfg := { mbufPoolSize := mbufs }
  mbufPool := none
  isOpen := false
  library := newPort refusals
  calls := []

def arrival (frame : List UInt8) : SourceCall portInMemory :=
  .outside fun library => (portInMemory.arrive 0 0 frame library).1

/-- The port is not configured at first, then it runs for two bursts and is closed twice. -/
def secondOpenRuns : List (SourceCall portInMemory) :=
  [.openSource, .openSource, arrival [1, 2, 3], arrival [4], .burst 1, arrival [5, 6], .burst 32,
    .closeSource, .closeSource]

theorem two_pools_freed :
    ∃ source, source = secondOpenRuns.foldl DpdkRxSource.call (newSource 1 2) ∧
      SourceKept source [] ∧ Documented source.calls ⟨.idle, [], []⟩ ∧
      moved DpdkCall.freed source.calls = ([0, 1] : List Nat) ∧
      moved DpdkCall.returned source.calls = ([0, 1, 0] : List Nat) := by
  have kept := (source_lifecycle portInMemory (newSource 1 2) ⟨rfl, rfl, rfl⟩ secondOpenRuns).1
  refine ⟨_, rfl, kept, ?_, rfl, rfl⟩
  apply kept.documented
  unfold Obeyed
  decide

end MarketDataEngine.EngineV3
