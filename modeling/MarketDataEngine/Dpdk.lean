import Mathlib.Data.List.Basic

/-!
# DPDK as its user sees it

The library is a parameter: the functions that engine v3 calls, over a state of its own, each with
any result. A history is a list of calls with their results, the latest first.

The library asks for an order of calls: a queue is set up on a configured port over a pool that
exists, a port is started with its queue and polled while it runs, a port is stopped before it is
closed, and a pool is freed when no port uses it and all mbufs are back. `Documented` says that a
history has this order. What it promises for a running port in return is in `ReceiveLaws`.
-/

namespace MarketDataEngine.EngineV3

set_option autoImplicit false

/-! ## The library -/

/-- The arguments of `rte_pktmbuf_pool_create`. -/
structure PoolRequest where
  name : String
  size : UInt32
  cacheSize : UInt32
  privSize : UInt16
  dataRoomSize : UInt16
  socketId : Int

/-- DPDK as far as it is called. A result below 0 is an error. `data` is what lies between
`rte_pktmbuf_mtod` and `rte_pktmbuf_data_len`. `arrive` is a frame on the wire for a queue of a
port, and says whether it was taken. -/
structure Dpdk where
  State : Type
  Pool : Type
  Mbuf : Type
  defaultBufSize : UInt16
  rteEalInit : State → State × Int
  rteEthDevCountAvail : State → UInt16
  rteEthDevSocketId : UInt16 → State → Int
  rtePktmbufPoolCreate : PoolRequest → State → State × Option Pool
  rteMempoolFree : Pool → State → State
  rteEthDevConfigure : UInt16 → (rxQueues txQueues : UInt16) → State → State × Int
  rteEthRxQueueSetup : (portId queueId rxDesc : UInt16) → Int → Pool → State → State × Int
  rteEthDevStart : UInt16 → State → State × Int
  rteEthPromiscuousEnable : UInt16 → State → State × Int
  rteEthDevStop : UInt16 → State → State × Int
  rteEthDevClose : UInt16 → State → State × Int
  rteEthRxBurst : (portId queueId count : UInt16) → State → State × List Mbuf
  rtePktmbufFree : Mbuf → State → State
  data : State → Mbuf → List UInt8
  arrive : (portId queueId : UInt16) → List UInt8 → State → State × Bool

/-- A call with its result. -/
inductive DpdkCall (dpdk : Dpdk) where
  | poolCreate (result : Option dpdk.Pool)
  | poolFree (pool : dpdk.Pool)
  | configure (result : Int)
  | rxQueueSetup (pool : dpdk.Pool) (result : Int)
  | start (result : Int)
  | promiscuousEnable (result : Int)
  | stop (result : Int)
  | close (result : Int)
  | rxBurst (mbufs : List dpdk.Mbuf)
  | mbufFree (mbuf : dpdk.Mbuf)

/-! ## The order of the calls -/

/-- A port as its user knows it; a queue names its pool. -/
inductive PortUse (Pool : Type) where
  | idle
  | configured
  | ready (pool : Pool)
  | started (pool : Pool)
  deriving DecidableEq

namespace PortUse

variable {Pool : Type}

def isStarted : PortUse Pool → Bool
  | .started _ => true
  | _ => false

def pool : PortUse Pool → Option Pool
  | .ready pool => some pool
  | .started pool => some pool
  | _ => none

end PortUse

/-- The pools that exist, and the mbufs that were received and not freed. -/
structure Usage (dpdk : Dpdk) where
  port : PortUse dpdk.Pool
  pools : List dpdk.Pool
  lent : List dpdk.Mbuf

/-- A call that is in order here. One that fails changes nothing. -/
inductive Used {dpdk : Dpdk} : Usage dpdk → DpdkCall dpdk → Usage dpdk → Prop where
  | poolCreate {port : PortUse dpdk.Pool} {pools : List dpdk.Pool} {lent : List dpdk.Mbuf}
      (result : Option dpdk.Pool) :
      Used ⟨port, pools, lent⟩ (.poolCreate result) ⟨port, result.toList ++ pools, lent⟩
  | poolFree {port : PortUse dpdk.Pool} (before after : List dpdk.Pool) {pool : dpdk.Pool}
      (unused : port.pool ≠ some pool) :
      Used ⟨port, before ++ pool :: after, []⟩ (.poolFree pool) ⟨port, before ++ after, []⟩
  | configure {port next : PortUse dpdk.Pool} {pools : List dpdk.Pool}
      {lent : List dpdk.Mbuf} {result : Int} (stopped : port.isStarted = false)
      (moved : next = if result < 0 then port else .configured) :
      Used ⟨port, pools, lent⟩ (.configure result) ⟨next, pools, lent⟩
  | rxQueueSetup {next : PortUse dpdk.Pool} {pools : List dpdk.Pool} {lent : List dpdk.Mbuf}
      {pool : dpdk.Pool} {result : Int} (exists_ : pool ∈ pools)
      (moved : next = if result < 0 then .configured else .ready pool) :
      Used ⟨.configured, pools, lent⟩ (.rxQueueSetup pool result) ⟨next, pools, lent⟩
  | start {next : PortUse dpdk.Pool} {pools : List dpdk.Pool} {lent : List dpdk.Mbuf}
      {pool : dpdk.Pool} {result : Int}
      (moved : next = if result < 0 then .ready pool else .started pool) :
      Used ⟨.ready pool, pools, lent⟩ (.start result) ⟨next, pools, lent⟩
  | promiscuousEnable {pools : List dpdk.Pool} {lent : List dpdk.Mbuf} {pool : dpdk.Pool}
      (result : Int) :
      Used ⟨.started pool, pools, lent⟩ (.promiscuousEnable result) ⟨.started pool, pools, lent⟩
  | stop {next : PortUse dpdk.Pool} {pools : List dpdk.Pool} {lent : List dpdk.Mbuf}
      {pool : dpdk.Pool} {result : Int}
      (moved : next = if result < 0 then .started pool else .ready pool) :
      Used ⟨.started pool, pools, lent⟩ (.stop result) ⟨next, pools, lent⟩
  | close {port next : PortUse dpdk.Pool} {pools : List dpdk.Pool} {lent : List dpdk.Mbuf}
      {result : Int} (stopped : port.isStarted = false)
      (moved : next = if result < 0 then port else .idle) :
      Used ⟨port, pools, lent⟩ (.close result) ⟨next, pools, lent⟩
  | rxBurst {pools : List dpdk.Pool} {lent : List dpdk.Mbuf} {pool : dpdk.Pool}
      (mbufs : List dpdk.Mbuf) :
      Used ⟨.started pool, pools, lent⟩ (.rxBurst mbufs) ⟨.started pool, pools, lent ++ mbufs⟩
  | mbufFree {port : PortUse dpdk.Pool} {pools : List dpdk.Pool}
      (before after : List dpdk.Mbuf) {mbuf : dpdk.Mbuf} :
      Used ⟨port, pools, before ++ mbuf :: after⟩ (.mbufFree mbuf) ⟨port, pools, before ++ after⟩

/-- A whole history in order, the latest call first. -/
inductive Documented {dpdk : Dpdk} : List (DpdkCall dpdk) → Usage dpdk → Prop where
  | start : Documented [] ⟨.idle, [], []⟩
  | call {calls : List (DpdkCall dpdk)} {call : DpdkCall dpdk} {usage next : Usage dpdk}
      (prior : Documented calls usage) (used : Used usage call next) :
      Documented (call :: calls) next

namespace DpdkCall

variable {dpdk : Dpdk}

/-- The calls whose failure the source does not look at, but for the promiscuous mode. -/
def Obeyed : DpdkCall dpdk → Prop
  | .stop result => 0 ≤ result
  | .close result => 0 ≤ result
  | _ => True

instance : DecidablePred (@Obeyed dpdk)
  | .stop result => Int.decLe 0 result
  | .close result => Int.decLe 0 result
  | .poolCreate _ | .poolFree _ | .configure _ | .rxQueueSetup _ _ | .start _
  | .promiscuousEnable _ | .rxBurst _ | .mbufFree _ => instDecidableTrue

def created : DpdkCall dpdk → List dpdk.Pool
  | .poolCreate result => result.toList
  | _ => []

def freed : DpdkCall dpdk → List dpdk.Pool
  | .poolFree pool => [pool]
  | _ => []

def obtained : DpdkCall dpdk → List dpdk.Mbuf
  | .rxBurst mbufs => mbufs
  | _ => []

def returned : DpdkCall dpdk → List dpdk.Mbuf
  | .mbufFree mbuf => [mbuf]
  | _ => []

end DpdkCall

/-- What the calls of a history have moved, in their order. -/
def moved {dpdk : Dpdk} {α : Type} (part : DpdkCall dpdk → List α) :
    List (DpdkCall dpdk) → List α
  | [] => []
  | call :: earlier => moved part earlier ++ part call

def Obeyed {dpdk : Dpdk} (calls : List (DpdkCall dpdk)) : Prop := ∀ call ∈ calls, call.Obeyed

section Histories

variable {dpdk : Dpdk}

theorem obeyed_cons {call : DpdkCall dpdk} {calls : List (DpdkCall dpdk)}
    (obeyed : Obeyed (call :: calls)) : call.Obeyed ∧ Obeyed calls :=
  List.forall_mem_cons.mp obeyed

theorem documented_cons {call : DpdkCall dpdk} {calls : List (DpdkCall dpdk)}
    {usage : Usage dpdk} (documented : Documented (call :: calls) usage) :
    ∃ before, Documented calls before ∧ Used before call usage := by
  cases documented with
  | call prior used => exact ⟨_, prior, used⟩

/-- A port whose stop has failed is not closed. -/
theorem close_needs_stop {result closing : Int} {before between after : Usage dpdk}
    (stops : Used before (.stop result) between) (closes : Used between (.close closing) after) :
    0 ≤ result := by
  cases stops with
  | stop moved =>
      by_contra failed
      rw [if_pos (Int.not_le.mp failed)] at moved
      subst moved
      cases closes with
      | close stopped _ => cases stopped

end Histories

/-! ## What the engine relies on -/

/-- The frames of the ports: those that wait in a queue, and the mbufs that the application
has. -/
structure ReceiveLaws (dpdk : Dpdk) where
  waiting : (portId queueId : UInt16) → dpdk.State → List (List UInt8)
  lent : dpdk.State → dpdk.Mbuf → Prop
  /-- A port starts with empty queues. -/
  start_empties : ∀ portId queueId library, 0 ≤ (dpdk.rteEthDevStart portId library).2 →
    waiting portId queueId (dpdk.rteEthDevStart portId library).1 = []
  promiscuous_keeps : ∀ portId queueId library,
    waiting portId queueId (dpdk.rteEthPromiscuousEnable portId library).1 =
      waiting portId queueId library
  /-- A frame that is taken goes to the end of its queue. -/
  arrive_appends : ∀ portId queueId frame library,
    waiting portId queueId (dpdk.arrive portId queueId frame library).1 =
      waiting portId queueId library ++
        if (dpdk.arrive portId queueId frame library).2 then [frame] else []
  /-- A port does not write to an mbuf that the application has. -/
  arrive_keeps : ∀ portId queueId frame library mbuf, lent library mbuf →
    lent (dpdk.arrive portId queueId frame library).1 mbuf ∧
      dpdk.data (dpdk.arrive portId queueId frame library).1 mbuf = dpdk.data library mbuf
  /-- A burst is taken from the front of the queue. -/
  burst_takes : ∀ portId queueId count library,
    let received := dpdk.rteEthRxBurst portId queueId count library
    waiting portId queueId library =
      received.2.map (dpdk.data received.1) ++ waiting portId queueId received.1
  burst_lends : ∀ portId queueId count library,
    let received := dpdk.rteEthRxBurst portId queueId count library
    received.2.Nodup ∧ ∀ mbuf ∈ received.2, lent received.1 mbuf
  free_keeps : ∀ mbuf library, lent library mbuf →
    (∀ portId queueId, waiting portId queueId (dpdk.rtePktmbufFree mbuf library) =
      waiting portId queueId library) ∧
      ∀ other, lent library other → other ≠ mbuf →
        lent (dpdk.rtePktmbufFree mbuf library) other

/-- `rte_eth_rx_burst` returns at most what it is asked for. -/
def BurstsBounded (dpdk : Dpdk) : Prop :=
  ∀ portId queueId count library,
    (dpdk.rteEthRxBurst portId queueId count library).2.length ≤ count.toNat

end MarketDataEngine.EngineV3
