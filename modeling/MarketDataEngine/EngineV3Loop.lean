import MarketDataEngine.TransitionSystem
import MarketDataEngine.DpdkSource
import MarketDataEngine.EngineV3Frames

/-!
# Engine v3 from the start of `main` to its exit

`main` sets up the log file, the signal handlers and DPDK, opens the source and calls
`Engine::run`, which opens it once more, polls bursts of packets until it is told to stop, and
closes it. Frames arrive, signals are delivered and `request_stop` is called at any time.

A packet points into an mbuf, so `process_one` reads what is there when it reads. `arrived` and
`handled` are histories: the frames the port has taken since it was opened, and the bytes that
`process_one` found.
-/

namespace MarketDataEngine.EngineV3

open MarketDataEngine.Protocol MarketDataEngine.Engine MarketDataEngine.TransitionSystem

set_option autoImplicit false

/-! ## One packet -/

/-- What `process_one` logs. -/
inductive LogLine where
  | decodeFailed (payloadLen : Nat)
  | parsed (frameLen payloadLen : Nat) (msg : MarketDataMsg)
  | gap (expected got missing : UInt64)
  | outOfOrder (expected got : UInt64)

/-- The fields of `EngineConfig` that the loop reads, but for the flag of the signals, which
`main` always hands over. -/
structure EngineConfig where
  burstSize : Nat
  udpDstPort : UInt16
  logEachPacket : Bool

/-- The warnings of the sequence check. -/
def sequenceLines (tracker : SequenceTracker) (seqNum : UInt64) : Verdict → List LogLine
  | .gap missing => [.gap tracker.expectedSeqNum seqNum missing]
  | .old => [.outOfOrder tracker.expectedSeqNum seqNum]
  | _ => []

/-- `process_one` with what it logs. -/
def processLogged (order : ByteOrder) (cfg : EngineConfig) (tracker : SequenceTracker)
    (packet : PacketView) : SequenceTracker × List LogLine :=
  match packet.data with
  | none => (tracker, [])
  | some frame =>
      let extracted := extractUdpPayload packet cfg.udpDstPort
      if extracted.ok then
        let result := decode order (extracted.bytes frame) extracted.payloadLen
          ⟨0, 0, 0, 0, 0, 0, 0⟩
        if result.1 then
          let parsed := if cfg.logEachPacket then
            [LogLine.parsed packet.len extracted.payloadLen result.2] else []
          let verdict := tracker.verdict result.2.seqNum
          (tracker.advance result.2.seqNum verdict,
            parsed ++ sequenceLines tracker result.2.seqNum verdict)
        else (tracker, [.decodeFailed extracted.payloadLen])
      else (tracker, [])

/-- Logging decides nothing. -/
theorem process_logged_tracker (order : ByteOrder) (cfg : EngineConfig)
    (tracker : SequenceTracker) (packet : PacketView) :
    (processLogged order cfg tracker packet).1 =
      processOne order cfg.udpDstPort tracker packet := by
  unfold processLogged processOne
  cases packet.data with
  | none => rfl
  | some frame =>
      simp only
      split_ifs <;> rfl

/-- A whole frame, as the port hands it over. -/
def handleFrame (order : ByteOrder) (cfg : EngineConfig)
    (before : SequenceTracker × List LogLine) (frame : List UInt8) :
    SequenceTracker × List LogLine :=
  let result := processLogged order cfg before.1 ⟨some frame, frame.length⟩
  (result.1, before.2 ++ result.2)

/-! ## The program -/

def kSigint : Int := 2

def kSigterm : Int := 15

/-- The points of `main` and, from `runTest` on, of `run`. -/
inductive MainPoint (dpdk : Dpdk) where
  | setLogFile
  | installSigint
  | installSigterm
  | initEal
  | attach
  | openSource
  | runTest
  | runOpen
  | stopTest
  | signalTest
  | poll
  | process (rest : List (RxPacket dpdk))
  | release
  | closeSource
  | exit (code : Nat)

/-- What a call of `main` outside DPDK returns. -/
inductive MainAnswer where
  | tick
  | result (ok : Bool)

inductive LoopLabel where
  | main (answer : MainAnswer)
  | arrive (frame : List UInt8)
  | requestStop
  | signal (sig : Int)

structure Program where
  order : ByteOrder
  engine : EngineConfig

structure LoopState (dpdk : Dpdk) where
  point : MainPoint dpdk
  installed : List Int
  attached : Bool
  source : DpdkRxSource dpdk
  packets : List (RxPacket dpdk)
  tracker : SequenceTracker
  log : List LogLine
  stopRequested : Bool
  stopSignal : Int
  arrived : List (List UInt8)
  handled : List (List UInt8)

/-- `cfg_.burst_size < kMaxBurst ? cfg_.burst_size : kMaxBurst` -/
def Program.burst (program : Program) : Nat :=
  if program.engine.burstSize < kMaxBurst then program.engine.burstSize else kMaxBurst

namespace LoopState

variable {dpdk : Dpdk} (program : Program) (state : LoopState dpdk)

def goto (point : MainPoint dpdk) : LoopState dpdk := { state with point := point }

def install (sig : Int) (ok : Bool) (next : MainPoint dpdk) : LoopState dpdk :=
  if ok then { state with installed := sig :: state.installed, point := next }
  else state.goto (.exit 1)

/-- `init_eal`; without a port it is a failure too. -/
def initEal : LoopState dpdk :=
  let result := dpdk.rteEalInit state.source.library
  let begun := { state with source := { state.source with library := result.1 } }
  if result.2 < 0 then begun.goto (.exit 1)
  else if dpdk.rteEthDevCountAvail result.1 = 0 then begun.goto (.exit 1)
  else begun.goto .attach

def openStep (next : MainPoint dpdk) : LoopState dpdk :=
  let result := state.source.openSource
  { state with
    source := result.1
    arrived := if state.source.isOpen then state.arrived else []
    point := if result.2 then next else .exit 1 }

def pollStep : LoopState dpdk :=
  let polled := state.source.poll program.burst
  { state with source := polled.1, packets := polled.2, point := .process polled.2 }

/-- The bytes behind a packet. -/
def contents (packet : RxPacket dpdk) : List UInt8 :=
  dpdk.data state.source.library packet.handle

def processStep (packet : RxPacket dpdk) (rest : List (RxPacket dpdk)) : LoopState dpdk :=
  let result := processLogged program.order program.engine state.tracker
    ⟨some (state.contents packet), packet.len⟩
  { state with
    tracker := result.1
    log := state.log ++ result.2
    handled := state.handled ++ [state.contents packet]
    point := .process rest }

def mainStep : MainAnswer → Option (LoopState dpdk)
  | .result ok =>
      match state.point with
      | .setLogFile => some (state.goto (if ok then .installSigint else .exit 1))
      | .installSigint => some (state.install kSigint ok .installSigterm)
      | .installSigterm => some (state.install kSigterm ok .initEal)
      | _ => none
  | .tick =>
      match state.point with
      | .initEal => some state.initEal
      | .attach =>
          some (if state.attached then state.goto (.exit 1)
            else { state with attached := true, point := .openSource })
      | .openSource => some (state.openStep .runTest)
      | .runTest => some (state.goto (if state.attached then .runOpen else .exit 1))
      | .runOpen => some (state.openStep .stopTest)
      | .stopTest =>
          some (state.goto (if state.stopRequested then .closeSource else .signalTest))
      | .signalTest =>
          some (state.goto (if state.stopSignal = 0 then .poll else .closeSource))
      | .poll => some (state.pollStep program)
      | .process (packet :: rest) => some (state.processStep program packet rest)
      | .process [] =>
          some (state.goto (if state.packets.isEmpty then .stopTest else .release))
      | .release =>
          some { state with
            source := state.source.release state.packets
            packets := []
            point := .stopTest }
      | .closeSource =>
          some { state with source := state.source.closeSource, point := .exit 0 }
      | _ => none

def arriveStep (frame : List UInt8) : LoopState dpdk :=
  let result := dpdk.arrive state.source.cfg.portId state.source.cfg.queueId frame
    state.source.library
  { state with
    source := { state.source with library := result.1 }
    arrived := state.arrived ++ if result.2 then [frame] else [] }

def step : LoopLabel → Option (LoopState dpdk)
  | .main answer => state.mainStep program answer
  | .arrive frame => some (state.arriveStep frame)
  | .requestStop => some { state with stopRequested := true }
  | .signal sig => if sig ∈ state.installed then some { state with stopSignal := sig } else none

/-- The program starts over a library in any state. -/
structure Initial (state : LoopState dpdk) : Prop where
  point : state.point = .setLogFile
  installed : state.installed = []
  attached : state.attached = false
  source : state.source.New
  packets : state.packets = []
  tracker : state.tracker = .fresh
  log : state.log = []
  stopSignal : state.stopSignal = 0
  histories : state.arrived = [] ∧ state.handled = []

end LoopState

def engineV3 (dpdk : Dpdk) (program : Program) : System (LoopState dpdk) LoopLabel where
  start := LoopState.Initial
  step := LoopState.step program

/-! ## What every step keeps -/

/-- The packets of the current burst that are still to be handled. -/
def MainPoint.rest {dpdk : Dpdk} : MainPoint dpdk → List (RxPacket dpdk)
  | .process rest => rest
  | _ => []

/-- What is known at a point: whether the source is open, attached and has packets out. -/
def LoopState.AtPoint {dpdk : Dpdk} (state : LoopState dpdk) : MainPoint dpdk → Prop
  | .setLogFile | .installSigint | .installSigterm | .initEal | .attach =>
      state.source.isOpen = false ∧ state.attached = false ∧ state.packets = [] ∧
        state.handled = []
  | .openSource =>
      state.source.isOpen = false ∧ state.attached = true ∧ state.packets = [] ∧
        state.handled = []
  | .process rest =>
      state.source.isOpen = true ∧ state.attached = true ∧ rest <:+ state.packets
  | .release => state.source.isOpen = true ∧ state.attached = true
  | .exit _ => state.source.isOpen = false ∧ state.packets = []
  | _ => state.source.isOpen = true ∧ state.attached = true ∧ state.packets = []

/-- Whatever the library does. -/
structure LoopKept {dpdk : Dpdk} (state : LoopState dpdk) : Prop where
  source : SourceKept state.source (state.packets.map RxPacket.handle)
  at_point : state.AtPoint state.point

/-- A step that leaves the packets, the frames and the source alone, but for the library while
the source is closed. -/
structure Quiet {dpdk : Dpdk} (state next : LoopState dpdk) : Prop where
  source : ∃ library, next.source = { state.source with library := library } ∧
    (state.source.isOpen = true → library = state.source.library)
  packets : next.packets = state.packets
  rest : next.point.rest = state.point.rest
  sequence : next.tracker = state.tracker ∧ next.log = state.log
  histories : next.arrived = state.arrived ∧ next.handled = state.handled

/-- What a step of `main` can do. -/
inductive MainMoves {dpdk : Dpdk} (program : Program) (state next : LoopState dpdk) : Prop where
  | quietly (quiet : Quiet state next) (at_point : next.AtPoint next.point)
  | opens (at_ : state.point = .openSource) (same : next = state.openStep .runTest)
  | polls (at_ : state.point = .poll) (same : next = state.pollStep program)
  | handles {packet : RxPacket dpdk} {rest : List (RxPacket dpdk)}
      (at_ : state.point = .process (packet :: rest))
      (same : next = state.processStep program packet rest)
  | releases (at_ : state.point = .release)
      (same : next = { state with
        source := state.source.release state.packets
        packets := []
        point := .stopTest })
  | closes (at_ : state.point = .closeSource)
      (same : next = { state with source := state.source.closeSource, point := .exit 0 })

section Steps

variable {dpdk : Dpdk} {program : Program} {state next : LoopState dpdk}

theorem kept_outside {source : DpdkRxSource dpdk} {held : List dpdk.Mbuf}
    (kept : SourceKept source held) (library : dpdk.State) :
    SourceKept { source with library := library } held :=
  ⟨kept.pool, kept.pools, kept.mbufs, kept.idle, kept.documented⟩

theorem quiet_of_fields {point : MainPoint dpdk} {installed : List Int} {attached requested : Bool}
    {signal : Int} (rest : point.rest = state.point.rest) :
    Quiet state { state with
      point := point
      installed := installed
      attached := attached
      stopRequested := requested
      stopSignal := signal } := by
  constructor
  · exact ⟨state.source.library, rfl, fun _ => rfl⟩
  · rfl
  · exact rest
  · exact ⟨rfl, rfl⟩
  · exact ⟨rfl, rfl⟩

theorem quiet_goto {point : MainPoint dpdk} (rest : point.rest = state.point.rest) :
    Quiet state (state.goto point) :=
  quiet_of_fields rest

/-- A step of the set-up, which ends the program if it fails. -/
theorem set_up_moves {ok : Bool} {point : MainPoint dpdk}
    (rest : point.rest = state.point.rest) (idle : state.point.rest = [])
    (known : state.source.isOpen = false ∧ state.packets = [])
    (at_point : (state.goto point).AtPoint point) :
    MainMoves program state (state.goto (if ok then point else .exit 1)) := by
  cases ok with
  | true => exact .quietly (quiet_goto rest) at_point
  | false => exact .quietly (quiet_goto idle.symm) known

theorem install_moves {sig : Int} {ok : Bool} {point : MainPoint dpdk}
    (rest : point.rest = state.point.rest) (idle : state.point.rest = [])
    (known : state.source.isOpen = false ∧ state.packets = [])
    (at_point : ∀ installed, LoopState.AtPoint { state with
      installed := installed, point := point } point) :
    MainMoves program state (state.install sig ok point) := by
  cases ok with
  | true => exact .quietly (quiet_of_fields rest) (at_point _)
  | false => exact .quietly (quiet_goto idle.symm) known

theorem eal_moves (idle : state.point.rest = [])
    (known : state.source.isOpen = false ∧ state.attached = false ∧ state.packets = [] ∧
      state.handled = []) : MainMoves program state state.initEal := by
  obtain ⟨closed, attached, packets, handled⟩ := known
  have quiet : ∀ {point : MainPoint dpdk}, point.rest = [] →
      Quiet state { state with
        source := { state.source with library := (dpdk.rteEalInit state.source.library).1 }
        point := point } := by
    intro point none_
    refine ⟨⟨_, rfl, ?_⟩, rfl, none_.trans idle.symm, ⟨rfl, rfl⟩, ⟨rfl, rfl⟩⟩
    intro opened
    exact absurd (opened.symm.trans closed) Bool.noConfusion
  unfold LoopState.initEal
  simp only
  split_ifs
  · exact .quietly (quiet rfl) ⟨closed, packets⟩
  · exact .quietly (quiet rfl) ⟨closed, packets⟩
  · exact .quietly (quiet rfl) ⟨closed, attached, packets, handled⟩

theorem main_moves_result (known : state.AtPoint state.point) {ok : Bool}
    (taken : state.mainStep program (.result ok) = some next) : MainMoves program state next := by
  simp only [LoopState.mainStep] at taken
  split at taken
  · next at_ =>
      cases taken
      rw [at_] at known
      exact set_up_moves (by rw [at_]; rfl) (by rw [at_]; rfl) ⟨known.1, known.2.2.1⟩ known
  · next at_ =>
      cases taken
      rw [at_] at known
      exact install_moves (by rw [at_]; rfl) (by rw [at_]; rfl) ⟨known.1, known.2.2.1⟩
        fun _ => known
  · next at_ =>
      cases taken
      rw [at_] at known
      exact install_moves (by rw [at_]; rfl) (by rw [at_]; rfl) ⟨known.1, known.2.2.1⟩
        fun _ => known
  · cases taken

theorem main_moves_tick (known : state.AtPoint state.point)
    (taken : state.mainStep program .tick = some next) : MainMoves program state next := by
  simp only [LoopState.mainStep] at taken
  split at taken
  · next at_ =>
      cases taken
      rw [at_] at known
      exact eal_moves (by rw [at_]; rfl) known
  · next at_ =>
      cases taken
      rw [at_] at known
      obtain ⟨closed, attached, packets, handled⟩ := known
      rw [attached, if_neg Bool.false_ne_true]
      exact .quietly (quiet_of_fields (by rw [at_]; rfl)) ⟨closed, rfl, packets, handled⟩
  · next at_ =>
      cases taken
      exact .opens at_ rfl
  · next at_ =>
      cases taken
      rw [at_] at known
      rw [known.2.1, if_pos rfl]
      exact .quietly (quiet_goto (by rw [at_]; rfl)) known
  · next at_ =>
      cases taken
      rw [at_] at known
      have same : state.openStep .stopTest = state.goto .stopTest := by
        unfold LoopState.openStep
        rw [open_again known.1, known.1]
        rfl
      rw [same]
      exact .quietly (quiet_goto (by rw [at_]; rfl)) known
  · next at_ =>
      cases taken
      rw [at_] at known
      split_ifs
      · exact .quietly (quiet_goto (by rw [at_]; rfl)) known
      · exact .quietly (quiet_goto (by rw [at_]; rfl)) known
  · next at_ =>
      cases taken
      rw [at_] at known
      split_ifs
      · exact .quietly (quiet_goto (by rw [at_]; rfl)) known
      · exact .quietly (quiet_goto (by rw [at_]; rfl)) known
  · next at_ =>
      cases taken
      exact .polls at_ rfl
  · next packet rest at_ =>
      cases taken
      exact .handles at_ rfl
  · next at_ =>
      cases taken
      rw [at_] at known
      obtain ⟨opened, attached, -⟩ := known
      split_ifs with empty
      · exact .quietly (quiet_goto (by rw [at_]; rfl))
          ⟨opened, attached, List.isEmpty_iff.mp empty⟩
      · exact .quietly (quiet_goto (by rw [at_]; rfl)) ⟨opened, attached⟩
  · next at_ =>
      cases taken
      exact .releases at_ rfl
  · next at_ =>
      cases taken
      exact .closes at_ rfl
  · cases taken

theorem main_moves_of_step (known : state.AtPoint state.point) {answer : MainAnswer}
    (taken : state.mainStep program answer = some next) : MainMoves program state next := by
  cases answer with
  | tick => exact main_moves_tick known taken
  | result ok => exact main_moves_result known taken

/-! ## The source in the loop -/

theorem loop_kept_initial (initial : state.Initial) : LoopKept state := by
  constructor
  · rw [initial.packets]
    exact kept_new initial.source
  · rw [initial.point]
    exact ⟨initial.source.closed, initial.attached, initial.packets, initial.histories.2⟩

theorem loop_kept_quiet (kept : LoopKept state) (quiet : Quiet state next)
    (at_point : next.AtPoint next.point) : LoopKept next := by
  obtain ⟨library, source, -⟩ := quiet.source
  constructor
  · rw [source, quiet.packets]
    exact kept_outside kept.source library
  · exact at_point

theorem loop_kept_main (kept : LoopKept state) {answer : MainAnswer}
    (taken : state.mainStep program answer = some next) : LoopKept next := by
  have known := kept.at_point
  have source := kept.source
  cases main_moves_of_step known taken with
  | quietly quiet at_point => exact loop_kept_quiet kept quiet at_point
  | opens at_ same =>
      rw [at_] at known
      obtain ⟨closed, attached, packets, handled⟩ := known
      rw [packets] at source
      obtain ⟨opens, answered⟩ := open_kept source
      rw [same]
      constructor
      · show SourceKept state.source.openSource.1 (state.packets.map RxPacket.handle)
        rw [packets]
        exact opens
      · show LoopState.AtPoint _ (if state.source.openSource.2 then MainPoint.runTest else .exit 1)
        cases ok : state.source.openSource.2 with
        | true => exact ⟨answered.trans ok, attached, packets⟩
        | false => exact ⟨answered.trans ok, packets⟩
  | polls at_ same =>
      rw [at_] at known
      obtain ⟨opened, attached, packets⟩ := known
      rw [packets] at source
      rw [same]
      exact ⟨poll_kept source opened program.burst, opened, attached, List.suffix_rfl⟩
  | handles at_ same =>
      rw [at_] at known
      obtain ⟨opened, attached, suffix⟩ := known
      rw [same]
      exact ⟨source, opened, attached, (List.suffix_cons _ _).trans suffix⟩
  | releases at_ same =>
      rw [at_] at known
      obtain ⟨released, opened⟩ := release_kept known.1 source
      rw [same]
      exact ⟨released, opened, known.2, rfl⟩
  | closes at_ same =>
      rw [at_] at known
      obtain ⟨opened, attached, packets⟩ := known
      rw [packets] at source
      obtain ⟨closes, closed⟩ := close_kept source
      rw [same]
      constructor
      · show SourceKept state.source.closeSource (state.packets.map RxPacket.handle)
        rw [packets]
        exact closes
      · exact ⟨closed, packets⟩

/-- The library and the histories do not show in what is known at a point. -/
theorem at_point_arrived {point : MainPoint dpdk} (known : state.AtPoint point)
    (library : dpdk.State) (arrived : List (List UInt8)) :
    LoopState.AtPoint { state with
      source := { state.source with library := library }
      arrived := arrived } point := by
  cases point with
  | _ => exact known

theorem at_point_flags {point : MainPoint dpdk} (known : state.AtPoint point) (requested : Bool)
    (signal : Int) :
    LoopState.AtPoint { state with stopRequested := requested, stopSignal := signal } point := by
  cases point with
  | _ => exact known

theorem loop_kept_step (kept : LoopKept state) {label : LoopLabel}
    (taken : state.step program label = some next) : LoopKept next := by
  cases label with
  | main answer => exact loop_kept_main kept taken
  | arrive frame =>
      cases taken
      exact ⟨kept_outside kept.source _, at_point_arrived kept.at_point _ _⟩
  | requestStop =>
      cases taken
      exact ⟨kept.source, at_point_flags kept.at_point _ _⟩
  | signal sig =>
      simp only [LoopState.step] at taken
      split_ifs at taken
      cases taken
      exact ⟨kept.source, at_point_flags kept.at_point _ _⟩

theorem loop_kept_reached (reached : Reaches (engineV3 dpdk program) state) :
    LoopKept state := by
  apply invariant_of_step _ _ reached
  · intro state initial
    exact loop_kept_initial initial
  · intro state label next prior kept allowed taken
    exact loop_kept_step kept taken

/-! ## The frames -/

/-- Over a library that keeps these laws. -/
structure FramesKept (laws : ReceiveLaws dpdk) (program : Program) (state : LoopState dpdk) :
    Prop where
  lent : ∀ packet ∈ state.packets, laws.lent state.source.library packet.handle
  distinct : (state.packets.map RxPacket.handle).Nodup
  lengths : ∀ packet ∈ state.packets, packet.len = (state.contents packet).length
  /-- Every frame was handled, is in the current burst, or waits in the queue, in this order. -/
  frames : state.source.isOpen = true → state.arrived = state.handled ++
    state.point.rest.map state.contents ++ laws.queue state.source
  earlier : state.handled <+: state.arrived
  folded : (state.tracker, state.log) =
    state.handled.foldl (handleFrame program.order program.engine) (.fresh, [])

variable {laws : ReceiveLaws dpdk}

end Steps

def newLoop : LoopState portInMemory where
  point := .setLogFile
  installed := []
  attached := false
  source := newSource 0 4
  packets := []
  tracker := .fresh
  log := []
  stopRequested := false
  stopSignal := 0
  arrived := []
  handled := []

theorem new_loop_initial : newLoop.Initial where
  point := rfl
  installed := rfl
  attached := rfl
  source := ⟨rfl, rfl, rfl⟩
  packets := rfl
  tracker := rfl
  log := rfl
  stopSignal := rfl
  histories := ⟨rfl, rfl⟩

def smallProgram : Program := ⟨.little, ⟨2, 8888, false⟩⟩

def mainTicks (count : Nat) : List LoopLabel := List.replicate count (.main .tick)

/-- Everything succeeds up to the first `poll`. -/
def setUp : List LoopLabel :=
  List.replicate 3 (LoopLabel.main (.result true)) ++ mainTicks 7

end MarketDataEngine.EngineV3
