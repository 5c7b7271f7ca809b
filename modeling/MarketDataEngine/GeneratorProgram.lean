import MarketDataEngine.DescriptorLedger
import MarketDataEngine.GeneratorClient
import MarketDataEngine.GeneratorMain
import MarketDataEngine.UdpSenderBranches

/-!
# The generator as a program

`main` of the generator from its environment to its exit code: the log file, the settings,
`Sender::open`, the run, and the destructor that closes the socket. `inet_pton` is a
parameter. The log file's descriptor and the texts of the log are left out.
-/

namespace MarketDataEngine.Net

open MarketDataEngine.DescriptorLedger

set_option autoImplicit false

/-! ## Opening and closing a sender -/

/-- An address text is `none` for a null pointer. -/
structure SenderConfig where
  localIp : Option (List Char)
  localPort : UInt16
  remoteIp : Option (List Char)
  remotePort : UInt16
  sndbufBytes : Int32
  connectSocket : Bool

/-- What the kernel answers to the calls of `open`. -/
structure SenderOpenAnswers where
  socket : Option Nat
  sndbuf : Bool
  bind : Bool
  connect : Bool

/-- `ip == nullptr || ip[0] == '\0'` -/
def isEmptyText (ip : Option (List Char)) : Bool := (ip.getD []).isEmpty

namespace Sender

def fresh : Sender := ⟨-1, false, ⟨0, 0⟩, ⟨0, 0, 0, 0⟩⟩

def closed (sender : Sender) : Sender :=
  { sender with fd := -1, connected := false, remote := ⟨0, 0⟩ }

/-- `close` -/
def closeSocket (sender : Sender) (ledger : Ledger) : Sender × Ledger :=
  (sender.closed, if 0 ≤ sender.fd then ledger.close sender.fd.toNat else ledger)

variable (inetPton : List Char → Option UInt32)

/-- `open` from the first system call on, on a sender that is closed. -/
def openFresh (sender : Sender) (ledger : Ledger) (cfg : SenderConfig)
    (answers : SenderOpenAnswers) (sockfd : Nat) : Sender × Ledger × Bool :=
  let ledger := ledger.acquire sockfd
  if 0 < cfg.sndbufBytes ∧ answers.sndbuf = false then (sender, ledger.close sockfd, false)
  else if !isEmptyText cfg.localIp && (inetPton (cfg.localIp.getD [])).isNone then
    (sender, ledger.close sockfd, false)
  else if !answers.bind then (sender, ledger.close sockfd, false)
  else
    match inetPton (cfg.remoteIp.getD []) with
    | none => (sender, ledger.close sockfd, false)
    | some address =>
        if cfg.connectSocket && !answers.connect then (sender, ledger.close sockfd, false)
        else
          ({ sender with
              fd := sockfd
              connected := cfg.connectSocket
              remote := ⟨address, cfg.remotePort⟩ }, ledger, true)

/-- `open` -/
def openSocket (sender : Sender) (ledger : Ledger) (cfg : SenderConfig)
    (answers : SenderOpenAnswers) : Sender × Ledger × Bool :=
  let (sender, ledger) := sender.closeSocket ledger
  if isEmptyText cfg.remoteIp || cfg.remotePort == 0 then (sender, ledger, false)
  else
    match answers.socket with
    | none => (sender, ledger, false)
    | some sockfd => sender.openFresh inetPton ledger cfg answers sockfd

/-- What `open` needs of its configuration and of the kernel. -/
structure Opens (cfg : SenderConfig) (answers : SenderOpenAnswers) : Prop where
  remote_ip : isEmptyText cfg.remoteIp = false
  remote_port : cfg.remotePort ≠ 0
  socket : answers.socket.isSome
  sndbuf : 0 < cfg.sndbufBytes → answers.sndbuf = true
  local_address : isEmptyText cfg.localIp = true ∨ (inetPton (cfg.localIp.getD [])).isSome
  bind : answers.bind = true
  remote_address : (inetPton (cfg.remoteIp.getD [])).isSome
  connect : cfg.connectSocket = true → answers.connect = true

/-- A failed `open` leaves a closed sender, and closes the socket if there was one. -/
inductive Opening (sender : Sender) (ledger : Ledger) (cfg : SenderConfig)
    (answers : SenderOpenAnswers) : Sender × Ledger × Bool → Prop where
  | opened (opens : Opens inetPton cfg answers) (sockfd : Nat) (address : UInt32)
      (socket : answers.socket = some sockfd) :
      Opening sender ledger cfg answers
        ({ sender with
            fd := sockfd
            connected := cfg.connectSocket
            remote := ⟨address, cfg.remotePort⟩ }, ledger.acquire sockfd, true)
  | refused (fails : ¬ Opens inetPton cfg answers) :
      Opening sender ledger cfg answers (sender, ledger, false)
  | abandoned (fails : ¬ Opens inetPton cfg answers) (sockfd : Nat)
      (socket : answers.socket = some sockfd) :
      Opening sender ledger cfg answers (sender, (ledger.acquire sockfd).close sockfd, false)

variable {inetPton}

theorem opening_of_fresh {sender : Sender} {ledger : Ledger} {cfg : SenderConfig}
    {answers : SenderOpenAnswers} {sockfd : Nat} (named : isEmptyText cfg.remoteIp = false)
    (port : cfg.remotePort ≠ 0) (socket : answers.socket = some sockfd) :
    Opening inetPton sender ledger cfg answers
      (sender.openFresh inetPton ledger cfg answers sockfd) := by
  unfold openFresh
  split_ifs with sndbuf localIp bind connect
  · refine .abandoned ?_ sockfd socket
    intro opens
    rw [opens.sndbuf sndbuf.1] at sndbuf
    cases sndbuf.2
  · refine .abandoned ?_ sockfd socket
    intro opens
    rw [Bool.and_eq_true, Option.isNone_iff_eq_none] at localIp
    rcases opens.local_address with empty | found
    · rw [empty] at localIp
      cases localIp.1
    · rw [localIp.2] at found
      cases found
  · refine .abandoned ?_ sockfd socket
    intro opens
    rw [opens.bind] at bind
    cases bind
  · have fails : ¬ Opens inetPton cfg answers := by
      intro opens
      rw [Bool.and_eq_true] at connect
      rw [opens.connect connect.1] at connect
      cases connect.2
    cases inetPton (cfg.remoteIp.getD []) with
    | none => exact .abandoned fails sockfd socket
    | some address => exact .abandoned fails sockfd socket
  · cases address : inetPton (cfg.remoteIp.getD []) with
    | none =>
        refine .abandoned ?_ sockfd socket
        intro opens
        have found := opens.remote_address
        rw [address] at found
        cases found
    | some found =>
        refine .opened ?_ sockfd found socket
        constructor
        · exact named
        · exact port
        · rw [socket]
          rfl
        · intro positive
          simpa [positive] using sndbuf
        · by_cases empty : isEmptyText cfg.localIp = true
          · exact .inl empty
          · right
            simpa [empty, Option.isSome_iff_ne_none] using localIp
        · simpa using bind
        · rw [address]
          rfl
        · intro connected
          simpa [connected] using connect

theorem opening_of_open (sender : Sender) (ledger : Ledger) (cfg : SenderConfig)
    (answers : SenderOpenAnswers) :
    Opening inetPton sender.closed (sender.closeSocket ledger).2 cfg answers
      (sender.openSocket inetPton ledger cfg answers) := by
  unfold openSocket
  simp only
  split_ifs with unusable
  · refine .refused ?_
    intro opens
    simp [opens.remote_ip, opens.remote_port] at unusable
  · obtain ⟨named, port⟩ : isEmptyText cfg.remoteIp = false ∧ cfg.remotePort ≠ 0 := by
      simpa using unusable
    cases socket : answers.socket with
    | none =>
        refine .refused ?_
        intro opens
        have found := opens.socket
        rw [socket] at found
        cases found
    | some sockfd => exact opening_of_fresh named port socket

end Sender

end MarketDataEngine.Net

namespace MarketDataEngine.GeneratorV2

open MarketDataEngine.DescriptorLedger MarketDataEngine.Net MarketDataEngine.Protocol

/-! ## The settings -/

/-- The values of the variables, `none` where one is not set. -/
structure Settings where
  run : Environment
  localIp : Option (List Char)
  localPort : Option (List Char)
  remoteIp : Option (List Char)
  remotePort : Option (List Char)
  sndbufBytes : Option (List Char)

def envOrDefault (value : Option (List Char)) (fallback : List Char) : List Char :=
  match value with
  | some (first :: rest) => first :: rest
  | _ => fallback

/-- `std::from_chars` into an `unsigned int`, with `ec == std::errc{}` and `ptr == end`. -/
def fromCharsUnsigned (text : List Char) : Option Nat :=
  (decimal text).bind fun value => if value < 2 ^ 32 then some value else none

def envU16 (value : Option (List Char)) (fallback : UInt16) : UInt16 :=
  match value with
  | some (first :: rest) =>
      match fromCharsUnsigned (first :: rest) with
      | some parsed => if parsed ≤ 65535 then UInt16.ofNat parsed else fallback
      | none => fallback
  | _ => fallback

/-- `env_int` on the value of a variable. -/
def readInt (value : Option (List Char)) (fallback : Int32) : Int32 :=
  envInt (fun _ => value) .rate fallback

def senderConfig (settings : Settings) : SenderConfig where
  localIp := some (envOrDefault settings.localIp ['0', '.', '0', '.', '0', '.', '0'])
  localPort := envU16 settings.localPort 0
  remoteIp := some (envOrDefault settings.remoteIp
    ['1', '2', '7', '.', '0', '.', '0', '.', '1'])
  remotePort := envU16 settings.remotePort 8888
  sndbufBytes := readInt settings.sndbufBytes (4 * 1024 * 1024)
  connectSocket := true

/-! ## From the environment to the exit code -/

structure ProgramEnd where
  exit : Nat
  kernel : BatchKernel
  ledger : Ledger

section Program

variable (inetPton : List Char → Option UInt32) (order : ByteOrder) (uninitialised : Frame)

/-- `logOpened` is the result of `set_log_file`. The destructor of the generator closes the
sender on every way out. -/
def main (settings : Settings) (logOpened : Bool) (answers : SenderOpenAnswers)
    (kernel : BatchKernel) (now : Int) (ledger : Ledger) : ProgramEnd :=
  if !logOpened then ⟨1, kernel, ledger⟩
  else
    let (sender, ledger, connected) :=
      Sender.fresh.openSocket inetPton ledger (senderConfig settings) answers
    if connected then
      let finished := run Socket.sendFrames order uninitialised Socket.fd
        (mainArgs settings.run) now .constructed (sender, kernel)
      ⟨if finished.ok then 0 else 1, finished.sender.2,
        (finished.sender.1.closeSocket ledger).2⟩
    else ⟨1, kernel, (sender.closeSocket ledger).2⟩

/-- Nothing is open and nothing has been entered. -/
def blankLedger : Ledger := ⟨fun _ => none, 0, [], []⟩

theorem settled_blank : blankLedger.Settled := by
  constructor
  · intro serial member
    cases member
  · exact List.not_mem_nil

theorem settled_transient (number : Nat) :
    ((blankLedger.acquire number).close number).Settled := by
  have free : ∀ number, blankLedger.Free number := fun _ => rfl
  have sound : blankLedger.Sound := @sound_renew blankLedger free
  have opened : (blankLedger.acquire number).Open number := by
    rw [open_acquire]
    exact .inl rfl
  apply settled_of_sound (sound_close (sound_acquire sound (free number)) opened)
  intro other
  rw [← not_open_iff, open_close, open_acquire]
  rintro ⟨apart, same | before⟩
  · exact apart same
  · exact before rfl

variable {order uninitialised}

/-- A run keeps its descriptor and, on a connected socket, the form of its datagrams. -/
theorem run_keeps_fd {socket : Socket} (opened : 0 ≤ socket.fd) (args : RunArgs) (now : Int)
    (generator : Generator) :
    (run Socket.sendFrames order uninitialised Socket.fd args now generator socket).sender.1.fd =
      socket.fd := by
  obtain ⟨-, ended⟩ := run_ended order uninitialised args now generator socket opened
  generalize run Socket.sendFrames order uninitialised Socket.fd args now generator socket =
    finished at ended
  obtain ⟨ok, failure, generator, sender, next, batches⟩ := finished
  cases ended with
  | sent carried => exact carried.fd
  | failed carried stopped => exact stopped.carried.fd.trans carried.fd

theorem carrier_connected {socket : Socket} (connected : socket.1.connected = true) :
    carrier order uninitialised socket = GeneratorV1.datagram order uninitialised := by
  funext msg
  rw [carrier, GeneratorV1.datagram, Sender.datagram, connected, if_pos rfl]

/-- How `main` ends: `opened` says that the log file and the socket could be opened. -/
structure Ends (order : ByteOrder) (uninitialised : Frame) (kernel : BatchKernel)
    (messages : List MarketDataMsg) (opened : Prop) (ended : ProgramEnd) : Prop where
  ledger : ended.ledger.Settled
  taken : ∃ taken ≤ messages.length,
    ended.kernel.accepted = kernel.accepted ++
      (messages.take taken).map (GeneratorV1.datagram order uninitialised) ∧
    (¬ opened → taken = 0) ∧
    (ended.exit = 0 ↔ opened ∧ taken = messages.length) ∧ ended.exit ≤ 1

section Ends

variable {kernel : BatchKernel} {messages : List MarketDataMsg} {opened : Prop}
  {ledger : Ledger}

theorem ends_unopened (fails : ¬ opened) (settled : ledger.Settled) :
    Ends order uninitialised kernel messages opened ⟨1, kernel, ledger⟩ := by
  refine ⟨settled, 0, Nat.zero_le _, ?_, fun _ => rfl, ?_, Nat.le_refl 1⟩
  · rw [List.take_zero, List.map_nil, List.append_nil]
  · constructor
    · intro impossible
      cases impossible
    · rintro ⟨opens, -⟩
      exact absurd opens fails

theorem ends_opened (opens : opened) (settled : ledger.Settled) {socket : Socket}
    (nonnegative : 0 ≤ socket.fd) (connected : socket.1.connected = true) (args : RunArgs)
    (now : Int) (generator : Generator) :
    let finished := run Socket.sendFrames order uninitialised Socket.fd args now generator socket
    Ends order uninitialised socket.2 (feed args generator) opened
      ⟨if finished.ok then 0 else 1, finished.sender.2, ledger⟩ := by
  intro finished
  obtain ⟨taken, bound, ok, accepted, -⟩ := run_hands_over_feed order uninitialised args
    now generator socket nonnegative
  rw [carrier_connected connected] at accepted
  refine ⟨settled, taken, bound, accepted, fun unopened => absurd opens unopened, ?_, ?_⟩
  · show (if finished.ok = true then 0 else 1) = 0 ↔ _
    rw [← ok]
    constructor
    · intro zero
      refine ⟨opens, ?_⟩
      by_contra failed
      rw [if_neg failed] at zero
      cases zero
    · rintro ⟨-, all⟩
      rw [if_pos all]
  · show (if finished.ok = true then 0 else 1) ≤ 1
    split_ifs
    · exact Nat.zero_le 1
    · exact Nat.le_refl 1

end Ends

variable (order uninitialised)

theorem main_ends (settings : Settings) (logOpened : Bool) (answers : SenderOpenAnswers)
    (kernel : BatchKernel) (now : Int) :
    Ends order uninitialised kernel (feed (mainArgs settings.run) .constructed)
      (logOpened = true ∧ Sender.Opens inetPton (senderConfig settings) answers)
      (main inetPton order uninitialised settings logOpened answers kernel now blankLedger) := by
  cases logOpened with
  | false =>
      apply ends_unopened ?_ settled_blank
      rintro ⟨impossible, -⟩
      cases impossible
  | true =>
      have opening := @Sender.opening_of_open inetPton Sender.fresh blankLedger
        (senderConfig settings) answers
      simp only [main, Bool.not_true, Bool.false_eq_true, ↓reduceIte]
      generalize Sender.fresh.openSocket inetPton blankLedger (senderConfig settings) answers =
        result at opening
      cases opening with
      | refused fails => exact ends_unopened (fun opens => fails opens.2) settled_blank
      | abandoned fails sockfd socket =>
          exact ends_unopened (fun opens => fails opens.2) (settled_transient sockfd)
      | opened opens sockfd address number =>
          generalize same : (({ Sender.fresh.closed with
            fd := sockfd
            connected := (senderConfig settings).connectSocket
            remote := ⟨address, (senderConfig settings).remotePort⟩ }, kernel) : Socket) = socket
          have fd : Socket.fd socket = sockfd := by
            rw [← same]
            rfl
          have nonnegative : 0 ≤ Socket.fd socket := by
            rw [fd]
            exact Int.natCast_nonneg sockfd
          have connected : socket.1.connected = true := by
            rw [← same]
            rfl
          have before : socket.2 = kernel := by rw [← same]
          have sameFd := @run_keeps_fd order uninitialised socket nonnegative
            (mainArgs settings.run) now .constructed
          simp only [↓reduceIte]
          rw [← before]
          apply ends_opened ⟨trivial, opens⟩ ?_ nonnegative connected
          rw [Sender.closeSocket, sameFd, if_pos nonnegative, fd, Int.toNat_natCast]
          exact settled_transient sockfd

/-- The socket is closed again whatever happens. What the kernel took is a prefix of the feed
that the settings describe, `rate * duration_s` slots if no count is set, and the exit code is
0 exactly if the log file and the socket could be opened and it is the whole feed. -/
theorem program_sends_feed (settings : Settings) (logOpened : Bool) (answers : SenderOpenAnswers)
    (kernel : BatchKernel) (now : Int)
    (fits : 0 < rateOf settings.run →
      FitsInt ((rateOf settings.run).toInt * (durationOf settings.run).toInt)) :
    let ended := main inetPton order uninitialised settings logOpened answers kernel now
      blankLedger
    let args := mainArgs settings.run
    let messages := feed args .constructed
    let opened := logOpened = true ∧ Sender.Opens inetPton (senderConfig settings) answers
    (settings.run .count = none → 0 < rateOf settings.run →
      args.count.toInt = (rateOf settings.run).toInt * (durationOf settings.run).toInt) ∧
    ended.ledger.Settled ∧ ∃ taken ≤ messages.length,
      ended.kernel.accepted = kernel.accepted ++
        (messages.take taken).map (GeneratorV1.datagram order uninitialised) ∧
      (¬ opened → taken = 0) ∧
      (ended.exit = 0 ↔ opened ∧ taken = messages.length) ∧ ended.exit ≤ 1 := by
  intro ended args messages opened
  obtain ⟨settled, taken⟩ :=
    main_ends inetPton order uninitialised settings logOpened answers kernel now
  exact ⟨fun unset positive => main_count_product unset positive (fits positive), settled, taken⟩

end Program

section Taking

open MarketDataEngine.Net.Sender (TakesBatches)

variable {order : ByteOrder} {uninitialised : Frame}

/-- A kernel that goes on taking datagrams takes every batch. -/
theorem send_or_fail_taken {socket : Socket} (opened : 0 ≤ socket.fd)
    (takes : TakesBatches socket.2) (batch : List MarketDataMsg) (slotsRequested : Nat) :
    let tried := sendOrFail Socket.sendFrames order uninitialised socket batch slotsRequested
    tried.1 = none ∧ 0 ≤ tried.2.fd ∧ TakesBatches tried.2.2 := by
  intro tried
  by_cases empty : batch = []
  · have nothing : tried = (none, socket) := if_pos empty
    rw [nothing]
    exact ⟨rfl, opened, takes⟩
  obtain ⟨all, counted, -, still⟩ := Sender.send_remaining_taken socket.1 takes
    ((batch.map (encode order uninitialised)).map txFrame) 0 (tx_frames_valid batch) (Nat.zero_le _)
  have result : sendBatch Socket.sendFrames order uninitialised socket batch = _ :=
    Sender.send_batch_opened opened socket.2 _
  have sent : tried = (none,
      (sendBatch Socket.sendFrames order uninitialised socket batch).2) := by
    simp only [tried, sendOrFail, if_neg empty, result, all, List.length_map, ↓reduceIte]
  rw [sent, result]
  refine ⟨rfl, ?_, still⟩
  have same := (Sender.count_packets socket.1
    ((batch.map (encode order uninitialised)).map txFrame)).1
  rw [List.drop_zero] at counted
  show 0 ≤ (Sender.sendRemaining _ _ _ _).2.1.fd
  rw [counted, same]
  exact opened

theorem burst_loop_taken (args : RunArgs) (state : LoopState Socket)
    (opened : 0 ≤ state.sender.fd) (takes : TakesBatches state.sender.2) :
    (burstLoop Socket.sendFrames order uninitialised args state).1 = none := by
  fun_induction burstLoop Socket.sendFrames order uninitialised args state with
  | case1 state more slots batch generator filled sender later failure sending =>
      have tried := @send_or_fail_taken order uninitialised _ opened takes batch slots.toNat
      rw [sending] at tried
      exact absurd tried.1 (Option.some_ne_none _)
  | case2 state more slots batch generator filled sender later sending ih =>
      have tried := @send_or_fail_taken order uninitialised _ opened takes batch slots.toNat
      rw [sending] at tried
      exact ih tried.2.1 tried.2.2
  | case3 => rfl

/-- If the log file and the socket can be opened, the whole feed is sent. -/
theorem main_succeeds (inetPton : List Char → Option UInt32) {settings : Settings}
    {answers : SenderOpenAnswers} (opens : Sender.Opens inetPton (senderConfig settings) answers)
    {kernel : BatchKernel} (takes : TakesBatches kernel) (now : Int) :
    (main inetPton order uninitialised settings true answers kernel now blankLedger).exit = 0 := by
  have opening := @Sender.opening_of_open inetPton Sender.fresh blankLedger
    (senderConfig settings) answers
  simp only [main, Bool.not_true, Bool.false_eq_true, ↓reduceIte]
  generalize Sender.fresh.openSocket inetPton blankLedger (senderConfig settings) answers =
    result at opening
  cases opening with
  | refused fails => exact absurd opens fails
  | abandoned fails sockfd socket => exact absurd opens fails
  | opened _ sockfd address number =>
      simp only [↓reduceIte]
      have ok : ∀ socket : Socket, 0 ≤ socket.fd → TakesBatches socket.2 →
          (run Socket.sendFrames order uninitialised Socket.fd (mainArgs settings.run) now
            .constructed socket).ok = true := by
        intro socket nonnegative goesOn
        by_cases empty : (mainArgs settings.run).count ≤ 0
        · rw [run, if_neg (by omega), if_pos empty]
        · rw [run, if_neg (by omega), if_neg empty]
          have all : ∀ generator, (burstLoop Socket.sendFrames order uninitialised
              (mainArgs settings.run) ⟨generator, 0, now, socket, []⟩).1 = none :=
            fun generator => burst_loop_taken _ _ nonnegative goesOn
          exact Option.isNone_iff_eq_none.mpr (all _)
      rw [if_pos]
      apply ok
      · exact Int.natCast_nonneg sockfd
      · exact takes

end Taking

/-- `inet_pton` on the two addresses that stand in the source. -/
def loopbackAddresses (text : List Char) : Option UInt32 :=
  if text = ['0', '.', '0', '.', '0', '.', '0'] then some 0
  else if text = ['1', '2', '7', '.', '0', '.', '0', '.', '1'] then some 0x7f000001
  else none

/-- Nothing is set, and the kernel takes the datagrams one by one. -/
theorem unset_program_sends_soak :
    let settings : Settings := ⟨tenMinuteSoak, none, none, none, none, none⟩
    let kernel : BatchKernel := ⟨AnswerStream.Answers.always (.accept 0) (by decide), []⟩
    let ended := main loopbackAddresses .little (Vector.replicate kWireSize 0) settings true
      ⟨some 5, true, true, true⟩ kernel 0 blankLedger
    (0 < rateOf settings.run ∧
      FitsInt ((rateOf settings.run).toInt * (durationOf settings.run).toInt)) ∧
      (mainArgs settings.run).count.toInt = 30000000 ∧ ended.ledger.Settled := by
  intro settings kernel ended
  have fits : 0 < rateOf settings.run ∧
      FitsInt ((rateOf settings.run).toInt * (durationOf settings.run).toInt) := by decide
  obtain ⟨count, settled, -⟩ := program_sends_feed loopbackAddresses .little
    (Vector.replicate kWireSize 0) settings true ⟨some 5, true, true, true⟩ kernel 0
    (fun _ => fits.2)
  refine ⟨fits, ?_, settled⟩
  rw [count rfl fits.1]
  decide

/-! ## Every setting can be given, and nothing else is read -/

/-- The text of a number, as one writes it into the environment. -/
def written (value : Int32) : List Char :=
  if value.toInt < 0 then '-' :: Nat.toDigits 10 value.toInt.natAbs
  else Nat.toDigits 10 value.toInt.natAbs

/-- A decimal number, with a minus sign in front of it if it is negative. Zeros in front do not
matter. -/
def Denotes (text : List Char) (value : Int) : Prop :=
  ∃ digits : List Char, digits ≠ [] ∧ digits.all Char.isDigit = true ∧
    ((text = digits ∧ value = Nat.ofDigitChars 10 digits 0) ∨
      (text = '-' :: digits ∧ value = -Nat.ofDigitChars 10 digits 0))

theorem decimal_eq_some {text : List Char} {value : Nat} :
    decimal text = some value ↔
      text ≠ [] ∧ text.all Char.isDigit = true ∧ value = Nat.ofDigitChars 10 text 0 := by
  have sameFold : text.foldl (fun value digit => value * 10 + (digit.toNat - '0'.toNat)) 0 =
      Nat.ofDigitChars 10 text 0 := by
    rw [Nat.ofDigitChars_eq_foldl]
    simp only [Nat.mul_comm]
  unfold decimal
  rw [sameFold]
  split_ifs with digits
  · rw [Option.some.injEq, eq_comm]
    exact ⟨fun same => ⟨digits.1, digits.2, same⟩, fun found => found.2.2⟩
  · constructor
    · intro impossible
      cases impossible
    · rintro ⟨present, all, -⟩
      exact absurd ⟨present, all⟩ digits

theorem decimal_digits (value : Nat) : decimal (Nat.toDigits 10 value) = some value := by
  rw [decimal_eq_some]
  refine ⟨Nat.toDigits_ne_nil, ?_, ?_⟩
  · rw [List.all_eq_true]
    intro digit member
    exact Nat.isDigit_of_mem_toDigits (by decide) (by decide) member
  · rw [Nat.ofDigitChars_toDigits (by decide) (by decide)]

theorem in_int_eq_some {number : Int} {value : Int32} :
    inInt number = some value ↔ value.toInt = number := by
  have low := value.le_toInt
  have high := value.toInt_lt
  unfold inInt
  split_ifs with fits
  · rw [Option.some.injEq]
    constructor
    · rintro rfl
      exact Int32.toInt_ofInt_of_le fits.1 fits.2
    · rintro rfl
      exact Int32.ofInt_toInt value
  · constructor
    · intro impossible
      cases impossible
    · rintro rfl
      exact absurd ⟨low, high⟩ fits

theorem from_chars_unsigned {text : List Char} (unsigned : ∀ digits, text ≠ '-' :: digits) :
    fromChars text = (decimal text).bind fun magnitude => inInt magnitude := by
  unfold fromChars
  split
  · next digits => exact absurd rfl (unsigned digits)
  · rfl

/-- `from_chars` reads exactly the decimal numbers that are in the type. -/
theorem from_chars_eq_some {text : List Char} {value : Int32} :
    fromChars text = some value ↔ Denotes text value.toInt := by
  by_cases signed : ∃ digits, text = '-' :: digits
  · obtain ⟨digits, rfl⟩ := signed
    have read : fromChars ('-' :: digits) =
        (decimal digits).bind fun magnitude => inInt (-magnitude) := rfl
    rw [read, Option.bind_eq_some_iff]
    constructor
    · rintro ⟨magnitude, isDecimal, inside⟩
      obtain ⟨present, all, rfl⟩ := decimal_eq_some.mp isDecimal
      exact ⟨digits, present, all, .inr ⟨rfl, in_int_eq_some.mp inside⟩⟩
    · rintro ⟨others, present, all, ⟨rfl, -⟩ | ⟨same, number⟩⟩
      · simp [Char.isDigit] at all
      · cases same
        exact ⟨_, decimal_eq_some.mpr ⟨present, all, rfl⟩, in_int_eq_some.mpr number⟩
  · have unsigned : ∀ digits, text ≠ '-' :: digits := fun digits same => signed ⟨digits, same⟩
    rw [from_chars_unsigned unsigned, Option.bind_eq_some_iff]
    constructor
    · rintro ⟨magnitude, isDecimal, inside⟩
      obtain ⟨present, all, rfl⟩ := decimal_eq_some.mp isDecimal
      exact ⟨text, present, all, .inl ⟨rfl, in_int_eq_some.mp inside⟩⟩
    · rintro ⟨digits, present, all, ⟨rfl, number⟩ | ⟨same, -⟩⟩
      · exact ⟨_, decimal_eq_some.mpr ⟨present, all, rfl⟩, in_int_eq_some.mpr number⟩
      · exact absurd same (unsigned digits)

theorem denotes_written (value : Int32) : Denotes (written value) value.toInt := by
  refine ⟨Nat.toDigits 10 value.toInt.natAbs, ?_⟩
  obtain ⟨present, all, number⟩ := decimal_eq_some.mp (decimal_digits value.toInt.natAbs)
  refine ⟨present, all, ?_⟩
  rw [← number]
  unfold written
  split_ifs with negative
  · exact .inr ⟨rfl, by omega⟩
  · exact .inl ⟨rfl, by omega⟩

/-- What is not read leaves the default. -/
theorem get_d_eq_iff {Value : Type} {parsed : Option Value} {value fallback : Value} :
    parsed.getD fallback = value ↔
      parsed = some value ∨ (value = fallback ∧ ∀ number, ¬ parsed = some number) := by
  cases parsed with
  | none => simp [eq_comm]
  | some number => simp

theorem read_int_eq {text : List Char} {value fallback : Int32} :
    readInt (some text) fallback = value ↔
      Denotes text value.toInt ∨
        (value = fallback ∧ ∀ number : Int32, ¬ Denotes text number.toInt) := by
  have read : readInt (some text) fallback = (fromChars text).getD fallback := by
    cases text with
    | nil => rfl
    | cons first rest => rfl
  rw [read, get_d_eq_iff]
  simp only [from_chars_eq_some]

theorem read_written (value fallback : Int32) : readInt (some (written value)) fallback = value :=
  read_int_eq.mpr (.inl (denotes_written value))

/-- A port: a decimal number without a sign, up to 65535. -/
def DenotesPort (text : List Char) (port : UInt16) : Prop :=
  text ≠ [] ∧ text.all Char.isDigit = true ∧ port.toNat = Nat.ofDigitChars 10 text 0

def portOf (text : List Char) : Option UInt16 :=
  (decimal text).bind fun value => if value ≤ 65535 then some (UInt16.ofNat value) else none

theorem env_u16_eq_port (text : List Char) (fallback : UInt16) :
    envU16 (some text) fallback = (portOf text).getD fallback := by
  cases text with
  | nil => rfl
  | cons first rest =>
      simp only [envU16, fromCharsUnsigned, portOf]
      cases decimal (first :: rest) with
      | none => rfl
      | some value =>
          simp only [Option.bind_some]
          by_cases small : value ≤ 65535
          · have inside : value < 2 ^ 32 := by omega
            rw [if_pos inside]
            simp only [if_pos small]
            rfl
          · by_cases inside : value < 2 ^ 32
            · rw [if_pos inside]
              simp only [if_neg small]
              rfl
            · rw [if_neg inside, if_neg small]
              rfl

theorem port_of_eq_some {text : List Char} {port : UInt16} :
    portOf text = some port ↔ DenotesPort text port := by
  have below := port.toNat_lt
  unfold portOf DenotesPort
  rw [Option.bind_eq_some_iff]
  constructor
  · rintro ⟨value, isDecimal, inside⟩
    obtain ⟨present, all, rfl⟩ := decimal_eq_some.mp isDecimal
    split_ifs at inside with small
    cases inside
    refine ⟨present, all, ?_⟩
    exact UInt16.toNat_ofNat_of_lt' (Nat.lt_succ_of_le small)
  · rintro ⟨present, all, number⟩
    refine ⟨port.toNat, decimal_eq_some.mpr ⟨present, all, number⟩, ?_⟩
    rw [if_pos (by omega), UInt16.ofNat_toNat]

theorem env_u16_eq {text : List Char} {port fallback : UInt16} :
    envU16 (some text) fallback = port ↔
      DenotesPort text port ∨
        (port = fallback ∧ ∀ number : UInt16, ¬ DenotesPort text number) := by
  rw [env_u16_eq_port, get_d_eq_iff]
  simp only [port_of_eq_some]

theorem port_read_back (port fallback : UInt16) :
    envU16 (some (Nat.toDigits 10 port.toNat)) fallback = port :=
  env_u16_eq.mpr (.inl (decimal_eq_some.mp (decimal_digits port.toNat)))

/-- An environment that spells out every argument. With a duration of 0 the default of the run
length is 0, whatever the rate. -/
def environmentOf (args : RunArgs) : Environment
  | .rate => some (written args.rate)
  | .durationS => some ['0']
  | .count => some (written args.count)
  | .seed => some (written args.seed)
  | .gapMod => some (written args.gapMod)
  | .gapSpan => some (written args.gapSpan)
  | .burstSize => some (written args.burstSize)

theorem main_args_read_back (args : RunArgs) : mainArgs (environmentOf args) = args := by
  have read : ∀ name value fallback, environmentOf args name = some (written value) →
      envInt (environmentOf args) name fallback = value := by
    intro name value fallback set
    rw [← read_written value fallback, readInt, envInt, envInt, set]
  simp only [mainArgs, rateOf]
  rw [read .count args.count _ rfl, read .rate args.rate _ rfl, read .seed args.seed _ rfl,
    read .gapMod args.gapMod _ rfl, read .gapSpan args.gapSpan _ rfl,
    read .burstSize args.burstSize _ rfl]

/-- The settings that spell out a call of `run` and a sender. -/
def settingsOf (args : RunArgs) (localIp remoteIp : List Char) (localPort remotePort : UInt16)
    (sndbufBytes : Int32) : Settings where
  run := environmentOf args
  localIp := some localIp
  localPort := some (Nat.toDigits 10 localPort.toNat)
  remoteIp := some remoteIp
  remotePort := some (Nat.toDigits 10 remotePort.toNat)
  sndbufBytes := some (written sndbufBytes)

theorem env_or_default_of_ne_nil {text : List Char} (present : text ≠ []) (fallback : List Char) :
    envOrDefault (some text) fallback = text := by
  cases text with
  | nil => exact absurd rfl present
  | cons first rest => rfl

/-- Every call of `run` and every connected sender can be written into the environment and is
read back as it was written; a text that is not a number of its type leaves the default. -/
theorem settings_read_back :
    (∀ (args : RunArgs) (localIp remoteIp : List Char) (localPort remotePort : UInt16)
      (sndbufBytes : Int32), localIp ≠ [] → remoteIp ≠ [] →
      let settings := settingsOf args localIp remoteIp localPort remotePort sndbufBytes
      mainArgs settings.run = args ∧
        senderConfig settings =
          ⟨some localIp, localPort, some remoteIp, remotePort, sndbufBytes, true⟩) ∧
    (∀ (environment : Environment) (name : Variable) (text : List Char) (value fallback : Int32),
      environment name = some text →
      (envInt environment name fallback = value ↔
        Denotes text value.toInt ∨
          (value = fallback ∧ ∀ number : Int32, ¬ Denotes text number.toInt))) ∧
    (∀ (text : List Char) (port fallback : UInt16),
      envU16 (some text) fallback = port ↔
        DenotesPort text port ∨
          (port = fallback ∧ ∀ number : UInt16, ¬ DenotesPort text number)) := by
  refine ⟨?_, ?_, fun _ _ _ => env_u16_eq⟩
  · intro args localIp remoteIp localPort remotePort sndbufBytes localNamed remoteNamed settings
    refine ⟨main_args_read_back args, ?_⟩
    simp only [senderConfig, settings, settingsOf]
    rw [env_or_default_of_ne_nil localNamed, env_or_default_of_ne_nil remoteNamed,
      port_read_back, port_read_back, read_written]
  · intro environment name text value fallback set
    have same : envInt environment name fallback = readInt (some text) fallback := by
      rw [readInt, envInt, envInt, set]
    rw [same]
    exact read_int_eq

/-- Among them a burst of 64, the smallest seed, and port 9999 on the loopback address. -/
theorem burst_settings_read_back :
    let loopback := ['1', '2', '7', '.', '0', '.', '0', '.', '1']
    let args : RunArgs := ⟨1000, 0, -2147483648, 10, 3, 64⟩
    loopback ≠ [] ∧
      mainArgs (settingsOf args loopback loopback 0 9999 0).run = args ∧
      (senderConfig (settingsOf args loopback loopback 0 9999 0)).remotePort = 9999 := by
  intro loopback args
  have named : loopback ≠ [] := by decide
  obtain ⟨read, config⟩ := settings_read_back.1 args loopback loopback 0 9999 0 named named
  refine ⟨named, read, ?_⟩
  rw [config]

end MarketDataEngine.GeneratorV2
