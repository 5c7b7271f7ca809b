import MarketDataEngine.DescriptorOwners
import MarketDataEngine.TransitionSystem
import MarketDataEngine.UdpReceiver
import MarketDataEngine.UdpSender

/-!
# Receivers as objects

A `Receiver` owns its socket and its epoll descriptor. It may be opened again while it is open, be
moved from and moved to, and it closes what it owns when it is destroyed. Any number of them live
side by side; the kernel answers every call as it likes and may hand out a number again as soon as
it is closed.

`inet_pton` is a parameter. The messages of `perror` are left out.
-/

namespace MarketDataEngine.Net

open MarketDataEngine.DescriptorLedger MarketDataEngine.TransitionSystem

set_option autoImplicit false

/-- An address text is `none` for a null pointer. -/
structure ReceiverConfig where
  localIp : Option String
  localPort : UInt16
  remoteIp : Option String
  remotePort : UInt16
  rcvbufBytes : Int
  connectSocket : Bool

/-- `ip == nullptr || ip[0] == '\0'` -/
def isBlank (ip : Option String) : Bool := ip.getD "" == ""

/-- `sockaddr_in{}` -/
def noAddress : SocketAddress := ⟨0, 0⟩

/-- `none` stands for a descriptor of -1. -/
structure ReceiverObject where
  fd : Option Nat
  epfd : Option Nat
  connected : Bool
  remote : SocketAddress
  stats : ReceiverStats

/-- What the kernel answers to the calls of `open`. -/
structure ReceiverOpenAnswers where
  socket : Option Nat
  reuseAddr : Bool
  rcvbuf : Bool
  bind : Bool
  connect : Bool

namespace ReceiverObject

variable (receiver : ReceiverObject) (ledger : Ledger)

def fresh : ReceiverObject := ⟨none, none, false, noAddress, ⟨0, 0, 0, 0⟩⟩

/-- The descriptors in the order in which `close` closes them. -/
def fds : List Nat := receiver.epfd.toList ++ receiver.fd.toList

def closed : ReceiverObject :=
  { receiver with fd := none, epfd := none, connected := false, remote := noAddress }

/-- `open` from the first system call on, on a receiver that is closed. -/
def openFresh (inetPton : String → Option UInt32) (cfg : ReceiverConfig)
    (answers : ReceiverOpenAnswers) (sockfd : Nat) : ReceiverObject × Ledger × Bool :=
  let ledger := ledger.acquire sockfd
  let opened (connected : Bool) (remote : SocketAddress) : ReceiverObject × Ledger × Bool :=
    ({ receiver with fd := some sockfd, connected := connected, remote := remote }, ledger, true)
  if !answers.reuseAddr then (receiver, ledger.close sockfd, false)
  else if 0 < cfg.rcvbufBytes ∧ answers.rcvbuf = false then
    (receiver, ledger.close sockfd, false)
  else if !isBlank cfg.localIp && (inetPton (cfg.localIp.getD "")).isNone then
    (receiver, ledger.close sockfd, false)
  else if !answers.bind then (receiver, ledger.close sockfd, false)
  else if cfg.connectSocket then
    match inetPton (cfg.remoteIp.getD "") with
    | none => (receiver, ledger.close sockfd, false)
    | some address =>
        if answers.connect then opened true ⟨address, cfg.remotePort⟩
        else (receiver, ledger.close sockfd, false)
  else opened false noAddress

/-- `open` -/
def openSocket (inetPton : String → Option UInt32) (cfg : ReceiverConfig)
    (answers : ReceiverOpenAnswers) : ReceiverObject × Ledger × Bool :=
  let ledger := ledger.closeAll receiver.fds
  let receiver := receiver.closed
  if cfg.localPort = 0 then (receiver, ledger, false)
  else if cfg.connectSocket && (isBlank cfg.remoteIp || cfg.remotePort == 0) then
    (receiver, ledger, false)
  else
    match answers.socket with
    | none => (receiver, ledger, false)
    | some sockfd => receiver.openFresh ledger inetPton cfg answers sockfd

/-- `ensure_epoll` -/
def ensureEpoll (created : Option Nat) (added : Bool) : ReceiverObject × Ledger × Bool :=
  if receiver.fd.isNone then (receiver, ledger, false)
  else if receiver.epfd.isSome then (receiver, ledger, true)
  else
    match created with
    | none => (receiver, ledger, false)
    | some epfd =>
        let ledger := ledger.acquire epfd
        if added then ({ receiver with epfd := some epfd }, ledger, true)
        else (receiver, ledger.close epfd, false)

/-- What a move leaves behind: `std::exchange` on everything but the counters. -/
def movedFrom : ReceiverObject := receiver.closed

end ReceiverObject

/-! ## Many receivers -/

structure Receivers where
  objects : Nat → Option ReceiverObject
  ledger : Ledger

inductive ReceiverLabel where
  | construct (id : Nat)
  | openSocket (id : Nat) (cfg : ReceiverConfig) (answers : ReceiverOpenAnswers)
  | close (id : Nat)
  | ensureEpoll (id : Nat) (created : Option Nat) (added : Bool)
  | moveConstruct (id source : Nat)
  | moveAssign (id source : Nat)
  | destroy (id : Nat)

namespace Receivers

variable (inetPton : String → Option UInt32) (receivers : Receivers)

def set (id : Nat) (object : Option ReceiverObject) (ledger : Ledger) : Receivers :=
  ⟨Function.update receivers.objects id object, ledger⟩

/-- The kernel hands out numbers that are not in use. -/
def unused (ledger : Ledger) (number : Option Nat) : Bool :=
  number.all fun number => (ledger.table number).isNone

def step : ReceiverLabel → Option Receivers
  | .construct id =>
      match receivers.objects id with
      | none => some (receivers.set id (some .fresh) receivers.ledger)
      | some _ => none
  | .openSocket id cfg answers =>
      (receivers.objects id).bind fun receiver =>
        if unused (receivers.ledger.closeAll receiver.fds) answers.socket then
          let result := receiver.openSocket receivers.ledger inetPton cfg answers
          some (receivers.set id (some result.1) result.2.1)
        else none
  | .close id =>
      (receivers.objects id).map fun receiver =>
        receivers.set id (some receiver.closed) (receivers.ledger.closeAll receiver.fds)
  | .ensureEpoll id created added =>
      (receivers.objects id).bind fun receiver =>
        if unused receivers.ledger created then
          let result := receiver.ensureEpoll receivers.ledger created added
          some (receivers.set id (some result.1) result.2.1)
        else none
  | .moveConstruct id source =>
      match receivers.objects id, receivers.objects source with
      | none, some other =>
          some ((receivers.set source (some other.movedFrom) receivers.ledger).set id (some other)
            receivers.ledger)
      | _, _ => none
  | .moveAssign id source =>
      (receivers.objects id).bind fun receiver =>
        (receivers.objects source).map fun other =>
          if id = source then receivers
          else
            let ledger := receivers.ledger.closeAll receiver.fds
            (receivers.set source (some other.movedFrom) ledger).set id (some other) ledger
  | .destroy id =>
      (receivers.objects id).map fun receiver =>
        receivers.set id none (receivers.ledger.closeAll receiver.fds)

def Initial : Prop :=
  (∀ id, receivers.objects id = none) ∧ receivers.ledger = ⟨fun _ => none, 0, [], []⟩

end Receivers

def receiverSystem (inetPton : String → Option UInt32) : System Receivers ReceiverLabel where
  start := Receivers.Initial
  step := Receivers.step inetPton

/-! ## Every descriptor has one owner -/

def fdsOf (object : Option ReceiverObject) : List Nat := (object.map ReceiverObject.fds).getD []

def heldBy (objects : Nat → Option ReceiverObject) (id : Nat) : List Nat := fdsOf (objects id)

def ReceiversKept (receivers : Receivers) : Prop :=
  Held receivers.ledger (heldBy receivers.objects)

theorem held_by_set (objects : Nat → Option ReceiverObject) (id : Nat)
    (object : Option ReceiverObject) :
    heldBy (Function.update objects id object) =
      Function.update (heldBy objects) id (fdsOf object) := by
  funext other
  unfold heldBy
  by_cases same : other = id
  · subst same
    rw [Function.update_self, Function.update_self]
  · rw [Function.update_of_ne same, Function.update_of_ne same]

section Steps

variable {receivers next : Receivers} {id : Nat} {receiver : ReceiverObject}

theorem held_by_live (live : receivers.objects id = some receiver) :
    heldBy receivers.objects id = receiver.fds := by
  unfold heldBy
  rw [live]
  rfl

/-- `close`, at the beginning of every operation that gives an object new descriptors. -/
theorem kept_closed (kept : ReceiversKept receivers) (live : receivers.objects id = some receiver) :
    Held (receivers.ledger.closeAll receiver.fds)
      (Function.update (heldBy receivers.objects) id []) := by
  rw [← held_by_live live]
  exact held_released kept id

/-- A result of `open` is a closed receiver, or one that owns the new socket. -/
theorem open_fresh_cases (receiver : ReceiverObject) (ledger : Ledger)
    (inetPton : String → Option UInt32) (cfg : ReceiverConfig) (answers : ReceiverOpenAnswers)
    (sockfd : Nat) :
    (∃ connected remote, receiver.openFresh ledger inetPton cfg answers sockfd =
      ({ receiver with fd := some sockfd, connected := connected, remote := remote },
        ledger.acquire sockfd, true)) ∨
      receiver.openFresh ledger inetPton cfg answers sockfd =
        (receiver, (ledger.acquire sockfd).close sockfd, false) := by
  unfold ReceiverObject.openFresh
  split_ifs
  · exact .inr rfl
  · exact .inr rfl
  · exact .inr rfl
  · exact .inr rfl
  · cases inetPton (cfg.remoteIp.getD "") with
    | none => exact .inr rfl
    | some address => exact .inl ⟨_, _, rfl⟩
  · cases inetPton (cfg.remoteIp.getD "") with
    | none => exact .inr rfl
    | some address => exact .inr rfl
  · exact .inl ⟨_, _, rfl⟩

theorem kept_open (kept : ReceiversKept receivers) (live : receivers.objects id = some receiver)
    (inetPton : String → Option UInt32) (cfg : ReceiverConfig) (answers : ReceiverOpenAnswers)
    (free : Receivers.unused (receivers.ledger.closeAll receiver.fds) answers.socket = true) :
    Held (receiver.openSocket receivers.ledger inetPton cfg answers).2.1
      (Function.update (heldBy receivers.objects) id
        (receiver.openSocket receivers.ledger inetPton cfg answers).1.fds) := by
  have closed := kept_closed kept live
  unfold ReceiverObject.openSocket
  simp only
  split_ifs
  · exact closed
  · exact closed
  · cases its : answers.socket with
    | none => exact closed
    | some sockfd =>
        rw [its] at free
        have unused := Option.isNone_iff_eq_none.mp free
        simp only
        rcases open_fresh_cases receiver.closed (receivers.ledger.closeAll receiver.fds) inetPton
          cfg answers sockfd with ⟨connected, remote, opened⟩ | refused
        · rw [opened]
          have acquired := held_acquire closed unused id
          rw [Function.update_self, Function.update_idem] at acquired
          exact acquired
        · rw [refused]
          exact held_transient closed unused

theorem kept_epoll (kept : ReceiversKept receivers) (live : receivers.objects id = some receiver)
    (created : Option Nat) (added : Bool)
    (free : Receivers.unused receivers.ledger created = true) :
    Held (receiver.ensureEpoll receivers.ledger created added).2.1
      (Function.update (heldBy receivers.objects) id
        (receiver.ensureEpoll receivers.ledger created added).1.fds) := by
  have same : Function.update (heldBy receivers.objects) id receiver.fds =
      heldBy receivers.objects := by
    rw [← held_by_live live]
    exact Function.update_eq_self _ _
  have unchanged : Held receivers.ledger
      (Function.update (heldBy receivers.objects) id receiver.fds) := by
    rw [same]
    exact kept
  unfold ReceiverObject.ensureEpoll
  by_cases closed : receiver.fd.isNone = true
  · rw [if_pos closed]
    exact unchanged
  rw [if_neg closed]
  by_cases opened : receiver.epfd.isSome = true
  · rw [if_pos opened]
    exact unchanged
  rw [if_neg opened]
  cases created with
  | none => exact unchanged
  | some epfd =>
      have unused := Option.isNone_iff_eq_none.mp free
      cases added with
      | true =>
          have acquired := held_acquire kept unused id
          have fds : receiver.fds = receiver.fd.toList := by
            unfold ReceiverObject.fds
            rw [Option.not_isSome_iff_eq_none.mp opened]
            rfl
          rw [held_by_live live, fds] at acquired
          exact acquired
      | false =>
          have back := held_transient kept unused
          rw [← same] at back
          exact back

theorem receivers_kept_step {inetPton : String → Option UInt32} {label : ReceiverLabel}
    (kept : ReceiversKept receivers) (taken : receivers.step inetPton label = some next) :
    ReceiversKept next := by
  cases label with
  | construct id =>
      simp only [Receivers.step] at taken
      split at taken
      · next dead =>
          cases taken
          have same : Function.update (heldBy receivers.objects) id [] =
              heldBy receivers.objects := by
            have empty : heldBy receivers.objects id = [] := by
              unfold heldBy
              rw [dead]
              rfl
            rw [← empty]
            exact Function.update_eq_self _ _
          show Held receivers.ledger (heldBy (Function.update receivers.objects id _))
          rw [held_by_set]
          show Held receivers.ledger (Function.update _ id [])
          rw [same]
          exact kept
      · cases taken
  | openSocket id cfg answers =>
      obtain ⟨receiver, live, made⟩ := Option.bind_eq_some_iff.mp taken
      simp only at made
      split_ifs at made with free
      cases made
      show Held _ (heldBy (Function.update receivers.objects id _))
      rw [held_by_set]
      exact kept_open kept live inetPton cfg answers free
  | close id =>
      obtain ⟨receiver, live, rfl⟩ := Option.map_eq_some_iff.mp taken
      show Held _ (heldBy (Function.update receivers.objects id _))
      rw [held_by_set]
      exact kept_closed kept live
  | ensureEpoll id created added =>
      obtain ⟨receiver, live, made⟩ := Option.bind_eq_some_iff.mp taken
      simp only at made
      split_ifs at made with free
      cases made
      show Held _ (heldBy (Function.update receivers.objects id _))
      rw [held_by_set]
      exact kept_epoll kept live created added free
  | moveConstruct id source =>
      simp only [Receivers.step] at taken
      split at taken
      · next other dead live =>
          cases taken
          have empty : heldBy receivers.objects id = [] := by
            unfold heldBy
            rw [dead]
            rfl
          show Held receivers.ledger
            (heldBy (Function.update (Function.update receivers.objects source _) id _))
          rw [held_by_set, held_by_set]
          have moved := @held_moved _ _ _ _ kept source id empty
          rw [held_by_live live] at moved
          exact moved
      · cases taken
  | moveAssign id source =>
      obtain ⟨receiver, live, made⟩ := Option.bind_eq_some_iff.mp taken
      obtain ⟨other, otherLive, rfl⟩ := Option.map_eq_some_iff.mp made
      split_ifs with same
      · exact kept
      · have closed := kept_closed kept live
        have moved := @held_moved _ _ _ _ closed source id (by rw [Function.update_self])
        rw [Function.update_of_ne (Ne.symm same), held_by_live otherLive] at moved
        show Held _ (heldBy (Function.update (Function.update receivers.objects source _) id _))
        rw [held_by_set, held_by_set]
        rw [Function.update_comm same, Function.update_idem] at moved
        exact moved
  | destroy id =>
      obtain ⟨receiver, live, rfl⟩ := Option.map_eq_some_iff.mp taken
      show Held _ (heldBy (Function.update receivers.objects id _))
      rw [held_by_set]
      exact kept_closed kept live

end Steps

/-- Whatever is opened, closed, moved and destroyed in any order, and whatever the kernel answers:
no descriptor is closed twice and no close goes astray, what is open belongs to exactly one
receiver, and when all receivers are destroyed every descriptor was closed once. -/
theorem receivers_own_descriptors (inetPton : String → Option UInt32) (receivers : Receivers)
    (reached : Reaches (receiverSystem inetPton) receivers) :
    receivers.ledger.Sound ∧
      (∀ number, receivers.ledger.Open number ↔
        ∃ id receiver, receivers.objects id = some receiver ∧ number ∈ receiver.fds) ∧
      (∀ id other receiver another number, receivers.objects id = some receiver →
        receivers.objects other = some another → number ∈ receiver.fds → number ∈ another.fds →
        id = other) ∧
      ((∀ id, receivers.objects id = none) → receivers.ledger.Settled) := by
  have kept : ReceiversKept receivers := by
    apply invariant_of_step _ _ reached
    · rintro receivers ⟨none_, ledger⟩
      have empty : ∀ id, heldBy receivers.objects id = [] := by
        intro id
        unfold heldBy
        rw [none_]
        rfl
      unfold ReceiversKept
      rw [ledger]
      constructor
      · exact @sound_renew ⟨fun _ => none, 0, [], []⟩ fun _ => rfl
      · intro number
        constructor
        · exact fun opened => absurd rfl opened
        · rintro ⟨id, member⟩
          rw [empty] at member
          exact absurd member List.not_mem_nil
      · intro left right number member
        rw [empty] at member
        exact absurd member List.not_mem_nil
      · intro id
        rw [empty]
        exact List.nodup_nil
    · intro receivers label next prior kept allowed taken
      exact receivers_kept_step kept taken
  refine ⟨kept.sound, ?_, ?_, ?_⟩
  · intro number
    rw [kept.covered]
    constructor
    · rintro ⟨id, member⟩
      unfold heldBy at member
      cases live : receivers.objects id with
      | none =>
          rw [live] at member
          exact absurd member List.not_mem_nil
      | some receiver =>
          rw [live] at member
          exact ⟨id, receiver, live, member⟩
    · rintro ⟨id, receiver, live, member⟩
      rw [← held_by_live live] at member
      exact ⟨id, member⟩
  · intro id other receiver another number live otherLive member otherMember
    rw [← held_by_live live] at member
    rw [← held_by_live otherLive] at otherMember
    exact kept.apart member otherMember
  · intro destroyed
    apply settled_of_held kept
    intro id
    unfold heldBy
    rw [destroyed]
    rfl

def noReceivers : Receivers := ⟨fun _ => none, ⟨fun _ => none, 0, [], []⟩⟩

def loopback : ReceiverConfig := ⟨none, 8888, some "127.0.0.1", 9999, 0, true⟩

/-- The dotted form of one address. -/
def onlyLoopback (text : String) : Option UInt32 :=
  if text = "127.0.0.1" then some 0x7f000001 else none

/-- A receiver is opened twice, the second time on the number just closed, polled, and moved to
another one that is open, too. -/
def openedAndMoved : List ReceiverLabel :=
  [.construct 0, .openSocket 0 loopback ⟨some 3, true, true, true, true⟩,
    .ensureEpoll 0 (some 4) true, .openSocket 0 loopback ⟨some 3, true, true, true, true⟩,
    .ensureEpoll 0 (some 5) true, .construct 1,
    .openSocket 1 loopback ⟨some 4, true, true, true, true⟩,
    .openSocket 1 loopback ⟨some 4, true, true, false, true⟩, .moveAssign 1 0,
    .moveConstruct 2 1, .destroy 1, .destroy 0, .destroy 2]

theorem moved_descriptors_closed_once :
    ∃ receivers, Reaches (receiverSystem onlyLoopback) receivers ∧
      receivers.ledger.obtained = [0, 1, 2, 3, 4, 5] ∧ receivers.ledger.Settled := by
  obtain ⟨receivers, ran, destroyed, obtained⟩ :
      ∃ receivers, runLabels (receiverSystem onlyLoopback) noReceivers openedAndMoved =
          some receivers ∧
        (∀ id, receivers.objects id = none) ∧
        receivers.ledger.obtained = [0, 1, 2, 3, 4, 5] := by
    refine ⟨_, rfl, ?_, rfl⟩
    intro id
    match id with
    | 0 => rfl
    | 1 => rfl
    | 2 => rfl
    | other + 3 => rfl
  have initial : noReceivers.Initial := ⟨fun _ => rfl, rfl⟩
  have reached := reaches_run (reaches_start initial) ran
  exact ⟨receivers, reached, obtained,
    (receivers_own_descriptors onlyLoopback receivers reached).2.2.2 destroyed⟩

end MarketDataEngine.Net
