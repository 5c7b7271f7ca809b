import MarketDataEngine.DescriptorLedger
import MarketDataEngine.EpollSockets

/-!
# The descriptors of the epoll server

`run_server_loop` from its first call to its return: a listening socket, an epoll instance
and an eventfd are obtained one after the other, every set-up call may fail, and the loop
obtains the clients. The ledger enters each descriptor and each close. The loop is that of
the server, and its way out closes the three descriptors of the handle but no client.

The server may be run again; the ledger then begins a new account.
-/

namespace MarketDataEngine.Net

open MarketDataEngine.Protocol MarketDataEngine.Containers MarketDataEngine.Engine
open MarketDataEngine.TransitionSystem MarketDataEngine.DescriptorLedger

set_option autoImplicit false

variable {capacity : Capacity}

/-- The descriptors of the handle; `none` is `-1`. -/
structure HandleFds where
  listenFd : Option Nat
  epfd : Option Nat
  wakeFd : Option Nat

def HandleFds.none_ : HandleFds := ⟨none, none, none⟩

/-- `make_listen_socket`: `socket` fails, or a later call does, or the socket listens. -/
inductive ListenReply where
  | socketFailed
  | callFailed (fd : Nat)
  | listening (fd : Nat)

inductive RunPoint where
  | makeListen
  | epollCreate
  | makeWake
  | addListen
  | addWake
  | loop
  | returned
  deriving DecidableEq

inductive RunLabel where
  | begin
  | makeListen (reply : ListenReply)
  | epollCreate (reply : Option Nat)
  | makeWake (reply : Option Nat)
  | addListen (ok : Bool)
  | addWake (ok : Bool)
  | loop (label : ServerLabel)

structure ServerRun (capacity : Capacity) where
  point : RunPoint
  handle : HandleFds
  server : Server capacity
  ledger : Ledger

namespace ServerRun

variable (run : ServerRun capacity)

/-- These fields are closed in this order unless they are `-1`, all are set to `-1`, and the
function returns. -/
def leave (fields : List (Option Nat)) : ServerRun capacity :=
  { run with
    point := .returned
    handle := .none_
    ledger := run.ledger.closeAll (fields.filterMap id) }

/-- A call returned a descriptor, which goes into the handle. -/
def acquired (fd : Nat) (handle : HandleFds) (point : RunPoint) :
    Option (ServerRun capacity) :=
  if run.ledger.table fd = none then
    some { run with point := point, handle := handle, ledger := run.ledger.acquire fd }
  else none

def makeListenStep : ListenReply → Option (ServerRun capacity)
  | .socketFailed => some (run.leave [])
  | .callFailed fd =>
      if run.ledger.table fd = none then
        some { run with point := .returned, ledger := (run.ledger.acquire fd).close fd }
      else none
  | .listening fd => run.acquired fd { run.handle with listenFd := some fd } .epollCreate

def epollCreateStep : Option Nat → Option (ServerRun capacity)
  | none => some (run.leave [run.handle.listenFd])
  | some fd => run.acquired fd { run.handle with epfd := some fd } .makeWake

def makeWakeStep : Option Nat → Option (ServerRun capacity)
  | none => some (run.leave [run.handle.epfd, run.handle.listenFd])
  | some fd => run.acquired fd { run.handle with wakeFd := some fd } .addListen

def addListenStep (ok : Bool) : ServerRun capacity :=
  if ok then { run with point := .addWake }
  else run.leave [run.handle.wakeFd, run.handle.epfd, run.handle.listenFd]

def addWakeStep (ok : Bool) : Option (ServerRun capacity) :=
  if ok then
    match run.handle.listenFd, run.handle.wakeFd with
    | some listenFd, some wakeFd =>
        (run.server.step (.start listenFd wakeFd)).map fun server =>
          { run with point := .loop, server := server }
    | _, _ => none
  else some (run.leave [run.handle.wakeFd, run.handle.epfd, run.handle.listenFd])

/-- The descriptors that a step of the loop obtains and closes. -/
def loopLedger : ServerLabel → Option Ledger
  | .accept (.connection cfd added) =>
      if run.ledger.table cfd = none then
        some (if cfd < maxFd ∧ added = true then run.ledger.acquire cfd
          else (run.ledger.acquire cfd).close cfd)
      else none
  | .dispatch =>
      match run.server.point with
      | .handling (event :: _) =>
          if event.fd = run.server.wakeFd then some run.ledger
          else if event.fd = run.server.listenFd then some run.ledger
          else if event.hangUp then some (run.ledger.close event.fd)
          else some run.ledger
      | _ => some run.ledger
  | .recv reply =>
      match run.server.point, reply with
      | .receiving fd _, .closed => some (run.ledger.close fd)
      | .receiving fd _, .failed => some (run.ledger.close fd)
      | _, _ => some run.ledger
  | .start _ _ => none
  | _ => some run.ledger

/-- A step of the loop; behind it the descriptors of the handle are closed. -/
def loopStep (label : ServerLabel) : Option (ServerRun capacity) :=
  (run.loopLedger label).bind fun ledger =>
    (run.server.step label).map fun server =>
      let after : ServerRun capacity := { run with server := server, ledger := ledger }
      match server.point with
      | .stopped => after.leave [run.handle.epfd, run.handle.listenFd, run.handle.wakeFd]
      | _ => after

def step : RunLabel → Option (ServerRun capacity)
  | .begin =>
      match run.point with
      | .returned => some { run with point := .makeListen, ledger := run.ledger.renew }
      | _ => none
  | .makeListen reply =>
      match run.point with
      | .makeListen => run.makeListenStep reply
      | _ => none
  | .epollCreate reply =>
      match run.point with
      | .epollCreate => run.epollCreateStep reply
      | _ => none
  | .makeWake reply =>
      match run.point with
      | .makeWake => run.makeWakeStep reply
      | _ => none
  | .addListen ok =>
      match run.point with
      | .addListen => some (run.addListenStep ok)
      | _ => none
  | .addWake ok =>
      match run.point with
      | .addWake => run.addWakeStep ok
      | _ => none
  | .loop label =>
      match run.point with
      | .loop => run.loopStep label
      | _ => none

/-- Nothing has run yet. -/
structure Initial (run : ServerRun capacity) : Prop where
  point : run.point = .returned
  handle : run.handle = .none_
  server : run.server.Initial
  ledger : run.ledger = ⟨fun _ => none, 0, [], []⟩

end ServerRun

def runFrom (first : ServerRun capacity) : System (ServerRun capacity) RunLabel where
  start := fun run => run = first
  step := ServerRun.step

/-- The loop is left only when no accepted client's descriptor is still open. -/
def NoClientLeft (run : ServerRun capacity) : RunLabel → Prop
  | .loop (.wait reply) => run.server.running = false ∨ reply = .failed →
      ∀ fd, run.server.kernel.clients fd = none
  | _ => True

/-! ## What is open -/

def HandleFds.numbers (handle : HandleFds) : List Nat :=
  [handle.listenFd, handle.epfd, handle.wakeFd].filterMap id

/-- The handle at each point of the function; clients there are only in the loop. -/
def ServerRun.Shaped (run : ServerRun capacity) : Prop :=
  match run.point with
  | .returned => run.handle = .none_
  | .makeListen => run.handle = .none_
  | .epollCreate => ∃ listenFd, run.handle = ⟨some listenFd, none, none⟩
  | .makeWake => ∃ listenFd epfd, run.handle = ⟨some listenFd, some epfd, none⟩
  | .addListen => ∃ listenFd epfd wakeFd, run.handle = ⟨some listenFd, some epfd, some wakeFd⟩
  | .addWake => ∃ listenFd epfd wakeFd, run.handle = ⟨some listenFd, some epfd, some wakeFd⟩
  | .loop => ∃ listenFd epfd wakeFd, run.handle = ⟨some listenFd, some epfd, some wakeFd⟩

/-- The open descriptors are those of the handle and of the clients, all different. -/
structure FdsHeld (handle : HandleFds) (clients : Nat → Option Nat) (ledger : Ledger) :
    Prop where
  sound : ledger.Sound
  opened : ∀ number, ledger.Open number ↔ number ∈ handle.numbers ∨ clients number ≠ none
  distinct : handle.numbers.Nodup
  apart : ∀ number ∈ handle.numbers, clients number = none

section Held

variable {handle after : HandleFds} {clients : Nat → Option Nat} {ledger : Ledger}

theorem held_acquired (held : FdsHeld handle clients ledger) {fd : Nat}
    (free : ledger.table fd = none) (numbers : after.numbers.Perm (fd :: handle.numbers)) :
    FdsHeld after clients (ledger.acquire fd) := by
  have closed : ¬ (fd ∈ handle.numbers ∨ clients fd ≠ none) := by
    rw [← held.opened fd]
    exact not_open_iff.mpr free
  rw [not_or, not_not] at closed
  refine ⟨sound_acquire held.sound free, ?_, ?_, ?_⟩
  · intro number
    rw [open_acquire, held.opened, numbers.mem_iff, List.mem_cons, or_assoc]
  · rw [numbers.nodup_iff]
    exact List.nodup_cons.mpr ⟨closed.1, held.distinct⟩
  · intro number member
    rcases List.mem_cons.mp (numbers.mem_iff.mp member) with rfl | before
    · exact closed.2
    · exact held.apart number before

/-- The handle is closed when there are no clients. -/
theorem held_left (held : FdsHeld handle clients ledger) (noClients : ∀ fd, clients fd = none)
    {fields : List (Option Nat)} (all : (fields.filterMap id).Perm handle.numbers) :
    FdsHeld .none_ clients (ledger.closeAll (fields.filterMap id)) ∧
      ∀ number, (ledger.closeAll (fields.filterMap id)).Free number := by
  have opened : ∀ number ∈ fields.filterMap id, ledger.Open number := by
    intro number member
    exact (held.opened number).mpr (.inl (all.mem_iff.mp member))
  obtain ⟨sound, left_⟩ := sound_close_all held.sound opened (all.nodup_iff.mpr held.distinct)
  have closed : ∀ number, ¬ (ledger.closeAll (fields.filterMap id)).Open number := by
    intro number still
    obtain ⟨apart, before⟩ := (left_ number).mp still
    rcases (held.opened number).mp before with mine | client
    · exact apart (all.mem_iff.mpr mine)
    · exact client (noClients number)
  refine ⟨⟨sound, ?_, List.nodup_nil, List.forall_mem_nil _⟩, fun number =>
    not_open_iff.mp (closed number)⟩
  intro number
  constructor
  · intro still
    exact absurd still (closed number)
  · rintro (mine | client)
    · exact absurd mine List.not_mem_nil
    · exact absurd (noClients number) client

theorem held_client_opened (held : FdsHeld handle clients ledger) {cfd : Nat} (connection : Nat)
    (free : ledger.table cfd = none) :
    FdsHeld handle (Function.update clients cfd (some connection)) (ledger.acquire cfd) := by
  have closed : ¬ (cfd ∈ handle.numbers ∨ clients cfd ≠ none) := by
    rw [← held.opened cfd]
    exact not_open_iff.mpr free
  rw [not_or] at closed
  refine ⟨sound_acquire held.sound free, ?_, held.distinct, ?_⟩
  · intro number
    rw [open_acquire, held.opened, Function.update_apply]
    by_cases same : number = cfd
    · simp [same]
    · simp [same]
  · intro number member
    have different : number ≠ cfd := by
      rintro rfl
      exact closed.1 member
    rw [Function.update_of_ne different]
    exact held.apart number member

theorem held_client_closed (held : FdsHeld handle clients ledger) {fd : Nat}
    (client : clients fd ≠ none) :
    FdsHeld handle (Function.update clients fd none) (ledger.close fd) := by
  have other : ∀ number ∈ handle.numbers, number ≠ fd := by
    rintro number member rfl
    exact client (held.apart number member)
  refine ⟨sound_close held.sound ((held.opened fd).mpr (.inr client)), ?_, held.distinct, ?_⟩
  · intro number
    rw [open_close, held.opened, Function.update_apply]
    by_cases same : number = fd
    · have outside : number ∉ handle.numbers := fun member => other number member same
      simp [same, same ▸ outside]
    · simp [same]
  · intro number member
    rw [Function.update_of_ne (other number member)]
    exact held.apart number member

/-- A number that is obtained and closed at once. -/
theorem held_turned_away (held : FdsHeld handle clients ledger) {fd : Nat}
    (free : ledger.table fd = none) :
    FdsHeld handle clients ((ledger.acquire fd).close fd) := by
  have closed : clients fd = none := by
    by_contra client
    exact (held.opened fd).mpr (.inr client) free
  have opened := held_client_opened held 0 free
  have client : Function.update clients fd (some 0) fd ≠ none := by
    rw [Function.update_self]
    exact Option.some_ne_none 0
  have again := held_client_closed opened client
  rw [Function.update_idem, ← closed, Function.update_eq_self] at again
  exact again

theorem held_renewed (held : FdsHeld .none_ clients ledger) (noClients : ∀ fd, clients fd = none) :
    FdsHeld .none_ clients ledger.renew := by
  have empty : ∀ number, ledger.Free number := by
    intro number
    rw [← not_open_iff, held.opened]
    rintro (mine | client)
    · exact absurd mine List.not_mem_nil
    · exact client (noClients number)
  exact ⟨sound_renew empty, held.opened, held.distinct, held.apart⟩

end Held

/-! ## One step -/

section Steps

variable {first run next : ServerRun capacity}

/-- What every step keeps: outside the loop there are no clients. -/
structure RunHeld (first run : ServerRun capacity) : Prop where
  held : FdsHeld run.handle run.server.kernel.clients run.ledger
  shaped : run.Shaped
  apart : Apart first.server run.server
  outside : run.point ≠ .loop → ∀ fd, run.server.kernel.clients fd = none
  inside : run.point = .loop → run.server.point ≠ .stopped

theorem run_held_start (initial : first.Initial) : RunHeld first first := by
  have none_ := initial.server.clients
  refine ⟨⟨?_, ?_, ?_, ?_⟩, ?_, apart_start initial.server, fun _ => none_, ?_⟩
  · rw [initial.ledger]
    exact @sound_renew ⟨fun _ => none, 0, [], []⟩ fun _ => rfl
  · intro number
    rw [initial.ledger, initial.handle, none_ number]
    simp [Ledger.Open, HandleFds.numbers, HandleFds.none_]
  · rw [initial.handle]
    exact List.nodup_nil
  · rw [initial.handle]
    exact List.forall_mem_nil _
  · unfold ServerRun.Shaped
    rw [initial.point]
    exact initial.handle
  · rw [initial.point]
    intro looping
    cases looping

/-- A set-up call returned a descriptor. -/
theorem run_held_acquired (before : RunHeld first run) {fd : Nat} {handle : HandleFds}
    {point : RunPoint} (taken : run.acquired fd handle point = some next)
    (setUp : run.point ≠ .loop) (later : point ≠ .loop)
    (numbers : handle.numbers.Perm (fd :: run.handle.numbers))
    (shaped : ∀ ledger, ({ run with point := point, handle := handle, ledger := ledger } :
      ServerRun capacity).Shaped) : RunHeld first next := by
  unfold ServerRun.acquired at taken
  split_ifs at taken with free
  cases taken
  exact ⟨held_acquired before.held free numbers, shaped _, before.apart,
    fun _ => before.outside setUp, fun looping => absurd looping later⟩

theorem run_held_left (before : RunHeld first run)
    (noClients : ∀ fd, run.server.kernel.clients fd = none) {fields : List (Option Nat)}
    (all : (fields.filterMap id).Perm run.handle.numbers) :
    RunHeld first (run.leave fields) := by
  obtain ⟨held, -⟩ := held_left before.held noClients all
  refine ⟨held, rfl, before.apart, fun _ => noClients, ?_⟩
  intro looping
  cases looping

theorem run_held_make_listen (before : RunHeld first run) (at_ : run.point = .makeListen)
    {reply : ListenReply} (taken : run.makeListenStep reply = some next) :
    RunHeld first next := by
  have setUp : run.point ≠ .loop := by
    rw [at_]
    decide
  have empty : run.handle = .none_ := by
    have shaped := before.shaped
    unfold ServerRun.Shaped at shaped
    rw [at_] at shaped
    exact shaped
  cases reply with
  | socketFailed =>
      cases taken
      apply run_held_left before (before.outside setUp)
      rw [empty]
      exact List.Perm.nil
  | callFailed fd =>
      simp only [ServerRun.makeListenStep] at taken
      split_ifs at taken with free
      cases taken
      refine ⟨held_turned_away before.held free, empty, before.apart,
        fun _ => before.outside setUp, ?_⟩
      intro looping
      cases looping
  | listening fd =>
      refine run_held_acquired before taken setUp (by decide) ?_ ?_
      · rw [empty]
        exact List.Perm.refl _
      · rw [empty]
        exact fun _ => ⟨fd, rfl⟩

theorem run_held_epoll_create (before : RunHeld first run) (at_ : run.point = .epollCreate)
    {reply : Option Nat} (taken : run.epollCreateStep reply = some next) :
    RunHeld first next := by
  have setUp : run.point ≠ .loop := by
    rw [at_]
    decide
  have shaped := before.shaped
  unfold ServerRun.Shaped at shaped
  rw [at_] at shaped
  obtain ⟨listenFd, shape⟩ := shaped
  cases reply with
  | none =>
      cases taken
      apply run_held_left before (before.outside setUp)
      rw [shape]
      exact List.Perm.refl _
  | some fd =>
      refine run_held_acquired before taken setUp (by decide) ?_ ?_
      · rw [shape]
        exact List.Perm.swap _ _ _
      · rw [shape]
        exact fun _ => ⟨listenFd, fd, rfl⟩

theorem run_held_make_wake (before : RunHeld first run) (at_ : run.point = .makeWake)
    {reply : Option Nat} (taken : run.makeWakeStep reply = some next) :
    RunHeld first next := by
  have setUp : run.point ≠ .loop := by
    rw [at_]
    decide
  have shaped := before.shaped
  unfold ServerRun.Shaped at shaped
  rw [at_] at shaped
  obtain ⟨listenFd, epfd, shape⟩ := shaped
  cases reply with
  | none =>
      cases taken
      apply run_held_left before (before.outside setUp)
      rw [shape]
      exact List.Perm.swap _ _ _
  | some fd =>
      refine run_held_acquired before taken setUp (by decide) ?_ ?_
      · rw [shape]
        exact (List.perm_append_comm : ([listenFd, epfd] ++ [fd]).Perm ([fd] ++ [listenFd, epfd]))
      · rw [shape]
        exact fun _ => ⟨listenFd, epfd, fd, rfl⟩

/-- An `epoll_ctl` of the set-up fails: everything is closed, in the reverse order. -/
theorem run_held_abandoned (before : RunHeld first run) (setUp : run.point ≠ .loop)
    {listenFd epfd wakeFd : Nat} (shape : run.handle = ⟨some listenFd, some epfd, some wakeFd⟩) :
    RunHeld first (run.leave [run.handle.wakeFd, run.handle.epfd, run.handle.listenFd]) := by
  apply run_held_left before (before.outside setUp)
  rw [shape]
  exact (List.reverse_perm [listenFd, epfd, wakeFd])

theorem run_held_add_listen (before : RunHeld first run) (at_ : run.point = .addListen)
    (ok : Bool) : RunHeld first (run.addListenStep ok) := by
  have setUp : run.point ≠ .loop := by
    rw [at_]
    decide
  have shaped := before.shaped
  unfold ServerRun.Shaped at shaped
  rw [at_] at shaped
  obtain ⟨listenFd, epfd, wakeFd, shape⟩ := shaped
  cases ok with
  | false => exact run_held_abandoned before setUp shape
  | true =>
      refine ⟨before.held, ⟨listenFd, epfd, wakeFd, shape⟩, before.apart,
        fun _ => before.outside setUp, ?_⟩
      intro looping
      cases looping

theorem run_held_add_wake (before : RunHeld first run) (at_ : run.point = .addWake)
    {ok : Bool} (taken : run.addWakeStep ok = some next) : RunHeld first next := by
  have setUp : run.point ≠ .loop := by
    rw [at_]
    decide
  have shaped := before.shaped
  unfold ServerRun.Shaped at shaped
  rw [at_] at shaped
  obtain ⟨listenFd, epfd, wakeFd, shape⟩ := shaped
  cases ok with
  | false =>
      cases taken
      exact run_held_abandoned before setUp shape
  | true =>
      simp only [ServerRun.addWakeStep, shape, if_true] at taken
      obtain ⟨server, started, rfl⟩ := Option.map_eq_some_iff.mp taken
      have apart := apart_step before.apart started
      have held := before.held
      rw [shape] at held
      simp only [Server.step] at started
      split at started
      · split_ifs at started
        cases started
        refine ⟨held, ⟨listenFd, epfd, wakeFd, rfl⟩, apart, ?_, ?_⟩
        · intro outside
          exact absurd rfl outside
        · intro _ stopped
          cases stopped
      · cases started

/-! ## The loop -/

theorem loop_ledger_quiet {label : ServerLabel} {ledger : Ledger}
    (quiet : run.server.Quiet label) (entered : run.loopLedger label = some ledger) :
    ledger = run.ledger := by
  cases label with
  | start listenFd wakeFd => cases entered
  | accept reply =>
      cases reply with
      | connection cfd added => exact absurd quiet id
      | again => exact (Option.some.inj entered).symm
      | interrupted => exact (Option.some.inj entered).symm
      | failed => exact (Option.some.inj entered).symm
  | dispatch =>
      simp only [ServerRun.loopLedger] at entered
      split at entered
      · next event rest handling =>
          rcases quiet event rest handling with wake | listen
          · rw [if_pos wake] at entered
            exact (Option.some.inj entered).symm
          · rw [if_pos listen, ite_self] at entered
            exact (Option.some.inj entered).symm
      · exact (Option.some.inj entered).symm
  | recv reply =>
      rw [show reply = .interrupted from quiet] at entered
      simp only [ServerRun.loopLedger] at entered
      split at entered
      · next impossible => cases impossible
      · next impossible => cases impossible
      · exact (Option.some.inj entered).symm
  | stop => exact (Option.some.inj entered).symm
  | wait reply => exact (Option.some.inj entered).symm
  | consume => exact (Option.some.inj entered).symm
  | drain => exact (Option.some.inj entered).symm
  | recycle idx => exact (Option.some.inj entered).symm

/-- A step of the loop keeps the books: what it opens and closes is entered. -/
theorem loop_step_held (before : RunHeld first run) {label : ServerLabel} {ledger : Ledger}
    {server : Server capacity} (entered : run.loopLedger label = some ledger)
    (moved : run.server.step label = some server) :
    FdsHeld run.handle server.kernel.clients ledger := by
  have held := before.held
  have client : ∀ fd ∈ run.server.kernel.watched, run.server.kernel.clients fd ≠ none := by
    intro fd watched closed
    exact not_watched before.apart.connected closed watched
  have at_point := before.apart.at_point
  cases server_step_effect moved with
  | idles idles quiet =>
      rw [loop_ledger_quiet quiet entered, idles.clients]
      exact held
  | reported waiting =>
      cases entered
      exact held
  | hungUp handling hangUp apart =>
      simp only [ServerRun.loopLedger, handling, if_neg apart.1, if_neg apart.2, hangUp,
        if_true] at entered
      cases entered
      rw [handling] at at_point
      rcases at_point.reported _ List.mem_cons_self with wake | listen | watched
      · exact absurd wake apart.1
      · exact absurd listen apart.2
      · exact held_client_closed held (client _ watched)
  | drains handling readable apart =>
      simp only [ServerRun.loopLedger, handling, if_neg apart.1, if_neg apart.2, readable,
        Bool.false_eq_true, if_false] at entered
      cases entered
      exact held
  | @accepted rest cfd conns accepting fresh apart initialised =>
      have small : cfd < maxFd := by
        by_contra large
        rw [initConn, if_pos (Nat.le_of_not_lt large)] at initialised
        cases initialised
      simp only [ServerRun.loopLedger] at entered
      split_ifs at entered with free taken
      · cases entered
        exact held_client_opened held _ free
      · exact absurd ⟨small, trivial⟩ taken
  | @turnedAway rest cfd added conns accepting fresh apart refused =>
      have refused : ¬ (cfd < maxFd ∧ added = true) := by
        rintro ⟨small, taken⟩
        rcases refused with large | failed
        · omega
        · exact absurd (taken.symm.trans failed) (by decide)
      simp only [ServerRun.loopLedger, if_neg refused] at entered
      split_ifs at entered with free
      cases entered
      have same : ((run.server.kernel.openClient cfd).close cfd).clients =
          run.server.kernel.clients := by
        simp only [Kernel.close, Kernel.openClient]
        rw [Function.update_idem, ← fresh, Function.update_eq_self]
      show FdsHeld run.handle ((run.server.kernel.openClient cfd).close cfd).clients _
      rw [same]
      exact held_turned_away held free
  | received receiving _ =>
      simp only [ServerRun.loopLedger, receiving] at entered
      cases entered
      exact held
  | again receiving =>
      simp only [ServerRun.loopLedger, receiving] at entered
      cases entered
      exact held
  | broke receiving ended =>
      rw [receiving] at at_point
      have closed := held_client_closed held (client _ at_point.mine)
      rcases ended with rfl | rfl
      · simp only [ServerRun.loopLedger, receiving] at entered
        cases entered
        exact closed
      · simp only [ServerRun.loopLedger, receiving] at entered
        cases entered
        exact closed
  | consumed consuming =>
      cases entered
      unfold Server.consumeMessage
      split_ifs
      · exact held
      · exact held

theorem wait_ends {server after : Server capacity} {reply : WaitReply}
    (moved : server.step (.wait reply) = some after) (inside : server.point ≠ .stopped)
    (stopped : after.point = .stopped) :
    (server.running = false ∨ reply = .failed) ∧
      after.kernel.clients = server.kernel.clients := by
  simp only [Server.step] at moved
  split at moved
  · split_ifs at moved with running
    · cases reply with
      | events batch =>
          simp only [Server.waitStep] at moved
          split_ifs at moved
          cases moved
          cases stopped
      | timeout =>
          cases moved
          exact absurd stopped inside
      | interrupted =>
          cases moved
          exact absurd stopped inside
      | failed =>
          cases moved
          exact ⟨.inr rfl, rfl⟩
    · cases moved
      exact ⟨.inl (Bool.eq_false_iff.mpr running), rfl⟩
  · cases moved

/-- The loop ends only where its condition is tested or `epoll_wait` fails. -/
theorem loop_ends {server after : Server capacity} {label : ServerLabel}
    (moved : server.step label = some after) (inside : server.point ≠ .stopped)
    (stopped : after.point = .stopped) :
    ∃ reply, label = .wait reply ∧ (server.running = false ∨ reply = .failed) ∧
      after.kernel.clients = server.kernel.clients := by
  cases label with
  | start listenFd wakeFd =>
      simp only [Server.step] at moved
      cases moved
  | stop =>
      cases moved
      exact absurd stopped inside
  | wait reply => exact ⟨reply, rfl, wait_ends moved inside stopped⟩
  | dispatch =>
      simp only [Server.step] at moved
      split at moved
      · cases moved
        cases stopped
      · cases moved
        unfold Server.dispatchStep at stopped
        split_ifs at stopped
        · cases stopped
        · cases stopped
        · cases stopped
        · cases stopped
      · cases moved
  | accept reply =>
      simp only [Server.step] at moved
      split at moved
      · next accepting =>
          cases reply with
          | connection cfd added =>
              cases connection_effect accepting moved with
              | idles _ quiet => exact absurd quiet id
              | accepted _ _ _ _ => exact absurd stopped inside
              | turnedAway _ _ _ _ => exact absurd stopped inside
          | again =>
              cases moved
              cases stopped
          | interrupted =>
              cases moved
              exact absurd stopped inside
          | failed =>
              cases moved
              cases stopped
      · cases moved
  | recv reply =>
      simp only [Server.step] at moved
      split at moved
      · next receiving =>
          cases recv_effect receiving moved with
          | idles _ quiet =>
              cases quiet
              cases moved
              exact absurd stopped inside
          | received _ _ => cases stopped
          | again _ => cases stopped
          | broke _ _ => cases stopped
      · cases moved
  | consume =>
      simp only [Server.step] at moved
      split at moved
      · cases moved
        cases stopped
      · cases moved
        cases stopped
      · cases moved
  | drain =>
      cases moved
      unfold Server.drainStep at stopped
      split at stopped
      · exact absurd stopped inside
      · exact absurd stopped inside
  | recycle idx =>
      simp only [Server.step, Server.recycleStep] at moved
      split_ifs at moved
      cases moved
      exact absurd stopped inside

theorem run_held_loop (before : RunHeld first run) (at_ : run.point = .loop) {label : ServerLabel}
    (guarded : NoClientLeft run (.loop label)) (taken : run.loopStep label = some next) :
    RunHeld first next := by
  unfold ServerRun.loopStep at taken
  obtain ⟨ledger, entered, rest⟩ := Option.bind_eq_some_iff.mp taken
  obtain ⟨server, moved, result⟩ := Option.map_eq_some_iff.mp rest
  have shaped := before.shaped
  unfold ServerRun.Shaped at shaped
  rw [at_] at shaped
  obtain ⟨listenFd, epfd, wakeFd, shape⟩ := shaped
  have held := loop_step_held before entered moved
  have apart := apart_step before.apart moved
  by_cases stopped : server.point = .stopped
  · obtain ⟨reply, rfl, ended, same⟩ := loop_ends moved (before.inside at_) stopped
    simp only [stopped] at result
    subst result
    have noClients : ∀ fd, server.kernel.clients fd = none := by
      intro fd
      rw [same]
      exact guarded ended fd
    have all : ([run.handle.epfd, run.handle.listenFd, run.handle.wakeFd].filterMap id).Perm
        run.handle.numbers := by
      rw [shape]
      exact List.Perm.swap _ _ _
    obtain ⟨left_, -⟩ := held_left held noClients all
    refine ⟨left_, rfl, apart, fun _ => noClients, ?_⟩
    intro looping
    cases looping
  · have going : next = { run with server := server, ledger := ledger } := by
      rw [← result]
      simp only
    subst going
    refine ⟨held, ?_, apart, fun outside => absurd at_ outside, fun _ => stopped⟩
    unfold ServerRun.Shaped
    simp only [at_]
    exact ⟨listenFd, epfd, wakeFd, shape⟩

theorem run_held_step (before : RunHeld first run) {label : RunLabel}
    (guarded : NoClientLeft run label) (taken : run.step label = some next) :
    RunHeld first next := by
  cases label with
  | begin =>
      simp only [ServerRun.step] at taken
      split at taken
      · next at_ =>
          have setUp : run.point ≠ .loop := by
            rw [at_]
            decide
          have shaped := before.shaped
          unfold ServerRun.Shaped at shaped
          rw [at_] at shaped
          have held := before.held
          rw [show run.handle = .none_ from shaped] at held
          have renewed := held_renewed held (before.outside setUp)
          rw [← show run.handle = .none_ from shaped] at renewed
          cases taken
          refine ⟨renewed, shaped, before.apart, fun _ => before.outside setUp, ?_⟩
          intro looping
          cases looping
      · cases taken
  | makeListen reply =>
      simp only [ServerRun.step] at taken
      split at taken
      · next at_ => exact run_held_make_listen before at_ taken
      · cases taken
  | epollCreate reply =>
      simp only [ServerRun.step] at taken
      split at taken
      · next at_ => exact run_held_epoll_create before at_ taken
      · cases taken
  | makeWake reply =>
      simp only [ServerRun.step] at taken
      split at taken
      · next at_ => exact run_held_make_wake before at_ taken
      · cases taken
  | addListen ok =>
      simp only [ServerRun.step] at taken
      split at taken
      · next at_ =>
          cases taken
          exact run_held_add_listen before at_ ok
      · cases taken
  | addWake ok =>
      simp only [ServerRun.step] at taken
      split at taken
      · next at_ => exact run_held_add_wake before at_ taken
      · cases taken
  | loop label =>
      simp only [ServerRun.step] at taken
      split at taken
      · next at_ => exact run_held_loop before at_ guarded taken
      · cases taken

theorem run_held_of_reaches (initial : first.Initial)
    (reached : ReachesUnder (runFrom first) NoClientLeft run) : RunHeld first run := by
  refine invariant_of_step ?_ ?_ reached
  · intro start same
    rw [show start = first from same]
    exact run_held_start initial
  · intro state label after _ before guarded taken
    exact run_held_step before guarded taken

end Steps

/-- Every run of `run_server_loop`, also after others, whose loop is left with no client's
descriptor open: no descriptor is closed while it is not open, and each that was obtained
has been closed once on return. -/
theorem descriptors_closed_once {first run : ServerRun capacity} (initial : first.Initial)
    (reached : ReachesUnder (runFrom first) NoClientLeft run) :
    none ∉ run.ledger.closes ∧ (run.point = .returned → run.ledger.Settled) := by
  have state := run_held_of_reaches initial reached
  refine ⟨state.held.sound.hit, ?_⟩
  intro returned
  apply settled_of_sound state.held.sound
  have shaped := state.shaped
  unfold ServerRun.Shaped at shaped
  rw [returned] at shaped
  have outside : run.point ≠ .loop := by
    rw [returned]
    decide
  intro number
  rw [← not_open_iff, state.held.opened, show run.handle = .none_ from shaped]
  rintro (mine | client)
  · exact absurd mine List.not_mem_nil
  · exact client (state.outside outside number)

def newRun : ServerRun fourSlots := ⟨.returned, .none_, newServer, ⟨fun _ => none, 0, [], []⟩⟩

theorem new_run_initial : newRun.Initial where
  point := rfl
  handle := rfl
  server := ⟨rfl, fun _ => rfl, rfl, fun _ => rfl, fun _ => ⟨rfl, rfl⟩, fun _ => rfl, rfl, rfl,
    pool_sound_init _⟩
  ledger := rfl

/-- The loop is not left in this step. -/
def staysInLoop (run : ServerRun capacity) : RunLabel → Bool
  | .loop (.wait (.events _)) => run.server.running
  | .loop (.wait _) => false
  | _ => true

theorem no_client_left_of_check (run : ServerRun capacity) (label : RunLabel)
    (checked : staysInLoop run label = true) : NoClientLeft run label := by
  unfold NoClientLeft
  split
  · next reply =>
      cases reply with
      | events batch =>
          rintro (stopped | failed)
          · exact absurd (stopped.symm.trans checked) (by decide)
          · cases failed
      | timeout => cases checked
      | interrupted => cases checked
      | failed => cases checked
  · trivial

/-- The server is set up and accepts a client as descriptor 6. -/
def setUpAndAccept : List RunLabel :=
  [RunLabel.begin, .makeListen (.listening 3), .epollCreate (some 4), .makeWake (some 5),
    .addListen true, .addWake true] ++
  [ServerLabel.wait (.events [⟨3, false⟩]), .dispatch, .accept (.connection 6 true),
    .accept .again, .dispatch].map RunLabel.loop

/-- The client hangs up before the server is stopped. -/
def stoppedWithoutClients : List RunLabel :=
  setUpAndAccept ++
    [ServerLabel.wait (.events [⟨6, true⟩]), .dispatch, .dispatch, .stop].map RunLabel.loop

theorem four_descriptors_closed_once :
    ∃ run, ReachesUnder (runFrom newRun) NoClientLeft run ∧ run.point = .returned ∧
      run.ledger.obtained = [0, 1, 2, 3] ∧ run.ledger.Settled := by
  have begun : ReachesUnder (runFrom newRun) NoClientLeft newRun := .start rfl
  obtain ⟨run, checked, clients, after, taken, point, obtained⟩ :
      ∃ run, runChecked (runFrom newRun) staysInLoop newRun stoppedWithoutClients = some run ∧
        run.server.kernel.clients =
          Function.update (Function.update (fun _ => none) 6 (some 0)) 6 none ∧
        ∃ after, (runFrom newRun).step run (.loop (.wait .timeout)) = some after ∧
          after.point = .returned ∧ after.ledger.obtained = [0, 1, 2, 3] :=
    ⟨_, rfl, rfl, _, rfl, rfl, rfl⟩
  have reached := reaches_under_run no_client_left_of_check begun checked
  have guarded : NoClientLeft run (.loop (.wait .timeout)) := by
    intro _ fd
    rw [clients, Function.update_idem, Function.update_eq_self]
  have returned := ReachesUnder.step reached guarded taken
  exact ⟨after, returned, point, obtained,
    (descriptors_closed_once new_run_initial returned).2 point⟩

/-- The server is stopped while its client is connected. -/
def stoppedWithClient : List RunLabel :=
  setUpAndAccept ++ [ServerLabel.stop, .wait .timeout].map RunLabel.loop

theorem client_descriptor_leaks :
    ¬ ∀ run, Reaches (runFrom newRun) run → run.point = .returned → run.ledger.Settled := by
  intro settled
  obtain ⟨run, ran, point, obtained, closes⟩ :
      ∃ run, runLabels (runFrom newRun) newRun stoppedWithClient = some run ∧
        run.point = .returned ∧ run.ledger.obtained = [0, 1, 2, 3] ∧
        run.ledger.closes = [some 1, some 0, some 2] :=
    ⟨_, rfl, rfl, rfl, rfl⟩
  have once := (settled run (reaches_run (reaches_start rfl) ran) point).1 3 (by
    rw [obtained]
    decide)
  rw [closes] at once
  exact absurd once (by decide)

end MarketDataEngine.Net
