import MarketDataEngine.TransitionSystem
import Mathlib.Data.List.Basic

/-!
# Starting and stopping the v1 servers

`start_server` and `stop_server` of the UDP server and of the epoll TCP server are the same
code over a handle: a flag, the eventfd and the I/O thread. The control thread makes calls
one after the other, in any order; the I/O thread sets up its descriptors, loops and leaves.
Both write `handle.running`.

The servers differ in one branch of the loop: on `EPOLLERR` or `EPOLLHUP` the UDP server
clears the flag, the TCP server closes that client. What else the loop does with an event is
left out, and so are the other descriptors.
-/

namespace MarketDataEngine.Net

open MarketDataEngine.TransitionSystem

set_option autoImplicit false

inductive ServerKind where
  | udp
  | tcp
  deriving DecidableEq

/-- An event of a batch. `error` is one with `EPOLLERR` or `EPOLLHUP`. -/
inductive LoopEvent where
  | wake
  | error
  | ready
  deriving DecidableEq

/-- The calls of the set-up, in the order of the source. -/
inductive SetUpCall where
  | makeSocket
  | epollCreate
  | makeWake
  | addSocket
  | addWake
  deriving DecidableEq

inductive IoPoint where
  | setUp (call : SetUpCall)
  | loopTest
  | wait
  | dispatch (events : List LoopEvent)
  | leave
  | finished
  deriving DecidableEq

/-- The points of `start_server` and `stop_server`; `stopped` is behind a return of
`stop_server`, `idle` behind one of `start_server`. -/
inductive CallPoint where
  | idle
  | startTest
  | startStore
  | assign
  | exchange
  | wake
  | join
  | stopped
  deriving DecidableEq

inductive LoopReply where
  | failed
  | interrupted
  | timeout
  | events (batch : List LoopEvent)

inductive HandleLabel where
  | start
  | stop
  | control
  | setUp (ok : Bool)
  | loopTest
  | wait (reply : LoopReply)
  | dispatch
  | leave

/-- `wakeFd` is `wake_fd != -1`, and `wakePending` that the eventfd has been written. A
thread that was never started is `finished` and not joinable. -/
structure ServerHandle where
  running : Bool
  wakeFd : Bool
  wakePending : Bool
  joinable : Bool
  io : IoPoint
  call : CallPoint
  deriving DecidableEq

namespace ServerHandle

variable (handle : ServerHandle)

/-- A failed set-up closes what it has, clears the flag and ends the thread. -/
def setUpFailed : ServerHandle :=
  { handle with running := false, wakeFd := false, wakePending := false, io := .finished }

def setUpDone : SetUpCall → ServerHandle
  | .makeSocket => { handle with io := .setUp .epollCreate }
  | .epollCreate => { handle with io := .setUp .makeWake }
  | .makeWake =>
      { handle with wakeFd := true, wakePending := false, io := .setUp .addSocket }
  | .addSocket => { handle with io := .setUp .addWake }
  | .addWake => { handle with io := .loopTest }

/-- The eventfd is readable only after it has been written. -/
def waitStep : LoopReply → Option ServerHandle
  | .failed => some { handle with io := .leave }
  | .interrupted => some { handle with io := .loopTest }
  | .timeout => some { handle with io := .loopTest }
  | .events batch =>
      if .wake ∈ batch → handle.wakePending = true then
        some { handle with io := .dispatch batch }
      else none

def dispatchStep (kind : ServerKind) : List LoopEvent → ServerHandle
  | [] => { handle with io := .loopTest }
  | .wake :: rest =>
      { handle with running := false, wakePending := false, io := .dispatch rest }
  | .error :: rest =>
      match kind with
      | .udp => { handle with running := false, io := .loopTest }
      | .tcp => { handle with io := .dispatch rest }
  | .ready :: rest => { handle with io := .dispatch rest }

/-- Behind the loop the descriptors are closed and the thread ends. -/
def leaveStep : ServerHandle :=
  { handle with wakeFd := false, wakePending := false, io := .finished }

/-- The next step of the call under way. An assignment over a joinable thread is
`std::terminate`; a join waits for the end of the thread. -/
def controlStep : Option ServerHandle :=
  match handle.call with
  | .idle => none
  | .startTest =>
      some { handle with call := if handle.running then .idle else .startStore }
  | .startStore => some { handle with running := true, call := .assign }
  | .assign =>
      if handle.joinable then none
      else some { handle with joinable := true, io := .setUp .makeSocket, call := .idle }
  | .exchange =>
      some { handle with running := false, call := if handle.running then .wake else .stopped }
  | .wake =>
      some { handle with wakePending := handle.wakePending || handle.wakeFd, call := .join }
  | .join =>
      if handle.joinable then
        if handle.io = .finished then some { handle with joinable := false, call := .stopped }
        else none
      else some { handle with call := .stopped }
  | .stopped => none

def step (kind : ServerKind) : HandleLabel → Option ServerHandle
  | .start =>
      if handle.call = .idle ∨ handle.call = .stopped then
        some { handle with call := .startTest }
      else none
  | .stop =>
      if handle.call = .idle ∨ handle.call = .stopped then
        some { handle with call := .exchange }
      else none
  | .control => handle.controlStep
  | .setUp ok =>
      match handle.io with
      | .setUp call => some (if ok then handle.setUpDone call else handle.setUpFailed)
      | _ => none
  | .loopTest =>
      match handle.io with
      | .loopTest => some { handle with io := if handle.running then .wait else .leave }
      | _ => none
  | .wait reply =>
      match handle.io with
      | .wait => handle.waitStep reply
      | _ => none
  | .dispatch =>
      match handle.io with
      | .dispatch events => some (handle.dispatchStep kind events)
      | _ => none
  | .leave =>
      match handle.io with
      | .leave => some handle.leaveStep
      | _ => none

/-- `ServerHandle handle;` -/
def initial : ServerHandle := ⟨false, false, false, false, .finished, .idle⟩

end ServerHandle

def handles (kind : ServerKind) : System ServerHandle HandleLabel where
  start := fun handle => handle = .initial
  step := fun handle label => handle.step kind label

/-- The I/O thread does not end itself: set-up calls fail and errors of the UDP socket are
handled only after `stop_server` has cleared the flag. -/
def StoppedFirst (kind : ServerKind) (handle : ServerHandle) : HandleLabel → Prop
  | .setUp false => handle.running = false
  | .dispatch => kind = .udp → ∀ rest, handle.io = .dispatch (.error :: rest) →
      handle.running = false
  | _ => True

/-! ## The flag and the thread -/

/-- The events of the batch still to be handled. -/
def IoPoint.events : IoPoint → List LoopEvent
  | .dispatch events => events
  | _ => []

/-- A joinable thread is one that the flag stands for, or one that is being joined. -/
structure HandleKept (handle : ServerHandle) : Prop where
  alive : handle.io ≠ .finished → handle.joinable = true
  flagged : handle.joinable = true →
    handle.running = true ∧ (handle.call = .idle ∨ handle.call = .startTest ∨
      handle.call = .exchange) ∨
    handle.running = false ∧ (handle.call = .wake ∨ handle.call = .join)
  eventfd : handle.wakeFd = true → handle.io ≠ .finished
  written : handle.wakePending = true → handle.io ≠ .finished ∧ handle.running = false
  woken : .wake ∈ handle.io.events → handle.running = false
  stored : handle.call = .assign → handle.running = true

section Steps

variable {kind : ServerKind} {handle next : ServerHandle}

theorem kept_initial : HandleKept .initial :=
  ⟨fun alive => absurd rfl alive, nofun, nofun, nofun, nofun, nofun⟩

theorem events_alive {io : IoPoint} (some_ : .wake ∈ io.events) : io ≠ .finished := by
  rintro rfl
  cases some_

/-- The I/O thread goes on without touching the flag. -/
theorem kept_io (kept : HandleKept handle) {io : IoPoint} (alive : handle.io ≠ .finished)
    (going : io ≠ .finished) (woken : .wake ∈ io.events → handle.running = false) :
    HandleKept { handle with io := io } where
  alive := fun _ => kept.alive alive
  flagged := kept.flagged
  eventfd := fun _ => going
  written := fun pending => ⟨going, (kept.written pending).2⟩
  woken := woken
  stored := kept.stored

/-- The thread ends; its eventfd is closed. -/
theorem kept_leave (kept : HandleKept handle) : HandleKept handle.leaveStep where
  alive := fun alive => absurd rfl alive
  flagged := kept.flagged
  eventfd := nofun
  written := nofun
  woken := nofun
  stored := kept.stored

/-- Clearing the flag a second time. -/
theorem cleared_eq (cleared : handle.running = false) : { handle with running := false } = handle := by
  rw [← cleared]

theorem kept_set_up (kept : HandleKept handle) {call : SetUpCall}
    (at_ : handle.io = .setUp call) (ok : Bool) (guarded : ok = false → handle.running = false) :
    HandleKept (if ok then handle.setUpDone call else handle.setUpFailed) := by
  have alive : handle.io ≠ .finished := by
    rw [at_]
    exact nofun
  cases ok with
  | false =>
      have same : handle.setUpFailed = { handle with running := false }.leaveStep := rfl
      rw [if_neg Bool.false_ne_true, same, cleared_eq (guarded rfl)]
      exact kept_leave kept
  | true =>
      cases call with
      | makeWake => exact ⟨fun _ => kept.alive alive, kept.flagged, fun _ => nofun, nofun, nofun,
          kept.stored⟩
      | makeSocket => exact kept_io kept alive nofun nofun
      | epollCreate => exact kept_io kept alive nofun nofun
      | addSocket => exact kept_io kept alive nofun nofun
      | addWake => exact kept_io kept alive nofun nofun

theorem kept_wait (kept : HandleKept handle) (at_ : handle.io = .wait) {reply : LoopReply}
    (taken : handle.waitStep reply = some next) : HandleKept next := by
  have alive : handle.io ≠ .finished := by
    rw [at_]
    exact nofun
  cases reply with
  | failed =>
      cases taken
      exact kept_io kept alive nofun nofun
  | interrupted =>
      cases taken
      exact kept_io kept alive nofun nofun
  | timeout =>
      cases taken
      exact kept_io kept alive nofun nofun
  | events batch =>
      simp only [ServerHandle.waitStep] at taken
      split_ifs at taken with possible
      cases taken
      exact kept_io kept alive nofun fun member => (kept.written (possible member)).2

theorem kept_dispatch (kept : HandleKept handle) {events : List LoopEvent}
    (at_ : handle.io = .dispatch events) (guarded : StoppedFirst kind handle .dispatch) :
    HandleKept (handle.dispatchStep kind events) := by
  have alive : handle.io ≠ .finished := by
    rw [at_]
    exact nofun
  have woken : .wake ∈ events → handle.running = false := by
    have woken := kept.woken
    rw [at_] at woken
    exact woken
  cases events with
  | nil => exact kept_io kept alive nofun nofun
  | cons event rest =>
      have later : .wake ∈ rest → handle.running = false := fun member =>
        woken (List.mem_cons_of_mem _ member)
      cases event with
      | wake =>
          have cleared := woken List.mem_cons_self
          have same : handle.dispatchStep kind (.wake :: rest) = { handle with
              wakePending := false, io := .dispatch rest } := by
            show { { handle with running := false } with
              wakePending := false, io := .dispatch rest } = _
            rw [cleared_eq cleared]
          rw [same]
          exact ⟨fun _ => kept.alive alive, kept.flagged, fun _ => nofun, nofun,
            fun _ => cleared, kept.stored⟩
      | error =>
          cases kind with
          | udp =>
              have cleared := guarded rfl rest at_
              show HandleKept { { handle with running := false } with io := .loopTest }
              rw [cleared_eq cleared]
              exact kept_io kept alive nofun nofun
          | tcp => exact kept_io kept alive nofun later
      | ready => exact kept_io kept alive nofun later

/-! ## The calls -/

/-- Without a joinable thread there is no I/O thread. -/
theorem gone_of_not_joinable (kept : HandleKept handle) (joined : handle.joinable = false) :
    handle.io = .finished ∧ handle.wakeFd = false ∧ handle.wakePending = false := by
  have gone : handle.io = .finished := by
    by_contra alive
    rw [kept.alive alive] at joined
    cases joined
  refine ⟨gone, ?_, ?_⟩
  · by_contra opened
    exact kept.eventfd (eq_true_of_ne_false opened) gone
  · by_contra pending
    exact (kept.written (eq_true_of_ne_false pending)).1 gone

/-- Without an I/O thread the calls may set the flag as they like. -/
theorem kept_without_thread (kept : HandleKept handle) (joined : handle.joinable = false)
    (running : Bool) (call : CallPoint) (stored : call = .assign → running = true) :
    HandleKept { handle with running := running, call := call } := by
  obtain ⟨gone, closed, unwritten⟩ := gone_of_not_joinable kept joined
  refine ⟨fun alive => absurd gone alive, ?_, ?_, ?_, ?_, stored⟩
  · intro joinable
    exact absurd (joined.symm.trans joinable) Bool.false_ne_true
  · intro opened
    exact absurd (closed.symm.trans opened) Bool.false_ne_true
  · intro pending
    exact absurd (unwritten.symm.trans pending) Bool.false_ne_true
  · intro member
    exact absurd gone (events_alive member)

theorem kept_called (kept : HandleKept handle) (free : handle.call = .idle ∨ handle.call = .stopped)
    {call : CallPoint} (entry : call = .startTest ∨ call = .exchange) :
    HandleKept { handle with call := call } := by
  rcases Bool.eq_false_or_eq_true handle.joinable with joinable | joinable
  · have running : handle.running = true := by
      rcases kept.flagged joinable with ⟨running, -⟩ | ⟨-, stopping⟩
      · exact running
      · rcases free with at_ | at_ <;> rw [at_] at stopping <;>
          rcases stopping with impossible | impossible <;> cases impossible
    exact ⟨kept.alive, fun _ => .inl ⟨running, .inr entry⟩, kept.eventfd, kept.written,
      kept.woken, fun _ => running⟩
  · refine kept_without_thread kept joinable handle.running call ?_
    rintro rfl
    rcases entry with impossible | impossible <;> cases impossible

theorem kept_start_test (kept : HandleKept handle) (at_ : handle.call = .startTest) :
    HandleKept { handle with call := if handle.running then .idle else .startStore } := by
  rcases Bool.eq_false_or_eq_true handle.joinable with joinable | joinable
  · rcases kept.flagged joinable with ⟨running, -⟩ | ⟨-, stopping⟩
    · rw [if_pos running]
      exact ⟨kept.alive, fun _ => .inl ⟨running, .inl rfl⟩, kept.eventfd, kept.written,
        kept.woken, nofun⟩
    · rw [at_] at stopping
      rcases stopping with impossible | impossible <;> cases impossible
  · refine kept_without_thread kept joinable handle.running _ ?_
    split_ifs <;> exact nofun

/-- At these points there is no thread. -/
theorem not_joinable_at (kept : HandleKept handle)
    (at_ : handle.call = .startStore ∨ handle.call = .assign ∨ handle.call = .stopped) :
    handle.joinable = false := by
  by_contra joinable
  rcases kept.flagged (eq_true_of_ne_false joinable) with ⟨-, calls⟩ | ⟨-, calls⟩ <;>
    rcases at_ with at_ | at_ | at_ <;> rw [at_] at calls <;> simp at calls

theorem kept_assigned (kept : HandleKept handle) (at_ : handle.call = .assign) :
    HandleKept { handle with joinable := true, io := .setUp .makeSocket, call := .idle } := by
  have joined := not_joinable_at kept (.inr (.inl at_))
  obtain ⟨-, -, unwritten⟩ := gone_of_not_joinable kept joined
  refine ⟨fun _ => rfl, fun _ => .inl ⟨kept.stored at_, .inl rfl⟩, fun _ => nofun, ?_, nofun, nofun⟩
  intro pending
  exact absurd (unwritten.symm.trans pending) Bool.false_ne_true

theorem kept_exchange (kept : HandleKept handle) (at_ : handle.call = .exchange) :
    HandleKept { handle with
      running := false, call := if handle.running then .wake else .stopped } := by
  rcases Bool.eq_false_or_eq_true handle.joinable with joinable | joinable
  · rcases kept.flagged joinable with ⟨running, -⟩ | ⟨-, stopping⟩
    · rw [if_pos running]
      exact ⟨kept.alive, fun _ => .inr ⟨rfl, .inl rfl⟩, kept.eventfd,
        fun pending => ⟨(kept.written pending).1, rfl⟩, fun _ => rfl, nofun⟩
    · rw [at_] at stopping
      rcases stopping with impossible | impossible <;> cases impossible
  · refine kept_without_thread kept joinable false _ ?_
    split_ifs <;> exact nofun

theorem kept_wake (kept : HandleKept handle) (at_ : handle.call = .wake) :
    HandleKept { handle with
      wakePending := handle.wakePending || handle.wakeFd, call := .join } := by
  have cleared : handle.joinable = true → handle.running = false := by
    intro joinable
    rcases kept.flagged joinable with ⟨-, calls⟩ | ⟨cleared, -⟩
    · rw [at_] at calls
      simp at calls
    · exact cleared
  refine ⟨kept.alive, fun joinable => .inr ⟨cleared joinable, .inr rfl⟩, kept.eventfd, ?_,
    kept.woken, nofun⟩
  intro pending
  rcases Bool.or_eq_true_iff.mp pending with before | opened
  · exact kept.written before
  · have alive := kept.eventfd opened
    exact ⟨alive, cleared (kept.alive alive)⟩

theorem kept_control (kept : HandleKept handle) (taken : handle.controlStep = some next) :
    HandleKept next := by
  unfold ServerHandle.controlStep at taken
  split at taken
  · cases taken
  · next at_ =>
      cases taken
      exact kept_start_test kept at_
  · next at_ =>
      cases taken
      exact kept_without_thread kept (not_joinable_at kept (.inl at_)) true _ fun _ => rfl
  · next at_ =>
      split_ifs at taken
      cases taken
      exact kept_assigned kept at_
  · next at_ =>
      cases taken
      exact kept_exchange kept at_
  · next at_ =>
      cases taken
      exact kept_wake kept at_
  · next at_ =>
      split_ifs at taken with joinable finished
      · cases taken
        refine ⟨fun alive => absurd finished alive, nofun, kept.eventfd, kept.written, kept.woken,
          nofun⟩
      · cases taken
        exact kept_without_thread kept (Bool.eq_false_iff.mpr joinable) handle.running _ nofun
  · cases taken

theorem kept_step (kept : HandleKept handle) {label : HandleLabel}
    (guarded : StoppedFirst kind handle label) (taken : handle.step kind label = some next) :
    HandleKept next := by
  cases label with
  | start =>
      simp only [ServerHandle.step] at taken
      split_ifs at taken with free
      cases taken
      exact kept_called kept free (.inl rfl)
  | stop =>
      simp only [ServerHandle.step] at taken
      split_ifs at taken with free
      cases taken
      exact kept_called kept free (.inr rfl)
  | control => exact kept_control kept taken
  | setUp ok =>
      simp only [ServerHandle.step] at taken
      split at taken
      · next at_ =>
          cases taken
          refine kept_set_up kept at_ ok ?_
          rintro rfl
          exact guarded
      · cases taken
  | loopTest =>
      simp only [ServerHandle.step] at taken
      split at taken
      · next at_ =>
          have alive : handle.io ≠ .finished := by
            rw [at_]
            exact nofun
          cases taken
          split_ifs
          · exact kept_io kept alive nofun nofun
          · exact kept_io kept alive nofun nofun
      · cases taken
  | wait reply =>
      simp only [ServerHandle.step] at taken
      split at taken
      · next at_ => exact kept_wait kept at_ taken
      · cases taken
  | dispatch =>
      simp only [ServerHandle.step] at taken
      split at taken
      · next at_ =>
          cases taken
          exact kept_dispatch kept at_ guarded
      · cases taken
  | leave =>
      simp only [ServerHandle.step] at taken
      split at taken
      · cases taken
        exact kept_leave kept
      · cases taken

end Steps

/-- Calls in any order, whatever the I/O thread meets once it has been told to stop: when
`stop_server` returns the thread is joined, and `start_server` assigns to a handle without
a thread. -/
theorem stop_server_joins {kind : ServerKind} {handle : ServerHandle}
    (reached : ReachesUnder (handles kind) (StoppedFirst kind) handle) :
    (handle.call = .stopped → handle.joinable = false) ∧
      (handle.call = .assign → handle.joinable = false) := by
  have kept : HandleKept handle := by
    refine invariant_of_step ?_ ?_ reached
    · intro start same
      rw [show start = .initial from same]
      exact kept_initial
    · intro state label after _ before guarded taken
      exact kept_step before guarded taken
  refine ⟨fun at_ => not_joinable_at kept (.inr (.inr at_)), fun at_ =>
    not_joinable_at kept (.inr (.inl at_))⟩

def stoppedFirst (kind : ServerKind) (handle : ServerHandle) : HandleLabel → Bool
  | .setUp false => !handle.running
  | .dispatch =>
      match kind, handle.io with
      | .udp, .dispatch (.error :: _) => !handle.running
      | _, _ => true
  | _ => true

theorem stopped_first_of_check (kind : ServerKind) (handle : ServerHandle) (label : HandleLabel)
    (checked : stoppedFirst kind handle label = true) : StoppedFirst kind handle label := by
  unfold StoppedFirst
  split
  · simpa [stoppedFirst] using checked
  · rintro rfl rest at_
    simpa [stoppedFirst, at_] using checked
  · trivial

/-- `start_server`, and the I/O thread is set up. -/
def startedServer : List HandleLabel :=
  [HandleLabel.start, .control, .control, .control] ++ List.replicate 5 (HandleLabel.setUp true)

/-- `stop_server` while the loop waits; the eventfd wakes it. -/
def wokenAndJoined : List HandleLabel :=
  startedServer ++ [HandleLabel.loopTest, .stop, .control, .control, .wait (.events [.wake]),
    .dispatch, .dispatch, .loopTest, .leave, .control]

theorem both_servers_join :
    (∃ handle, ReachesUnder (handles .udp) (StoppedFirst .udp) handle ∧
      handle.call = .stopped ∧ handle.joinable = false) ∧
    ∃ handle, ReachesUnder (handles .tcp) (StoppedFirst .tcp) handle ∧
      handle.call = .stopped ∧ handle.joinable = false := by
  constructor
  · have begun : ReachesUnder (handles .udp) (StoppedFirst .udp) .initial := .start rfl
    have reached := reaches_under_run (stopped_first_of_check .udp) begun
      (rfl : runChecked _ _ _ wokenAndJoined = some ⟨false, false, false, false, .finished, .stopped⟩)
    exact ⟨_, reached, rfl, (stop_server_joins reached).1 rfl⟩
  · have begun : ReachesUnder (handles .tcp) (StoppedFirst .tcp) .initial := .start rfl
    have reached := reaches_under_run (stopped_first_of_check .tcp) begun
      (rfl : runChecked _ _ _ wokenAndJoined = some ⟨false, false, false, false, .finished, .stopped⟩)
    exact ⟨_, reached, rfl, (stop_server_joins reached).1 rfl⟩

/-- The UDP socket reports an error while the server runs, and then `stop_server` is called. -/
def errorThenStop : List HandleLabel :=
  startedServer ++ [HandleLabel.loopTest, .wait (.events [.error]), .dispatch, .stop, .control]

/-- The TCP server cannot bind its port, and then `start_server` is called again. -/
def bindFailsThenStart : List HandleLabel :=
  [.start, .control, .control, .control, .setUp false, .start, .control, .control]

theorem thread_left_joinable :
    (¬ ∀ handle, Reaches (handles .udp) handle → handle.call = .stopped →
      handle.joinable = false) ∧
    ¬ ∀ handle, Reaches (handles .tcp) handle → handle.call = .assign →
      handle.joinable = false := by
  constructor
  · intro joined
    have reached := reaches_run (reaches_start rfl)
      (rfl : runLabels (handles .udp) .initial errorThenStop =
        some ⟨false, true, false, true, .loopTest, .stopped⟩)
    exact absurd (joined _ reached rfl) (by decide)
  · intro joined
    have reached := reaches_run (reaches_start rfl)
      (rfl : runLabels (handles .tcp) .initial bindFailsThenStart =
        some ⟨true, false, false, true, .finished, .assign⟩)
    exact absurd (joined _ reached rfl) (by decide)

end MarketDataEngine.Net
