import MarketDataEngine.EpollDescriptors
import MarketDataEngine.ServerHandles

/-!
# The descriptors of a server handle over its sessions

The socket, the epoll instance and the eventfd of a handle, for both v1 servers and any
sequence of `start_server` and `stop_server`. Every system call of the I/O thread, every
store to a field of the handle and every access to `handle.running` is a step, and
`stop_server` reads the fields in between. The kernel may hand out a number again as soon as
it is closed. The clients of the TCP server are not in this account, and a wait may report
any events.
-/

namespace MarketDataEngine.Net

open MarketDataEngine.DescriptorLedger MarketDataEngine.TransitionSystem

set_option autoImplicit false

/-- `sock_fd` of the UDP server is `listen_fd` here. -/
inductive HandleField where
  | listenFd
  | epfd
  | wakeFd
  deriving DecidableEq

namespace HandleFds

def get (fds : HandleFds) : HandleField → Option Nat
  | .listenFd => fds.listenFd
  | .epfd => fds.epfd
  | .wakeFd => fds.wakeFd

def set (fds : HandleFds) (value : Option Nat) : HandleField → HandleFds
  | .listenFd => { fds with listenFd := value }
  | .epfd => { fds with epfd := value }
  | .wakeFd => { fds with wakeFd := value }

end HandleFds

/-- What `run_server_loop` still has to do before it returns. `drop` is the close in
`make_recv_socket` or `make_listen_socket`, before the handle has the number; `leave` is
`if (handle.epfd != -1)` with what stands under it. -/
inductive TearDown where
  | drop (number : Nat)
  | close (field : HandleField)
  | reset (field : HandleField)
  | leave (field : HandleField)
  | clearRunning
  deriving DecidableEq

/-- Where the I/O thread is. `store` has the number that a call has just returned. -/
inductive SessionPoint where
  | setUp (call : SetUpCall)
  | store (field : HandleField) (number : Nat)
  | loopTest
  | wait
  | dispatch (events : List LoopEvent)
  | tearDown (rest : List TearDown)
  deriving DecidableEq

/-- The thread has ended, or there is none. -/
def SessionPoint.finished : SessionPoint := .tearDown []

/-- The points of `start_server` and `stop_server`, one for each access. -/
inductive SessionCall where
  | idle
  | startTest
  | startStore
  | assign
  | exchange
  | wakeTest
  | wakeLoad
  | wakeWrite (number : Option Nat)
  | join
  | stopped
  deriving DecidableEq

/-- `failedLate` is a failure of `make_recv_socket` or `make_listen_socket` behind `socket`. -/
inductive SetUpReply where
  | obtained (number : Nat)
  | added
  | failed
  | failedLate (number : Nat)

inductive SessionLabel where
  | start
  | stop
  | control
  | setUp (reply : SetUpReply)
  | store
  | loopTest
  | wait (reply : LoopReply)
  | dispatch
  | tearDown

/-- A write of `stop_server`: the descriptor that its number stood for, and whether the I/O
thread was on its way out. -/
structure WakeWrite where
  number : Option Nat
  hit : Option Nat
  ending : Bool

/-- `wakes` are the eventfds that the handle has obtained. -/
structure HandleSession where
  running : Bool
  joinable : Bool
  fds : HandleFds
  ledger : Ledger
  io : SessionPoint
  call : SessionCall
  wakes : List Nat
  writes : List WakeWrite

namespace SessionPoint

/-- The I/O thread is closing what it has, or has ended. -/
def ending : SessionPoint → Bool
  | .tearDown _ => true
  | _ => false

def behindStore : HandleField → SessionPoint
  | .listenFd => .setUp .epollCreate
  | .epfd => .setUp .makeWake
  | .wakeFd => .setUp .addSocket

/-- The three blocks behind the loop. -/
def leaving : SessionPoint := .tearDown [.leave .epfd, .leave .listenFd, .leave .wakeFd]

/-- An `epoll_ctl` of the set-up has failed. -/
def notAdded : SessionPoint :=
  .tearDown [.close .wakeFd, .close .epfd, .close .listenFd, .reset .wakeFd, .reset .epfd,
    .reset .listenFd, .clearRunning]

end SessionPoint

namespace HandleSession

variable (session : HandleSession)

def acquired (number : Nat) (io : SessionPoint) : Option HandleSession :=
  if session.ledger.table number = none then
    some { session with ledger := session.ledger.acquire number, io := io }
  else none

/-- A call that fails has returned `-1`, and `-1` is stored before it is tested. -/
def setUpStep : SetUpCall → SetUpReply → Option HandleSession
  | .makeSocket, .obtained number => session.acquired number (.store .listenFd number)
  | .makeSocket, .failedLate number =>
      session.acquired number (.tearDown [.drop number, .reset .listenFd, .clearRunning])
  | .makeSocket, .failed =>
      some { session with io := .tearDown [.reset .listenFd, .clearRunning] }
  | .epollCreate, .obtained number => session.acquired number (.store .epfd number)
  | .epollCreate, .failed =>
      some { session with
        io := .tearDown [.reset .epfd, .close .listenFd, .reset .listenFd, .clearRunning] }
  | .makeWake, .obtained number =>
      { session with wakes := session.wakes ++ [session.ledger.nextSerial] }.acquired number
        (.store .wakeFd number)
  | .makeWake, .failed =>
      some { session with
        io := .tearDown [.reset .wakeFd, .close .epfd, .close .listenFd, .reset .epfd,
          .reset .listenFd, .clearRunning] }
  | .addSocket, .added => some { session with io := .setUp .addWake }
  | .addSocket, .failed => some { session with io := .notAdded }
  | .addWake, .added => some { session with io := .loopTest }
  | .addWake, .failed => some { session with io := .notAdded }
  | _, _ => none

def waitStep : LoopReply → HandleSession
  | .failed => { session with io := .leaving }
  | .interrupted => { session with io := .loopTest }
  | .timeout => { session with io := .loopTest }
  | .events batch => { session with io := .dispatch batch }

def dispatchStep (kind : ServerKind) : List LoopEvent → HandleSession
  | [] => { session with io := .loopTest }
  | .wake :: rest => { session with running := false, io := .dispatch rest }
  | .error :: rest =>
      match kind with
      | .udp => { session with running := false, io := .loopTest }
      | .tcp => { session with io := .dispatch rest }
  | .ready :: rest => { session with io := .dispatch rest }

/-- `::close(handle.epfd)`; a close of `-1` goes astray. -/
def closeField (field : HandleField) : Ledger :=
  match session.fds.get field with
  | some number => session.ledger.close number
  | none => { session.ledger with closes := session.ledger.closes ++ [none] }

def tearDownStep : List TearDown → Option HandleSession
  | [] => none
  | .drop number :: rest =>
      some { session with ledger := session.ledger.close number, io := .tearDown rest }
  | .close field :: rest =>
      some { session with ledger := session.closeField field, io := .tearDown rest }
  | .reset field :: rest =>
      some { session with fds := session.fds.set none field, io := .tearDown rest }
  | .leave field :: rest =>
      some { session with
        io := .tearDown (if session.fds.get field = none then rest
          else .close field :: .reset field :: rest) }
  | .clearRunning :: rest => some { session with running := false, io := .tearDown rest }

/-- The next access of the call under way. An assignment over a joinable thread is
`std::terminate`; a join waits for the end of the thread. -/
def controlStep : Option HandleSession :=
  match session.call with
  | .idle => none
  | .startTest =>
      some { session with call := if session.running then .idle else .startStore }
  | .startStore => some { session with running := true, call := .assign }
  | .assign =>
      if session.joinable then none
      else some { session with joinable := true, io := .setUp .makeSocket, call := .idle }
  | .exchange =>
      some { session with
        running := false, call := if session.running then .wakeTest else .stopped }
  | .wakeTest =>
      some { session with call := if session.fds.wakeFd = none then .join else .wakeLoad }
  | .wakeLoad => some { session with call := .wakeWrite session.fds.wakeFd }
  | .wakeWrite number =>
      some { session with
        writes := session.writes ++
          [⟨number, number.bind session.ledger.table, session.io.ending⟩]
        call := .join }
  | .join =>
      if session.joinable then
        if session.io = .finished then some { session with joinable := false, call := .stopped }
        else none
      else some { session with call := .stopped }
  | .stopped => none

def step (kind : ServerKind) : SessionLabel → Option HandleSession
  | .start =>
      if session.call = .idle ∨ session.call = .stopped then
        some { session with call := .startTest }
      else none
  | .stop =>
      if session.call = .idle ∨ session.call = .stopped then
        some { session with call := .exchange }
      else none
  | .control => session.controlStep
  | .setUp reply =>
      match session.io with
      | .setUp call => session.setUpStep call reply
      | _ => none
  | .store =>
      match session.io with
      | .store field number =>
          some { session with
            fds := session.fds.set (some number) field, io := .behindStore field }
      | _ => none
  | .loopTest =>
      match session.io with
      | .loopTest => some { session with io := if session.running then .wait else .leaving }
      | _ => none
  | .wait reply =>
      match session.io with
      | .wait => some (session.waitStep reply)
      | _ => none
  | .dispatch =>
      match session.io with
      | .dispatch events => some (session.dispatchStep kind events)
      | _ => none
  | .tearDown =>
      match session.io with
      | .tearDown rest => session.tearDownStep rest
      | _ => none

def initial : HandleSession where
  running := false
  joinable := false
  fds := .none_
  ledger := ⟨fun _ => none, 0, [], []⟩
  io := .finished
  call := .idle
  wakes := []
  writes := []

end HandleSession

def handleSessions (kind : ServerKind) : System HandleSession SessionLabel where
  start := fun session => session = .initial
  step := fun session label => session.step kind label

/-! ## What is open at each point -/

theorem mem_numbers {fds : HandleFds} {number : Nat} :
    number ∈ fds.numbers ↔ ∃ field, fds.get field = some number := by
  simp only [HandleFds.numbers, List.mem_filterMap, List.mem_cons, List.not_mem_nil, or_false, id]
  constructor
  · rintro ⟨value, rfl | rfl | rfl, found⟩
    · exact ⟨.listenFd, found⟩
    · exact ⟨.epfd, found⟩
    · exact ⟨.wakeFd, found⟩
  · rintro ⟨field, found⟩
    cases field with
    | listenFd => exact ⟨fds.listenFd, .inl rfl, found⟩
    | epfd => exact ⟨fds.epfd, .inr (.inl rfl), found⟩
    | wakeFd => exact ⟨fds.wakeFd, .inr (.inr rfl), found⟩

theorem get_set_other (fds : HandleFds) (value : Option Nat) {field other : HandleField}
    (apart : other ≠ field) : (fds.set value field).get other = fds.get other := by
  cases field with
  | listenFd => cases other with
    | listenFd => exact absurd rfl apart
    | epfd => rfl
    | wakeFd => rfl
  | epfd => cases other with
    | listenFd => rfl
    | epfd => exact absurd rfl apart
    | wakeFd => rfl
  | wakeFd => cases other with
    | listenFd => rfl
    | epfd => rfl
    | wakeFd => exact absurd rfl apart

/-- What the I/O thread has and no field names. -/
def SessionPoint.held : SessionPoint → List Nat
  | .store _ number => [number]
  | .tearDown (.drop number :: _) => [number]
  | _ => []

/-- What is left to do finds every descriptor that it closes open, resets a field only when
its descriptor is closed, and leaves nothing. -/
def Accounted : List TearDown → HandleFds → Ledger → Prop
  | [], fds, ledger => fds = .none_ ∧ ∀ number, ¬ ledger.Open number
  | .drop number :: rest, fds, ledger =>
      ledger.Open number ∧ Accounted rest fds (ledger.close number)
  | .close field :: rest, fds, ledger =>
      ∃ number, fds.get field = some number ∧ ledger.Open number ∧
        Accounted rest fds (ledger.close number)
  | .reset field :: rest, fds, ledger =>
      (∀ number, fds.get field = some number → ¬ ledger.Open number) ∧
        Accounted rest (fds.set none field) ledger
  | .leave field :: rest, fds, ledger =>
      ∃ number, fds.get field = some number ∧ ledger.Open number ∧
        Accounted rest (fds.set none field) (ledger.close number)
  | .clearRunning :: rest, fds, ledger => Accounted rest fds ledger

/-- The fields of the handle before the I/O thread is on its way out. -/
def SessionPoint.Fields : SessionPoint → HandleFds → Prop
  | .setUp .makeSocket, fds => fds = .none_
  | .store .listenFd _, fds => fds = .none_
  | .setUp .epollCreate, fds => ∃ listenFd, fds = ⟨some listenFd, none, none⟩
  | .store .epfd _, fds => ∃ listenFd, fds = ⟨some listenFd, none, none⟩
  | .setUp .makeWake, fds => ∃ listenFd epfd, fds = ⟨some listenFd, some epfd, none⟩
  | .store .wakeFd _, fds => ∃ listenFd epfd, fds = ⟨some listenFd, some epfd, none⟩
  | _, fds => ∃ listenFd epfd wakeFd, fds = ⟨some listenFd, some epfd, some wakeFd⟩

/-- The open descriptors are those of the fields and the one at hand, all different. -/
structure Holding (io : SessionPoint) (fds : HandleFds) (ledger : Ledger) : Prop where
  fields : io.Fields fds
  opened : ∀ number, ledger.Open number ↔ number ∈ io.held ++ fds.numbers
  distinct : (io.held ++ fds.numbers).Nodup

def Placed (io : SessionPoint) (fds : HandleFds) (ledger : Ledger) : Prop :=
  match io with
  | .tearDown rest => Accounted rest fds ledger
  | _ => Holding io fds ledger

structure FdsKept (io : SessionPoint) (fds : HandleFds) (ledger : Ledger) : Prop where
  sound : ledger.Sound
  owned : ∀ number, ledger.Open number → number ∈ io.held ∨ number ∈ fds.numbers
  placed : Placed io fds ledger

section Descriptors

variable {io after : SessionPoint} {fds : HandleFds} {ledger : Ledger}

theorem kept_of_holding (sound : ledger.Sound) (going : io.ending = false)
    (holding : Holding io fds ledger) : FdsKept io fds ledger := by
  refine ⟨sound, ?_, ?_⟩
  · intro number opened
    exact List.mem_append.mp ((holding.opened number).mp opened)
  · cases io with
    | tearDown rest => cases going
    | _ => exact holding

theorem holding_of_kept (kept : FdsKept io fds ledger) (going : io.ending = false) :
    Holding io fds ledger := by
  cases io with
  | tearDown rest => cases going
  | _ => exact kept.placed

/-- The thread goes on without a descriptor. -/
theorem kept_goes_on (kept : FdsKept io fds ledger) (going : io.ending = false)
    (further : after.ending = false) (none_ : io.held = []) (still : after.held = [])
    (fields : io.Fields fds → after.Fields fds) : FdsKept after fds ledger := by
  have holding := holding_of_kept kept going
  refine kept_of_holding kept.sound further ⟨fields holding.fields, ?_, ?_⟩
  · rw [still, ← none_]
    exact holding.opened
  · rw [still, ← none_]
    exact holding.distinct

/-- A call has returned a number. -/
theorem kept_obtained (kept : FdsKept io fds ledger) (going : io.ending = false)
    (none_ : io.held = []) {field : HandleField} {number : Nat}
    (free : ledger.table number = none)
    (fields : io.Fields fds → (SessionPoint.store field number).Fields fds) :
    FdsKept (.store field number) fds (ledger.acquire number) := by
  have holding := holding_of_kept kept going
  have opened := holding.opened
  have distinct := holding.distinct
  rw [none_, List.nil_append] at distinct
  have new : number ∉ fds.numbers := by
    intro member
    have open_ : ledger.Open number := by
      rw [opened, none_]
      exact member
    exact open_ free
  refine kept_of_holding (sound_acquire kept.sound free) rfl ⟨fields holding.fields, ?_, ?_⟩
  · intro other
    rw [open_acquire, opened, none_]
    exact List.mem_cons.symm
  · exact List.nodup_cons.mpr ⟨new, distinct⟩

/-- The number at hand goes into its field, which was `-1`. -/
theorem kept_stored {field : HandleField} {number : Nat}
    (kept : FdsKept (.store field number) fds ledger) :
    FdsKept (.behindStore field) (fds.set (some number) field) ledger := by
  have holding := holding_of_kept kept rfl
  have same : (fds.set (some number) field).numbers.Perm (number :: fds.numbers) := by
    have fields := holding.fields
    cases field with
    | listenFd =>
        rw [show fds = .none_ from fields]
        exact List.Perm.refl _
    | epfd =>
        obtain ⟨listenFd, rfl⟩ := fields
        exact List.Perm.swap _ _ _
    | wakeFd =>
        obtain ⟨listenFd, epfd, rfl⟩ := fields
        exact (List.perm_append_comm :
          ([listenFd, epfd] ++ [number]).Perm ([number] ++ [listenFd, epfd]))
  have going : (SessionPoint.behindStore field).ending = false := by cases field <;> rfl
  have none_ : (SessionPoint.behindStore field).held = [] := by cases field <;> rfl
  refine kept_of_holding kept.sound going ⟨?_, ?_, ?_⟩
  · have fields := holding.fields
    cases field with
    | listenFd =>
        rw [show fds = .none_ from fields]
        exact ⟨number, rfl⟩
    | epfd =>
        obtain ⟨listenFd, rfl⟩ := fields
        exact ⟨listenFd, number, rfl⟩
    | wakeFd =>
        obtain ⟨listenFd, epfd, rfl⟩ := fields
        exact ⟨listenFd, epfd, number, rfl⟩
  · intro other
    rw [none_, List.nil_append, same.mem_iff]
    exact holding.opened other
  · rw [none_, List.nil_append, same.nodup_iff]
    exact holding.distinct

/-! ## The ways out -/

/-- A way out begins with all that is open in the fields. -/
theorem kept_way_out (kept : FdsKept io fds ledger) (going : io.ending = false)
    (none_ : io.held = []) {rest : List TearDown}
    (accounted : Holding io fds ledger → Accounted rest fds ledger) :
    FdsKept (.tearDown rest) fds ledger := by
  have holding := holding_of_kept kept going
  refine ⟨kept.sound, ?_, accounted holding⟩
  intro number opened
  rw [holding.opened, none_] at opened
  exact .inr opened

theorem accounted_no_socket (holding : Holding (.setUp .makeSocket) fds ledger) :
    Accounted [.reset .listenFd, .clearRunning] fds ledger := by
  have none_ : fds = .none_ := holding.fields
  have closed : ∀ number, ¬ ledger.Open number := by
    intro number opened
    rw [holding.opened, none_] at opened
    cases opened
  subst none_
  exact ⟨fun number _ => closed number, rfl, closed⟩

theorem accounted_no_epoll (holding : Holding (.setUp .epollCreate) fds ledger) :
    Accounted [.reset .epfd, .close .listenFd, .reset .listenFd, .clearRunning] fds ledger := by
  obtain ⟨listenFd, rfl⟩ := holding.fields
  have opened : ∀ number, ledger.Open number ↔ number = listenFd := by
    intro number
    rw [holding.opened]
    exact List.mem_singleton
  simp [Accounted, HandleFds.get, HandleFds.set, HandleFds.none_, open_close, opened]

theorem accounted_no_wake (holding : Holding (.setUp .makeWake) fds ledger) :
    Accounted [.reset .wakeFd, .close .epfd, .close .listenFd, .reset .epfd, .reset .listenFd,
      .clearRunning] fds ledger := by
  obtain ⟨listenFd, epfd, rfl⟩ := holding.fields
  have apart : listenFd ≠ epfd := by
    have distinct := holding.distinct
    rintro rfl
    exact (List.nodup_cons.mp distinct).1 List.mem_cons_self
  have opened : ∀ number, ledger.Open number ↔ number = listenFd ∨ number = epfd := by
    intro number
    rw [holding.opened]
    exact List.mem_pair
  simp [Accounted, HandleFds.get, HandleFds.set, HandleFds.none_, open_close, opened, apart]
  tauto

/-- With three descriptors in the fields. -/
theorem three_opened (holding : Holding io fds ledger) (none_ : io.held = [])
    {listenFd epfd wakeFd : Nat} (shape : fds = ⟨some listenFd, some epfd, some wakeFd⟩) :
    (∀ number, ledger.Open number ↔ number = listenFd ∨ number = epfd ∨ number = wakeFd) ∧
      listenFd ≠ epfd ∧ listenFd ≠ wakeFd ∧ epfd ≠ wakeFd := by
  have numbers : io.held ++ fds.numbers = [listenFd, epfd, wakeFd] := by
    rw [none_, shape]
    rfl
  have distinct := holding.distinct
  rw [numbers] at distinct
  constructor
  · intro number
    rw [holding.opened, numbers]
    simp
  · simpa [and_assoc] using distinct

theorem accounted_not_added (holding : Holding io fds ledger) (none_ : io.held = [])
    {listenFd epfd wakeFd : Nat} (shape : fds = ⟨some listenFd, some epfd, some wakeFd⟩) :
    Accounted [.close .wakeFd, .close .epfd, .close .listenFd, .reset .wakeFd, .reset .epfd,
      .reset .listenFd, .clearRunning] fds ledger := by
  obtain ⟨opened, socketEpoll, socketWake, epollWake⟩ := three_opened holding none_ shape
  subst shape
  simp only [Accounted, HandleFds.get, HandleFds.set, HandleFds.none_, open_close, opened]
  simp [socketEpoll, socketWake, epollWake]
  tauto

theorem accounted_leaving (holding : Holding io fds ledger) (none_ : io.held = [])
    {listenFd epfd wakeFd : Nat} (shape : fds = ⟨some listenFd, some epfd, some wakeFd⟩) :
    Accounted [.leave .epfd, .leave .listenFd, .leave .wakeFd] fds ledger := by
  obtain ⟨opened, socketEpoll, socketWake, epollWake⟩ := three_opened holding none_ shape
  subst shape
  simp only [Accounted, HandleFds.get, HandleFds.set, HandleFds.none_, open_close, opened]
  simp [socketEpoll, socketWake, epollWake, Ne.symm socketWake, Ne.symm epollWake]
  tauto

end Descriptors

/-! ## One step of the way out -/

section TearingDown

variable {fds : HandleFds} {ledger : Ledger} {rest : List TearDown}

theorem kept_dropped {number : Nat} (kept : FdsKept (.tearDown (.drop number :: rest)) fds ledger) :
    FdsKept (.tearDown rest) fds (ledger.close number) := by
  obtain ⟨opened, accounted⟩ : ledger.Open number ∧ Accounted rest fds (ledger.close number) :=
    kept.placed
  refine ⟨sound_close kept.sound opened, ?_, accounted⟩
  intro other still
  obtain ⟨apart, before⟩ := (open_close ledger number other).mp still
  rcases kept.owned other before with dropped | mine
  · exact absurd (List.mem_singleton.mp dropped) apart
  · exact .inr mine

theorem kept_field_closed {field : HandleField}
    (kept : FdsKept (.tearDown (.close field :: rest)) fds ledger) :
    ∃ number, fds.get field = some number ∧
      FdsKept (.tearDown rest) fds (ledger.close number) := by
  obtain ⟨number, found, opened, accounted⟩ : ∃ number, fds.get field = some number ∧
      ledger.Open number ∧ Accounted rest fds (ledger.close number) := kept.placed
  refine ⟨number, found, sound_close kept.sound opened, ?_, accounted⟩
  intro other still
  rcases kept.owned other ((open_close ledger number other).mp still).2 with dropped | mine
  · cases dropped
  · exact .inr mine

theorem kept_field_reset {field : HandleField}
    (kept : FdsKept (.tearDown (.reset field :: rest)) fds ledger) :
    FdsKept (.tearDown rest) (fds.set none field) ledger := by
  obtain ⟨closed, accounted⟩ : (∀ number, fds.get field = some number → ¬ ledger.Open number) ∧
      Accounted rest (fds.set none field) ledger := kept.placed
  refine ⟨kept.sound, ?_, accounted⟩
  intro other opened
  rcases kept.owned other opened with dropped | mine
  · cases dropped
  · obtain ⟨itsField, found⟩ := mem_numbers.mp mine
    have apart : itsField ≠ field := by
      rintro rfl
      exact closed other found opened
    exact .inr (mem_numbers.mpr ⟨itsField, (get_set_other fds none apart).trans found⟩)

theorem kept_field_left {field : HandleField}
    (kept : FdsKept (.tearDown (.leave field :: rest)) fds ledger) :
    fds.get field ≠ none ∧
      FdsKept (.tearDown (.close field :: .reset field :: rest)) fds ledger := by
  obtain ⟨number, found, opened, accounted⟩ : ∃ number, fds.get field = some number ∧
      ledger.Open number ∧ Accounted rest (fds.set none field) (ledger.close number) :=
    kept.placed
  refine ⟨found ▸ Option.some_ne_none number, kept.sound, ?_, number, found, opened, ?_, accounted⟩
  · intro other still
    rcases kept.owned other still with dropped | mine
    · cases dropped
    · exact .inr mine
  · intro its same
    rw [found] at same
    cases same
    rw [open_close]
    exact fun still => still.1 rfl

theorem kept_cleared
    (kept : FdsKept (.tearDown (.clearRunning :: rest)) fds ledger) :
    FdsKept (.tearDown rest) fds ledger := by
  refine ⟨kept.sound, ?_, kept.placed⟩
  intro other opened
  rcases kept.owned other opened with dropped | mine
  · cases dropped
  · exact .inr mine

end TearingDown

section Sessions

variable {kind : ServerKind} {session next : HandleSession}

/-- The eventfd has been stored, or the thread is on its way out. -/
def SessionPoint.past : SessionPoint → Bool
  | .setUp .addSocket => true
  | .setUp .addWake => true
  | .loopTest => true
  | .wait => true
  | .dispatch _ => true
  | .tearDown _ => true
  | _ => false

namespace HandleSession

def FdsKept (session : HandleSession) : Prop :=
  Net.FdsKept session.io session.fds session.ledger

/-- What `wake_fd` names, or is about to name, is an eventfd if it is open. -/
def WakeNamed (session : HandleSession) : Prop :=
  ∀ number serial, session.fds.wakeFd = some number ∨ session.io = .store .wakeFd number →
    session.ledger.table number = some serial → serial ∈ session.wakes

end HandleSession

/-- A step of the I/O thread. It leaves the calls alone, and once `wake_fd` has been stored
descriptors are only closed, on the way out. -/
structure IoKept (session next : HandleSession) : Prop where
  fds : next.FdsKept
  joinable : next.joinable = session.joinable
  call : next.call = session.call
  writes : next.writes = session.writes
  named : session.WakeNamed → next.WakeNamed
  more : ∀ serial ∈ session.wakes, serial ∈ next.wakes
  ending : session.io.ending = true → next.io.ending = true
  past : session.io.past = true → next.io.past = true ∧ next.wakes = session.wakes ∧
    ∀ number, next.ledger.table number = session.ledger.table number ∨
      next.ledger.table number = none ∧ next.io.ending = true

/-- A step that touches no descriptor. -/
theorem io_kept_quiet {io : SessionPoint} (running : Bool)
    (fds : FdsKept io session.fds session.ledger)
    (ending : session.io.ending = true → io.ending = true)
    (past : session.io.past = true → io.past = true)
    (stored : ∀ number, io ≠ .store .wakeFd number) :
    IoKept session { session with running := running, io := io } := by
  refine ⟨fds, rfl, rfl, rfl, ?_, fun _ => id, ending,
    fun before => ⟨past before, rfl, fun _ => .inl rfl⟩⟩
  intro named number serial its found
  rcases its with its | its
  · exact named number serial (.inl its) found
  · exact absurd its (stored number)

/-- A descriptor is closed on the way out. -/
theorem io_kept_closed {later : List TearDown} {number : Nat}
    (fds : FdsKept (.tearDown later) session.fds (session.ledger.close number)) :
    IoKept session
      { session with ledger := session.ledger.close number, io := .tearDown later } := by
  have table : ∀ other, (session.ledger.close number).table other = session.ledger.table other ∨
      (session.ledger.close number).table other = none := by
    intro other
    by_cases same : other = number
    · subst same
      exact .inr (Function.update_self _ _ _)
    · exact .inl (Function.update_of_ne same _ _)
  refine ⟨fds, rfl, rfl, rfl, ?_, fun _ => id, fun _ => rfl,
    fun _ => ⟨rfl, rfl, fun other => ?_⟩⟩
  · intro named other serial its found
    rcases its with its | its
    · rcases table other with same | gone
      · exact named other serial (.inl its) (same.symm.trans found)
      · exact absurd (gone.symm.trans found) nofun
    · cases its
  · exact (table other).imp_right fun gone => ⟨gone, rfl⟩

theorem io_kept_tear_down (kept : session.FdsKept) {rest : List TearDown}
    (at_ : session.io = .tearDown rest) (taken : session.tearDownStep rest = some next) :
    IoKept session next := by
  unfold HandleSession.FdsKept at kept
  rw [at_] at kept
  cases rest with
  | nil => cases taken
  | cons action rest =>
      cases action with
      | drop number =>
          cases taken
          exact io_kept_closed (kept_dropped kept)
      | close field =>
          cases taken
          obtain ⟨number, found, closed⟩ := kept_field_closed kept
          have its : session.closeField field = session.ledger.close number := by
            rw [HandleSession.closeField, found]
          rw [its]
          exact io_kept_closed closed
      | reset field =>
          cases taken
          refine ⟨kept_field_reset kept, rfl, rfl, rfl, ?_, fun _ => id, fun _ => rfl,
            fun _ => ⟨rfl, rfl, fun _ => .inl rfl⟩⟩
          intro named number serial its found
          rcases its with its | its
          · refine named number serial (.inl ?_) found
            cases field with
            | listenFd => exact its
            | epfd => exact its
            | wakeFd => cases its
          · cases its
      | leave field =>
          cases taken
          obtain ⟨set, left_⟩ := kept_field_left kept
          rw [if_neg set]
          exact io_kept_quiet session.running left_ (fun _ => rfl) (fun _ => rfl) nofun
      | clearRunning =>
          cases taken
          exact io_kept_quiet false (kept_cleared kept) (fun _ => rfl) (fun _ => rfl) nofun

/-- A call returned a number while `wake_fd` was `-1`. -/
theorem io_kept_acquired (going : session.io.ending = false)
    (early : session.io.past = false) (unset : session.fds.wakeFd = none)
    {wakes : List Nat} {number : Nat} {io : SessionPoint}
    (fds : FdsKept io session.fds (session.ledger.acquire number))
    (new : ∀ other, io = .store .wakeFd other →
      other = number ∧ session.ledger.nextSerial ∈ wakes)
    (more : ∀ serial ∈ session.wakes, serial ∈ wakes) :
    IoKept session { session with
      ledger := session.ledger.acquire number, io := io, wakes := wakes } := by
  refine ⟨fds, rfl, rfl, rfl, ?_, more, ?_, ?_⟩
  · intro _ other serial its found
    rcases its with its | its
    · exact absurd (unset.symm.trans its) nofun
    · obtain ⟨rfl, member⟩ := new other its
      have newest : (session.ledger.acquire other).table other = some session.ledger.nextSerial :=
        Function.update_self _ _ _
      rw [← Option.some.inj (newest.symm.trans found)]
      exact member
  · intro ending
    exact absurd (going.symm.trans ending) nofun
  · intro past
    exact absurd (early.symm.trans past) nofun

/-- The three calls that return a descriptor. -/
theorem io_kept_obtained (kept : session.FdsKept) {call : SetUpCall}
    (at_ : session.io = .setUp call) (early : session.io.past = false) {wakes : List Nat}
    {field : HandleField} {number : Nat} (free : session.ledger.table number = none)
    (fields : ∀ fds, (SessionPoint.setUp call).Fields fds →
      (SessionPoint.store field number).Fields fds)
    (new : field = .wakeFd → session.ledger.nextSerial ∈ wakes)
    (more : ∀ serial ∈ session.wakes, serial ∈ wakes) :
    IoKept session { session with
      ledger := session.ledger.acquire number
      io := .store field number
      wakes := wakes } := by
  have going : session.io.ending = false := by
    rw [at_]
    rfl
  have none_ : session.io.held = [] := by
    rw [at_]
    rfl
  have stored : (SessionPoint.store field number).Fields session.fds := by
    apply fields
    rw [← at_]
    exact (holding_of_kept kept going).fields
  have unset : session.fds.wakeFd = none := by
    cases field with
    | listenFd => rw [show session.fds = .none_ from stored]; rfl
    | epfd =>
        obtain ⟨listenFd, shape⟩ := stored
        rw [shape]
    | wakeFd =>
        obtain ⟨listenFd, epfd, shape⟩ := stored
        rw [shape]
  refine io_kept_acquired going early unset
    (kept_obtained kept going none_ free fun _ => stored) ?_ more
  intro other same
  cases same
  exact ⟨rfl, new rfl⟩

/-- A socket that never reaches the handle. -/
theorem io_kept_late (kept : session.FdsKept) (at_ : session.io = .setUp .makeSocket)
    {number : Nat} (free : session.ledger.table number = none) :
    IoKept session { session with
      ledger := session.ledger.acquire number
      io := .tearDown [.drop number, .reset .listenFd, .clearRunning] } := by
  unfold HandleSession.FdsKept at kept
  rw [at_] at kept
  have holding := holding_of_kept kept rfl
  have none_ : session.fds = .none_ := holding.fields
  have opened : ∀ other, (session.ledger.acquire number).Open other ↔ other = number := by
    intro other
    rw [open_acquire, holding.opened, none_]
    exact or_iff_left List.not_mem_nil
  refine io_kept_acquired (by rw [at_]; rfl) (by rw [at_]; rfl) (by rw [none_]; rfl)
    ⟨sound_acquire kept.sound free, ?_, ?_⟩ nofun fun _ => id
  · intro other itsOpen
    exact .inl (List.mem_singleton.mpr ((opened other).mp itsOpen))
  · show Accounted [.drop number, .reset .listenFd, .clearRunning] session.fds
      (session.ledger.acquire number)
    rw [none_]
    simp [Accounted, HandleFds.get, HandleFds.set, HandleFds.none_, open_close, opened]

/-- A call of the set-up fails. -/
theorem io_kept_failed (kept : session.FdsKept) {call : SetUpCall}
    (at_ : session.io = .setUp call) {rest : List TearDown}
    (accounted : Holding (.setUp call) session.fds session.ledger →
      Accounted rest session.fds session.ledger) :
    IoKept session { session with io := .tearDown rest } := by
  have going : session.io.ending = false := by
    rw [at_]
    rfl
  have none_ : session.io.held = [] := by
    rw [at_]
    rfl
  refine io_kept_quiet session.running (kept_way_out kept going none_ ?_) (fun _ => rfl)
    (fun _ => rfl) nofun
  rw [at_]
  exact accounted

theorem io_kept_set_up (kept : session.FdsKept) {call : SetUpCall}
    (at_ : session.io = .setUp call) {reply : SetUpReply}
    (taken : session.setUpStep call reply = some next) : IoKept session next := by
  -- the two `epoll_ctl` calls: the thread goes on, or everything is closed
  have added : ∀ {after : SessionPoint}, after.ending = false → after.held = [] →
      after.past = true → (∀ number, after ≠ .store .wakeFd number) →
      ((SessionPoint.setUp call).Fields session.fds → after.Fields session.fds) →
      IoKept session { session with io := after } := by
    intro after further still past stored fields
    have going : session.io.ending = false := by
      rw [at_]
      rfl
    refine io_kept_quiet session.running (kept_goes_on kept going further ?_ still ?_)
      (fun ending => absurd (going.symm.trans ending) nofun) (fun _ => past) stored
    · rw [at_]
      rfl
    · rw [at_]
      exact fields
  cases call with
  | makeSocket =>
      cases reply with
      | obtained number =>
          simp only [HandleSession.setUpStep, HandleSession.acquired] at taken
          split_ifs at taken with free
          cases taken
          exact io_kept_obtained kept at_ (by rw [at_]; rfl) free (fun _ => id) nofun fun _ => id
      | added => cases taken
      | failed =>
          cases taken
          exact io_kept_failed kept at_ accounted_no_socket
      | failedLate number =>
          simp only [HandleSession.setUpStep, HandleSession.acquired] at taken
          split_ifs at taken with free
          cases taken
          exact io_kept_late kept at_ free
  | epollCreate =>
      cases reply with
      | obtained number =>
          simp only [HandleSession.setUpStep, HandleSession.acquired] at taken
          split_ifs at taken with free
          cases taken
          exact io_kept_obtained kept at_ (by rw [at_]; rfl) free (fun _ => id) nofun fun _ => id
      | added => cases taken
      | failed =>
          cases taken
          exact io_kept_failed kept at_ accounted_no_epoll
      | failedLate number => cases taken
  | makeWake =>
      cases reply with
      | obtained number =>
          simp only [HandleSession.setUpStep, HandleSession.acquired] at taken
          split_ifs at taken with free
          cases taken
          exact io_kept_obtained kept at_ (by rw [at_]; rfl) free (fun _ => id)
            (fun _ => List.mem_append_right _ List.mem_cons_self)
            fun _ => List.mem_append_left _
      | added => cases taken
      | failed =>
          cases taken
          exact io_kept_failed kept at_ accounted_no_wake
      | failedLate number => cases taken
  | addSocket =>
      cases reply with
      | obtained number => cases taken
      | added =>
          cases taken
          exact added rfl rfl rfl nofun id
      | failed =>
          cases taken
          refine io_kept_failed kept at_ fun holding => ?_
          obtain ⟨listenFd, epfd, wakeFd, shape⟩ := holding.fields
          exact accounted_not_added holding rfl shape
      | failedLate number => cases taken
  | addWake =>
      cases reply with
      | obtained number => cases taken
      | added =>
          cases taken
          exact added rfl rfl rfl nofun id
      | failed =>
          cases taken
          refine io_kept_failed kept at_ fun holding => ?_
          obtain ⟨listenFd, epfd, wakeFd, shape⟩ := holding.fields
          exact accounted_not_added holding rfl shape
      | failedLate number => cases taken

theorem io_kept_stored (kept : session.FdsKept) {field : HandleField} {number : Nat}
    (at_ : session.io = .store field number) :
    IoKept session { session with
      fds := session.fds.set (some number) field, io := .behindStore field } := by
  unfold HandleSession.FdsKept at kept
  rw [at_] at kept
  refine ⟨kept_stored kept, rfl, rfl, rfl, ?_, fun _ => id, ?_, ?_⟩
  · intro named other serial its found
    refine named other serial ?_ found
    cases field with
    | listenFd => exact .inl (its.resolve_right nofun)
    | epfd => exact .inl (its.resolve_right nofun)
    | wakeFd =>
        have same : some number = some other := its.resolve_right nofun
        rw [← Option.some.inj same]
        exact .inr at_
  · rw [at_]
    exact nofun
  · rw [at_]
    exact nofun

/-- The points of the loop. -/
def SessionPoint.Looping : SessionPoint → Prop
  | .loopTest => True
  | .wait => True
  | .dispatch _ => True
  | _ => False

theorem looping_facts {io : SessionPoint} (looping : io.Looping) :
    io.ending = false ∧ io.held = [] ∧ io.past = true ∧
      (∀ number, io ≠ .store .wakeFd number) ∧
      ∀ fds, io.Fields fds = ∃ listenFd epfd wakeFd,
        fds = ⟨some listenFd, some epfd, some wakeFd⟩ := by
  cases io with
  | loopTest => exact ⟨rfl, rfl, rfl, nofun, fun _ => rfl⟩
  | wait => exact ⟨rfl, rfl, rfl, nofun, fun _ => rfl⟩
  | dispatch events => exact ⟨rfl, rfl, rfl, nofun, fun _ => rfl⟩
  | setUp call => cases looping
  | store field number => cases looping
  | tearDown rest => cases looping

/-- From a point of the loop to another, or behind it. -/
theorem io_kept_loop (kept : session.FdsKept) (looping : session.io.Looping)
    {after : SessionPoint} (running : Bool) (moved : after.Looping ∨ after = .leaving) :
    IoKept session { session with running := running, io := after } := by
  obtain ⟨going, none_, -, -, fields⟩ := looping_facts looping
  rcases moved with further | rfl
  · obtain ⟨goesOn, still, past, stored, later⟩ := looping_facts further
    refine io_kept_quiet running (kept_goes_on kept going goesOn none_ still ?_)
      (fun ending => absurd (going.symm.trans ending) nofun) (fun _ => past) stored
    rw [fields, later]
    exact id
  · refine io_kept_quiet running (kept_way_out kept going none_ fun holding => ?_)
      (fun _ => rfl) (fun _ => rfl) nofun
    have shape := holding.fields
    rw [fields] at shape
    obtain ⟨listenFd, epfd, wakeFd, shape⟩ := shape
    exact accounted_leaving holding none_ shape

theorem dispatch_step_eq (kind : ServerKind) (session : HandleSession) (events : List LoopEvent) :
    ∃ running after, SessionPoint.Looping after ∧
      session.dispatchStep kind events = { session with running := running, io := after } := by
  cases events with
  | nil => exact ⟨session.running, .loopTest, trivial, rfl⟩
  | cons event rest =>
      cases event with
      | wake => exact ⟨false, .dispatch rest, trivial, rfl⟩
      | ready => exact ⟨session.running, .dispatch rest, trivial, rfl⟩
      | error =>
          cases kind with
          | udp => exact ⟨false, .loopTest, trivial, rfl⟩
          | tcp => exact ⟨session.running, .dispatch rest, trivial, rfl⟩

/-- The steps of the I/O thread. -/
def SessionLabel.OfIo : SessionLabel → Prop
  | .start => False
  | .stop => False
  | .control => False
  | _ => True

theorem io_kept_step (kept : session.FdsKept) {label : SessionLabel} (ofIo : label.OfIo)
    (taken : session.step kind label = some next) : IoKept session next := by
  cases label with
  | start => cases ofIo
  | stop => cases ofIo
  | control => cases ofIo
  | setUp reply =>
      simp only [HandleSession.step] at taken
      split at taken
      · next call at_ => exact io_kept_set_up kept at_ taken
      · cases taken
  | store =>
      simp only [HandleSession.step] at taken
      split at taken
      · next field number at_ =>
          cases taken
          exact io_kept_stored kept at_
      · cases taken
  | loopTest =>
      simp only [HandleSession.step] at taken
      split at taken
      · next at_ =>
          cases taken
          refine io_kept_loop kept (by rw [at_]; trivial) session.running ?_
          cases session.running with
          | true => exact .inl trivial
          | false => exact .inr rfl
      · cases taken
  | wait reply =>
      simp only [HandleSession.step] at taken
      split at taken
      · next at_ =>
          cases taken
          have looping : session.io.Looping := by
            rw [at_]
            trivial
          cases reply with
          | failed => exact io_kept_loop kept looping session.running (.inr rfl)
          | interrupted => exact io_kept_loop kept looping session.running (.inl trivial)
          | timeout => exact io_kept_loop kept looping session.running (.inl trivial)
          | events batch => exact io_kept_loop kept looping session.running (.inl trivial)
      · cases taken
  | dispatch =>
      simp only [HandleSession.step] at taken
      split at taken
      · next events at_ =>
          cases taken
          obtain ⟨running, after, further, same⟩ := dispatch_step_eq kind session events
          rw [same]
          exact io_kept_loop kept (by rw [at_]; trivial) running (.inl further)
      · cases taken
  | tearDown =>
      simp only [HandleSession.step] at taken
      split at taken
      · next rest at_ => exact io_kept_tear_down kept at_ taken
      · cases taken

end Sessions

/-! ## The calls -/

namespace HandleSession

/-- A write to this number meets an eventfd of the handle, or nothing, and then the I/O
thread is on its way out. -/
def Hits (session : HandleSession) (number : Option Nat) : Prop :=
  (∃ serial ∈ session.wakes, number.bind session.ledger.table = some serial) ∨
    number.bind session.ledger.table = none ∧ session.io.ending = true

def Waking (session : HandleSession) : Prop :=
  match session.call with
  | .wakeLoad => session.io.past = true
  | .wakeWrite number => session.io.past = true ∧ session.Hits number
  | _ => True

end HandleSession

def WakeWrite.Allowed (write : WakeWrite) (wakes : List Nat) : Prop :=
  (∃ serial ∈ wakes, write.hit = some serial) ∨ write.hit = none ∧ write.ending = true

structure SessionKept (session : HandleSession) : Prop where
  fds : session.FdsKept
  alive : session.io ≠ .finished → session.joinable = true
  named : session.WakeNamed
  waking : session.Waking
  written : ∀ write ∈ session.writes, write.Allowed session.wakes

section Calls

variable {kind : ServerKind} {session next : HandleSession}

theorem session_kept_initial : SessionKept .initial := by
  have closed : ∀ number, ¬ HandleSession.initial.ledger.Open number := by
    intro number opened
    exact opened rfl
  refine ⟨⟨?_, ?_, rfl, closed⟩, ?_, ?_, trivial, List.forall_mem_nil _⟩
  · exact @sound_renew ⟨fun _ => none, 0, [], []⟩ fun _ => rfl
  · intro number opened
    exact absurd opened (closed number)
  · intro alive
    exact absurd rfl alive
  · intro number serial _ found
    cases found

theorem hits_io (moved : IoKept session next) (past : session.io.past = true)
    {number : Option Nat} (hits : session.Hits number) : next.Hits number := by
  obtain ⟨-, wakes, table⟩ := moved.past past
  cases number with
  | none =>
      rcases hits with ⟨serial, -, found⟩ | ⟨-, ending⟩
      · cases found
      · exact .inr ⟨rfl, moved.ending ending⟩
  | some number =>
      rcases hits with ⟨serial, member, found⟩ | ⟨closed, ending⟩
      · rcases table number with same | ⟨gone, ending⟩
        · exact .inl ⟨serial, moved.more serial member, same.trans found⟩
        · exact .inr ⟨gone, ending⟩
      · rcases table number with same | ⟨gone, -⟩
        · exact .inr ⟨same.trans closed, moved.ending ending⟩
        · exact .inr ⟨gone, moved.ending ending⟩

theorem session_kept_io (kept : SessionKept session) {label : SessionLabel} (ofIo : label.OfIo)
    (alive : session.io ≠ .finished) (taken : session.step kind label = some next) :
    SessionKept next := by
  have moved := io_kept_step kept.fds ofIo taken
  refine ⟨moved.fds, ?_, moved.named kept.named, ?_, ?_⟩
  · intro _
    rw [moved.joinable]
    exact kept.alive alive
  · have waking := kept.waking
    unfold HandleSession.Waking at waking ⊢
    rw [moved.call]
    split at waking
    · exact (moved.past waking).1
    · exact ⟨(moved.past waking.1).1, hits_io moved waking.1 waking.2⟩
    · trivial
  · intro write member
    rw [moved.writes] at member
    rcases kept.written write member with ⟨serial, its, hit⟩ | lost
    · exact .inl ⟨serial, moved.more serial its, hit⟩
    · exact .inr lost

/-- Between the store of `wake_fd` and the way out. -/
theorem fields_of_past {io : SessionPoint} {fds : HandleFds} (past : io.past = true)
    (going : io.ending = false) (fields : io.Fields fds) :
    ∃ listenFd epfd wakeFd, fds = ⟨some listenFd, some epfd, some wakeFd⟩ := by
  cases io with
  | setUp call =>
      cases call with
      | makeSocket => cases past
      | epollCreate => cases past
      | makeWake => cases past
      | addSocket => exact fields
      | addWake => exact fields
  | store field number => cases past
  | loopTest => exact fields
  | wait => exact fields
  | dispatch events => exact fields
  | tearDown rest => cases going

/-- Before the store of `wake_fd`. -/
theorem fields_of_early {io : SessionPoint} {fds : HandleFds} (early : io.past = false)
    (fields : io.Fields fds) : fds.wakeFd = none := by
  cases io with
  | setUp call =>
      cases call with
      | makeSocket => rw [show fds = .none_ from fields]; rfl
      | epollCreate =>
          obtain ⟨listenFd, shape⟩ := fields
          rw [shape]
      | makeWake =>
          obtain ⟨listenFd, epfd, shape⟩ := fields
          rw [shape]
      | addSocket => cases early
      | addWake => cases early
  | store field number =>
      cases field with
      | listenFd => rw [show fds = .none_ from fields]; rfl
      | epfd =>
          obtain ⟨listenFd, shape⟩ := fields
          rw [shape]
      | wakeFd =>
          obtain ⟨listenFd, epfd, shape⟩ := fields
          rw [shape]
  | loopTest => cases early
  | wait => cases early
  | dispatch events => cases early
  | tearDown rest => cases early

theorem past_of_ending {io : SessionPoint} (ending : io.ending = true) : io.past = true := by
  cases io with
  | tearDown rest => rfl
  | _ => cases ending

/-- The number that `wake_fd` names. -/
theorem hits_named (kept : SessionKept session) (past : session.io.past = true) :
    session.Hits session.fds.wakeFd := by
  cases found : session.fds.wakeFd.bind session.ledger.table with
  | some serial =>
      obtain ⟨number, its, table⟩ := Option.bind_eq_some_iff.mp found
      exact .inl ⟨serial, kept.named number serial (.inl its) table, found⟩
  | none =>
      refine .inr ⟨found, ?_⟩
      by_contra notEnding
      have going := eq_false_of_ne_true notEnding
      have holding := holding_of_kept kept.fds going
      obtain ⟨listenFd, epfd, wakeFd, shape⟩ := fields_of_past past going holding.fields
      have opened : session.ledger.Open wakeFd := by
        rw [holding.opened, shape]
        exact List.mem_append_right _ (List.mem_cons_of_mem _ (List.mem_cons_of_mem _
          List.mem_cons_self))
      rw [shape] at found
      exact opened found

/-- `wake_fd` is set only once it has been stored. -/
theorem past_of_set (kept : SessionKept session) (set : session.fds.wakeFd ≠ none) :
    session.io.past = true := by
  by_contra notPast
  have early := eq_false_of_ne_true notPast
  have going : session.io.ending = false := by
    by_contra ending
    exact notPast (past_of_ending (eq_true_of_ne_false ending))
  exact set (fields_of_early early (holding_of_kept kept.fds going).fields)

/-- A call goes on; the descriptors and the I/O thread stay. -/
theorem session_kept_call (kept : SessionKept session) (running : Bool) (call : SessionCall)
    (waking : HandleSession.Waking { session with running := running, call := call }) :
    SessionKept { session with running := running, call := call } :=
  ⟨kept.fds, kept.alive, kept.named, waking, kept.written⟩

/-- `start_server` gives the handle a thread, the last one having ended. -/
theorem session_kept_assign (kept : SessionKept session) (left_ : ¬ session.joinable = true) :
    SessionKept { session with joinable := true, io := .setUp .makeSocket, call := .idle } := by
  have gone : session.io = .finished := by
    by_contra alive
    exact left_ (kept.alive alive)
  have placed := kept.fds.placed
  rw [gone] at placed
  obtain ⟨none_, closed⟩ : session.fds = .none_ ∧
      ∀ number, ¬ session.ledger.Open number := placed
  refine ⟨kept_of_holding kept.fds.sound rfl ⟨none_, ?_, ?_⟩, fun _ => rfl, ?_, trivial,
    kept.written⟩
  · intro number
    rw [none_]
    exact iff_of_false (closed number) List.not_mem_nil
  · rw [none_]
    exact List.nodup_nil
  · intro number serial its found
    have opened : session.ledger.Open number := by
      rw [Ledger.Open, show session.ledger.table number = some serial from found]
      exact Option.some_ne_none serial
    exact absurd opened (closed number)

theorem session_kept_write (kept : SessionKept session) {number : Option Nat}
    (at_ : session.call = .wakeWrite number) :
    SessionKept { session with
      writes := session.writes ++
        [⟨number, number.bind session.ledger.table, session.io.ending⟩]
      call := .join } := by
  have waking := kept.waking
  rw [HandleSession.Waking, at_] at waking
  refine ⟨kept.fds, kept.alive, kept.named, trivial, ?_⟩
  intro write member
  rcases List.mem_append.mp member with before | now
  · exact kept.written write before
  · rw [List.mem_singleton.mp now]
    exact waking.2

theorem session_kept_control (kept : SessionKept session)
    (taken : session.controlStep = some next) : SessionKept next := by
  unfold HandleSession.controlStep at taken
  split at taken
  · cases taken
  · cases taken
    refine session_kept_call kept session.running _ ?_
    cases session.running <;> trivial
  · cases taken
    exact session_kept_call kept true .assign trivial
  · split_ifs at taken with joinable
    cases taken
    exact session_kept_assign kept joinable
  · cases taken
    refine session_kept_call kept false _ ?_
    cases session.running <;> trivial
  · cases taken
    by_cases unset : session.fds.wakeFd = none
    · rw [if_pos unset]
      exact session_kept_call kept session.running .join trivial
    · rw [if_neg unset]
      have past := past_of_set kept unset
      exact session_kept_call kept session.running .wakeLoad past
  · next at_ =>
      cases taken
      have past : session.io.past = true := by
        have waking := kept.waking
        rw [HandleSession.Waking, at_] at waking
        exact waking
      have hits := hits_named kept past
      exact session_kept_call kept session.running (.wakeWrite session.fds.wakeFd) ⟨past, hits⟩
  · next number at_ =>
      cases taken
      exact session_kept_write kept at_
  · split_ifs at taken with joinable gone
    · cases taken
      exact ⟨kept.fds, fun alive => absurd gone alive, kept.named, trivial, kept.written⟩
    · cases taken
      exact session_kept_call kept session.running .stopped trivial
  · cases taken

theorem session_kept_step (kept : SessionKept session) {label : SessionLabel}
    (taken : session.step kind label = some next) : SessionKept next := by
  have io : label.OfIo → SessionKept next := by
    intro ofIo
    refine session_kept_io kept ofIo (fun gone => ?_) taken
    cases label with
    | start => cases ofIo
    | stop => cases ofIo
    | control => cases ofIo
    | _ =>
        simp only [HandleSession.step, gone] at taken
        cases taken
  cases label with
  | start =>
      simp only [HandleSession.step] at taken
      split_ifs at taken
      cases taken
      exact session_kept_call kept session.running .startTest trivial
  | stop =>
      simp only [HandleSession.step] at taken
      split_ifs at taken
      cases taken
      exact session_kept_call kept session.running .exchange trivial
  | control => exact session_kept_control kept taken
  | _ => exact io trivial

end Calls

/-- An open descriptor is in a field, but for the number that the I/O thread has just got or
is about to drop; the fields name open descriptors until that thread is on its way out. No
close goes astray and none is repeated. `stop_server` writes to an eventfd of the handle, or,
only when the I/O thread is on its way out, to a number that is closed by then. When that
thread has ended, the fields are `-1` and everything it obtained, in this session and in
those before, was closed. -/
structure DescriptorsKept (session : HandleSession) : Prop where
  owned : ∀ number, session.ledger.Open number →
    number ∈ session.io.held ∨ number ∈ session.fds.numbers
  opened : session.io.ending = false → ∀ number ∈ session.fds.numbers,
    session.ledger.Open number
  hit : none ∉ session.ledger.closes
  once : ∀ serial ∈ session.ledger.obtained, session.ledger.closes.count (some serial) ≤ 1
  written : ∀ write ∈ session.writes, write.Allowed session.wakes
  ended : session.io = .finished → session.fds = .none_ ∧ session.ledger.Settled

theorem sessions_close_descriptors {kind : ServerKind} {session : HandleSession}
    (reached : Reaches (handleSessions kind) session) : DescriptorsKept session := by
  have kept : SessionKept session := by
    refine invariant_of_step ?_ ?_ reached
    · intro start same
      rw [show start = .initial from same]
      exact session_kept_initial
    · intro state label next _ before _ taken
      exact session_kept_step before taken
  refine ⟨kept.fds.owned, ?_, kept.fds.sound.hit, ?_, kept.written, ?_⟩
  · intro going number member
    rw [(holding_of_kept kept.fds going).opened]
    exact List.mem_append_right _ member
  · intro serial member
    by_cases still : ∃ number, session.ledger.table number = some serial
    · obtain ⟨number, found⟩ := still
      rw [kept.fds.sound.still found]
      exact Nat.zero_le 1
    · rw [kept.fds.sound.closed serial member fun number found => still ⟨number, found⟩]
  · intro finished
    have placed := kept.fds.placed
    rw [finished] at placed
    obtain ⟨none_, closed⟩ : session.fds = .none_ ∧
        ∀ number, ¬ session.ledger.Open number := placed
    exact ⟨none_, settled_of_sound kept.fds.sound fun number => not_open_iff.mp (closed number)⟩

/-- `start_server`, and the I/O thread reaches its loop with these numbers. -/
def setUpWith (listenFd epfd wakeFd : Nat) : List SessionLabel :=
  [.start, .control, .control, .control, .setUp (.obtained listenFd), .store,
    .setUp (.obtained epfd), .store, .setUp (.obtained wakeFd), .store, .setUp .added,
    .setUp .added]

/-- `stop_server` has read `wake_fd` when the loop times out, and writes when the eventfd is
closed and `wake_fd` not yet `-1`. -/
def writesTooLate : List SessionLabel :=
  setUpWith 3 4 5 ++ [SessionLabel.loopTest, .stop, .control, .control, .control, .wait .timeout,
    .loopTest] ++ List.replicate 8 SessionLabel.tearDown ++
    [SessionLabel.control, .tearDown, .control]

/-- The second session gets the same numbers the other way round and is woken; the third
cannot bind its socket. -/
def rebound : List SessionLabel :=
  writesTooLate ++ setUpWith 5 4 3 ++
    [SessionLabel.loopTest, .stop, .control, .control, .control, .control,
      .wait (.events [.wake]), .dispatch, .dispatch, .loopTest] ++
    List.replicate 9 SessionLabel.tearDown ++ [SessionLabel.control, .start, .control, .control,
      .control, .setUp (.failedLate 3)] ++ List.replicate 3 SessionLabel.tearDown

theorem rebound_socket_closed :
    ∃ session, Reaches (handleSessions .udp) session ∧
      session.ledger.obtained = [0, 1, 2, 3, 4, 5, 6] ∧
      session.writes = [⟨some 5, none, true⟩, ⟨some 3, some 5, false⟩] ∧
      session.ledger.Settled ∧ ∀ write ∈ session.writes, write.Allowed session.wakes := by
  obtain ⟨session, run, finished, obtained, writes⟩ :
      ∃ session, runLabels (handleSessions .udp) .initial rebound = some session ∧
        session.io = .finished ∧ session.ledger.obtained = [0, 1, 2, 3, 4, 5, 6] ∧
        session.writes = [⟨some 5, none, true⟩, ⟨some 3, some 5, false⟩] :=
    ⟨_, rfl, rfl, rfl, rfl⟩
  have reached := reaches_run (.start rfl) run
  have kept := sessions_close_descriptors reached
  exact ⟨session, reached, obtained, writes, (kept.ended finished).2, kept.written⟩

end MarketDataEngine.Net
