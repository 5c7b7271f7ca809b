import MarketDataEngine.EngineV3Loop

/-!
# Engine v3: how the program ends

`run` looks at its two stop flags between two bursts only, the flag of `request_stop` first. A
stop that comes just behind these looks is seen after one more burst, so that the number of steps
of `main` and of packets handled after it is bounded by the burst size. The program exits with
code 0 only after a stop.
-/

namespace MarketDataEngine.EngineV3

open MarketDataEngine.Protocol MarketDataEngine.Engine MarketDataEngine.TransitionSystem

set_option autoImplicit false

/-- `run` will find one of its flags set. -/
def LoopState.Stopping {dpdk : Dpdk} (state : LoopState dpdk) : Prop :=
  state.stopRequested = true ∨ state.stopSignal ≠ 0

/-- The points behind the loop of `run`. -/
def MainPoint.stopped {dpdk : Dpdk} : MainPoint dpdk → Bool
  | .closeSource => true
  | .exit code => code = 0
  | _ => false

/-- The handlers are those of signals that leave a mark, and `run` ends for a stop only. -/
structure StopKept {dpdk : Dpdk} (state : LoopState dpdk) : Prop where
  marks : ∀ sig ∈ state.installed, sig ≠ 0
  caused : state.point.stopped = true → state.Stopping

/-- A bound on the steps of `main` before its exit once a flag is set. Behind the test of the
signal flag a signal is seen a burst later. -/
def LoopState.work {dpdk : Dpdk} (program : Program) (state : LoopState dpdk) : Nat :=
  match state.point with
  | .exit _ => 0
  | .closeSource => 1
  | .stopTest => 3
  | .signalTest => if state.stopSignal = 0 then program.burst + 7 else 2
  | .poll => program.burst + 6
  | .process rest => rest.length + 5
  | .release => 4
  | .runOpen => 4
  | .runTest => 5
  | .openSource => 6
  | .attach => 7
  | .initEal => 8
  | .installSigterm => 9
  | .installSigint => 10
  | .setLogFile => 11

/-- The packets that may still be handled. -/
def LoopState.pending {dpdk : Dpdk} (program : Program) (state : LoopState dpdk) : Nat :=
  match state.point with
  | .signalTest => if state.stopSignal = 0 then program.burst else 0
  | .poll => program.burst
  | .process rest => rest.length
  | _ => 0

def LoopLabel.isMain : LoopLabel → Bool
  | .main _ => true
  | _ => false

section Steps

variable {dpdk : Dpdk} {program : Program} {state next : LoopState dpdk}

theorem stop_kept_initial (initial : state.Initial) : StopKept state := by
  constructor
  · rw [initial.installed]
    exact List.forall_mem_nil _
  · rw [initial.point]
    exact fun behind => absurd behind Bool.false_ne_true

/-- What a step of `main` does to the flags, and to what is left to do. -/
structure MainMoved {dpdk : Dpdk} (program : Program) (state next : LoopState dpdk) :
    Prop where
  requested : next.stopRequested = state.stopRequested
  signalled : next.stopSignal = state.stopSignal
  installed : ∀ sig ∈ next.installed, sig ∈ state.installed ∨ sig = kSigint ∨ sig = kSigterm
  behind : next.point.stopped = true → state.Stopping
  works : BurstsBounded dpdk → state.Stopping → next.work program < state.work program
  handles : BurstsBounded dpdk → state.Stopping →
    next.handled.length + next.pending program ≤ state.handled.length + state.pending program

/-- A step that handles no packet and changes no flag. -/
theorem moved_quietly {point : MainPoint dpdk} {after : LoopState dpdk} (at_ : state.point = point)
    (flags : after.stopRequested = state.stopRequested ∧ after.stopSignal = state.stopSignal)
    (installed : ∀ sig ∈ after.installed, sig ∈ state.installed ∨ sig = kSigint ∨ sig = kSigterm)
    (handled : after.handled = state.handled)
    (behind : after.point.stopped = true → state.Stopping)
    (works : BurstsBounded dpdk → state.Stopping →
      after.work program < (state.goto point).work program)
    (handles : BurstsBounded dpdk → state.Stopping →
      after.pending program ≤ (state.goto point).pending program) :
    MainMoved program state after := by
  have same : state.goto point = state := by
    rw [← at_]
    rfl
  rw [same] at works handles
  constructor
  · exact flags.1
  · exact flags.2
  · exact installed
  · exact behind
  · exact works
  · intro bounded stopping
    rw [handled]
    exact Nat.add_le_add_left (handles bounded stopping) _

/-- As above, and the step goes on to another point of the set-up. -/
theorem moved_goto {point after : MainPoint dpdk} (at_ : state.point = point)
    (behind : after.stopped = true → state.Stopping)
    (works : state.Stopping →
      (state.goto after).work program < (state.goto point).work program)
    (handles : state.Stopping →
      (state.goto after).pending program ≤ (state.goto point).pending program) :
    MainMoved program state (state.goto after) :=
  moved_quietly at_ ⟨rfl, rfl⟩ (fun _ known => .inl known) rfl behind (fun _ => works)
    fun _ => handles

theorem moved_install {point after : MainPoint dpdk} {sig : Int} (at_ : state.point = point)
    (ok : Bool) (known : sig = kSigint ∨ sig = kSigterm) (ahead : after.stopped = false)
    (works : (state.goto after).work program < (state.goto point).work program)
    (handles : (state.goto after).pending program ≤ (state.goto point).pending program)
    (left : 0 < (state.goto point).work program) :
    MainMoved program state (state.install sig ok after) := by
  unfold LoopState.install
  split_ifs
  · apply moved_quietly at_
    · exact ⟨rfl, rfl⟩
    · intro other member
      rcases List.mem_cons.mp member with rfl | before
      · exact .inr known
      · exact .inl before
    · rfl
    · intro behind
      exact absurd (behind.symm.trans ahead) Bool.noConfusion
    · exact fun _ _ => works
    · exact fun _ _ => handles
  · apply moved_goto at_
    · exact fun behind => absurd behind (by simp [MainPoint.stopped])
    · exact fun _ => left
    · exact fun _ => Nat.zero_le _

theorem moved_open {point after : MainPoint dpdk} (at_ : state.point = point)
    (ahead : after.stopped = false)
    (works : (state.goto after).work program < (state.goto point).work program)
    (handles : (state.goto after).pending program ≤ (state.goto point).pending program)
    (left : 0 < (state.goto point).work program) :
    MainMoved program state (state.openStep after) := by
  unfold LoopState.openStep
  cases outcome : state.source.openSource.2 with
  | true =>
      simp only [outcome, if_true]
      refine moved_quietly at_ ⟨rfl, rfl⟩ (fun _ known => .inl known) rfl ?_ ?_ ?_
      · intro behind
        exact absurd (behind.symm.trans ahead) Bool.noConfusion
      · exact fun _ _ => works
      · exact fun _ _ => handles
  | false =>
      simp only [outcome, Bool.false_eq_true, if_false]
      refine moved_quietly at_ ⟨rfl, rfl⟩ (fun _ known => .inl known) rfl ?_ ?_ ?_
      · exact fun behind => absurd behind (by simp [MainPoint.stopped])
      · exact fun _ _ => left
      · exact fun _ _ => Nat.zero_le _

/-- `init_eal` goes on, or ends the program. -/
theorem moved_eal (at_ : state.point = .initEal) : MainMoved program state state.initEal := by
  have goes : ∀ {library : dpdk.State} {point : MainPoint dpdk}, point.stopped = false →
      (state.goto point).work program < 8 → (state.goto point).pending program = 0 →
      MainMoved program state { state with
        source := { state.source with library := library }
        point := point } := by
    intro library point ahead works handles
    refine moved_quietly at_ ⟨rfl, rfl⟩ (fun _ known => .inl known) rfl ?_ ?_ ?_
    · exact fun behind => absurd (behind.symm.trans ahead) Bool.noConfusion
    · exact fun _ _ => works
    · exact fun _ _ => Nat.le_of_eq handles
  unfold LoopState.initEal
  simp only
  split_ifs
  · exact goes rfl (Nat.succ_pos 7) rfl
  · exact goes rfl (Nat.succ_pos 7) rfl
  · exact goes rfl (Nat.lt_succ_self 7) rfl

/-- `main` holds at most a burst. -/
def FewPackets {dpdk : Dpdk} (program : Program) (state : LoopState dpdk) : Prop :=
  state.packets.length ≤ program.burst

theorem poll_few (bounded : BurstsBounded dpdk) (source : DpdkRxSource dpdk) :
    (source.poll program.burst).2.length ≤ program.burst := by
  have received := bounded source.cfg.portId source.cfg.queueId (pollCount program.burst)
    source.library
  have asked : (pollCount program.burst).toNat ≤ program.burst := by
    unfold pollCount
    rw [UInt16.toNat_ofNat']
    refine (Nat.mod_le _ _).trans ?_
    split_ifs with below
    · exact Nat.le_refl _
    · exact Nat.not_lt.mp below
  have handles := congrArg List.length (poll_handles source program.burst)
  rw [List.length_map] at handles
  omega

theorem few_packets_main (bounded : BurstsBounded dpdk) (kept : LoopKept state)
    (few : FewPackets program state) {answer : MainAnswer}
    (taken : state.mainStep program answer = some next) : FewPackets program next := by
  unfold FewPackets at few ⊢
  cases main_moves_of_step kept.at_point taken with
  | quietly quiet _ =>
      rw [quiet.packets]
      exact few
  | opens _ same =>
      rw [same]
      exact few
  | polls _ same =>
      rw [same]
      exact poll_few bounded state.source
  | handles _ same =>
      rw [same]
      exact few
  | releases _ same =>
      rw [same]
      exact Nat.zero_le _
  | closes _ same =>
      rw [same]
      exact few

theorem moved_tick (kept : LoopKept state) (stop : StopKept state)
    (taken : state.mainStep program .tick = some next) : MainMoved program state next := by
  simp only [LoopState.mainStep] at taken
  split at taken
  · next at_ =>
      cases taken
      exact moved_eal at_
  · next at_ =>
      cases taken
      have known := kept.at_point
      rw [at_] at known
      obtain ⟨-, attached, -⟩ := known
      rw [attached, if_neg Bool.false_ne_true]
      refine moved_quietly at_ ⟨rfl, rfl⟩ (fun _ known => .inl known) rfl ?_ ?_ ?_
      · exact fun behind => absurd behind Bool.false_ne_true
      · exact fun _ _ => Nat.lt_succ_self 6
      · exact fun _ _ => Nat.zero_le _
  · next at_ =>
      cases taken
      exact moved_open at_ rfl (Nat.lt_succ_self 5) (Nat.zero_le _) (Nat.succ_pos 5)
  · next at_ =>
      cases taken
      have known := kept.at_point
      rw [at_] at known
      rw [known.2.1, if_pos rfl]
      apply moved_goto at_
      · exact fun behind => absurd behind Bool.false_ne_true
      · exact fun _ => Nat.lt_succ_self 4
      · exact fun _ => Nat.zero_le _
  · next at_ =>
      cases taken
      exact moved_open at_ rfl (Nat.lt_succ_self 3) (Nat.zero_le _) (Nat.succ_pos 3)
  · next at_ =>
      cases taken
      split_ifs with requested
      · apply moved_goto at_
        · exact fun _ => .inl requested
        · exact fun _ => Nat.lt_of_succ_lt (Nat.lt_succ_self 2)
        · exact fun _ => Nat.zero_le _
      · -- only the other flag can be set, and it is looked at next
        have signalled : state.Stopping → state.stopSignal ≠ 0 := by
          intro stopping
          exact stopping.resolve_left requested
        apply moved_goto at_
        · exact fun behind => absurd behind Bool.false_ne_true
        · intro stopping
          simp [LoopState.work, LoopState.goto, signalled stopping]
        · intro stopping
          simp [LoopState.pending, LoopState.goto, signalled stopping]
  · next at_ =>
      cases taken
      split_ifs with unsignalled
      · apply moved_goto at_
        · exact fun behind => absurd behind Bool.false_ne_true
        · intro _
          simp [LoopState.work, LoopState.goto, unsignalled]
        · intro _
          simp [LoopState.pending, LoopState.goto, unsignalled]
      · apply moved_goto at_
        · exact fun _ => .inr unsignalled
        · intro _
          simp [LoopState.work, LoopState.goto, unsignalled]
        · exact fun _ => Nat.zero_le _
  · next at_ =>
      cases taken
      refine moved_quietly at_ ⟨rfl, rfl⟩ (fun _ known => .inl known) rfl ?_ ?_ ?_
      · exact fun behind => absurd behind Bool.false_ne_true
      · exact fun bounded _ =>
          Nat.succ_le_succ (Nat.add_le_add_right (poll_few bounded state.source) 5)
      · exact fun bounded _ => poll_few bounded state.source
  · next packet rest at_ =>
      cases taken
      constructor
      · rfl
      · rfl
      · exact fun sig known => .inl known
      · exact fun behind => absurd behind Bool.false_ne_true
      · intro _ _
        simp [LoopState.work, LoopState.processStep, at_]
      · intro _ _
        simp only [LoopState.pending, LoopState.processStep, at_, List.length_append,
          List.length_cons, List.length_nil]
        omega
  · next at_ =>
      cases taken
      apply moved_goto at_
      · intro behind
        split_ifs at behind
        · exact absurd behind Bool.false_ne_true
        · exact absurd behind Bool.false_ne_true
      · intro _
        split_ifs
        · exact Nat.lt_of_succ_lt (Nat.lt_succ_self 4)
        · exact Nat.lt_succ_self 4
      · intro _
        split_ifs
        · exact Nat.zero_le _
        · exact Nat.zero_le _
  · next at_ =>
      cases taken
      refine moved_quietly at_ ⟨rfl, rfl⟩ (fun _ known => .inl known) rfl ?_ ?_ ?_
      · exact fun behind => absurd behind Bool.false_ne_true
      · exact fun _ _ => Nat.lt_succ_self 3
      · exact fun _ _ => Nat.zero_le _
  · next at_ =>
      cases taken
      refine moved_quietly at_ ⟨rfl, rfl⟩ (fun _ known => .inl known) rfl ?_ ?_ ?_
      · intro _
        apply stop.caused
        rw [at_]
        rfl
      · exact fun _ _ => Nat.zero_lt_one
      · exact fun _ _ => Nat.zero_le _
  · cases taken

theorem moved_result {ok : Bool} (taken : state.mainStep program (.result ok) = some next) :
    MainMoved program state next := by
  simp only [LoopState.mainStep] at taken
  split at taken
  · next at_ =>
      cases taken
      apply moved_goto at_
      · intro behind
        split_ifs at behind
        · exact absurd behind Bool.false_ne_true
        · exact absurd behind (by simp [MainPoint.stopped])
      · intro _
        split_ifs
        · exact Nat.lt_succ_self 10
        · exact Nat.succ_pos 10
      · intro _
        split_ifs
        · exact Nat.zero_le _
        · exact Nat.zero_le _
  · next at_ =>
      cases taken
      exact moved_install at_ ok (.inl rfl) rfl (Nat.lt_succ_self 9) (Nat.zero_le _)
        (Nat.succ_pos 9)
  · next at_ =>
      cases taken
      exact moved_install at_ ok (.inr rfl) rfl (Nat.lt_succ_self 8) (Nat.zero_le _)
        (Nat.succ_pos 8)
  · cases taken

theorem moved_main (kept : LoopKept state) (stop : StopKept state) {answer : MainAnswer}
    (taken : state.mainStep program answer = some next) : MainMoved program state next := by
  cases answer with
  | tick => exact moved_tick kept stop taken
  | result ok => exact moved_result taken

/-- A step of anyone else sets flags at most. -/
theorem moved_others {label : LoopLabel} (other : label.isMain = false)
    (marks : ∀ sig ∈ state.installed, sig ≠ 0) (taken : state.step program label = some next) :
    next.point = state.point ∧ next.installed = state.installed ∧
      next.handled = state.handled ∧ (state.stopRequested = true → next.stopRequested = true) ∧
      (state.stopSignal ≠ 0 → next.stopSignal ≠ 0) := by
  cases label with
  | main answer => cases other
  | arrive frame =>
      cases taken
      exact ⟨rfl, rfl, rfl, id, id⟩
  | requestStop =>
      cases taken
      exact ⟨rfl, rfl, rfl, fun _ => rfl, id⟩
  | signal sig =>
      simp only [LoopState.step] at taken
      split_ifs at taken with known
      cases taken
      exact ⟨rfl, rfl, rfl, id, fun _ => marks sig known⟩

theorem main_of_is_main {label : LoopLabel} (whose : label.isMain = true) :
    ∃ answer, label = .main answer := by
  cases label with
  | main answer => exact ⟨answer, rfl⟩
  | _ => cases whose

theorem stop_kept_step (kept : LoopKept state) (stop : StopKept state)
    {label : LoopLabel} (taken : state.step program label = some next) : StopKept next := by
  cases whose : label.isMain with
  | true =>
      obtain ⟨answer, rfl⟩ := main_of_is_main whose
      obtain ⟨requested, signalled, installed, behind, -, -⟩ := moved_main kept stop taken
      constructor
      · intro sig member
        rcases installed sig member with before | rfl | rfl
        · exact stop.marks sig before
        · decide
        · decide
      · intro ended
        unfold LoopState.Stopping
        rw [requested, signalled]
        exact behind ended
  | false =>
      obtain ⟨point, installed, -, requested, signalled⟩ := moved_others whose stop.marks taken
      constructor
      · rw [installed]
        exact stop.marks
      · rw [point]
        exact fun ended => (stop.caused ended).imp requested signalled

theorem stop_kept_reached (reached : Reaches (engineV3 dpdk program) state) : StopKept state := by
  apply invariant_of_step _ _ reached
  · intro state initial
    exact stop_kept_initial initial
  · intro state label next prior stop allowed taken
    exact stop_kept_step (loop_kept_reached prior) stop taken

theorem others_leave_less {label : LoopLabel} (other : label.isMain = false)
    (marks : ∀ sig ∈ state.installed, sig ≠ 0) (taken : state.step program label = some next) :
    next.work program ≤ state.work program ∧
      next.handled.length + next.pending program ≤
        state.handled.length + state.pending program := by
  obtain ⟨point, -, handled, -, signalled⟩ := moved_others other marks taken
  unfold LoopState.work LoopState.pending
  rw [point, handled]
  cases state.point with
  | signalTest =>
      by_cases before : state.stopSignal = 0
      · simp only [before, if_true]
        split_ifs
        · exact ⟨Nat.le_refl _, Nat.le_refl _⟩
        · exact ⟨Nat.le_add_left 2 _, Nat.add_le_add_left (Nat.zero_le _) _⟩
      · simp only [before, signalled before, if_false]
        exact ⟨Nat.le_refl _, Nat.le_refl _⟩
  | _ => exact ⟨Nat.le_refl _, Nat.le_refl _⟩

/-- Before the exit there is always a step that `main` can take. -/
theorem main_moves (running : ∀ code, state.point ≠ .exit code) :
    ∃ answer next, state.mainStep program answer = some next := by
  cases at_ : state.point with
  | exit code => exact absurd at_ (running code)
  | setLogFile | installSigint | installSigterm =>
      refine ⟨.result true, ?_⟩
      simp only [LoopState.mainStep, at_]
      exact ⟨_, rfl⟩
  | process rest =>
      refine ⟨.tick, ?_⟩
      cases rest with
      | nil =>
          simp only [LoopState.mainStep, at_]
          exact ⟨_, rfl⟩
      | cons packet rest =>
          simp only [LoopState.mainStep, at_]
          exact ⟨_, rfl⟩
  | initEal | attach | openSource | runTest | runOpen | stopTest | signalTest | poll | release
    | closeSource =>
      refine ⟨.tick, ?_⟩
      simp only [LoopState.mainStep, at_]
      exact ⟨_, rfl⟩

theorem few_packets_step (bounded : BurstsBounded dpdk) (kept : LoopKept state)
    (few : FewPackets program state) {label : LoopLabel}
    (taken : state.step program label = some next) : FewPackets program next := by
  cases label with
  | main answer => exact few_packets_main bounded kept few taken
  | arrive frame =>
      cases taken
      exact few
  | requestStop =>
      cases taken
      exact few
  | signal sig =>
      simp only [LoopState.step] at taken
      split_ifs at taken
      cases taken
      exact few

theorem few_packets_reached (bounded : BurstsBounded dpdk)
    (reached : Reaches (engineV3 dpdk program) state) : FewPackets program state := by
  apply invariant_of_step _ _ reached
  · intro state initial
    unfold FewPackets
    rw [initial.packets]
    exact Nat.zero_le _
  · intro state label next prior few allowed taken
    exact few_packets_step bounded (loop_kept_reached prior) few taken

theorem little_left (kept : LoopKept state) (few : FewPackets program state) :
    state.work program ≤ program.burst + 11 ∧ state.pending program ≤ program.burst := by
  have known := kept.at_point
  unfold FewPackets at few
  unfold LoopState.work LoopState.pending
  cases at_ : state.point with
  | process rest =>
      rw [at_] at known
      have shorter := known.2.2.length_le
      simp only
      omega
  | signalTest =>
      simp only
      split_ifs
      · omega
      · omega
  | _ =>
      simp only
      omega

end Steps

/-- The kept facts of a run that has been told to stop. -/
def StoppingRun {dpdk : Dpdk} (program : Program) (state : LoopState dpdk) : Prop :=
  LoopKept state ∧ FewPackets program state ∧ StopKept state ∧ state.Stopping

theorem stopping_run_step {dpdk : Dpdk} (bounded : BurstsBounded dpdk) {program : Program}
    {state next : LoopState dpdk} {label : LoopLabel} (valid : StoppingRun program state)
    (taken : state.step program label = some next) :
    StoppingRun program next ∧
      next.work program + (if label.isMain then 1 else 0) ≤ state.work program ∧
      next.handled.length + next.pending program ≤
        state.handled.length + state.pending program := by
  obtain ⟨kept, few, stop, stopping⟩ := valid
  have nextKept := loop_kept_step kept taken
  have nextFew := few_packets_step bounded kept few taken
  have nextStop := stop_kept_step kept stop taken
  cases whose : label.isMain with
  | true =>
      obtain ⟨answer, rfl⟩ := main_of_is_main whose
      obtain ⟨requested, signalled, -, -, works, handles⟩ := moved_main kept stop taken
      refine ⟨⟨nextKept, nextFew, nextStop, ?_⟩, works bounded stopping,
        handles bounded stopping⟩
      unfold LoopState.Stopping
      rw [requested, signalled]
      exact stopping
  | false =>
      obtain ⟨-, -, -, requested, signalled⟩ := moved_others whose stop.marks taken
      obtain ⟨works, handles⟩ := others_leave_less whose stop.marks taken
      exact ⟨⟨nextKept, nextFew, nextStop, stopping.imp requested signalled⟩, works, handles⟩

/-- Over a library whose bursts are bounded, once a flag is set, in every continuation: `main`
takes a bounded number of steps and handles no more than one further burst, whatever else happens,
and it is never stuck before its exit. -/
theorem stops_within_one_burst (dpdk : Dpdk) (bounded : BurstsBounded dpdk) (program : Program)
    (state final : LoopState dpdk) (reached : Reaches (engineV3 dpdk program) state)
    (stopping : state.Stopping) (labels : List LoopLabel)
    (run : runLabels (engineV3 dpdk program) state labels = some final) :
    labels.countP LoopLabel.isMain ≤ program.burst + 11 ∧
      final.handled.length ≤ state.handled.length + program.burst ∧
      ((∃ code, final.point = .exit code) ∨
        ∃ answer next, final.mainStep program answer = some next) := by
  have kept := loop_kept_reached reached
  have few := few_packets_reached bounded reached
  have valid : StoppingRun program state := ⟨kept, few, stop_kept_reached reached, stopping⟩
  obtain ⟨work, pending⟩ := little_left kept few
  have steps := @counted_steps_le _ _ (engineV3 dpdk program) (StoppingRun program)
    (LoopState.work program) LoopLabel.isMain (fun _ => 0)
    (fun state label next valid taken =>
      ⟨(stopping_run_step bounded valid taken).1, (stopping_run_step bounded valid taken).2.1⟩)
    state final labels valid run
  have packets := @counted_steps_le _ _ (engineV3 dpdk program) (StoppingRun program)
    (fun state => state.handled.length + state.pending program) (fun _ => false) (fun _ => 0)
    (fun state label next valid taken =>
      ⟨(stopping_run_step bounded valid taken).1, (stopping_run_step bounded valid taken).2.2⟩)
    state final labels valid run
  have nothing : (labels.map fun _ => 0).sum = 0 := by simp
  rw [nothing] at steps packets
  refine ⟨by omega, by omega, ?_⟩
  by_cases exited : ∃ code, final.point = .exit code
  · exact .inl exited
  · exact .inr (main_moves fun code at_ => exited ⟨code, at_⟩)

/-- The signal comes between the test of its flag and the `poll`. -/
def signalTooLate : List LoopLabel :=
  setUp ++ [LoopLabel.arrive optionsFrame.bytes, .signal kSigterm]

def lastBurst : List LoopLabel := mainTicks 7

theorem last_burst_within_bound :
    ∃ state final, Reaches (engineV3 portInMemory smallProgram) state ∧ state.Stopping ∧
      runLabels (engineV3 portInMemory smallProgram) state lastBurst = some final ∧
      final.point = .exit 0 ∧ final.handled.length = state.handled.length + 1 ∧
      lastBurst.countP LoopLabel.isMain ≤ smallProgram.burst + 11 := by
  obtain ⟨state, ran, stopping, final, last, exited, handled⟩ :
      ∃ state, runLabels (engineV3 portInMemory smallProgram) newLoop signalTooLate = some state ∧
        state.stopSignal = kSigterm ∧
        ∃ final, runLabels (engineV3 portInMemory smallProgram) state lastBurst = some final ∧
          final.point = .exit 0 ∧ final.handled.length = state.handled.length + 1 :=
    ⟨_, rfl, rfl, _, rfl, rfl, rfl⟩
  have reached := reaches_run (reaches_start new_loop_initial) ran
  have flagged : state.Stopping := by
    apply Or.inr
    rw [stopping]
    decide
  exact ⟨state, final, reached, flagged, last, exited, handled,
    (stops_within_one_burst portInMemory port_bursts_bounded smallProgram state final reached
      flagged lastBurst last).1⟩

/-- When the program has exited, over any library: the source is closed and holds no packet, every
pool that was created was freed once and every mbuf that was received was freed once, the library
was used in its order and its port is idle if every stop and every close has succeeded, and an
exit code of 0 means that a stop was requested. -/
theorem exit_leaves_nothing (dpdk : Dpdk) (program : Program) (state : LoopState dpdk)
    (code : Nat) (reached : Reaches (engineV3 dpdk program) state)
    (exited : state.point = .exit code) :
    state.source.isOpen = false ∧ state.packets = [] ∧
      moved DpdkCall.created state.source.calls = moved DpdkCall.freed state.source.calls ∧
      moved DpdkCall.obtained state.source.calls = moved DpdkCall.returned state.source.calls ∧
      (Obeyed state.source.calls → Documented state.source.calls ⟨.idle, [], []⟩) ∧
      (code = 0 → state.Stopping) := by
  have kept := loop_kept_reached reached
  have known := kept.at_point
  rw [exited] at known
  obtain ⟨closed, packets⟩ := known
  have source := kept.source
  rw [packets] at source
  obtain ⟨none_, -⟩ := closed_parts source closed
  have pools := source.pools
  have mbufs := source.mbufs
  have documented := source.documented
  unfold DpdkRxSource.usage at documented
  simp only [none_, Option.toList_none, List.append_nil] at pools documented
  rw [List.map_nil, List.append_nil] at mbufs
  refine ⟨closed, packets, pools, mbufs, documented, ?_⟩
  rintro rfl
  apply (stop_kept_reached reached).caused
  rw [exited]
  rfl

/-- A burst is handled after the signal, and everything is given back. -/
theorem exit_after_signal :
    ∃ state, Reaches (engineV3 portInMemory smallProgram) state ∧ state.point = .exit 0 ∧
      moved DpdkCall.freed state.source.calls = ([0] : List Nat) ∧
      moved DpdkCall.returned state.source.calls = ([0] : List Nat) ∧
      Documented state.source.calls ⟨.idle, [], []⟩ := by
  obtain ⟨state, ran, exited, freed, returned, obeyed⟩ :
      ∃ state, runLabels (engineV3 portInMemory smallProgram) newLoop
          (signalTooLate ++ lastBurst) = some state ∧ state.point = .exit 0 ∧
        moved DpdkCall.freed state.source.calls = ([0] : List Nat) ∧
        moved DpdkCall.returned state.source.calls = ([0] : List Nat) ∧
        Obeyed state.source.calls := by
    refine ⟨_, rfl, rfl, rfl, rfl, ?_⟩
    unfold Obeyed
    decide
  have reached := reaches_run (reaches_start new_loop_initial) ran
  obtain ⟨-, -, -, -, documented, -⟩ :=
    exit_leaves_nothing portInMemory smallProgram state 0 reached exited
  exact ⟨state, reached, exited, freed, returned, documented obeyed⟩

end MarketDataEngine.EngineV3
