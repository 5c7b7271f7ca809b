import Mathlib.Data.List.Chain
import MarketDataEngine.MetricsSnapshot

/-!
# Snapshots of the counters of a running engine

`Metrics::snapshot` loads one counter after the other while the engine goes on. The reporter
is put beside any system that has a consumer's session in its state, and one of its steps is
one load. `popped` counts the frames popped from the ready ring and `ioDrops` the drops the
I/O thread counted; both are histories.

A load is later than the load of the same field for the snapshot before, so fields that only
grow do so from snapshot to snapshot. `processed` is loaded before `received`, which is the
larger of the two at every moment.
-/

namespace MarketDataEngine.Engine

open MarketDataEngine.Protocol MarketDataEngine.TransitionSystem

set_option autoImplicit false

/-- A `Snapshot` has the fields of the counters. -/
abbrev Snapshot := Metrics

def Metrics.store (snapshot : Snapshot) (field : Field) (value : UInt64) : Snapshot :=
  match field with
  | .processed => { snapshot with processed := value }
  | .received => { snapshot with received := value }
  | .decodeErrors => { snapshot with decodeErrors := value }
  | .drops => { snapshot with drops := value }
  | .seqNumGaps => { snapshot with seqNumGaps := value }

namespace Field

/-- The order of the loads. -/
def next : Field → Option Field
  | .processed => some .received
  | .received => some .decodeErrors
  | .decodeErrors => some .drops
  | .drops => some .seqNumGaps
  | .seqNumGaps => none

def rank : Field → Nat
  | .processed => 0
  | .received => 1
  | .decodeErrors => 2
  | .drops => 3
  | .seqNumGaps => 4

theorem rank_next {field later : Field} (follows : field.next = some later) :
    later.rank = field.rank + 1 := by
  cases field <;> cases follows <;> rfl

theorem rank_le_of_last {field : Field} (last : field.next = none) (other : Field) :
    other.rank ≤ field.rank := by
  cases field <;> cases last
  cases other <;> decide

theorem rank_injective {field other : Field} (same : field.rank = other.rank) :
    field = other := by
  cases field <;> cases other <;> first | rfl | cases same

end Field

theorem load_store_self (snapshot : Snapshot) (field : Field) (value : UInt64) :
    (snapshot.store field value).load field = value := by
  cases field <;> rfl

theorem load_store_other (snapshot : Snapshot) {field other : Field} (apart : other ≠ field)
    (value : UInt64) : (snapshot.store field value).load other = snapshot.load other := by
  cases field <;> cases other <;> first | rfl | exact absurd rfl apart

/-- The reporter: the load that comes next, what the current snapshot has so far, and the
snapshots taken, each with the number of frames popped by its end. -/
structure Reporter where
  field : Field
  filled : Snapshot
  snapshots : List (Snapshot × Nat)

namespace Reporter

def start : Reporter := ⟨.processed, .zero, []⟩

def load (reporter : Reporter) (metrics : Metrics) (popped : Nat) : Reporter :=
  let filled := reporter.filled.store reporter.field (metrics.load reporter.field)
  match reporter.field.next with
  | some field => { reporter with field := field, filled := filled }
  | none => ⟨.processed, .zero, reporter.snapshots ++ [(filled, popped)]⟩

/-! ## One field -/

/-- The field as the current snapshot will have it, if it were finished now. -/
def seen (reporter : Reporter) (field : Field) (value : UInt64) : UInt64 :=
  if field.rank < reporter.field.rank then reporter.filled.load field else value

/-- The field has only grown, and what is loaded is not ahead of the counter. -/
structure Ordered (reporter : Reporter) (field : Field) (value : UInt64) : Prop where
  grows : reporter.snapshots.IsChain fun earlier later =>
    earlier.1.load field ≤ later.1.load field
  last : ∀ last, reporter.snapshots.getLast? = some last →
    last.1.load field ≤ reporter.seen field value
  filled : reporter.seen field value ≤ value

theorem ordered_start (field : Field) (value : UInt64) : Ordered start field value := by
  refine ⟨List.isChain_nil, ?_, ?_⟩
  · intro last none_
    cases none_
  · exact UInt64.le_refl _

theorem ordered_grow {reporter : Reporter} {field : Field} {value later : UInt64}
    (ordered : Ordered reporter field value) (grown : value ≤ later) :
    Ordered reporter field later := by
  have seen : reporter.seen field value ≤ reporter.seen field later := by
    unfold Reporter.seen
    split_ifs
    · exact UInt64.le_refl _
    · exact grown
  refine ⟨ordered.grows, ?_, ?_⟩
  · intro last isLast
    exact UInt64.le_trans (ordered.last last isLast) seen
  · have before := ordered.filled
    unfold Reporter.seen at before ⊢
    split_ifs at before ⊢
    · exact UInt64.le_trans before grown
    · exact UInt64.le_refl _

/-- What the next load makes of the current snapshot is what was to be seen. -/
theorem load_filled (reporter : Reporter) (metrics : Metrics) {field : Field}
    (below : field.rank ≤ reporter.field.rank) :
    (reporter.filled.store reporter.field (metrics.load reporter.field)).load field =
      reporter.seen field (metrics.load field) := by
  by_cases current : field = reporter.field
  · rw [current, load_store_self, seen, if_neg (Nat.lt_irrefl _)]
  · have earlier : field.rank < reporter.field.rank := by
      apply Nat.lt_of_le_of_ne below
      intro same
      exact current (Field.rank_injective same)
    rw [load_store_other _ current, seen, if_pos earlier]

theorem ordered_load {reporter : Reporter} {field : Field} {metrics : Metrics} (popped : Nat)
    (ordered : Ordered reporter field (metrics.load field)) :
    Ordered (reporter.load metrics popped) field (metrics.load field) := by
  unfold load
  cases follows : reporter.field.next with
  | some later =>
      have rank := Field.rank_next follows
      have same : ({ reporter with
          field := later
          filled := reporter.filled.store reporter.field (metrics.load reporter.field) } :
          Reporter).seen field (metrics.load field) =
            reporter.seen field (metrics.load field) := by
        by_cases below : field.rank ≤ reporter.field.rank
        · rw [← load_filled reporter metrics below, seen]
          exact if_pos (by simp only; omega)
        · rw [seen, seen, if_neg (by simp only; omega), if_neg (by omega)]
      refine ⟨ordered.grows, ?_, ?_⟩
      · intro last isLast
        rw [same]
        exact ordered.last last isLast
      · rw [same]
        exact ordered.filled
  | none =>
      have whole := load_filled reporter metrics (Field.rank_le_of_last follows field)
      refine ⟨?_, ?_, ?_⟩
      · apply List.isChain_append.mpr
        refine ⟨ordered.grows, List.isChain_singleton _, ?_⟩
        intro last isLast newest isNewest
        cases isNewest
        rw [whole]
        exact ordered.last last isLast
      · intro newest isNewest
        rw [List.getLast?_append, List.getLast?_singleton, Option.some_or] at isNewest
        cases isNewest
        simp only
        rw [whole]
        exact ordered.filled
      · exact UInt64.le_refl _

/-! ## Fields against each other -/

/-- In every snapshot `processed` is at most `received`, and no more was received or refused
by `decode` than was popped. -/
structure Sound (reporter : Reporter) : Prop where
  taken : ∀ entry ∈ reporter.snapshots, entry.1.processed ≤ entry.1.received ∧
    entry.1.received.toNat + entry.1.decodeErrors.toNat ≤ entry.2
  filled : Field.received.rank < reporter.field.rank →
    reporter.filled.processed ≤ reporter.filled.received

theorem sound_start : Sound start := by
  constructor
  · intro entry member
    cases member
  · intro loaded
    cases loaded

theorem sound_load {reporter : Reporter} {metrics : Metrics} {popped : Nat}
    (sound : Sound reporter)
    (ordered : ∀ field, field ≠ .seqNumGaps → Ordered reporter field (metrics.load field))
    (balanced : metrics.processed ≤ metrics.received)
    (bounded : metrics.received.toNat ≤ popped) (noErrors : metrics.decodeErrors = 0) :
    Sound (reporter.load metrics popped) := by
  -- What the snapshot has of the first two fields, once the second one is loaded.
  have pair : Field.received.rank ≤ reporter.field.rank →
      reporter.seen .processed metrics.processed ≤ reporter.seen .received metrics.received := by
    intro reached
    have processed : reporter.seen .processed metrics.processed = reporter.filled.processed :=
      if_pos (Nat.lt_of_lt_of_le (by decide) reached)
    by_cases loaded : Field.received.rank < reporter.field.rank
    · have received : reporter.seen .received metrics.received = reporter.filled.received :=
        if_pos loaded
      rw [processed, received]
      exact sound.filled loaded
    · have received : reporter.seen .received metrics.received = metrics.received :=
        if_neg loaded
      rw [received]
      exact UInt64.le_trans (ordered .processed (by decide)).filled balanced
  unfold load
  cases follows : reporter.field.next with
  | some later =>
      have rank := Field.rank_next follows
      refine ⟨sound.taken, ?_⟩
      intro loaded
      have reached : Field.received.rank ≤ reporter.field.rank := by
        simp only at loaded
        omega
      have first : (reporter.filled.store reporter.field
          (metrics.load reporter.field)).processed = reporter.seen .processed metrics.processed :=
        @load_filled reporter metrics .processed (Nat.le_trans (by decide) reached)
      have second : (reporter.filled.store reporter.field
          (metrics.load reporter.field)).received = reporter.seen .received metrics.received :=
        @load_filled reporter metrics .received reached
      simp only
      rw [first, second]
      exact pair reached
  | none =>
      have first : (reporter.filled.store reporter.field
          (metrics.load reporter.field)).processed = reporter.seen .processed metrics.processed :=
        load_filled reporter metrics (Field.rank_le_of_last follows .processed)
      have second : (reporter.filled.store reporter.field
          (metrics.load reporter.field)).received = reporter.seen .received metrics.received :=
        load_filled reporter metrics (Field.rank_le_of_last follows .received)
      have third : (reporter.filled.store reporter.field
          (metrics.load reporter.field)).decodeErrors =
            reporter.seen .decodeErrors metrics.decodeErrors :=
        load_filled reporter metrics (Field.rank_le_of_last follows .decodeErrors)
      constructor
      case filled =>
        intro loaded
        cases loaded
      intro entry member
      rcases List.mem_append.mp member with earlier | newest
      · exact sound.taken entry earlier
      · rw [List.mem_singleton] at newest
        subst newest
        have received : reporter.seen .received metrics.received ≤ metrics.received :=
          (ordered .received (by decide)).filled
        have errors : reporter.seen .decodeErrors metrics.decodeErrors ≤
            metrics.decodeErrors := (ordered .decodeErrors (by decide)).filled
        rw [noErrors] at errors third
        rw [UInt64.le_iff_toNat_le] at received errors
        rw [UInt64.toNat_zero] at errors
        simp only
        rw [first, second, third]
        refine ⟨pair (Field.rank_le_of_last follows .received), ?_⟩
        omega

end Reporter

/-! ## Beside an engine -/

section Watching

variable {State Label : Type}

/-- A system with a consumer's session in its state. `waiting` are the frames popped and not
yet decoded, `pops` the frames that a step pops. -/
structure SessionView (system : System State Label) where
  order : ByteOrder
  session : State → Session
  point : State → Option StagePoint
  waiting : State → Nat
  pops : State → State → Nat
  fresh : ∀ state, system.start state →
    session state = .fresh ∧ point state = none ∧ waiting state = 0
  step_session : ∀ state label next, system.step state label = some next →
    SessionStep order (session state) (session next) (point state) (point next)
  step_waiting : ∀ state label next, system.step state label = some next →
    waiting next + (session next).decoded.length =
      waiting state + (session state).decoded.length + pops state next

structure Watched (State : Type) where
  engine : State
  reporter : Reporter
  popped : Nat
  ioDrops : Nat

variable {system : System State Label} (view : SessionView system)

/-- A step is a step of the engine, or one load of the reporter. -/
def watchedSystem : System (Watched State) (Option Label) where
  start watched := system.start watched.engine ∧ watched.reporter = .start ∧
    watched.popped = 0 ∧ watched.ioDrops = 0
  step watched
    | none => some { watched with
        reporter := watched.reporter.load (view.session watched.engine).metrics watched.popped }
    | some label => (system.step watched.engine label).map fun next =>
        { watched with
          engine := next
          popped := watched.popped + view.pops watched.engine next
          ioDrops := watched.ioDrops +
            ioDropsBy (view.session watched.engine) (view.session next) }

/-- Fewer than `2 ^ 64` messages were decoded or dropped by the I/O thread. -/
def FewMessages (watched : Watched State) : Prop :=
  watched.ioDrops + (view.session watched.engine).decoded.length < 2 ^ 64

/-- What holds of the counters and of the snapshots, under the bounds they need. -/
structure Watches (watched : Watched State) : Prop where
  replays : Replays (view.session watched.engine) (view.point watched.engine)
  awaiting : Awaiting (view.session watched.engine) (view.point watched.engine)
  popped : view.waiting watched.engine + (view.session watched.engine).decoded.length =
    watched.popped
  counted : FewMessages view watched →
    Counted (view.session watched.engine) (view.point watched.engine) watched.ioDrops
  ordered : FewMessages view watched → ∀ field, field ≠ .seqNumGaps →
    watched.reporter.Ordered field ((view.session watched.engine).metrics.load field)
  sound : FewMessages view watched → watched.reporter.Sound
  gaps_ordered : NoTopBefore (view.session watched.engine).decoded →
    watched.reporter.Ordered .seqNumGaps (view.session watched.engine).metrics.seqNumGaps

theorem watches_start {watched : Watched State} (start : (watchedSystem view).start watched) :
    Watches view watched := by
  obtain ⟨engine, reporter, popped, ioDrops⟩ := start
  obtain ⟨session, point, waiting⟩ := view.fresh _ engine
  refine ⟨?_, ?_, ?_, ?_, ?_, ?_, ?_⟩
  · rw [session, point]
    rfl
  · rw [point]
    trivial
  · rw [waiting, session, popped]
    rfl
  · intro _
    rw [session, point, ioDrops]
    exact ⟨trivial, rfl, rfl, rfl, rfl⟩
  · intro _ field _
    rw [reporter]
    exact Reporter.ordered_start field _
  · intro _
    rw [reporter]
    exact Reporter.sound_start
  · intro _
    rw [reporter]
    exact Reporter.ordered_start .seqNumGaps _

theorem watches_load {watched : Watched State} (watches : Watches view watched) :
    Watches view { watched with
      reporter :=
        watched.reporter.load (view.session watched.engine).metrics watched.popped } := by
  refine ⟨watches.replays, watches.awaiting, watches.popped, watches.counted, ?_, ?_, ?_⟩
  · intro few field apart
    exact Reporter.ordered_load _ (watches.ordered few field apart)
  · intro few
    have counted := watches.counted few
    have popped := watches.popped
    have received := counted.received
    have balanced := counted.balanced
    apply Reporter.sound_load (watches.sound few) (watches.ordered few)
    · rw [UInt64.le_iff_toNat_le]
      omega
    · omega
    · exact counted.no_decode_errors
  · intro noTop
    exact Reporter.ordered_load _ (watches.gaps_ordered noTop)

theorem watches_engine_step {watched : Watched State} {label : Label} {next : State}
    (watches : Watches view watched) (taken : system.step watched.engine label = some next) :
    Watches view
      { watched with
        engine := next
        popped := watched.popped + view.pops watched.engine next
        ioDrops := watched.ioDrops +
          ioDropsBy (view.session watched.engine) (view.session next) } := by
  have step := view.step_session _ _ _ taken
  have waiting := view.step_waiting _ _ _ taken
  have longer := decoded_step step
  have length := longer.length_le
  have popped := watches.popped
  -- The bound on the messages held before the step, too.
  have fewBefore : ∀ {bound : Nat}, watched.ioDrops +
      ioDropsBy (view.session watched.engine) (view.session next) +
        (view.session next).decoded.length < bound →
      watched.ioDrops + (view.session watched.engine).decoded.length < bound := by
    intro bound few
    omega
  refine ⟨replays_step watches.replays step, awaiting_step watches.replays watches.awaiting step,
    ?_, ?_, ?_, ?_, ?_⟩
  · simp only
    omega
  · intro few
    exact (counted_step (watches.counted (fewBefore few)) step few).1
  · intro few field apart
    have grown := (counted_step (watches.counted (fewBefore few)) step few).2 field apart
    exact Reporter.ordered_grow (watches.ordered (fewBefore few) field apart) grown
  · intro few
    exact watches.sound (fewBefore few)
  · intro noTop
    have grown := gaps_step watches.replays watches.awaiting step noTop
    exact Reporter.ordered_grow (watches.gaps_ordered (no_top_before_mono longer noTop)) grown

theorem watches_of_reaches {watched : Watched State}
    (reached : Reaches (watchedSystem view) watched) : Watches view watched := by
  apply invariant_of_step _ _ reached
  · intro watched start
    exact watches_start view start
  · intro watched label next _ watches _ taken
    cases label with
    | none =>
        cases taken
        exact watches_load view watches
    | some label =>
        obtain ⟨engine, moved, rfl⟩ := Option.map_eq_some_iff.mp taken
        exact watches_engine_step view watches moved

/-- The snapshots agree with each other and with the frames popped; the gaps among them do
as long as no message came after the largest sequence number. -/
structure Consistent (watched : Watched State) : Prop where
  processed_le_received : ∀ entry ∈ watched.reporter.snapshots,
    entry.1.processed ≤ entry.1.received
  received_popped : ∀ entry ∈ watched.reporter.snapshots,
    entry.1.received.toNat + entry.1.decodeErrors.toNat ≤ entry.2
  grows : ∀ field, field ≠ .seqNumGaps → watched.reporter.snapshots.IsChain
    fun earlier later => earlier.1.load field ≤ later.1.load field
  gaps_grow : NoTopBefore (view.session watched.engine).decoded →
    watched.reporter.snapshots.IsChain fun earlier later =>
      earlier.1.seqNumGaps ≤ later.1.seqNumGaps

theorem consistent_of_reaches {watched : Watched State}
    (reached : Reaches (watchedSystem view) watched) (few : FewMessages view watched) :
    Consistent view watched := by
  have watches := watches_of_reaches view reached
  refine ⟨?_, ?_, ?_, ?_⟩
  · intro entry member
    exact ((watches.sound few).taken entry member).1
  · intro entry member
    exact ((watches.sound few).taken entry member).2
  · intro field apart
    exact (watches.ordered few field apart).grows
  · intro noTop
    exact (watches.gaps_ordered noTop).grows

end Watching

end MarketDataEngine.Engine
