import MarketDataEngine.ConsumerReplay
import MarketDataEngine.GeneratorV2
import Mathlib.Order.Interval.Finset.Nat

/-!
# From the generator to the counters of a consumer

A run of the generator gives messages with increasing sequence numbers far below
the top of the range. The consumer then counts every number between the first
and the last one it takes, either as processed or as missing; this holds for any
loss, duplication and reordering of the datagrams on their way.
-/

namespace MarketDataEngine.Engine

open MarketDataEngine.Protocol MarketDataEngine.TransitionSystem
open SequenceTracker

set_option autoImplicit false

/-! ## The span of the accepted numbers -/

namespace SequenceTracker

/-- The gap reaches from the last accepted number to the new one. -/
theorem missing_of_follows {tracker : SequenceTracker} {accepted : List UInt64}
    (follows : Follows tracker accepted) {last seqNum : UInt64}
    (isLast : accepted.getLast? = some last) (noWrap : last ≠ topSeqNum)
    (taken : (tracker.verdict seqNum).accepted = true) :
    last.toNat + 1 + (tracker.verdict seqNum).missing.toNat = seqNum.toNat := by
  have successor := to_nat_succ noWrap
  rw [follows.successor last isLast] at taken ⊢
  simp only [verdict, Bool.not_true, Bool.false_eq_true, ↓reduceIte] at taken ⊢
  split_ifs at taken ⊢ with inOrder above
  · rw [inOrder, successor]
    rfl
  · have before : last + 1 ≤ seqNum := UInt64.le_of_lt above
    have order := UInt64.le_iff_toNat_le.mp before
    simp only [Verdict.missing]
    rw [UInt64.toNat_sub_of_le _ _ before]
    omega
  · cases taken

/-- Increasing messages are all taken. -/
theorem accepted_of_increasing {messages : List MarketDataMsg}
    (increasing : (messages.map MarketDataMsg.seqNum).Pairwise (· < ·))
    (noTop : topSeqNum ∉ messages.map MarketDataMsg.seqNum) :
    fresh.acceptedMessages messages = messages := by
  induction messages using List.reverseRecOn with
  | nil => rfl
  | append_singleton messages msg ih =>
      rw [List.map_append, List.pairwise_append] at increasing
      rw [List.map_append, List.mem_append, not_or] at noTop
      have before := ih increasing.1 noTop.1
      obtain ⟨follows, absent⟩ := follows_run messages noTop.1
      have taken : ((fresh.run messages).verdict msg.seqNum).accepted = true := by
        rw [verdict_of_follows follows absent, acceptedSeqNums, before]
        intro earlier member
        exact increasing.2.2 earlier member msg.seqNum (List.mem_singleton_self _)
      rw [accepted_messages_append, before, acceptedMessages, if_pos taken, acceptedMessages]

theorem accepted_subset (tracker : SequenceTracker) (messages : List MarketDataMsg) :
    ∀ msg ∈ tracker.acceptedMessages messages, msg ∈ messages := by
  induction messages generalizing tracker with
  | nil =>
      intro msg member
      cases member
  | cons first rest ih =>
      intro msg member
      unfold acceptedMessages at member
      split_ifs at member
      · rcases List.mem_cons.mp member with rfl | later
        · exact List.mem_cons_self
        · exact List.mem_cons_of_mem _ (ih _ msg later)
      · exact List.mem_cons_of_mem _ (ih _ msg member)

end SequenceTracker

theorem classify_processed (metrics : Metrics) (verdict : Verdict) :
    (metrics.classify verdict).processed =
      metrics.processed + if verdict.accepted then 1 else 0 := by
  cases verdict <;> simp [Metrics.classify, Metrics.incProcessed, Metrics.incDrops,
    Metrics.incSeqNumGaps, Verdict.accepted]

theorem classify_seq_num_gaps (metrics : Metrics) (verdict : Verdict) :
    (metrics.classify verdict).seqNumGaps = metrics.seqNumGaps + verdict.missing := by
  cases verdict <;> simp [Metrics.classify, Metrics.incProcessed, Metrics.incDrops,
    Metrics.incSeqNumGaps, Verdict.missing]

theorem classify_decode_errors (metrics : Metrics) (verdict : Verdict) :
    (metrics.classify verdict).decodeErrors = metrics.decodeErrors := by
  cases verdict <;> rfl

/-! ## The books of a consumer -/

/-- The messages counted in `processed`. -/
def Session.processedMessages (session : Session) : List MarketDataMsg :=
  (session.classified.filter fun entry => entry.2.accepted).map Prod.fst

def messagesOf (frames : List Frame) : List MarketDataMsg :=
  frames.map fun frame => messageOf frame.toList

/-- A session after these messages. -/
structure Tally (session : Session) (messages : List MarketDataMsg) : Prop where
  tracker : session.tracker = SequenceTracker.fresh.run messages
  classified : session.classified.map Prod.fst = messages
  processed : session.processedMessages = SequenceTracker.fresh.acceptedMessages messages
  counted : session.metrics.processed = UInt64.ofNat session.processedMessages.length
  no_decode_errors : session.metrics.decodeErrors = 0

theorem processed_messages_handle (session : Session) (frame : Frame) :
    (session.handle frame).processedMessages = session.processedMessages ++
      if (session.tracker.verdict (messageOf frame.toList).seqNum).accepted then
        [messageOf frame.toList]
      else [] := by
  simp only [Session.processedMessages, Session.handle, List.filter_append, List.map_append]
  congr 1
  split_ifs with taken <;> simp [taken]

theorem seq_num_gaps_handle (session : Session) (frame : Frame) :
    (session.handle frame).metrics.seqNumGaps = session.metrics.seqNumGaps +
      (session.tracker.verdict (messageOf frame.toList).seqNum).missing :=
  classify_seq_num_gaps _ _

theorem tally_handle {session : Session} {messages : List MarketDataMsg}
    (tally : Tally session messages) (frame : Frame) :
    Tally (session.handle frame) (messages ++ [messageOf frame.toList]) := by
  have processed := processed_messages_handle session frame
  refine ⟨?_, ?_, ?_, ?_, ?_⟩
  · rw [SequenceTracker.run_snoc, ← tally.tracker]
    rfl
  · simp [Session.handle, tally.classified]
  · rw [processed, tally.processed, SequenceTracker.accepted_messages_append, tally.tracker]
    rfl
  · have step : (session.handle frame).metrics.processed = session.metrics.processed +
        if (session.tracker.verdict (messageOf frame.toList).seqNum).accepted then 1
        else 0 := classify_processed _ _
    rw [step, processed, tally.counted]
    split_ifs <;> simp [UInt64.ofNat_add]
  · have step : (session.handle frame).metrics.decodeErrors = session.metrics.decodeErrors :=
      classify_decode_errors _ _
    rw [step]
    exact tally.no_decode_errors

theorem tally_replay (frames : List Frame) : Tally (replay frames) (messagesOf frames) := by
  induction frames using List.reverseRecOn with
  | nil => exact ⟨rfl, rfl, rfl, rfl, rfl⟩
  | append_singleton frames frame ih =>
      rw [replay_snoc]
      have snoc : messagesOf (frames ++ [frame]) =
          messagesOf frames ++ [messageOf frame.toList] := List.map_append
      rw [snoc]
      exact tally_handle ih frame

/-- The processed numbers and the gaps fill the range between the first processed
number and the last. -/
structure Spans (session : Session) : Prop where
  empty : session.processedMessages = [] → session.metrics.seqNumGaps = 0
  filled : ∀ first last, session.processedMessages.head? = some first →
    session.processedMessages.getLast? = some last →
    first.seqNum.toNat + session.processedMessages.length +
      session.metrics.seqNumGaps.toNat = last.seqNum.toNat + 1

theorem missing_of_rejected {verdict : Verdict} (rejected : ¬ verdict.accepted = true) :
    verdict.missing = 0 := by
  cases verdict with
  | gap missing => exact absurd rfl rejected
  | _ => rfl

/-- The tracker stands behind the last processed message. -/
theorem follows_processed {session : Session} {messages : List MarketDataMsg}
    (tally : Tally session messages)
    (noTop : topSeqNum ∉ messages.map MarketDataMsg.seqNum) :
    Follows session.tracker (session.processedMessages.map MarketDataMsg.seqNum) ∧
      topSeqNum ∉ session.processedMessages.map MarketDataMsg.seqNum := by
  rw [tally.tracker, tally.processed]
  exact follows_run messages noTop

theorem spans_first {session : Session} (none : session.processedMessages = [])
    (spans : Spans session) (follows : Follows session.tracker []) (frame : Frame) :
    Spans (session.handle frame) := by
  have verdict : session.tracker.verdict (messageOf frame.toList).seqNum = .first := by
    rw [follows.start rfl]
    rfl
  have processed := processed_messages_handle session frame
  have gaps := seq_num_gaps_handle session frame
  rw [verdict, none] at processed
  rw [verdict, spans.empty none] at gaps
  refine ⟨?_, ?_⟩
  · intro empty
    rw [processed] at empty
    cases empty
  · intro first last isFirst isLast
    rw [processed] at isFirst isLast ⊢
    cases isFirst
    cases isLast
    rw [gaps]
    rfl

theorem spans_next {session : Session} {last : MarketDataMsg}
    (isLast : session.processedMessages.getLast? = some last) (spans : Spans session)
    (follows : Follows session.tracker (session.processedMessages.map MarketDataMsg.seqNum))
    (noWrap : last.seqNum ≠ topSeqNum) (frame : Frame)
    (taken : (session.tracker.verdict (messageOf frame.toList).seqNum).accepted = true) :
    Spans (session.handle frame) := by
  have processed := processed_messages_handle session frame
  have gaps := seq_num_gaps_handle session frame
  rw [if_pos taken] at processed
  have nonempty : session.processedMessages ≠ [] := by
    intro empty
    rw [empty] at isLast
    cases isLast
  have jump := missing_of_follows follows (by rw [List.getLast?_map, isLast]; rfl)
    noWrap taken
  refine ⟨?_, ?_⟩
  · intro empty
    rw [processed] at empty
    exact absurd empty (by simp)
  · intro first newest isFirst isNewest
    rw [processed, List.head?_append_of_ne_nil _ nonempty] at isFirst
    rw [processed, List.getLast?_append, List.getLast?_singleton, Option.some_or] at isNewest
    cases isNewest
    have filled := spans.filled first last isFirst isLast
    have length : 0 < session.processedMessages.length := List.length_pos_of_ne_nil nonempty
    have bound := (messageOf frame.toList).seqNum.toNat_lt
    rw [processed, gaps, List.length_append, List.length_singleton, UInt64.toNat_add]
    omega

theorem spans_handle {session : Session} {messages : List MarketDataMsg}
    (tally : Tally session messages) (spans : Spans session)
    (noTop : topSeqNum ∉ messages.map MarketDataMsg.seqNum) (frame : Frame) :
    Spans (session.handle frame) := by
  obtain ⟨follows, absent⟩ := follows_processed tally noTop
  by_cases taken :
      (session.tracker.verdict (messageOf frame.toList).seqNum).accepted = true
  · cases isLast : session.processedMessages.getLast? with
    | none =>
        have none := List.getLast?_eq_none_iff.mp isLast
        rw [none] at follows
        exact spans_first none spans follows frame
    | some last =>
        have member := List.mem_map_of_mem (f := MarketDataMsg.seqNum)
          (List.mem_of_getLast? isLast)
        exact spans_next isLast spans follows (fun top => absent (top ▸ member)) frame taken
  · have processed := processed_messages_handle session frame
    have gaps := seq_num_gaps_handle session frame
    rw [if_neg taken, List.append_nil] at processed
    rw [missing_of_rejected taken, UInt64.add_zero] at gaps
    refine ⟨?_, ?_⟩
    · rw [processed, gaps]
      exact spans.empty
    · rw [processed, gaps]
      exact spans.filled

theorem spans_replay (frames : List Frame)
    (noTop : topSeqNum ∉ (messagesOf frames).map MarketDataMsg.seqNum) :
    Spans (replay frames) := by
  induction frames using List.reverseRecOn with
  | nil => exact ⟨fun _ => rfl, fun _ _ isFirst => by cases isFirst⟩
  | append_singleton frames frame ih =>
      simp only [messagesOf, List.map_append, List.mem_append, not_or] at noTop
      rw [replay_snoc]
      exact spans_handle (tally_replay frames) (ih noTop.1) noTop.1 frame

/-! ## A consumer that was handed a list of frames -/

/-- The stage on one frame after the other. -/
def consume (order : ByteOrder) (frames : List Frame) : Option Session :=
  frames.foldlM (fun session frame => runStage order frame 4 session .decode) .fresh

theorem consume_eq (order : ByteOrder) (frames : List Frame) :
    consume order frames = some (replay frames) := by
  have stage : (fun session frame => runStage order frame 4 session .decode) =
      fun session frame => some (Session.handle session frame) := by
    funext session frame
    exact run_stage_decode order frame session
  unfold consume replay
  rw [stage]
  exact List.foldlM_pure

/-- A session of a fresh consumer that has handled exactly these frames: run on
its own, or between two frames in any interleaving of engine v1 or engine v2. -/
inductive Handled (order : ByteOrder) (frames : List Frame) : Session → Prop where
  | alone {session : Session} (consumed : consume order frames = some session) :
      Handled order frames session
  | engineV1 {state : EngineV1.State order EngineV1.kPoolCapacity}
      (reached : Reaches (EngineV1.system order EngineV1.kPoolCapacity) state)
      (between : state.consumer.point = none)
      (decoded : state.memory.session.decoded = frames) :
      Handled order frames state.memory.session
  | engineV2 {state : EngineV2.State order EngineV2.kPoolCapacity}
      (reached : Reaches (EngineV2.system order EngineV2.kPoolCapacity) state)
      (between : state.consumer.point = none)
      (decoded : state.memory.session.decoded = frames) :
      Handled order frames state.memory.session

theorem handled_besides_drops {order : ByteOrder} {frames : List Frame} {session : Session}
    (handled : Handled order frames session) :
    session.besidesDrops = (replay frames).besidesDrops := by
  cases handled with
  | alone consumed =>
      rw [consume_eq] at consumed
      cases consumed
      rfl
  | engineV1 reached between decoded =>
      rw [← decoded]
      exact EngineV1.session_between_frames reached between
  | engineV2 reached between decoded =>
      rw [← decoded]
      exact EngineV2.session_between_frames reached between

theorem tally_besides_drops (session : Session) (messages : List MarketDataMsg) :
    Tally session.besidesDrops messages ↔ Tally session messages :=
  ⟨fun ⟨tracker, classified, processed, counted, errors⟩ =>
      ⟨tracker, classified, processed, counted, errors⟩,
    fun ⟨tracker, classified, processed, counted, errors⟩ =>
      ⟨tracker, classified, processed, counted, errors⟩⟩

theorem spans_besides_drops (session : Session) :
    Spans session.besidesDrops ↔ Spans session :=
  ⟨fun ⟨empty, filled⟩ => ⟨empty, filled⟩, fun ⟨empty, filled⟩ => ⟨empty, filled⟩⟩

theorem tally_of_handled {order : ByteOrder} {frames : List Frame} {session : Session}
    (handled : Handled order frames session) : Tally session (messagesOf frames) := by
  rw [← tally_besides_drops, handled_besides_drops handled, tally_besides_drops]
  exact tally_replay frames

theorem spans_of_handled {order : ByteOrder} {frames : List Frame} {session : Session}
    (handled : Handled order frames session)
    (noTop : topSeqNum ∉ (messagesOf frames).map MarketDataMsg.seqNum) : Spans session := by
  rw [← spans_besides_drops, handled_besides_drops handled, spans_besides_drops]
  exact spans_replay frames noTop

theorem messages_of_encoded (order : ByteOrder) (uninitialised : Frame)
    (messages : List MarketDataMsg) :
    messagesOf (messages.map (encode order uninitialised)) = messages := by
  unfold messagesOf
  rw [List.map_map]
  conv_rhs => rw [← List.map_id messages]
  apply List.map_congr_left
  intro msg _
  have decoded := message_of_wire_bytes msg []
  rw [List.append_nil] at decoded
  rw [Function.comp_apply, encode_to_list, decoded, id]

/-! ## The feed -/

/-- The books of a consumer that got the whole feed in order. -/
structure WholeFeed (session : Session) (messages : List MarketDataMsg) : Prop where
  decoded : session.classified.map Prod.fst = messages
  processed : session.metrics.processed.toNat = messages.length
  no_sequence_drops : session.sequenceDrops = 0
  no_decode_errors : session.metrics.decodeErrors = 0
  gaps : ∀ first last, messages.head? = some first → messages.getLast? = some last →
    session.metrics.seqNumGaps.toNat =
      ((Finset.Icc first.seqNum.toNat last.seqNum.toNat).filter fun number =>
        number ∉ messages.map fun msg => msg.seqNum.toNat).card

/-- The books of a consumer that got anything made of datagrams of the feed. -/
structure PartialFeed (session : Session) (frames : List Frame)
    (messages : List MarketDataMsg) : Prop where
  from_feed : ∀ msg ∈ session.processedMessages, msg ∈ messages
  once : session.processedMessages.Nodup
  increasing : (session.processedMessages.map MarketDataMsg.seqNum).Pairwise (· < ·)
  processed : session.metrics.processed.toNat = session.processedMessages.length
  filled : frames ≠ [] → ∃ first last,
    session.processedMessages.head? = some first ∧
      session.processedMessages.getLast? = some last ∧
      session.metrics.processed.toNat + session.metrics.seqNumGaps.toNat =
        last.seqNum.toNat - first.seqNum.toNat + 1

/-- A list of messages as a run of the generator leaves it. -/
structure FeedShape (messages : List MarketDataMsg) : Prop where
  increasing : (messages.map MarketDataMsg.seqNum).Pairwise (· < ·)
  short : messages.length < 2 ^ 31
  low : ∀ msg ∈ messages, msg.seqNum.toNat < 2 ^ 62

theorem FeedShape.no_top {messages : List MarketDataMsg} (shape : FeedShape messages) :
    topSeqNum ∉ messages.map MarketDataMsg.seqNum := by
  intro member
  obtain ⟨msg, inFeed, top⟩ := List.mem_map.mp member
  have low := shape.low msg inFeed
  rw [top] at low
  exact absurd low (by decide)

/-- An increasing list lies between its ends. -/
theorem between_ends {messages : List MarketDataMsg}
    (increasing : (messages.map MarketDataMsg.seqNum).Pairwise (· < ·))
    {first last : MarketDataMsg} (isFirst : messages.head? = some first)
    (isLast : messages.getLast? = some last) :
    ∀ msg ∈ messages, first.seqNum.toNat ≤ msg.seqNum.toNat ∧
      msg.seqNum.toNat ≤ last.seqNum.toNat := by
  rw [List.pairwise_map] at increasing
  intro msg member
  constructor
  · obtain ⟨rest, rfl⟩ := List.head?_eq_some_iff.mp isFirst
    rcases List.mem_cons.mp member with rfl | later
    · exact Nat.le_refl _
    · have above := List.rel_of_pairwise_cons increasing later
      exact Nat.le_of_lt (UInt64.lt_iff_toNat_lt.mp above)
  · obtain ⟨init, rfl⟩ := List.getLast?_eq_some_iff.mp isLast
    rcases List.mem_append.mp member with earlier | same
    · have below := (List.pairwise_append.mp increasing).2.2 msg earlier last
        (List.mem_singleton_self _)
      exact Nat.le_of_lt (UInt64.lt_iff_toNat_lt.mp below)
    · rw [List.mem_singleton.mp same]

/-- The numbers that an increasing list leaves out of its range. -/
theorem card_left_out {messages : List MarketDataMsg}
    (increasing : (messages.map MarketDataMsg.seqNum).Pairwise (· < ·))
    {first last : MarketDataMsg} (isFirst : messages.head? = some first)
    (isLast : messages.getLast? = some last) :
    ((Finset.Icc first.seqNum.toNat last.seqNum.toNat).filter fun number =>
        number ∉ messages.map fun msg => msg.seqNum.toNat).card + messages.length =
      last.seqNum.toNat + 1 - first.seqNum.toNat := by
  have inside := between_ends increasing isFirst isLast
  have distinct : (messages.map fun msg => msg.seqNum.toNat).Nodup := by
    rw [List.pairwise_map] at increasing
    rw [List.Nodup, List.pairwise_map]
    exact increasing.imp fun below => Nat.ne_of_lt (UInt64.lt_iff_toNat_lt.mp below)
  have taken : (Finset.Icc first.seqNum.toNat last.seqNum.toNat).filter (fun number =>
      number ∈ messages.map fun msg => msg.seqNum.toNat) =
      (messages.map fun msg => msg.seqNum.toNat).toFinset := by
    ext number
    rw [Finset.mem_filter, List.mem_toFinset, Finset.mem_Icc]
    refine ⟨fun ⟨_, member⟩ => member, fun member => ⟨?_, member⟩⟩
    obtain ⟨msg, inFeed, rfl⟩ := List.mem_map.mp member
    exact inside msg inFeed
  have split := Finset.card_filter_add_card_filter_not
    (s := Finset.Icc first.seqNum.toNat last.seqNum.toNat)
    (p := fun number => number ∈ messages.map fun msg => msg.seqNum.toNat)
  rw [taken, List.toFinset_card_of_nodup distinct, List.length_map, Nat.card_Icc] at split
  omega

theorem sequence_drops_eq_zero {session : Session}
    (all : session.processedMessages.length = (session.classified.map Prod.fst).length) :
    session.sequenceDrops = 0 := by
  rw [Session.processedMessages, List.length_map, List.length_map,
    ← List.countP_eq_length_filter, List.countP_eq_length] at all
  unfold Session.sequenceDrops
  rw [List.countP_eq_zero]
  intro entry member
  simp [all entry member]

theorem whole_feed {messages : List MarketDataMsg} (shape : FeedShape messages)
    {session : Session} (tally : Tally session messages) (spans : Spans session) :
    WholeFeed session messages := by
  have processed : session.processedMessages = messages := by
    rw [tally.processed]
    exact accepted_of_increasing shape.increasing shape.no_top
  have short := shape.short
  refine ⟨tally.classified, ?_, ?_, tally.no_decode_errors, ?_⟩
  · rw [tally.counted, processed,
      UInt64.toNat_ofNat_of_lt' (show messages.length < 2 ^ 64 by omega)]
  · apply sequence_drops_eq_zero
    rw [processed, tally.classified]
  · intro first last isFirst isLast
    have leftOut := card_left_out shape.increasing isFirst isLast
    have filled := spans.filled first last (by rw [processed]; exact isFirst)
      (by rw [processed]; exact isLast)
    rw [processed] at filled
    omega

/-- The first frame is always taken. -/
theorem processed_ne_nil {session : Session} {messages : List MarketDataMsg}
    (tally : Tally session messages) (nonempty : messages ≠ []) :
    session.processedMessages ≠ [] := by
  rw [tally.processed]
  cases messages with
  | nil => exact absurd rfl nonempty
  | cons first rest =>
      have taken : (fresh.verdict first.seqNum).accepted = true := rfl
      rw [acceptedMessages, if_pos taken]
      exact List.cons_ne_nil _ _

theorem partial_feed {feed : List MarketDataMsg} (shape : FeedShape feed)
    {frames : List Frame} (drawn : ∀ msg ∈ messagesOf frames, msg ∈ feed)
    {session : Session} (tally : Tally session (messagesOf frames))
    (spans : Spans session)
    (noTop : topSeqNum ∉ (messagesOf frames).map MarketDataMsg.seqNum) :
    PartialFeed session frames feed := by
  have increasing := (follows_processed tally noTop).1.increasing
  have fromFeed : ∀ msg ∈ session.processedMessages, msg ∈ feed := by
    rw [tally.processed]
    intro msg member
    exact drawn msg (accepted_subset _ _ msg member)
  have once : session.processedMessages.Nodup := by
    rw [List.pairwise_map] at increasing
    refine increasing.imp fun below same => ?_
    rw [same] at below
    exact UInt64.lt_irrefl _ below
  have processed : session.metrics.processed.toNat = session.processedMessages.length := by
    have short := shape.short
    have length : session.processedMessages.length ≤ feed.length :=
      (List.Nodup.subperm once fromFeed).length_le
    rw [tally.counted, UInt64.toNat_ofNat_of_lt'
      (show session.processedMessages.length < 2 ^ 64 by omega)]
  refine ⟨fromFeed, once, increasing, processed, ?_⟩
  intro nonempty
  have some : session.processedMessages ≠ [] := by
    apply processed_ne_nil tally
    exact fun empty => nonempty (List.map_eq_nil_iff.mp empty)
  refine ⟨session.processedMessages.head some, session.processedMessages.getLast some,
    List.head?_eq_some_head some, List.getLast?_eq_some_getLast some, ?_⟩
  have filled := spans.filled _ _ (List.head?_eq_some_head some)
    (List.getLast?_eq_some_getLast some)
  have length : 0 < session.processedMessages.length := List.length_pos_of_ne_nil some
  rw [processed]
  omega

section Generated

open MarketDataEngine.GeneratorV2

variable {Sender : Type} {sendFrames : Sender → List Frame → Int × Sender}

theorem run_feed_shape (accepts : Accepts sendFrames) (order : ByteOrder)
    (uninitialised : Frame) (fd : Sender → Int) (args : RunArgs) (now : Int)
    (generator : Generator) (sender : Sender) :
    FeedShape
      (GeneratorV2.run sendFrames order uninitialised fd args now generator
        sender).batches.flatten := by
  by_cases opened : fd sender < 0
  · simp only [GeneratorV2.run, if_pos opened, List.flatten_nil]
    exact ⟨.nil, by decide, by simp⟩
  · rw [(run_messages order uninitialised accepts fd args now generator sender opened).2]
    obtain ⟨increasing, short, low⟩ := feed_seq args generator
    exact ⟨increasing, short, low⟩

/-- The books of a consumer of engine v1 or v2 fed by a run of the generator, for
every argument of the run, every sender that takes all batches and all contents of
the output arrays. -/
theorem feed_accounting (accepts : Accepts sendFrames) (senderOrder : ByteOrder)
    (uninitialised : Frame) (fd : Sender → Int) (args : RunArgs) (now : Int)
    (generator : Generator) (sender : Sender) (order : ByteOrder) :
    let messages := (GeneratorV2.run sendFrames senderOrder uninitialised fd args now
      generator sender).batches.flatten
    let datagrams := messages.map (encode senderOrder uninitialised)
    (∀ session, Handled order datagrams session → WholeFeed session messages) ∧
      ∀ frames, (∀ frame ∈ frames, frame ∈ datagrams) →
        ∀ session, Handled order frames session → PartialFeed session frames messages := by
  intro messages datagrams
  have shape : FeedShape messages := run_feed_shape accepts senderOrder uninitialised fd args
    now generator sender
  have sent : messagesOf datagrams = messages :=
    messages_of_encoded senderOrder uninitialised messages
  constructor
  · intro session handled
    have tally := tally_of_handled handled
    have spans := spans_of_handled handled (by rw [sent]; exact shape.no_top)
    rw [sent] at tally
    exact whole_feed shape tally spans
  · intro frames drawn session handled
    have fromFeed : ∀ msg ∈ messagesOf frames, msg ∈ messages := by
      intro msg member
      obtain ⟨frame, inFrames, rfl⟩ := List.mem_map.mp member
      rw [← sent]
      exact List.mem_map_of_mem (drawn frame inFrames)
    have noTop : topSeqNum ∉ (messagesOf frames).map MarketDataMsg.seqNum := by
      intro member
      obtain ⟨msg, inFrames, top⟩ := List.mem_map.mp member
      exact shape.no_top (List.mem_map.mpr ⟨msg, fromFeed msg inFrames, top⟩)
    exact partial_feed shape fromFeed (tally_of_handled handled)
      (spans_of_handled handled noTop) noTop

/-- Six slots from seed 1, with a gap where the random number is a multiple of three. -/
def gapArgs : RunArgs := ⟨6, 0, 1, 3, 1, 2⟩

def gapMessages : List MarketDataMsg :=
  [⟨4, 1, 4, 80, 81, 66, 67⟩, ⟨5, 1, 5, 595, 596, 48, 49⟩, ⟨8, 1, 8, 247, 248, 9, 10⟩]

/-- The numbers 6 and 7 are missing between the second message and the third. -/
theorem gap_messages_accounted :
    ∃ session, consume .big (gapMessages.map (encode .little (Vector.replicate kWireSize 0))) =
        some session ∧
      session.metrics.processed.toNat = 3 ∧ session.metrics.seqNumGaps.toNat = 2 := by
  have accepts : Accepts fun (_ : Unit) (frames : List Frame) =>
    ((frames.length : Int), ()) := fun _ _ => rfl
  have accounting := (feed_accounting accepts .little (Vector.replicate kWireSize 0)
    (fun _ => 3) gapArgs 0 .constructed () .big).1
  have messages := (run_messages .little (Vector.replicate kWireSize 0) accepts (fun _ => 3)
    gapArgs 0 .constructed () (by decide)).2
  have evaluated : feed gapArgs .constructed = gapMessages := by decide +kernel
  rw [messages, evaluated] at accounting
  refine ⟨_, consume_eq _ _, ?_⟩
  have whole := accounting _ (.alone (consume_eq _ _))
  exact ⟨whole.processed, whole.gaps _ _ rfl rfl⟩

end Generated

end MarketDataEngine.Engine
