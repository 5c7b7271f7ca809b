import Mathlib.Data.List.Basic
import MarketDataEngine.WireCodec

/-!
# The sequence tracker

`expected_seq_num_` and `seq_initialized_` with the four branches that every
engine runs on a decoded message. The arithmetic is that of `uint64_t`, so
`seq_num + 1` wraps.
-/

namespace MarketDataEngine.Engine

open MarketDataEngine.Protocol

set_option autoImplicit false

structure SequenceTracker where
  expectedSeqNum : UInt64
  seqInitialized : Bool
  deriving DecidableEq

inductive Verdict where
  | first
  | inOrder
  | gap (missing : UInt64)
  | old
  deriving DecidableEq

namespace Verdict

/-- Every branch but the last one counts the message as processed. -/
def accepted : Verdict → Bool
  | .old => false
  | _ => true

/-- The sequence numbers a message was counted to skip. -/
def missing : Verdict → UInt64
  | .gap missing => missing
  | _ => 0

end Verdict

namespace SequenceTracker

def fresh : SequenceTracker := ⟨0, false⟩

def verdict (tracker : SequenceTracker) (seqNum : UInt64) : Verdict :=
  if !tracker.seqInitialized then .first
  else if seqNum = tracker.expectedSeqNum then .inOrder
  else if seqNum > tracker.expectedSeqNum then
    .gap (seqNum - tracker.expectedSeqNum)
  else .old

def advance (tracker : SequenceTracker) (seqNum : UInt64) :
    Verdict → SequenceTracker
  | .first => { expectedSeqNum := seqNum + 1, seqInitialized := true }
  | .inOrder => { tracker with expectedSeqNum := tracker.expectedSeqNum + 1 }
  | .gap _ => { tracker with expectedSeqNum := seqNum + 1 }
  | .old => tracker

def observe (tracker : SequenceTracker) (seqNum : UInt64) : SequenceTracker :=
  tracker.advance seqNum (tracker.verdict seqNum)

def run (tracker : SequenceTracker) (messages : List MarketDataMsg) :
    SequenceTracker :=
  messages.foldl (fun current msg => current.observe msg.seqNum) tracker

/-- The messages taken by one of the accepting branches, in order. -/
def acceptedMessages (tracker : SequenceTracker) :
    List MarketDataMsg → List MarketDataMsg
  | [] => []
  | msg :: rest =>
      if (tracker.verdict msg.seqNum).accepted then
        msg :: (tracker.observe msg.seqNum).acceptedMessages rest
      else (tracker.observe msg.seqNum).acceptedMessages rest

def acceptedSeqNums (tracker : SequenceTracker) (messages : List MarketDataMsg) :
    List UInt64 :=
  (tracker.acceptedMessages messages).map MarketDataMsg.seqNum

theorem run_append (tracker : SequenceTracker) (left right : List MarketDataMsg) :
    tracker.run (left ++ right) = (tracker.run left).run right :=
  List.foldl_append

theorem accepted_messages_append (tracker : SequenceTracker)
    (left right : List MarketDataMsg) :
    tracker.acceptedMessages (left ++ right) =
      tracker.acceptedMessages left ++ (tracker.run left).acceptedMessages right := by
  induction left generalizing tracker with
  | nil => rfl
  | cons msg rest ih =>
      simp only [List.cons_append, acceptedMessages, ih]
      split_ifs <;> rfl

theorem accepted_seq_nums_snoc (tracker : SequenceTracker)
    (messages : List MarketDataMsg) (msg : MarketDataMsg) :
    tracker.acceptedSeqNums (messages ++ [msg]) =
      tracker.acceptedSeqNums messages ++
        (if ((tracker.run messages).verdict msg.seqNum).accepted then [msg.seqNum]
          else []) := by
  simp only [acceptedSeqNums, accepted_messages_append, acceptedMessages,
    List.map_append]
  split_ifs <;> rfl

theorem run_snoc (tracker : SequenceTracker) (messages : List MarketDataMsg)
    (msg : MarketDataMsg) :
    tracker.run (messages ++ [msg]) =
      (tracker.run messages).observe msg.seqNum := by
  rw [run_append]
  rfl

theorem verdict_initialized {tracker : SequenceTracker} {seqNum : UInt64}
    (initialized : tracker.seqInitialized = true) :
    (tracker.verdict seqNum).accepted = true ↔
      tracker.expectedSeqNum ≤ seqNum := by
  simp only [verdict, initialized, Bool.not_true, Bool.false_eq_true, ↓reduceIte,
    UInt64.le_iff_toNat_le, UInt64.lt_iff_toNat_lt, ← UInt64.toNat_inj, gt_iff_lt]
  split_ifs <;> simp [Verdict.accepted] <;> omega

/-- An accepting branch leaves `seq_num + 1` behind, on every branch. -/
theorem observe_accepted {tracker : SequenceTracker} {seqNum : UInt64}
    (taken : (tracker.verdict seqNum).accepted = true) :
    tracker.observe seqNum = ⟨seqNum + 1, true⟩ := by
  obtain ⟨expected, initialized⟩ := tracker
  cases initialized with
  | false => rfl
  | true =>
      simp only [observe, verdict, Bool.not_true, Bool.false_eq_true,
        ↓reduceIte] at taken ⊢
      split_ifs at taken ⊢ with inOrder above
      · simp [advance, inOrder]
      · rfl
      · simp [Verdict.accepted] at taken

theorem observe_rejected {tracker : SequenceTracker} {seqNum : UInt64}
    (rejected : ¬ (tracker.verdict seqNum).accepted = true) :
    tracker.observe seqNum = tracker := by
  unfold observe
  cases seen : tracker.verdict seqNum with
  | old => rfl
  | first => simp [seen, Verdict.accepted] at rejected
  | inOrder => simp [seen, Verdict.accepted] at rejected
  | gap missing => simp [seen, Verdict.accepted] at rejected

/-- Where the tracker stands after a history whose accepted sequence numbers
are `accepted`: it expects the successor of the last one, which is the largest. -/
structure Follows (tracker : SequenceTracker) (accepted : List UInt64) : Prop where
  increasing : accepted.Pairwise (· < ·)
  start : accepted = [] → tracker = fresh
  successor : ∀ last, accepted.getLast? = some last →
    tracker = ⟨last + 1, true⟩

theorem last_dominates {accepted : List UInt64} {last : UInt64}
    (increasing : accepted.Pairwise (· < ·))
    (isLast : accepted.getLast? = some last) {seqNum : UInt64} :
    (∀ earlier ∈ accepted, earlier < seqNum) ↔ last < seqNum := by
  obtain ⟨init, rfl⟩ := List.getLast?_eq_some_iff.mp isLast
  rw [List.pairwise_append] at increasing
  constructor
  · intro above
    exact above last (by simp)
  · intro above earlier member
    rcases List.mem_append.mp member with inInit | isLast
    · exact UInt64.lt_trans (increasing.2.2 earlier inInit last (by simp)) above
    · rw [List.mem_singleton.mp isLast]
      exact above

/-- The one value whose successor wraps to zero. -/
def topSeqNum : UInt64 := UInt64.ofNat (2 ^ 64 - 1)

theorem lt_top_of_ne {seqNum : UInt64} (below : seqNum ≠ topSeqNum) :
    seqNum < topSeqNum := by
  have notTop : seqNum.toNat ≠ 2 ^ 64 - 1 := fun top =>
    below (UInt64.toNat_inj.mp top)
  have bound := seqNum.toNat_lt
  rw [UInt64.lt_iff_toNat_lt]
  show seqNum.toNat < 2 ^ 64 - 1
  omega

theorem not_top_lt {seqNum : UInt64} : ¬ topSeqNum < seqNum := by
  have bound := seqNum.toNat_lt
  rw [UInt64.lt_iff_toNat_lt]
  show ¬ 2 ^ 64 - 1 < seqNum.toNat
  omega

theorem to_nat_succ {last : UInt64} (noWrap : last ≠ topSeqNum) :
    (last + 1).toNat = last.toNat + 1 := by
  have below : last.toNat < 2 ^ 64 - 1 :=
    UInt64.lt_iff_toNat_lt.mp (lt_top_of_ne noWrap)
  simp only [UInt64.toNat_add, UInt64.reduceToNat]
  omega

theorem succ_le_iff_lt {last seqNum : UInt64} (noWrap : last ≠ topSeqNum) :
    last + 1 ≤ seqNum ↔ last < seqNum := by
  rw [UInt64.le_iff_toNat_le, UInt64.lt_iff_toNat_lt, to_nat_succ noWrap]
  exact Nat.succ_le_iff

theorem follows_fresh : Follows fresh [] := by
  refine ⟨.nil, fun _ => rfl, ?_⟩
  intro last isLast
  cases isLast

/-- As long as the top value has not been accepted, the tracker's comparison
with `expected_seq_num_` is the comparison with everything accepted before. -/
theorem verdict_of_follows {tracker : SequenceTracker} {accepted : List UInt64}
    (follows : Follows tracker accepted) (noTop : topSeqNum ∉ accepted)
    (seqNum : UInt64) :
    (tracker.verdict seqNum).accepted = true ↔
      ∀ earlier ∈ accepted, earlier < seqNum := by
  cases isLast : accepted.getLast? with
  | none =>
      have empty : accepted = [] := List.getLast?_eq_none_iff.mp isLast
      rw [follows.start empty, empty]
      exact ⟨fun _ _ member => absurd member List.not_mem_nil, fun _ => rfl⟩
  | some last =>
      have member : last ∈ accepted := List.mem_of_getLast? isLast
      have noWrap : last ≠ topSeqNum := fun top => noTop (top ▸ member)
      rw [last_dominates follows.increasing isLast, follows.successor last isLast,
        verdict_initialized rfl]
      exact succ_le_iff_lt noWrap

theorem follows_observe {tracker : SequenceTracker} {accepted : List UInt64}
    (follows : Follows tracker accepted) (noTop : topSeqNum ∉ accepted)
    (seqNum : UInt64) :
    Follows (tracker.observe seqNum)
      (accepted ++ if (tracker.verdict seqNum).accepted then [seqNum] else []) := by
  by_cases taken : (tracker.verdict seqNum).accepted = true
  · rw [if_pos taken, observe_accepted taken]
    have above := (verdict_of_follows follows noTop seqNum).mp taken
    refine ⟨?_, ?_, ?_⟩
    · rw [List.pairwise_append]
      exact ⟨follows.increasing, List.pairwise_singleton _ _, by simpa using above⟩
    · simp
    · simp
  · rw [if_neg taken, observe_rejected taken, List.append_nil]
    exact follows

theorem follows_run (messages : List MarketDataMsg)
    (noTop : topSeqNum ∉ messages.map MarketDataMsg.seqNum) :
    Follows (fresh.run messages) (fresh.acceptedSeqNums messages) ∧
      topSeqNum ∉ fresh.acceptedSeqNums messages := by
  induction messages using List.reverseRecOn with
  | nil => exact ⟨follows_fresh, List.not_mem_nil⟩
  | append_singleton messages msg ih =>
      simp only [List.map_append, List.map_cons, List.map_nil, List.mem_append,
        List.mem_singleton, not_or] at noTop
      obtain ⟨follows, absent⟩ := ih noTop.1
      rw [run_snoc, accepted_seq_nums_snoc]
      refine ⟨follows_observe follows absent msg.seqNum, ?_⟩
      split_ifs <;> simp [absent, noTop.2]

/-- The law of the tracker: a message is taken exactly if it is the first one
or lies above everything taken before it, and what is taken increases. -/
def AcceptsRecords (messages : List MarketDataMsg) : Prop :=
  (∀ before msg after, messages = before ++ msg :: after →
    (((fresh.run before).verdict msg.seqNum).accepted = true ↔
      before = [] ∨
        ∀ earlier ∈ fresh.acceptedSeqNums before, earlier < msg.seqNum)) ∧
  (fresh.acceptedSeqNums messages).Pairwise (· < ·)

/-- The top value leaves zero behind, and nothing is below zero. -/
theorem accepted_after_top {tracker : SequenceTracker}
    (taken : (tracker.verdict topSeqNum).accepted = true) (seqNum : UInt64) :
    ((tracker.observe topSeqNum).verdict seqNum).accepted = true := by
  rw [observe_accepted taken, verdict_initialized rfl]
  exact UInt64.zero_le

theorem accepts_records_of_no_top {messages : List MarketDataMsg}
    (noTop : topSeqNum ∉ messages.dropLast.map MarketDataMsg.seqNum) :
    AcceptsRecords messages := by
  refine ⟨?_, ?_⟩
  · rintro before msg after rfl
    have absent : topSeqNum ∉ before.map MarketDataMsg.seqNum := by
      intro member
      apply noTop
      rw [List.dropLast_append_of_ne_nil (by simp), List.map_append]
      exact List.mem_append_left _ member
    obtain ⟨follows, notAccepted⟩ := follows_run before absent
    rw [verdict_of_follows follows notAccepted]
    constructor
    · exact Or.inr
    · rintro (rfl | above)
      · exact fun _ member => absurd member List.not_mem_nil
      · exact above
  · cases messages using List.reverseRecOn with
    | nil => exact .nil
    | append_singleton messages msg =>
        rw [List.dropLast_concat] at noTop
        obtain ⟨follows, notAccepted⟩ := follows_run messages noTop
        rw [accepted_seq_nums_snoc]
        exact (follows_observe follows notAccepted msg.seqNum).increasing

theorem not_accepts_records_of_top {messages : List MarketDataMsg}
    (top : topSeqNum ∈ messages.dropLast.map MarketDataMsg.seqNum) :
    ¬ AcceptsRecords messages := by
  intro law
  -- Cut at the first message that carries the top value; another one follows it.
  obtain ⟨seqNumsBefore, seqNumsAfter, split, firstTop⟩ :=
    List.eq_append_cons_of_mem top
  obtain ⟨before, rest, initSplit, rfl, restSplit⟩ := List.map_eq_append_iff.mp split
  obtain ⟨topMsg, middle, rfl, isTop, -⟩ := List.map_eq_cons_iff.mp restSplit
  obtain ⟨next, after, follower⟩ : ∃ next after,
      messages = before ++ topMsg :: next :: after := by
    have nonempty : messages ≠ [] := by
      rintro rfl
      cases top
    have whole := List.dropLast_concat_getLast nonempty
    rw [initSplit, List.append_assoc, List.cons_append] at whole
    cases middle with
    | nil => exact ⟨_, [], whole.symm⟩
    | cons next later => exact ⟨next, later ++ [messages.getLast nonempty], whole.symm⟩
  have takenTop : ((fresh.run before).verdict topMsg.seqNum).accepted = true := by
    obtain ⟨follows, notAccepted⟩ := follows_run before firstTop
    rw [verdict_of_follows follows notAccepted, isTop]
    intro earlier member
    have below : earlier ≠ topSeqNum := fun same => notAccepted (same ▸ member)
    exact lt_top_of_ne below
  have takenNext : ((fresh.run (before ++ [topMsg])).verdict next.seqNum).accepted =
      true := by
    rw [run_snoc, isTop]
    exact accepted_after_top (isTop ▸ takenTop) next.seqNum
  have recordNext := (law.1 (before ++ [topMsg]) next after
    (by rw [follower, List.append_assoc]; rfl)).mp takenNext
  rcases recordNext with empty | above
  · simp at empty
  · have topBelow := above topMsg.seqNum (by
      rw [accepted_seq_nums_snoc, if_pos takenTop]
      simp)
    rw [isTop] at topBelow
    exact not_top_lt topBelow

/-- The tracker keeps its law exactly on the lists that carry the top value
at their last position at most. -/
theorem accepts_records_iff (messages : List MarketDataMsg) :
    AcceptsRecords messages ↔
      topSeqNum ∉ messages.dropLast.map MarketDataMsg.seqNum := by
  constructor
  · exact fun law top => not_accepts_records_of_top top law
  · exact accepts_records_of_no_top

/-- A datagram with the top sequence number makes the tracker take message
zero after it. -/
theorem top_seq_num_reopens_tracker :
    ¬ AcceptsRecords [⟨topSeqNum, 0, 0, 0, 0, 0, 0⟩, ⟨0, 0, 0, 0, 0, 0, 0⟩] := by
  intro law
  have taken := (law.1 [⟨topSeqNum, 0, 0, 0, 0, 0, 0⟩] ⟨0, 0, 0, 0, 0, 0, 0⟩ [] rfl).mp
    (by decide)
  rcases taken with empty | above
  · cases empty
  · exact absurd (above topSeqNum List.mem_cons_self) not_top_lt

end SequenceTracker

end MarketDataEngine.Engine
