import Mathlib.Data.List.Basic
import MarketDataEngine.WireCodec

/-!
# The batch receiver of engine v2

`Receiver::receive_batch` and `Receiver::epoll_receive` as functions of what the
kernel answers. A call reads its answers from a list and stops at the first one
that is not an interrupted system call; a list that ends earlier is no call at
all. The engine passes frames that point at slots, so the tests for null frames
never apply. Peer addresses are left out: no caller reads them.
-/

namespace MarketDataEngine.Net

open MarketDataEngine.Protocol

set_option autoImplicit false

/-- One received frame: the two fields that `recvmmsg` reports and the slot as
the kernel left it. -/
structure RxFrame where
  len : Nat
  truncated : Bool
  slot : Frame

structure ReceiverStats where
  receivedPackets : UInt64
  receivedBytes : UInt64
  receivedErrors : UInt64
  eagain : UInt64
  deriving DecidableEq

/-- `fdOpen` and `epfdOpen` stand for `fd_ >= 0` and `epfd_ >= 0`. -/
structure Receiver where
  fdOpen : Bool
  epfdOpen : Bool
  stats : ReceiverStats
  deriving DecidableEq

inductive RecvmmsgReply where
  | frames (first : RxFrame) (rest : List RxFrame)
  | interrupted
  | again
  | failed
  | nothing

inductive EpollWaitReply where
  | ready (error : Bool)
  | timeout
  | interrupted
  | failed

/-- The return value: negative, zero, or the frames it counts. -/
inductive RxResult where
  | failed
  | nothing
  | frames (first : RxFrame) (rest : List RxFrame)

namespace RxResult

def received : RxResult → List RxFrame
  | .frames first rest => first :: rest
  | _ => []

end RxResult

namespace Receiver

def close (receiver : Receiver) : Receiver :=
  { receiver with fdOpen := false, epfdOpen := false }

def countError (receiver : Receiver) : Receiver :=
  { receiver with stats :=
    { receiver.stats with receivedErrors := receiver.stats.receivedErrors + 1 } }

def countEagain (receiver : Receiver) : Receiver :=
  { receiver with stats :=
    { receiver.stats with eagain := receiver.stats.eagain + 1 } }

def countFrame (receiver : Receiver) (frame : RxFrame) : Receiver :=
  { receiver with stats :=
    { receiver.stats with
      receivedPackets := receiver.stats.receivedPackets + 1
      receivedBytes := receiver.stats.receivedBytes + UInt64.ofNat frame.len } }

/-- The loop around `recvmmsg`, which returns at most `count` frames. -/
def recvmmsgLoop (receiver : Receiver) (count : Nat) :
    List RecvmmsgReply → Option (Receiver × RxResult)
  | [] => none
  | .frames first rest :: _ =>
      if (first :: rest).length ≤ count then
        some ((first :: rest).foldl countFrame receiver, .frames first rest)
      else none
  | .interrupted :: replies => receiver.recvmmsgLoop count replies
  | .again :: _ => some (receiver.countEagain, .nothing)
  | .failed :: _ => some (receiver.countError, .failed)
  | .nothing :: _ => some (receiver, .failed)

def receiveBatch (receiver : Receiver) (count : Nat)
    (replies : List RecvmmsgReply) : Option (Receiver × RxResult) :=
  if !receiver.fdOpen || count == 0 then some (receiver, .failed)
  else receiver.recvmmsgLoop count replies

/-- `created` says whether `epoll_create1` and `epoll_ctl` would succeed. -/
def ensureEpoll (receiver : Receiver) (created : Bool) : Receiver × Bool :=
  if !receiver.fdOpen then (receiver, false)
  else if receiver.epfdOpen then (receiver, true)
  else if created then ({ receiver with epfdOpen := true }, true)
  else (receiver, false)

def epollLoop (receiver : Receiver) (count : Nat) (replies : List RecvmmsgReply) :
    List EpollWaitReply → Option (Receiver × RxResult)
  | [] => none
  | .ready error :: _ =>
      if error then some (receiver.countError, .failed)
      else receiver.receiveBatch count replies
  | .timeout :: _ => some (receiver, .nothing)
  | .interrupted :: waits => receiver.epollLoop count replies waits
  | .failed :: _ => some (receiver.countError, .failed)

def epollReceive (receiver : Receiver) (count : Nat) (created : Bool)
    (waits : List EpollWaitReply) (replies : List RecvmmsgReply) :
    Option (Receiver × RxResult) :=
  let (receiver, ok) := receiver.ensureEpoll created
  if ok then receiver.epollLoop count replies waits
  else some (receiver.countError, .failed)

/-! ## Packets are counted as they are returned -/

/-- What a call may do to the packet counter, given how many frames it was
offered room for. -/
def Accounts (count : Nat) (before : Receiver) (outcome : Receiver × RxResult) : Prop :=
  outcome.1.stats.receivedPackets =
      before.stats.receivedPackets + UInt64.ofNat outcome.2.received.length ∧
    outcome.2.received.length ≤ count

theorem count_frames_packets (frames : List RxFrame) (receiver : Receiver) :
    (frames.foldl countFrame receiver).stats.receivedPackets =
      receiver.stats.receivedPackets + UInt64.ofNat frames.length := by
  induction frames generalizing receiver with
  | nil => simp
  | cons frame rest ih =>
      rw [List.foldl_cons, ih, List.length_cons, Nat.add_comm rest.length 1,
        UInt64.ofNat_add, ← UInt64.add_assoc]
      rfl

theorem accounts_nothing {count : Nat} {before after : Receiver} {result : RxResult}
    (same : after.stats.receivedPackets = before.stats.receivedPackets)
    (empty : result.received = []) : Accounts count before (after, result) := by
  unfold Accounts
  simp only [empty, same, List.length_nil]
  exact ⟨(UInt64.add_zero _).symm, Nat.zero_le _⟩

theorem recvmmsg_loop_accounts {receiver : Receiver} {count : Nat}
    {replies : List RecvmmsgReply} {outcome : Receiver × RxResult}
    (returned : receiver.recvmmsgLoop count replies = some outcome) :
    Accounts count receiver outcome := by
  induction replies with
  | nil => cases returned
  | cons reply replies ih =>
      cases reply with
      | frames first rest =>
          simp only [recvmmsgLoop] at returned
          split_ifs at returned with bounded
          cases returned
          exact ⟨count_frames_packets (first :: rest) receiver, bounded⟩
      | interrupted => exact ih returned
      | again =>
          cases returned
          exact accounts_nothing rfl rfl
      | failed =>
          cases returned
          exact accounts_nothing rfl rfl
      | nothing =>
          cases returned
          exact accounts_nothing rfl rfl

theorem receive_batch_accounts {receiver : Receiver} {count : Nat}
    {replies : List RecvmmsgReply} {outcome : Receiver × RxResult}
    (returned : receiver.receiveBatch count replies = some outcome) :
    Accounts count receiver outcome := by
  unfold receiveBatch at returned
  split_ifs at returned
  · cases returned
    exact accounts_nothing rfl rfl
  · exact recvmmsg_loop_accounts returned

theorem epoll_loop_accounts {receiver : Receiver} {count : Nat}
    {waits : List EpollWaitReply} {replies : List RecvmmsgReply}
    {outcome : Receiver × RxResult}
    (returned : receiver.epollLoop count replies waits = some outcome) :
    Accounts count receiver outcome := by
  induction waits with
  | nil => cases returned
  | cons wait waits ih =>
      cases wait with
      | ready error =>
          simp only [epollLoop] at returned
          split_ifs at returned
          · cases returned
            exact accounts_nothing rfl rfl
          · exact receive_batch_accounts returned
      | timeout =>
          cases returned
          exact accounts_nothing rfl rfl
      | interrupted => exact ih returned
      | failed =>
          cases returned
          exact accounts_nothing rfl rfl

theorem ensure_epoll_stats (receiver : Receiver) (created : Bool) :
    (receiver.ensureEpoll created).1.stats = receiver.stats := by
  unfold ensureEpoll
  split_ifs <;> rfl

theorem epoll_receive_accounts {receiver : Receiver} {count : Nat} {created : Bool}
    {waits : List EpollWaitReply} {replies : List RecvmmsgReply}
    {outcome : Receiver × RxResult}
    (returned : receiver.epollReceive count created waits replies = some outcome) :
    Accounts count receiver outcome := by
  have stats := ensure_epoll_stats receiver created
  unfold epollReceive at returned
  simp only at returned
  split_ifs at returned
  · have accounts := epoll_loop_accounts returned
    unfold Accounts at accounts ⊢
    rwa [stats] at accounts
  · cases returned
    exact accounts_nothing (by rw [← stats]; rfl) rfl

end Receiver

end MarketDataEngine.Net
