import MarketDataEngine.StreamBlocks
import MarketDataEngine.WireCodec

/-!
# The blocking TCP transport

`send_all` on one side, `recv_exact`, `recv_exact_until` and both overloads of
`handle_client` on the other, over what the kernel decides call by call: how many
bytes it moves, or which error it reports. A `recv` blocks until there are bytes or
the peer has shut down, so when bytes arrive shows only in these counts. The list
of decisions is finite; behind it every call moves all it can.

A buffer is the list of the bytes written to it so far.
-/

namespace MarketDataEngine.Net

open MarketDataEngine.Protocol MarketDataEngine.StreamBlocks

set_option autoImplicit false

inductive Errno where
  | eintr
  | eagain
  | ewouldblock
  | other
  deriving DecidableEq

/-- A transfer moves at most `more + 1` bytes. -/
inductive Decision where
  | transfer (more : Nat)
  | error (errno : Errno)
  deriving DecidableEq

/-! ## Sending -/

/-- `accepted` are the bytes the kernel has taken over, in order. -/
structure Outbound where
  accepted : List UInt8
  decisions : List Decision

inductive SendReply where
  | sent (count : Nat)
  | error (errno : Errno)

namespace Outbound

def accept (outbound : Outbound) (data : List UInt8) (count : Nat) : Outbound :=
  { outbound with accepted := outbound.accepted ++ data.take count }

def send (outbound : Outbound) (data : List UInt8) : SendReply × Outbound :=
  match outbound.decisions with
  | [] => (.sent data.length, outbound.accept data data.length)
  | .transfer more :: rest =>
      let count := min (more + 1) data.length
      (.sent count, { outbound with decisions := rest }.accept data count)
  | .error errno :: rest => (.error errno, { outbound with decisions := rest })

end Outbound

/-- What a call of `send` can do. -/
inductive Sent (outbound next : Outbound) (data : List UInt8) : SendReply → Prop where
  | sent (count : Nat) (some_ : 0 < count) (fits : count ≤ data.length)
      (accepted : next.accepted = outbound.accepted ++ data.take count)
      (decisions : ∃ taken, outbound.decisions = taken ++ next.decisions) :
      Sent outbound next data (.sent count)
  | error (errno : Errno) (accepted : next.accepted = outbound.accepted)
      (decisions : outbound.decisions = .error errno :: next.decisions) :
      Sent outbound next data (.error errno)

theorem sent_of_send {outbound next : Outbound} {data : List UInt8} {reply : SendReply}
    (present : 0 < data.length) (answered : outbound.send data = (reply, next)) :
    Sent outbound next data reply := by
  unfold Outbound.send at answered
  split at answered
  · cases answered
    exact .sent _ present (Nat.le_refl _) rfl ⟨[], rfl⟩
  · next more rest decided =>
      cases answered
      exact .sent _ (by omega) (Nat.min_le_right _ _) rfl ⟨[_], decided⟩
  · next errno rest decided =>
      cases answered
      exact .error errno rfl decided

theorem decisions_of_sent {outbound next : Outbound} {data : List UInt8} {reply : SendReply}
    (sent : Sent outbound next data reply) :
    next.decisions.length ≤ outbound.decisions.length ∧
      (∀ errno, reply = .error errno → next.decisions.length < outbound.decisions.length) := by
  cases sent with
  | sent count some_ fits accepted decisions =>
      obtain ⟨taken, decided⟩ := decisions
      rw [decided, List.length_append]
      exact ⟨Nat.le_add_left _ _, fun errno impossible => by cases impossible⟩
  | error errno accepted decisions =>
      rw [decisions]
      exact ⟨Nat.le_succ _, fun _ _ => Nat.lt_succ_self _⟩

theorem drop_present {data : List UInt8} {total : Nat} (missing : total < data.length) :
    0 < (data.drop total).length := by
  rw [List.length_drop]
  omega

/-- The loop of `send_all`. -/
def sendFrom (outbound : Outbound) (data : List UInt8) (total : Nat) : Bool × Outbound :=
  if _missing : total < data.length then
    match _answered : outbound.send (data.drop total) with
    | (.sent n, next) =>
        if 0 < n then sendFrom next data (total + n) else (false, next)
    | (.error .eintr, next) => sendFrom next data total
    | (.error _, next) => (false, next)
  else (true, outbound)
termination_by data.length - total + outbound.decisions.length
decreasing_by
  · have fewer := (decisions_of_sent (sent_of_send (drop_present _missing) _answered)).1
    omega
  · have fewer := (decisions_of_sent (sent_of_send (drop_present _missing) _answered)).2 .eintr
      rfl
    omega

/-- A null pointer is `none`. -/
def sendAll (outbound : Outbound) (data : Option (List UInt8)) : Bool × Outbound :=
  match data with
  | none => (true, outbound)
  | some data => if data.length = 0 then (true, outbound) else sendFrom outbound data 0

/-- A client that sends one buffer after the other and gives up at the first failure. -/
def sendEach (outbound : Outbound) : List (List UInt8) → Bool × Outbound
  | [] => (true, outbound)
  | data :: rest =>
      match sendAll outbound (some data) with
      | (true, next) => sendEach next rest
      | (false, next) => (false, next)

/-! ## Receiving -/

/-- `stream` is what arrives before the end of the connection. -/
structure Inbound where
  stream : List UInt8
  decisions : List Decision

inductive RecvReply where
  | bytes (data : List UInt8)
  | closed
  | error (errno : Errno)

namespace Inbound

def deliver (inbound : Inbound) (count : Nat) : RecvReply × Inbound :=
  if inbound.stream = [] then (.closed, inbound)
  else
    (.bytes (inbound.stream.take count), { inbound with stream := inbound.stream.drop count })

def recv (inbound : Inbound) (len : Nat) : RecvReply × Inbound :=
  match inbound.decisions with
  | [] => inbound.deliver len
  | .transfer more :: rest => { inbound with decisions := rest }.deliver (min (more + 1) len)
  | .error errno :: rest => (.error errno, { inbound with decisions := rest })

def size (inbound : Inbound) : Nat := inbound.stream.length + inbound.decisions.length

end Inbound

/-- What a call of `recv` can do. -/
inductive Recved (inbound next : Inbound) (len : Nat) : RecvReply → Prop where
  | bytes (data : List UInt8) (some_ : 0 < data.length) (fits : data.length ≤ len)
      (stream : inbound.stream = data ++ next.stream)
      (decisions : ∃ taken, inbound.decisions = taken ++ next.decisions) :
      Recved inbound next len (.bytes data)
  | closed (stream : inbound.stream = []) (same : next.stream = [])
      (decisions : ∃ taken, inbound.decisions = taken ++ next.decisions) :
      Recved inbound next len .closed
  | error (errno : Errno) (stream : next.stream = inbound.stream)
      (decisions : inbound.decisions = .error errno :: next.decisions) :
      Recved inbound next len (.error errno)

theorem recved_of_deliver {inbound next : Inbound} {count : Nat} {reply : RecvReply}
    {taken : List Decision} (positive : 0 < count) {len : Nat} (fits : count ≤ len)
    (answered : ({ inbound with decisions := taken } : Inbound).deliver count = (reply, next))
    (decided : ∃ before, inbound.decisions = before ++ taken) :
    Recved inbound next len reply := by
  unfold Inbound.deliver at answered
  split_ifs at answered with ended
  · cases answered
    exact .closed ended ended decided
  · cases answered
    have present : 0 < inbound.stream.length := List.length_pos_iff.mpr ended
    have length : (inbound.stream.take count).length = min count inbound.stream.length :=
      List.length_take
    refine .bytes _ ?_ ?_ (List.take_append_drop _ _).symm decided
    · rw [length]
      omega
    · rw [length]
      omega

theorem recved_of_recv {inbound next : Inbound} {len : Nat} {reply : RecvReply}
    (positive : 0 < len) (answered : inbound.recv len = (reply, next)) :
    Recved inbound next len reply := by
  unfold Inbound.recv at answered
  split at answered
  · next none_ =>
      have same : ({ inbound with decisions := [] } : Inbound) = inbound := by
        rw [← none_]
      rw [← same] at answered
      exact recved_of_deliver positive (Nat.le_refl _) answered ⟨[], none_⟩
  · next more rest decided =>
      have some_ : 0 < min (more + 1) len := by omega
      exact recved_of_deliver some_ (Nat.min_le_right _ _) answered ⟨[_], decided⟩
  · next errno rest decided =>
      cases answered
      exact .error errno rfl decided

theorem size_of_recved {inbound next : Inbound} {len : Nat} {reply : RecvReply}
    (recved : Recved inbound next len reply) :
    next.size ≤ inbound.size ∧ (reply ≠ .closed → next.size < inbound.size) := by
  unfold Inbound.size
  cases recved with
  | bytes data some_ fits stream decisions =>
      obtain ⟨taken, decided⟩ := decisions
      rw [stream, decided, List.length_append, List.length_append]
      exact ⟨by omega, fun _ => by omega⟩
  | closed stream same decisions =>
      obtain ⟨taken, decided⟩ := decisions
      rw [stream, same, decided, List.length_append]
      exact ⟨by omega, fun impossible => absurd rfl impossible⟩
  | error errno stream decisions =>
      rw [stream, decisions, List.length_cons]
      exact ⟨by omega, fun _ => by omega⟩

/-- A call in a loop that still misses bytes leaves no more to do, and less unless it has
met the end of the stream. -/
theorem recv_shrinks {inbound next : Inbound} {total len : Nat} {reply : RecvReply}
    (missing : total < len) (answered : inbound.recv (len - total) = (reply, next)) :
    next.size ≤ inbound.size ∧ (reply ≠ .closed → next.size < inbound.size) :=
  size_of_recved (recved_of_recv (Nat.sub_pos_of_lt missing) answered)

/-- `n` is the return value, `buff` what has been written to the buffer. -/
structure RecvRun where
  n : Int
  buff : List UInt8
  inbound : Inbound

/-- The loop of `recv_exact` with `total` bytes in the buffer. -/
def recvFrom (inbound : Inbound) (len : Nat) (buff : List UInt8) : RecvRun :=
  if _missing : buff.length < len then
    match answered : inbound.recv (len - buff.length) with
    | (.bytes data, next) => recvFrom next len (buff ++ data)
    | (.closed, next) => ⟨0, buff, next⟩
    | (.error .eintr, next) => recvFrom next len buff
    | (.error _, next) => ⟨-1, buff, next⟩
  else ⟨buff.length, buff, inbound⟩
termination_by inbound.size
decreasing_by
  all_goals
    exact (recv_shrinks _missing answered).2 (by simp)

def recvExact (inbound : Inbound) (len : Nat) : RecvRun := recvFrom inbound len []

/-- `calls` counts the calls of `should_stop` so far; the answer may change from call to
call. -/
structure PolledRun where
  run : RecvRun
  calls : Nat

def recvUntilFrom (shouldStop : Nat → Bool) (calls : Nat) (inbound : Inbound) (len : Nat)
    (buff : List UInt8) : PolledRun :=
  if _missing : buff.length < len then
    if shouldStop calls then ⟨⟨-2, buff, inbound⟩, calls + 1⟩
    else
      match answered : inbound.recv (len - buff.length) with
      | (.bytes data, next) => recvUntilFrom shouldStop (calls + 1) next len (buff ++ data)
      | (.closed, next) => ⟨⟨0, buff, next⟩, calls + 1⟩
      | (.error .eintr, next) => recvUntilFrom shouldStop (calls + 1) next len buff
      | (.error .eagain, next) => recvUntilFrom shouldStop (calls + 1) next len buff
      | (.error .ewouldblock, next) => recvUntilFrom shouldStop (calls + 1) next len buff
      | (.error _, next) => ⟨⟨-1, buff, next⟩, calls + 1⟩
  else ⟨⟨buff.length, buff, inbound⟩, calls⟩
termination_by inbound.size
decreasing_by
  all_goals
    exact (recv_shrinks _missing answered).2 (by simp)

def recvExactUntil (shouldStop : Nat → Bool) (calls : Nat) (inbound : Inbound) (len : Nat) :
    PolledRun :=
  recvUntilFrom shouldStop calls inbound len []

/-! ## The messages of a client -/

theorem recv_from_shrinks (inbound : Inbound) (len : Nat) (buff : List UInt8) :
    (recvFrom inbound len buff).inbound.size ≤ inbound.size ∧
      (buff.length < len → 0 < (recvFrom inbound len buff).n →
        (recvFrom inbound len buff).inbound.size < inbound.size) := by
  fun_induction recvFrom inbound len buff with
  | case1 inbound buff missing data next answered ih =>
      have shrunk := (recv_shrinks missing answered).2 (by simp)
      exact ⟨by omega, fun _ _ => by omega⟩
  | case2 inbound buff missing next answered =>
      have kept := (recv_shrinks missing answered).1
      exact ⟨kept, fun _ impossible => absurd impossible (by simp)⟩
  | case3 inbound buff missing next answered ih =>
      have shrunk := (recv_shrinks missing answered).2 (by simp)
      exact ⟨by omega, fun _ _ => by omega⟩
  | case4 inbound buff missing errno next other answered =>
      have kept := (recv_shrinks missing answered).1
      exact ⟨kept, fun _ impossible => absurd impossible (by simp)⟩
  | case5 inbound buff full => exact ⟨Nat.le_refl _, fun missing => absurd missing full⟩

theorem recv_until_from_shrinks (shouldStop : Nat → Bool) (calls : Nat) (inbound : Inbound)
    (len : Nat) (buff : List UInt8) :
    (recvUntilFrom shouldStop calls inbound len buff).run.inbound.size ≤ inbound.size ∧
      (buff.length < len → 0 < (recvUntilFrom shouldStop calls inbound len buff).run.n →
        (recvUntilFrom shouldStop calls inbound len buff).run.inbound.size < inbound.size) := by
  fun_induction recvUntilFrom shouldStop calls inbound len buff with
  | case1 calls inbound buff missing stop =>
      exact ⟨Nat.le_refl _, fun _ impossible => absurd impossible (by simp)⟩
  | case3 calls inbound buff missing running next answered =>
      have kept := (recv_shrinks missing answered).1
      exact ⟨kept, fun _ impossible => absurd impossible (by simp)⟩
  | case7 calls inbound buff missing running errno next noIntr noAgain noBlock answered =>
      have kept := (recv_shrinks missing answered).1
      exact ⟨kept, fun _ impossible => absurd impossible (by simp)⟩
  | case8 calls inbound buff full =>
      exact ⟨Nat.le_refl _, fun missing => absurd missing full⟩
  | case2 calls inbound buff missing running data next answered ih
  | case4 calls inbound buff missing running next answered ih
  | case5 calls inbound buff missing running next answered ih
  | case6 calls inbound buff missing running next answered ih =>
      have shrunk := (recv_shrinks missing answered).2 (by simp)
      exact ⟨by omega, fun _ _ => by omega⟩

/-- The return value and the bytes `on_message` has been called with. -/
structure ClientRun where
  result : Bool
  messages : List (List UInt8)

def bufferSize : Nat := 4096

/-- The loop of `handle_client`; `messages` are the calls so far. -/
def clientFrom (msgLen : Nat) (positive : 0 < msgLen) (inbound : Inbound)
    (messages : List (List UInt8)) : ClientRun :=
  let received := recvExact inbound msgLen
  if _message : 0 < received.n then
    clientFrom msgLen positive received.inbound (messages ++ [received.buff])
  else if received.n = 0 then ⟨true, messages⟩
  else ⟨false, messages⟩
termination_by inbound.size
decreasing_by exact (recv_from_shrinks inbound msgLen []).2 positive _message

def handleClient (inbound : Inbound) (msgLen : Nat) : ClientRun :=
  if refused : msgLen = 0 ∨ bufferSize < msgLen then ⟨false, []⟩
  else clientFrom msgLen (Nat.pos_of_ne_zero fun zero => refused (.inl zero)) inbound []

def clientUntilFrom (shouldStop : Nat → Bool) (calls : Nat) (msgLen : Nat)
    (positive : 0 < msgLen) (inbound : Inbound) (messages : List (List UInt8)) : ClientRun :=
  let received := recvExactUntil shouldStop calls inbound msgLen
  if _message : 0 < received.run.n then
    clientUntilFrom shouldStop received.calls msgLen positive received.run.inbound
      (messages ++ [received.run.buff])
  else if received.run.n = 0 then ⟨true, messages⟩
  else if received.run.n = -2 then ⟨false, messages⟩
  else ⟨false, messages⟩
termination_by inbound.size
decreasing_by exact (recv_until_from_shrinks shouldStop calls inbound msgLen []).2 positive _message

def handleClientUntil (shouldStop : Nat → Bool) (inbound : Inbound) (msgLen : Nat) : ClientRun :=
  if refused : msgLen = 0 ∨ bufferSize < msgLen then ⟨false, []⟩
  else
    clientUntilFrom shouldStop 0 msgLen
      (Nat.pos_of_ne_zero fun zero => refused (.inl zero)) inbound []

/-! ## Sending all -/

/-- Every error is an interrupted call. -/
def Interrupted (decisions : List Decision) : Prop :=
  ∀ errno, .error errno ∈ decisions → errno = .eintr

/-- Every error is an interrupted call or a timeout. -/
def Retried (decisions : List Decision) : Prop :=
  ∀ errno, .error errno ∈ decisions → errno ≠ .other

theorem interrupted_suffix {decisions taken rest : List Decision}
    (interrupted : Interrupted decisions) (decided : decisions = taken ++ rest) :
    Interrupted rest := by
  intro errno member
  apply interrupted errno
  rw [decided]
  exact List.mem_append_right taken member

theorem send_from_sends_all (outbound : Outbound) (data : List UInt8) (total : Nat)
    (interrupted : Interrupted outbound.decisions) :
    ∃ next, sendFrom outbound data total = (true, next) ∧
      next.accepted = outbound.accepted ++ data.drop total ∧ Interrupted next.decisions := by
  fun_induction sendFrom outbound data total with
  | case1 outbound total missing n next answered positive ih =>
      cases sent_of_send (drop_present missing) answered with
      | sent _ some_ fits accepted decisions =>
          obtain ⟨taken, decided⟩ := decisions
          obtain ⟨final, finished, all, still⟩ := ih (interrupted_suffix interrupted decided)
          refine ⟨final, finished, ?_, still⟩
          rw [all, accepted, List.append_assoc, ← List.drop_drop, List.take_append_drop]
  | case2 outbound total missing n next answered none_ =>
      cases sent_of_send (drop_present missing) answered with
      | sent _ some_ fits accepted decisions => exact absurd some_ none_
  | case3 outbound total missing next answered ih =>
      cases sent_of_send (drop_present missing) answered with
      | error _ accepted decisions =>
          obtain ⟨final, finished, all, still⟩ :=
            ih (interrupted_suffix interrupted (decisions.trans (List.singleton_append).symm))
          exact ⟨final, finished, all.trans (by rw [accepted]), still⟩
  | case4 outbound total missing errno next other answered =>
      cases sent_of_send (drop_present missing) answered with
      | error _ accepted decisions =>
          refine absurd (interrupted errno ?_) (fun eintr => other eintr)
          rw [decisions]
          exact List.mem_cons_self
  | case5 outbound total complete =>
      refine ⟨outbound, rfl, ?_, interrupted⟩
      rw [List.drop_eq_nil_of_le (Nat.le_of_not_lt complete), List.append_nil]

theorem send_all_sends_all (outbound : Outbound) (data : List UInt8)
    (interrupted : Interrupted outbound.decisions) :
    ∃ next, sendAll outbound (some data) = (true, next) ∧
      next.accepted = outbound.accepted ++ data ∧ Interrupted next.decisions := by
  simp only [sendAll]
  split_ifs with empty
  · refine ⟨outbound, rfl, ?_, interrupted⟩
    rw [List.eq_nil_of_length_eq_zero empty, List.append_nil]
  · exact send_from_sends_all outbound data 0 interrupted

theorem send_each_sends_all (buffers : List (List UInt8)) (outbound : Outbound)
    (interrupted : Interrupted outbound.decisions) :
    (sendEach outbound buffers).1 = true ∧
      (sendEach outbound buffers).2.accepted = outbound.accepted ++ buffers.flatten := by
  induction buffers generalizing outbound with
  | nil => exact ⟨rfl, (List.append_nil _).symm⟩
  | cons data rest ih =>
      obtain ⟨next, sent, accepted, still⟩ := send_all_sends_all outbound data interrupted
      obtain ⟨allSent, allAccepted⟩ := ih next still
      simp only [sendEach, sent]
      refine ⟨allSent, ?_⟩
      rw [allAccepted, accepted, List.flatten_cons, List.append_assoc]

/-! ## Receiving all -/

/-- With enough bytes `recv_exact` fills the buffer; else it runs into the end. -/
theorem recv_from_reads (inbound : Inbound) (len : Nat) (buff : List UInt8)
    (interrupted : Interrupted inbound.decisions) (fits : buff.length ≤ len) :
    Interrupted (recvFrom inbound len buff).inbound.decisions ∧
      if len ≤ (buff ++ inbound.stream).length then
        (recvFrom inbound len buff).n = len ∧
          (recvFrom inbound len buff).buff = (buff ++ inbound.stream).take len ∧
          (recvFrom inbound len buff).inbound.stream = (buff ++ inbound.stream).drop len
      else (recvFrom inbound len buff).n = 0 := by
  fun_induction recvFrom inbound len buff with
  | case1 inbound buff missing data next answered ih =>
      cases recved_of_recv (Nat.sub_pos_of_lt missing) answered with
      | bytes _ some_ dataFits stream decisions =>
          obtain ⟨taken, decided⟩ := decisions
          have read := ih (interrupted_suffix interrupted decided)
            (by rw [List.length_append]; omega)
          rw [List.append_assoc, ← stream] at read
          exact read
  | case2 inbound buff missing next answered =>
      cases recved_of_recv (Nat.sub_pos_of_lt missing) answered with
      | closed stream same decisions =>
          obtain ⟨taken, decided⟩ := decisions
          refine ⟨interrupted_suffix interrupted decided, ?_⟩
          rw [stream, List.append_nil, if_neg (Nat.not_le_of_lt missing)]
  | case3 inbound buff missing next answered ih =>
      cases recved_of_recv (Nat.sub_pos_of_lt missing) answered with
      | error _ stream decisions =>
          have read := ih
            (interrupted_suffix interrupted (decisions.trans (List.singleton_append).symm)) fits
          rw [stream] at read
          exact read
  | case4 inbound buff missing errno next other answered =>
      cases recved_of_recv (Nat.sub_pos_of_lt missing) answered with
      | error _ stream decisions =>
          refine absurd (interrupted errno ?_) (fun eintr => other eintr)
          rw [decisions]
          exact List.mem_cons_self
  | case5 inbound buff full =>
      have exactly : buff.length = len := by omega
      refine ⟨interrupted, ?_⟩
      rw [if_pos (by rw [List.length_append]; omega), ← exactly, List.take_left, List.drop_left]
      exact ⟨rfl, rfl, rfl⟩

theorem client_from_delivers (msgLen : Nat) (positive : 0 < msgLen) (inbound : Inbound)
    (messages : List (List UInt8)) (interrupted : Interrupted inbound.decisions) :
    clientFrom msgLen positive inbound messages =
      ⟨true, messages ++ blocks msgLen inbound.stream⟩ := by
  fun_induction clientFrom msgLen positive inbound messages with
  | case1 inbound messages received message ih =>
      obtain ⟨still, read⟩ :=
        recv_from_reads inbound msgLen [] interrupted (Nat.zero_le _)
      rw [List.nil_append] at read
      split_ifs at read with enough
      · obtain ⟨-, buff, stream⟩ := read
        have split := (blocks_of_long positive enough).1
        have received_ : received.buff = inbound.stream.take msgLen := buff
        have rest : received.inbound.stream = inbound.stream.drop msgLen := stream
        rw [ih still, received_, rest, split, List.append_assoc, List.singleton_append]
      · exact absurd read (Int.ne_of_gt message)
  | case2 inbound messages received silent ended =>
      have read := (recv_from_reads inbound msgLen [] interrupted (Nat.zero_le _)).2
      rw [List.nil_append] at read
      split_ifs at read with enough
      · have n : received.n = msgLen := read.1
        omega
      · rw [(blocks_of_short (Nat.lt_of_not_le enough)).1, List.append_nil]
  | case3 inbound messages received silent failed =>
      have read := (recv_from_reads inbound msgLen [] interrupted (Nat.zero_le _)).2
      rw [List.nil_append] at read
      split_ifs at read with enough
      · have n : received.n = msgLen := read.1
        omega
      · exact absurd read failed

/-- For every length that fits the buffer the whole blocks are delivered, in order. -/
theorem handle_client_delivers {msgLen : Nat} (positive : 1 ≤ msgLen)
    (fits : msgLen ≤ bufferSize) {inbound : Inbound}
    (interrupted : Interrupted inbound.decisions) :
    handleClient inbound msgLen = ⟨true, blocks msgLen inbound.stream⟩ := by
  have accepted : ¬ (msgLen = 0 ∨ bufferSize < msgLen) := by omega
  rw [handleClient, dif_neg accepted]
  exact client_from_delivers msgLen positive inbound [] interrupted

/-! ## Polling between the calls -/

/-- A timeout taken for an interrupted call. -/
def Decision.patient : Decision → Decision
  | .error .eagain => .error .eintr
  | .error .ewouldblock => .error .eintr
  | decision => decision

def Inbound.patient (inbound : Inbound) : Inbound :=
  { inbound with decisions := inbound.decisions.map Decision.patient }

def RecvReply.patient : RecvReply → RecvReply
  | .error .eagain => .error .eintr
  | .error .ewouldblock => .error .eintr
  | reply => reply

theorem deliver_patient {inbound next : Inbound} {count : Nat} {reply : RecvReply}
    (answered : inbound.deliver count = (reply, next)) :
    inbound.patient.deliver count = (reply.patient, next.patient) := by
  unfold Inbound.deliver at answered ⊢
  rw [show inbound.patient.stream = inbound.stream from rfl]
  split_ifs at answered ⊢ with ended
  · cases answered
    rfl
  · cases answered
    rfl

theorem recv_patient {inbound next : Inbound} {len : Nat} {reply : RecvReply}
    (answered : inbound.recv len = (reply, next)) :
    inbound.patient.recv len = (reply.patient, next.patient) := by
  obtain ⟨stream, decisions⟩ := inbound
  cases decisions with
  | nil => exact deliver_patient answered
  | cons decision rest =>
      cases decision with
      | transfer more =>
          have delivered : (⟨stream, rest⟩ : Inbound).deliver (min (more + 1) len) =
              (reply, next) := answered
          exact deliver_patient delivered
      | error errno =>
          cases answered
          cases errno <;> rfl

section Equations

variable {inbound next : Inbound} {len : Nat} {buff : List UInt8}

theorem recv_from_bytes {data : List UInt8} (missing : buff.length < len)
    (answered : inbound.recv (len - buff.length) = (.bytes data, next)) :
    recvFrom inbound len buff = recvFrom next len (buff ++ data) := by
  rw [recvFrom, dif_pos missing]
  split <;> rename_i other <;> rw [answered] at other <;> cases other
  rfl

theorem recv_from_closed (missing : buff.length < len)
    (answered : inbound.recv (len - buff.length) = (.closed, next)) :
    recvFrom inbound len buff = ⟨0, buff, next⟩ := by
  rw [recvFrom, dif_pos missing]
  split <;> rename_i other <;> rw [answered] at other <;> cases other
  rfl

theorem recv_from_interrupted (missing : buff.length < len)
    (answered : inbound.recv (len - buff.length) = (.error .eintr, next)) :
    recvFrom inbound len buff = recvFrom next len buff := by
  rw [recvFrom, dif_pos missing]
  split <;> rename_i other <;> rw [answered] at other <;> cases other
  · rfl
  · next different => exact absurd rfl different

theorem recv_from_failed {errno : Errno} (missing : buff.length < len)
    (answered : inbound.recv (len - buff.length) = (.error errno, next))
    (failed : errno ≠ .eintr) : recvFrom inbound len buff = ⟨-1, buff, next⟩ := by
  rw [recvFrom, dif_pos missing]
  split <;> rename_i other <;> rw [answered] at other <;> cases other
  · exact absurd rfl failed
  · rfl

end Equations

/-- A receive that is never told to stop is a receive that retries timeouts. -/
theorem recv_until_from_patient (shouldStop : Nat → Bool)
    (never : ∀ call, shouldStop call = false) (calls : Nat) (inbound : Inbound) (len : Nat)
    (buff : List UInt8) :
    let run := (recvUntilFrom shouldStop calls inbound len buff).run
    recvFrom inbound.patient len buff = { run with inbound := run.inbound.patient } := by
  fun_induction recvUntilFrom shouldStop calls inbound len buff with
  | case1 calls inbound buff missing stop =>
      rw [never] at stop
      cases stop
  | case2 calls inbound buff missing running data next answered ih =>
      exact (recv_from_bytes missing (recv_patient answered)).trans ih
  | case3 calls inbound buff missing running next answered =>
      exact recv_from_closed missing (recv_patient answered)
  | case4 calls inbound buff missing running next answered ih
  | case5 calls inbound buff missing running next answered ih
  | case6 calls inbound buff missing running next answered ih =>
      exact (recv_from_interrupted missing (recv_patient answered)).trans ih
  | case7 calls inbound buff missing running errno next noIntr noAgain noBlock answered =>
      cases errno with
      | eintr => exact absurd rfl noIntr
      | eagain => exact absurd rfl noAgain
      | ewouldblock => exact absurd rfl noBlock
      | other =>
          have failed : Errno.other ≠ .eintr := by decide
          exact recv_from_failed missing (recv_patient answered) failed
  | case8 calls inbound buff full => rw [recvFrom, dif_neg full]

theorem client_from_eq {msgLen : Nat} (positive : 0 < msgLen) {inbound : Inbound}
    {run : RecvRun} (received : recvFrom inbound msgLen [] = run)
    (messages : List (List UInt8)) :
    clientFrom msgLen positive inbound messages =
      if 0 < run.n then clientFrom msgLen positive run.inbound (messages ++ [run.buff])
      else if run.n = 0 then ⟨true, messages⟩
      else ⟨false, messages⟩ := by
  rw [clientFrom, ← received]
  rfl

theorem client_until_from_patient (shouldStop : Nat → Bool)
    (never : ∀ call, shouldStop call = false) (calls : Nat) (msgLen : Nat)
    (positive : 0 < msgLen) (inbound : Inbound) (messages : List (List UInt8)) :
    clientUntilFrom shouldStop calls msgLen positive inbound messages =
      clientFrom msgLen positive inbound.patient messages := by
  fun_induction clientUntilFrom shouldStop calls msgLen positive inbound messages with
  | case1 calls inbound messages received message ih =>
      have same := recv_until_from_patient shouldStop never calls inbound msgLen []
      rw [client_from_eq positive same messages]
      exact ih.trans (if_pos message).symm
  | case2 calls inbound messages received silent ended =>
      have same := recv_until_from_patient shouldStop never calls inbound msgLen []
      rw [client_from_eq positive same messages]
      exact ((if_neg silent).trans (if_pos ended)).symm
  | case3 calls inbound messages received silent failed stopped
  | case4 calls inbound messages received silent failed notStopped =>
      have same := recv_until_from_patient shouldStop never calls inbound msgLen []
      rw [client_from_eq positive same messages]
      exact ((if_neg silent).trans (if_neg failed)).symm

/-- The two overloads agree when nobody asks to stop and timeouts count as
interruptions. -/
theorem handle_client_until_patient (shouldStop : Nat → Bool)
    (never : ∀ call, shouldStop call = false) (inbound : Inbound) (msgLen : Nat) :
    handleClientUntil shouldStop inbound msgLen = handleClient inbound.patient msgLen := by
  simp only [handleClientUntil, handleClient]
  split_ifs with refused
  · rfl
  · exact client_until_from_patient shouldStop never 0 msgLen _ inbound []

theorem interrupted_patient {inbound : Inbound} (retried : Retried inbound.decisions) :
    Interrupted inbound.patient.decisions := by
  intro errno member
  obtain ⟨decision, decided, same⟩ := List.mem_map.mp member
  cases decision with
  | transfer more => cases same
  | error original =>
      have notOther := retried original decided
      cases original with
      | other => exact absurd rfl notOther
      | eintr => exact (Decision.error.inj same).symm
      | eagain => exact (Decision.error.inj same).symm
      | ewouldblock => exact (Decision.error.inj same).symm

/-! ## Both ends -/

theorem blocks_of_encoded (writer : ByteOrder) (sends : List (Frame × MarketDataMsg)) :
    blocks kWireSize (sends.map fun send => (encode writer send.1 send.2).toList).flatten =
      sends.map fun send => (encode writer send.1 send.2).toList := by
  induction sends with
  | nil => exact blocks_nil
  | cons send rest ih =>
      have positive : 0 < kWireSize := by decide
      have whole : (encode writer send.1 send.2).toList.length = kWireSize :=
        Vector.length_toList
      rw [List.map_cons, List.flatten_cons, (blocks_cons positive whole _).1, ih]

/-- A message list sent by one end and received by the other. `send.1` is the memory that
`encode` finds in its array. -/
structure Transported (writer reader : ByteOrder) (sends : List (Frame × MarketDataMsg))
    (out : MarketDataMsg) (sent : Bool) (run : ClientRun) : Prop where
  sent : sent = true
  received : run.result = true
  decoded : run.messages.map (fun bytes => decode reader bytes bytes.length out) =
    sends.map fun send => (true, send.2)

theorem decoded_of_encoded (writer reader : ByteOrder) (sends : List (Frame × MarketDataMsg))
    (out : MarketDataMsg) :
    (sends.map fun send => (encode writer send.1 send.2).toList).map
        (fun bytes => decode reader bytes bytes.length out) =
      sends.map fun send => (true, send.2) := by
  rw [List.map_map]
  apply List.map_congr_left
  intro send _
  have length : (encode writer send.1 send.2).toList.length = kWireSize := Vector.length_toList
  have enough : kWireSize ≤ (encode writer send.1 send.2).toList.length := Nat.le_of_eq length.symm
  rw [Function.comp_apply, decode_eq reader out enough enough, encode_to_list,
    ← List.append_nil (wireBytes send.2), message_of_wire_bytes]

/-- What `send_all` sends message by message is what `handle_client` delivers, for every
split of the sends and of the receives; and any stream is delivered in whole blocks, by
either overload. -/
theorem blocking_transport_delivers (writer reader : ByteOrder)
    (sends : List (Frame × MarketDataMsg)) (out : MarketDataMsg)
    (sending receiving polling : List Decision) (sendingInterrupted : Interrupted sending)
    (receivingInterrupted : Interrupted receiving) (pollingRetried : Retried polling)
    (shouldStop : Nat → Bool) (never : ∀ call, shouldStop call = false)
    (msgLen : Nat) (positive : 1 ≤ msgLen) (fits : msgLen ≤ 4096) (stream : List UInt8) :
    let client := sendEach ⟨[], sending⟩
      (sends.map fun send => (encode writer send.1 send.2).toList)
    Transported writer reader sends out client.1
        (handleClient ⟨client.2.accepted, receiving⟩ kWireSize) ∧
      Transported writer reader sends out client.1
        (handleClientUntil shouldStop ⟨client.2.accepted, polling⟩ kWireSize) ∧
      handleClient ⟨stream, receiving⟩ msgLen = ⟨true, blocks msgLen stream⟩ ∧
      handleClientUntil shouldStop ⟨stream, polling⟩ msgLen = ⟨true, blocks msgLen stream⟩ := by
  intro client
  have wirePositive : 1 ≤ kWireSize := by decide
  have wireFits : kWireSize ≤ bufferSize := by decide
  obtain ⟨sent, accepted⟩ := send_each_sends_all
    (sends.map fun send => (encode writer send.1 send.2).toList) ⟨[], sending⟩
    sendingInterrupted
  have polled : ∀ {len : Nat} (bytes : List UInt8), 1 ≤ len → len ≤ bufferSize →
      handleClientUntil shouldStop ⟨bytes, polling⟩ len = ⟨true, blocks len bytes⟩ := by
    intro len bytes lenPositive lenFits
    rw [handle_client_until_patient shouldStop never]
    exact handle_client_delivers lenPositive lenFits (interrupted_patient pollingRetried)
  have delivered : blocks kWireSize client.2.accepted =
      sends.map fun send => (encode writer send.1 send.2).toList := by
    rw [accepted, List.nil_append, blocks_of_encoded]
  have received := handle_client_delivers wirePositive wireFits
    (show Interrupted (⟨client.2.accepted, receiving⟩ : Inbound).decisions from
      receivingInterrupted)
  refine ⟨?_, ?_, handle_client_delivers positive fits receivingInterrupted,
    polled stream positive fits⟩
  · rw [received, delivered]
    exact ⟨sent, rfl, decoded_of_encoded writer reader sends out⟩
  · rw [polled client.2.accepted wirePositive wireFits, delivered]
    exact ⟨sent, rfl, decoded_of_encoded writer reader sends out⟩

theorem blocking_transport_delivers_split_message :
    let client := sendEach ⟨[], [.transfer 4, .error .eintr, .transfer 20]⟩
      [(encode .little (Vector.replicate kWireSize 0) ⟨1, 2, 3, 4, 5, 6, 7⟩).toList]
    Transported .little .big [(Vector.replicate kWireSize 0, ⟨1, 2, 3, 4, 5, 6, 7⟩)]
        ⟨0, 0, 0, 0, 0, 0, 0⟩ client.1
        (handleClient ⟨client.2.accepted, [.error .eintr, .transfer 0]⟩ kWireSize) ∧
      handleClientUntil (fun _ => false) ⟨[1, 2, 3, 4], [.error .eagain, .transfer 1]⟩ 3 =
        ⟨true, [[1, 2, 3]]⟩ := by
  have sending : Interrupted [.transfer 4, .error .eintr, .transfer 20] := by
    intro errno member
    simpa using member
  have receiving : Interrupted [.error .eintr, .transfer 0] := by
    intro errno member
    simpa using member
  have polling : Retried [.error .eagain, .transfer 1] := by
    rintro errno member rfl
    simp at member
  obtain ⟨transported, -, -, polled⟩ := blocking_transport_delivers .little .big
    [(Vector.replicate kWireSize 0, ⟨1, 2, 3, 4, 5, 6, 7⟩)] ⟨0, 0, 0, 0, 0, 0, 0⟩ _ _ _
    sending receiving polling (fun _ => false) (fun _ => rfl) 3 (by decide) (by decide)
    [1, 2, 3, 4]
  exact ⟨transported, polled⟩

end MarketDataEngine.Net
