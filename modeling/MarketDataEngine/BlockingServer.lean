import MarketDataEngine.DescriptorLedger
import MarketDataEngine.TcpFeeds

/-!
# The blocking server and its clients

`setup_server` of the blocking transport: the listening socket, then one client after the
other, each handled until it hangs up or a `recv` fails. A client that keeps its connection
open holds up the loop, so the next one is accepted behind its end. The loop is left by `die`
only, which ends the process.
-/

namespace MarketDataEngine.Net

open MarketDataEngine.Protocol MarketDataEngine.StreamBlocks
open MarketDataEngine.DescriptorLedger MarketDataEngine.TransitionSystem

set_option autoImplicit false

/-- The calls of `make_listen_socket` behind `socket`. -/
inductive ListenCall where
  | setsockopt
  | bind
  | listen

inductive AcceptErrno where
  | eintr
  | ebadf
  | einval
  | other

/-- A connection comes with its number and with what will arrive on it. -/
inductive AcceptAnswer where
  | connected (cfd : Nat) (inbound : Inbound)
  | error (errno : AcceptErrno)

/-- The points of `setup_server`. No client is a `cfd` of `-1`. -/
inductive ServePoint where
  | socket
  | prepare (call : ListenCall)
  | accept
  | handle (client : Option (Nat × Inbound))
  | close (cfd : Option Nat)
  | exited

/-- `served` are the connections whose handling is over and `messages` the calls of
`on_message`, both in order. -/
structure BlockingServer where
  point : ServePoint
  listenFd : Option Nat
  ledger : Ledger
  served : List Inbound
  messages : List (List UInt8)

inductive ServeLabel where
  | socket (fd : Option Nat)
  | prepare (ok : Bool)
  | accept (answer : AcceptAnswer)
  | handle
  | close

def ListenCall.next : ListenCall → ServePoint
  | .setsockopt => .prepare .bind
  | .bind => .prepare .listen
  | .listen => .accept

/-- Three errors make `accept_one` return `-1`; at any other it calls `die`. -/
def acceptOne : AcceptAnswer → ServePoint
  | .connected cfd inbound => .handle (some (cfd, inbound))
  | .error .eintr => .handle none
  | .error .ebadf => .handle none
  | .error .einval => .handle none
  | .error .other => .exited

/-- A `recv` on `-1` fails. -/
def noDescriptor : Inbound := ⟨[], [.error .other]⟩

namespace BlockingServer

variable (server : BlockingServer)

def opened (fd : Nat) (next : BlockingServer) : Option BlockingServer :=
  if server.ledger.table fd = none then some { next with ledger := server.ledger.acquire fd }
  else none

/-- The result of `handle_client` is not looked at. -/
def handled (msgLen : Nat) : Option (Nat × Inbound) → BlockingServer
  | some (cfd, inbound) =>
      { server with
        point := .close (some cfd)
        served := server.served ++ [inbound]
        messages := server.messages ++ (handleClient inbound msgLen).messages }
  | none =>
      { server with
        point := .close none
        messages := server.messages ++ (handleClient noDescriptor msgLen).messages }

/-- The `close` of `-1` fails and closes nothing; the ledger does not record it. -/
def closed : Option Nat → BlockingServer
  | some cfd => { server with point := .accept, ledger := server.ledger.close cfd }
  | none => { server with point := .accept }

def step (msgLen : Nat) (label : ServeLabel) : Option BlockingServer :=
  match server.point, label with
  | .socket, .socket (some fd) =>
      server.opened fd { server with point := .prepare .setsockopt, listenFd := some fd }
  | .socket, .socket none => some { server with point := .exited }
  | .prepare call, .prepare true => some { server with point := call.next }
  | .prepare _, .prepare false => some { server with point := .exited }
  | .accept, .accept (.connected cfd inbound) =>
      server.opened cfd { server with point := acceptOne (.connected cfd inbound) }
  | .accept, .accept (.error errno) => some { server with point := acceptOne (.error errno) }
  | .handle client, .handle => some (server.handled msgLen client)
  | .close cfd, .close => some (server.closed cfd)
  | _, _ => none

def initial : BlockingServer := ⟨.socket, none, ⟨fun _ => none, 0, [], []⟩, [], []⟩

end BlockingServer

def blockingServer (msgLen : Nat) : System BlockingServer ServeLabel where
  start := fun server => server = .initial
  step := fun server label => server.step msgLen label

/-! ## A client whose connection may fail -/

/-- Whatever errors the kernel reports, a positive result is a whole block. -/
theorem recv_from_whole (inbound : Inbound) (len : Nat) (buff : List UInt8)
    (fits : buff.length ≤ len) (positive : 0 < (recvFrom inbound len buff).n) :
    len ≤ (buff ++ inbound.stream).length ∧
      (recvFrom inbound len buff).buff = (buff ++ inbound.stream).take len ∧
      (recvFrom inbound len buff).inbound.stream = (buff ++ inbound.stream).drop len := by
  fun_induction recvFrom inbound len buff with
  | case1 inbound buff missing data next answered ih =>
      cases recved_of_recv (Nat.sub_pos_of_lt missing) answered with
      | bytes _ some_ dataFits stream decisions =>
          have read := ih (by rw [List.length_append]; omega) positive
          rw [List.append_assoc, ← stream] at read
          exact read
  | case2 inbound buff missing next answered => exact absurd positive (by simp)
  | case3 inbound buff missing next answered ih =>
      cases recved_of_recv (Nat.sub_pos_of_lt missing) answered with
      | error _ stream decisions =>
          have read := ih fits positive
          rw [stream] at read
          exact read
  | case4 inbound buff missing errno next other answered => exact absurd positive (by simp)
  | case5 inbound buff full =>
      have exactly : buff.length = len := by omega
      refine ⟨by rw [List.length_append]; omega, ?_, ?_⟩
      · rw [← exactly, List.take_left]
      · rw [← exactly, List.drop_left]

theorem client_from_first (msgLen : Nat) (positive : 0 < msgLen) (inbound : Inbound)
    (messages : List (List UInt8)) :
    ∃ delivered, delivered <+: blocks msgLen inbound.stream ∧
      (clientFrom msgLen positive inbound messages).messages = messages ++ delivered := by
  fun_induction clientFrom msgLen positive inbound messages with
  | case1 inbound messages received message ih =>
      obtain ⟨enough, buff, stream⟩ :=
        recv_from_whole inbound msgLen [] (Nat.zero_le _) message
      rw [List.nil_append] at enough buff stream
      have split := (blocks_of_long positive enough).1
      obtain ⟨delivered, first, all⟩ := ih
      have rest : received.inbound.stream = inbound.stream.drop msgLen := stream
      rw [rest] at first
      refine ⟨received.buff :: delivered, ?_, ?_⟩
      · rw [split, show received.buff = inbound.stream.take msgLen from buff]
        exact List.cons_prefix_cons.mpr ⟨rfl, first⟩
      · rw [all, List.append_assoc, List.singleton_append]
  | case2 inbound messages received silent ended =>
      exact ⟨[], List.nil_prefix, (List.append_nil _).symm⟩
  | case3 inbound messages received silent failed =>
      exact ⟨[], List.nil_prefix, (List.append_nil _).symm⟩

/-- A failed connection has lost the blocks at its end, and no others. -/
theorem handle_client_first (inbound : Inbound) (msgLen : Nat) :
    (handleClient inbound msgLen).messages <+: blocks msgLen inbound.stream := by
  unfold handleClient
  split_ifs with refused
  · exact List.nil_prefix
  · obtain ⟨delivered, first, all⟩ := client_from_first msgLen
      (Nat.pos_of_ne_zero fun zero => refused (.inl zero)) inbound []
    rw [all, List.nil_append]
    exact first

theorem handle_no_descriptor (msgLen : Nat) : (handleClient noDescriptor msgLen).messages = [] := by
  have first := handle_client_first noDescriptor msgLen
  rw [show noDescriptor.stream = [] from rfl, blocks_nil] at first
  exact List.prefix_nil.mp first

/-! ## Client after client -/

/-- The descriptor of the client that is being served. -/
def ServePoint.cfd : ServePoint → Option Nat
  | .handle client => client.map Prod.fst
  | .close cfd => cfd
  | _ => none

/-- Open are the listening socket and the client's; each served client has left the messages
that `handle_client` makes of its connection. -/
structure Serving (msgLen : Nat) (server : BlockingServer) : Prop where
  sound : server.ledger.Sound
  opened : ∀ number, server.ledger.Open number ↔
    server.listenFd = some number ∨ server.point.cfd = some number
  apart : ∀ cfd, server.point.cfd = some cfd → server.listenFd ≠ some cfd
  unset : server.point = .socket → server.listenFd = none
  messages : server.messages =
    server.served.flatMap fun inbound => (handleClient inbound msgLen).messages

section Steps

variable {msgLen : Nat} {server next : BlockingServer}

theorem serving_initial (msgLen : Nat) : Serving msgLen .initial where
  sound := @sound_renew ⟨fun _ => none, 0, [], []⟩ fun _ => rfl
  opened := by
    intro number
    simp [BlockingServer.initial, Ledger.Open, ServePoint.cfd]
  apart := by
    intro cfd impossible
    cases impossible
  unset := fun _ => rfl
  messages := rfl

/-- The thread moves on and holds the same descriptors. -/
theorem serving_goto (serving : Serving msgLen server) {point : ServePoint}
    (same : point.cfd = server.point.cfd) (started : point ≠ .socket) :
    Serving msgLen { server with point := point } where
  sound := serving.sound
  opened := by
    intro number
    rw [same]
    exact serving.opened number
  apart := by
    intro cfd held
    exact serving.apart cfd (same.symm.trans held)
  unset := fun socket => absurd socket started
  messages := serving.messages

theorem serving_socket (serving : Serving msgLen server) (at_ : server.point = .socket) {fd : Nat}
    (taken : server.opened fd
      { server with point := .prepare .setsockopt, listenFd := some fd } = some next) :
    Serving msgLen next := by
  unfold BlockingServer.opened at taken
  split_ifs at taken with free
  cases taken
  refine ⟨sound_acquire serving.sound free, ?_, ?_, ?_, serving.messages⟩
  · intro number
    rw [open_acquire, serving.opened, serving.unset at_, at_]
    simp [ServePoint.cfd, eq_comm]
  · intro cfd impossible
    cases impossible
  · intro impossible
    cases impossible

theorem serving_connected (serving : Serving msgLen server) (at_ : server.point = .accept)
    {cfd : Nat} {inbound : Inbound}
    (taken : server.opened cfd { server with point := .handle (some (cfd, inbound)) } =
      some next) : Serving msgLen next := by
  unfold BlockingServer.opened at taken
  split_ifs at taken with free
  cases taken
  refine ⟨sound_acquire serving.sound free, ?_, ?_, ?_, serving.messages⟩
  · intro number
    rw [open_acquire, serving.opened, at_]
    simp [ServePoint.cfd, eq_comm, or_comm]
  · intro other its listening
    have same : cfd = other := Option.some.inj its
    apply not_open_iff.mpr free
    rw [serving.opened, same]
    exact .inl listening
  · intro impossible
    cases impossible

theorem serving_handled (serving : Serving msgLen server) {client : Option (Nat × Inbound)}
    (at_ : server.point = .handle client) : Serving msgLen (server.handled msgLen client) := by
  have moved : Serving msgLen { server with point := .close (client.map Prod.fst) } := by
    apply serving_goto serving
    · rw [at_]
      rfl
    · exact ServePoint.noConfusion
  cases client with
  | none =>
      refine ⟨moved.sound, moved.opened, moved.apart, moved.unset, ?_⟩
      simp only [BlockingServer.handled]
      rw [handle_no_descriptor, List.append_nil]
      exact serving.messages
  | some client =>
      refine ⟨moved.sound, moved.opened, moved.apart, moved.unset, ?_⟩
      simp only [BlockingServer.handled]
      rw [serving.messages, List.flatMap_append, List.flatMap_singleton]

theorem serving_closed (serving : Serving msgLen server) {cfd : Option Nat}
    (at_ : server.point = .close cfd) : Serving msgLen (server.closed cfd) := by
  cases cfd with
  | none =>
      apply serving_goto serving
      · rw [at_]
        rfl
      · exact ServePoint.noConfusion
  | some cfd =>
      have held : server.point.cfd = some cfd := by
        rw [at_]
        rfl
      have open_ : server.ledger.Open cfd := (serving.opened cfd).mpr (.inr held)
      refine ⟨sound_close serving.sound open_, ?_, ?_, ?_, serving.messages⟩
      · intro number
        have apart := serving.apart cfd held
        show (server.ledger.close cfd).Open number ↔
          server.listenFd = some number ∨ none = some number
        rw [open_close, serving.opened, held]
        constructor
        · rintro ⟨other, listening | its⟩
          · exact .inl listening
          · exact absurd (Option.some.inj its).symm other
        · rintro (listening | impossible)
          · refine ⟨?_, .inl listening⟩
            rintro rfl
            exact apart listening
          · cases impossible
      · intro other impossible
        cases impossible
      · intro impossible
        cases impossible

theorem serving_step (serving : Serving msgLen server) {label : ServeLabel}
    (taken : server.step msgLen label = some next) : Serving msgLen next := by
  unfold BlockingServer.step at taken
  split at taken
  · next fd at_ => exact serving_socket serving at_ taken
  · next at_ =>
      cases taken
      exact serving_goto serving (by rw [at_]; rfl) ServePoint.noConfusion
  · next call at_ =>
      cases taken
      cases call <;> exact serving_goto serving (by rw [at_]; rfl) ServePoint.noConfusion
  · next call at_ =>
      cases taken
      exact serving_goto serving (by rw [at_]; rfl) ServePoint.noConfusion
  · next cfd inbound at_ => exact serving_connected serving at_ taken
  · next errno at_ =>
      cases taken
      cases errno <;> exact serving_goto serving (by rw [at_]; rfl) ServePoint.noConfusion
  · next client at_ =>
      cases taken
      exact serving_handled serving at_
  · next cfd at_ =>
      cases taken
      exact serving_closed serving at_
  · cases taken

end Steps

theorem serving_of_reaches {msgLen : Nat} {server : BlockingServer}
    (reached : Reaches (blockingServer msgLen) server) : Serving msgLen server := by
  refine invariant_of_step ?_ ?_ reached
  · intro start same
    rw [show start = .initial from same]
    exact serving_initial msgLen
  · intro state label next _ before _ taken
    exact serving_step before taken

/-! ## What the clients have sent -/

/-- The messages of one connection: the first of its client's, and all of them if every send
succeeded and no `recv` failed. -/
theorem handled_of_sending (writer reader : ByteOrder) (out : MarketDataMsg)
    {sends : List (Frame × MarketDataMsg)} {inbound : Inbound}
    (sending : Sending writer sends inbound.stream) :
    ∃ count ≤ sends.length,
      decoded reader out (handleClient inbound kWireSize).messages =
        (sends.take count).map (fun send => (true, send.2)) ∧
      (SentAll writer sends inbound.stream → Interrupted inbound.decisions →
        count = sends.length) := by
  have first := handle_client_first inbound kWireSize
  obtain ⟨whole, bound, count, frames⟩ :=
    decoded_beginning writer reader out (sending_beginning sending)
  have few : (handleClient inbound kWireSize).messages.length ≤ whole := by
    have shorter := first.length_le
    rw [blocks, List.length_map, List.length_range, ← count] at shorter
    exact shorter
  refine ⟨(handleClient inbound kWireSize).messages.length, few.trans bound, ?_, ?_⟩
  · rw [List.prefix_iff_eq_take] at first
    have shown := congrArg (decoded reader out) first
    rw [decoded, decoded, List.map_take] at shown
    rw [decoded] at frames
    rw [decoded, shown, frames, ← List.map_take, List.take_take, Nat.min_eq_left few]
  · intro sentAll interrupted
    have positive : 1 ≤ kWireSize := by decide
    have fits : kWireSize ≤ bufferSize := by decide
    rw [handle_client_delivers positive fits interrupted, sent_all_eq sentAll, encodedSends,
      blocks_of_encoded, List.length_map]

theorem flat_map_by_index {α β : Type} {items : List α} {whole : α → List β}
    {part : Nat → List β}
    (same : ∀ index item, items[index]? = some item → whole item = part index) :
    items.flatMap whole = (List.range items.length).flatMap part := by
  rw [List.flatMap_def, List.flatMap_def]
  congr 1
  apply List.ext_getElem
  · simp
  · intro index inside _
    rw [List.getElem_map, List.getElem_map, List.getElem_range]
    apply same
    rw [List.length_map] at inside
    exact List.getElem?_eq_getElem inside

/-- Over all clients and all failures of their connections, `on_message` is called with the
messages of one client behind those of the clients accepted before it: with the first ones of
each, and with all if its sends succeeded and no `recv` failed. No client's failure costs
another one a message, and of the descriptors of clients only the current one's is open. The
`close(-1)` behind an `accept` that was interrupted is not in the ledger. -/
theorem blocking_server_serves {server : BlockingServer}
    (reached : Reaches (blockingServer kWireSize) server) (reader : ByteOrder)
    (out : MarketDataMsg) (writer : Nat → ByteOrder)
    (sends : Nat → List (Frame × MarketDataMsg))
    (sending : ∀ client inbound, server.served[client]? = some inbound →
      Sending (writer client) (sends client) inbound.stream) :
    (∃ count : Nat → Nat,
      decoded reader out server.messages =
        (List.range server.served.length).flatMap (fun client =>
          ((sends client).take (count client)).map fun send => (true, send.2)) ∧
      ∀ client inbound, server.served[client]? = some inbound →
        count client ≤ (sends client).length ∧
        (SentAll (writer client) (sends client) inbound.stream →
          Interrupted inbound.decisions → count client = (sends client).length)) ∧
    server.ledger.Sound ∧
    ∀ number, server.ledger.Open number ↔
      server.listenFd = some number ∨ server.point.cfd = some number := by
  have serving := serving_of_reaches reached
  refine ⟨?_, serving.sound, serving.opened⟩
  have each : ∀ client, ∃ count, ∀ inbound, server.served[client]? = some inbound →
      count ≤ (sends client).length ∧
      decoded reader out (handleClient inbound kWireSize).messages =
        ((sends client).take count).map (fun send => (true, send.2)) ∧
      (SentAll (writer client) (sends client) inbound.stream →
        Interrupted inbound.decisions → count = (sends client).length) := by
    intro client
    cases found : server.served[client]? with
    | none => exact ⟨0, fun inbound impossible => nomatch impossible⟩
    | some inbound =>
        obtain ⟨count, bound, shown, all⟩ := handled_of_sending (writer client) reader out
          (sending client inbound found)
        refine ⟨count, ?_⟩
        rintro other same
        cases same
        exact ⟨bound, shown, all⟩
  choose count counted using each
  refine ⟨count, ?_, ?_⟩
  · rw [serving.messages, decoded, List.map_flatMap]
    apply flat_map_by_index
    intro client inbound found
    exact (counted client inbound found).2.1
  · intro client inbound found
    obtain ⟨bound, -, all⟩ := counted client inbound found
    exact ⟨bound, all⟩

def oneMessage : List (Frame × MarketDataMsg) := [(Vector.replicate kWireSize 0, sevens)]

theorem sent_all_sevens : SentAll .little oneMessage (List.replicate 44 7) := by
  refine ⟨[], ?_⟩
  have buffers : encodedSends .little oneMessage = [List.replicate 44 7] := by
    rw [oneMessage, encodedSends, List.map_singleton, encode_sevens]
  rw [buffers]
  decide +kernel

/-- The first connection breaks before the end of its message, a signal interrupts `accept`,
and the second client gets the number of the first. -/
def brokenThenWhole : List ServeLabel :=
  [.socket (some 3), .prepare true, .prepare true, .prepare true,
    .accept (.connected 4 ⟨List.replicate 43 7, [.transfer 9, .error .other]⟩), .handle, .close,
    .accept (.error .eintr), .handle, .close,
    .accept (.connected 4 ⟨List.replicate 44 7, [.transfer 9, .error .eintr]⟩), .handle]

theorem second_client_served :
    ∃ server, Reaches (blockingServer kWireSize) server ∧
      (∃ before, decoded .big sevens server.messages = before ++ [(true, sevens)]) ∧
      ∀ number, server.ledger.Open number ↔ number = 3 ∨ number = 4 := by
  obtain ⟨server, run, served, listenFd, point⟩ :
      ∃ server, runLabels (blockingServer kWireSize) .initial brokenThenWhole = some server ∧
        server.served = [⟨List.replicate 43 7, [.transfer 9, .error .other]⟩,
          ⟨List.replicate 44 7, [.transfer 9, .error .eintr]⟩] ∧
        server.listenFd = some 3 ∧ server.point = .close (some 4) :=
    ⟨_, rfl, rfl, rfl, rfl⟩
  have reached := reaches_run (.start rfl) run
  have sending : ∀ (client : Nat) (inbound : Inbound), server.served[client]? = some inbound →
      Sending .little oneMessage inbound.stream := by
    intro client inbound found
    apply sending_of_sent_all sent_all_sevens
    rw [served] at found
    rcases List.mem_pair.mp (List.mem_of_getElem? found) with rfl | rfl
    · exact ⟨[7], by decide⟩
    · exact List.prefix_rfl
  obtain ⟨⟨count, shown, all⟩, -, opened⟩ := blocking_server_serves reached .big sevens
    (fun _ => .little) (fun _ => oneMessage) sending
  refine ⟨server, reached, ?_, ?_⟩
  · have interrupted : Interrupted [.transfer 9, .error .eintr] := by
      intro errno member
      simpa using member
    have second : count 1 = 1 :=
      (all 1 ⟨List.replicate 44 7, [.transfer 9, .error .eintr]⟩ (by rw [served]; rfl)).2
        sent_all_sevens interrupted
    refine ⟨(oneMessage.take (count 0)).map fun send => (true, send.2), ?_⟩
    rw [shown, served]
    show [0, 1].flatMap _ = _
    rw [List.flatMap_cons, List.flatMap_singleton, second]
    rfl
  · intro number
    rw [opened, listenFd, point]
    simp [ServePoint.cfd, eq_comm]

end MarketDataEngine.Net
