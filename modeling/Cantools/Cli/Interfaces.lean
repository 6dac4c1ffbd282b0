import Cantools.Cli.Traffic

/-!
# CAN interfaces

Commands side by side, over any kernel. Its states are any type, of which only the sockets of the
commands are looked at (`BoundSocket`), and what it answers and does by itself is any environment.
`Documented` is what its documentation says of raw sockets: a frame that was written is sent behind
those that the same socket wrote before, and is then received by the other sockets that are bound to
the interface, unless it is an error frame, or a socket has no room. `Progress` is that it does not
stop while something can be done.

A run over such a kernel is one on the broadcast network, with the same answers (`exists_network`).
So all frames are on one bus, in the order in which they were sent (`commands_share`), and the
commands complete (`commands_complete`).
-/

namespace Cantools.Cli

open Broadcast Dialogue Interleaving LittleEndian SocketCan
open Broadcast.Network (sentBy)

/-! ### The kernel -/

/-- A raw socket, as it is seen from outside of the kernel. -/
structure BoundSocket where
  interface : String
  /-- The frames that were written and are still to be sent. -/
  outgoing : List (List UInt8)
  /-- The frames that were received and are still to be read. -/
  incoming : List (List UInt8)
  /-- How many frames were dropped, for want of room. -/
  drops : ℕ
  deriving DecidableEq

/-- A socket that was just bound. -/
def BoundSocket.bound (interface : String) : BoundSocket where
  interface := interface
  outgoing := []
  incoming := []
  drops := 0

/-- A socket, when a frame of another one was sent on an interface. -/
def BoundSocket.receive (order : ByteOrder) (interface : String) (bytes : List UInt8) (full : Bool)
    (socket : BoundSocket) : BoundSocket :=
  if interface = socket.interface ∧ passesFilter order bytes then
    if full then { socket with drops := socket.drops + 1 }
    else { socket with incoming := socket.incoming ++ [bytes] }
  else socket

section

variable {ι World : Type} [DecidableEq ι]

/-- What is documented of raw sockets and their interfaces, for a kernel whose sockets are seen
through `sockets`. Nobody else sends on the interfaces. -/
structure Documented (order : ByteOrder) (env : Environment ι World Syscall.Answer)
    (sockets : World → ι → Option BoundSocket) : Prop where
  /-- A new socket is bound to its interface, and nothing was received yet. -/
  openRaw : ∀ w i interface next, sockets w i = none →
    env.answers w i ⟨.openRaw interface, .ok ()⟩ next →
    sockets next = Function.update (sockets w) i (some (.bound interface))
  /-- What was written is to be sent behind what is still to be sent. -/
  write : ∀ w i socket bytes next, sockets w i = some socket →
    env.answers w i ⟨.write bytes, .ok ()⟩ next →
    sockets next = Function.update (sockets w) i
      (some { socket with outgoing := socket.outgoing ++ [bytes] })
  /-- What was received first is read first. -/
  recv : ∀ w i socket bytes next, sockets w i = some socket →
    env.answers w i ⟨.recv, .ok bytes⟩ next →
    ∃ incoming, socket.incoming = bytes :: incoming ∧
      sockets next = Function.update (sockets w) i (some { socket with incoming })
  /-- Calls that fail, or are not about sockets, do nothing to sockets. -/
  idle : ∀ w i event next, opens event = none → writes event = none → hears event = none →
    env.answers w i event next → sockets next = sockets w
  /-- By itself, the kernel sends the next frame of a socket, which the others receive; a socket
  does not receive its own frames. -/
  moves : ∀ w next, env.moves w next → ∃ i socket bytes outgoing, ∃ full : ι → Bool,
    sockets w i = some socket ∧ socket.outgoing = bytes :: outgoing ∧
    sockets next = Function.update
      (fun j => (sockets w j).map (.receive order socket.interface bytes (full j))) i
      (some { socket with outgoing })

/-- The kernel goes on as long as it can. -/
structure Progress (env : Environment ι World Syscall.Answer)
    (sockets : World → ι → Option BoundSocket) : Prop where
  /-- A call that does not wait for a frame is answered, or waits until another one is sent. -/
  returns : ∀ w i question, question ≠ .recv →
    (∃ answer next, env.answers w i ⟨question, answer⟩ next) ∨ ∃ next, env.moves w next
  /-- `recv` is answered if there is a frame. -/
  receives : ∀ w i socket, sockets w i = some socket → socket.incoming ≠ [] →
    ∃ answer next, env.answers w i ⟨.recv, answer⟩ next
  /-- What is to be sent is sent. -/
  sends : ∀ w i socket, sockets w i = some socket → socket.outgoing ≠ [] →
    ∃ next, env.moves w next

/-! ### The network behind it -/

/-- What is seen of an endpoint of the network. -/
def seenOf (e : Endpoint ι String (List UInt8)) : BoundSocket where
  interface := e.group
  outgoing := e.outbox
  incoming := e.inbox.map Packet.message
  drops := e.lost

/-- The sockets are those of the network, but for what the network remembers. -/
def Tracks (net : Net ι) (sockets : ι → Option BoundSocket) : Prop :=
  ∀ i, sockets i = (net.endpoint i).map seenOf

variable {order : ByteOrder} {env : Environment ι World Syscall.Answer}
variable {sockets : World → ι → Option BoundSocket}
variable {net : Net ι} {w next : World} {i : ι}

omit [DecidableEq ι] in
theorem Tracks.closed (h : Tracks net (sockets w)) (h_none : net.endpoint i = none) :
    sockets w i = none := by rw [h i, h_none, Option.map_none]

omit [DecidableEq ι] in
theorem Tracks.socket (h : Tracks net (sockets w)) {e : Endpoint ι String (List UInt8)}
    (h_e : net.endpoint i = some e) : sockets w i = some (seenOf e) := by
  rw [h i, h_e, Option.map_some]

omit [DecidableEq ι] in
/-- What is seen of a socket, and what is behind it. -/
theorem Tracks.exists_endpoint (h : Tracks net (sockets w)) {socket : BoundSocket}
    (h_socket : sockets w i = some socket) :
    ∃ e, net.endpoint i = some e ∧ seenOf e = socket :=
  Option.map_eq_some_iff.mp ((h i).symm.trans h_socket)

/-- One socket changes on both sides. -/
theorem Tracks.set (h : Tracks net (sockets w)) {e : Endpoint ι String (List UInt8)}
    (h_next : sockets next = Function.update (sockets w) i (some (seenOf e))) :
    Tracks (net.set i e) (sockets next) := by
  intro j
  rw [h_next]
  by_cases h_j : j = i
  · subst h_j
    rw [Function.update_self, Network.set_self, Option.map_some]
  · rw [Function.update_of_ne h_j, Network.set_other _ h_j, h j]

/-- The question is about an open socket, or opens the first one. -/
def Fits (net : Net ι) (i : ι) : Syscall → Prop
  | .openRaw _ => net.endpoint i = none
  | .write _ => ∃ e, net.endpoint i = some e
  | .recv => ∃ e, net.endpoint i = some e
  | _ => True

/-- **An answer of the kernel** is one of the network. -/
theorem Tracks.answers (h_kernel : Documented order env sockets) (h : Tracks net (sockets w))
    {event : Event Syscall.Answer} (h_fits : Fits net i event.question)
    (h_answers : env.answers w i event next) :
    ∃ net', (environment (passesFilter order)).answers net i event net' ∧
      Tracks net' (sockets next) := by
  -- what is in no history leaves the network as it is
  have h_idle : opens event = none → writes event = none → hears event = none →
      Tracks net (sockets next) := fun h_opens h_writes h_hears =>
    h_kernel.idle w i event next h_opens h_writes h_hears h_answers ▸ h
  obtain ⟨call, answer⟩ := event
  cases call with
  | openRaw interface =>
    cases answer with
    | error e => exact ⟨net, .inr ⟨trivial, rfl⟩, h_idle rfl rfl rfl⟩
    | ok _ =>
      have h_attach : net.attach i interface = some _ :=
        Network.attach_eq_some_iff.mpr ⟨h_fits, rfl⟩
      refine ⟨_, .inl (Option.map_eq_some_iff.mpr ⟨_, h_attach, rfl⟩), h.set ?_⟩
      exact h_kernel.openRaw w i interface next (h.closed h_fits) h_answers
  | write bytes =>
    cases answer with
    | error e => exact ⟨net, .inr ⟨trivial, rfl⟩, h_idle rfl rfl rfl⟩
    | ok _ =>
      obtain ⟨e, h_e⟩ := h_fits
      have h_put : net.put i bytes = some _ := Network.put_eq_some_iff.mpr ⟨e, h_e, rfl⟩
      refine ⟨_, .inl (Option.map_eq_some_iff.mpr ⟨_, h_put, rfl⟩), h.set ?_⟩
      exact h_kernel.write w i (seenOf e) bytes next (h.socket h_e) h_answers
  | recv =>
    cases answer with
    | error e => exact ⟨net, .inr ⟨trivial, rfl⟩, h_idle rfl rfl rfl⟩
    | ok bytes =>
      obtain ⟨e, h_e⟩ := h_fits
      obtain ⟨incoming, h_incoming, h_next⟩ :=
        h_kernel.recv w i (seenOf e) bytes next (h.socket h_e) h_answers
      -- the bytes are those of the first packet that waits
      obtain ⟨packet, inbox, h_inbox, rfl, rfl⟩ := List.map_eq_cons_iff.mp h_incoming
      have h_take := Network.take_eq_some_iff.mpr ⟨e, inbox, h_e, h_inbox, rfl⟩
      exact ⟨_, .inl (Option.map_eq_some_iff.mpr ⟨_, h_take, rfl⟩), h.set h_next⟩
  | sleep nanos => exact ⟨net, .inl rfl, h_idle rfl rfl rfl⟩
  | print line => exact ⟨net, .inl rfl, h_idle rfl rfl rfl⟩
  | report line => exact ⟨net, .inl rfl, h_idle rfl rfl rfl⟩

/-- A packet at a socket. -/
theorem seenOf_hear (packet : Packet ι String (List UInt8)) (full : ι → Bool) {j : ι}
    (h_other : packet.origin ≠ j) (e : Endpoint ι String (List UInt8)) :
    seenOf (Network.hear (passesFilter order) packet full j e)
      = (seenOf e).receive order packet.group packet.message (full j) := by
  rw [Network.hear, BoundSocket.receive]
  -- the network and the kernel ask the same of a packet
  have h_for : Network.For (passesFilter order) packet j e ↔
      packet.group = (seenOf e).interface ∧ passesFilter order packet.message :=
    and_congr_right fun _ => and_iff_right h_other
  by_cases h : Network.For (passesFilter order) packet j e
  · rw [if_pos h, if_pos (h_for.mp h)]
    cases full j with
    | true => rfl
    | false =>
      show seenOf { e with inbox := e.inbox ++ [packet] } = _
      rw [seenOf, List.map_append]
      rfl
  · rw [if_neg h, if_neg (mt h_for.mpr h)]

/-- **A frame that the kernel sends** is one that the network delivers. -/
theorem Tracks.moves (h_kernel : Documented order env sockets) (h : Tracks net (sockets w))
    (h_moves : env.moves w next) :
    ∃ net', (environment (passesFilter order)).moves net net' ∧ Tracks net' (sockets next) := by
  obtain ⟨i, socket, bytes, outgoing, full, h_socket, h_outgoing, h_next⟩ :=
    h_kernel.moves w next h_moves
  obtain ⟨e, h_e, rfl⟩ := h.exists_endpoint h_socket
  refine ⟨_, ⟨i, full, Network.deliver_eq_some_iff.mpr ⟨e, bytes, outgoing, h_e, h_outgoing, rfl⟩⟩,
    fun j => ?_⟩
  rw [h_next]
  by_cases h_j : j = i
  · -- the socket does not hear itself
    subst h_j
    have h_self : (net.set j { e with outbox := outgoing }).endpoint j = _ := Network.set_self ..
    rw [Function.update_self, Network.broadcast_some h_self, Network.hear,
      if_neg fun h_for => h_for.2.1 rfl]
    rfl
  · -- any other socket that is open hears the packet
    have h_other := Network.set_other net h_j { e with outbox := outgoing }
    rw [Function.update_of_ne h_j]
    cases h_endpoint : net.endpoint j with
    | none => rw [h.closed h_endpoint, Network.broadcast_none (h_other.trans h_endpoint)]; rfl
    | some e' =>
      rw [h.socket h_endpoint, Network.broadcast_some (h_other.trans h_endpoint), Option.map_some,
        Option.map_some, seenOf_hear _ full (Ne.symm h_j)]
      rfl

end

section Commands

variable {ι World σ ε δ Factor : Type} [DecidableEq ι] {host : Host σ ε δ Factor} {files : σ}
variable {env : Environment ι World Syscall.Answer} {sockets : World → ι → Option BoundSocket}
variable {commands : ι → Command Factor} {labels : List (Label ι Syscall.Answer)} {world : World}
variable {c : Config ι World Syscall.Answer (Program.Fault (CommandError ε δ)) Unit}

/-- The same processes, on the network. -/
def onNetwork (c : Config ι World Syscall.Answer (Program.Fault (CommandError ε δ)) Unit)
    (net : Net ι) : Config ι (Net ι) Syscall.Answer (Program.Fault (CommandError ε δ)) Unit where
  world := net
  process := c.process

/-- Commands ask for sockets that they have. -/
theorem fits_of_asks {net : Net ι} (h : NetRun host files commands labels (onNetwork c net)) {i : ι}
    {question : Syscall} {resume : question.Answer → Routine ε δ Unit}
    (h_asks : c.process i = asking question resume) : Fits net i question := by
  have h_accounts := run_accounts h rfl
  have h_ready := (run_conducts h i).ready question resume h_asks
  cases question with
  | openRaw name =>
    show net.endpoint i = none
    cases h_e : net.endpoint i with
    | none => rfl
    | some e => exact absurd h_ready.2 (h_accounts.opened_ne_nil h_e)
  | write bytes => exact exists_endpoint h_accounts h_ready
  | recv => exact exists_endpoint h_accounts h_ready
  | _ => trivial

/-- **A run over the kernel** is one on the network. -/
theorem exists_network (h_kernel : Documented host.order env sockets)
    (h_closed : ∀ i, sockets world i = none)
    (h : Run env (start host files commands world) labels c) :
    ∃ net, NetRun host files commands labels (onNetwork c net) ∧ Tracks net (sockets c.world) := by
  -- the network does what the kernel does, step by step
  induction h with
  | refl => exact ⟨Network.empty, .refl _, h_closed⟩
  | snoc _ h_step ih =>
    obtain ⟨net, h_net, h_tracks⟩ := ih
    cases h_step with
    | answer h_asks h_answers =>
      obtain ⟨net', h_next, h_tracks'⟩ :=
        h_tracks.answers h_kernel (fits_of_asks h_net h_asks) h_answers
      exact ⟨net', h_net.snoc (.answer h_asks h_next), h_tracks'⟩
    | move h_moves =>
      obtain ⟨net', h_next, h_tracks'⟩ := h_tracks.moves h_kernel h_moves
      exact ⟨net', h_net.snoc (.move h_next), h_tracks'⟩

/-- Where no step is possible, only frames are waited for, and there are none. -/
theorem quiet_of_final {net : Net ι} (h_progress : Progress env sockets)
    (h_tracks : Tracks net (sockets c.world)) (h_final : Final env c) :
    Quiet (onNetwork c net) where
  -- any other call would be answered, or a frame would be sent first
  waits i question resume h_asks := by
    by_contra h_recv
    obtain ⟨answer, next, h_answers⟩ | ⟨next, h_moves⟩ :=
      h_progress.returns c.world i question h_recv
    · exact h_final _ _ (.answer h_asks h_answers)
    · exact h_final _ _ (.move h_moves)
  outbox i e h_e := by
    by_contra h_outbox
    obtain ⟨next, h_moves⟩ := h_progress.sends c.world i _ (h_tracks.socket h_e) h_outbox
    exact h_final _ _ (.move h_moves)
  inbox i resume e h_asks h_e := by
    by_contra h_inbox
    obtain ⟨answer, next, h_answers⟩ := h_progress.receives c.world i _ (h_tracks.socket h_e)
      (mt List.map_eq_nil_iff.mp h_inbox)
    exact h_final _ _ (.answer h_asks h_answers)

end Commands

/-! ### A kernel -/

section Example

variable {ι : Type} [DecidableEq ι]

/-- The answer to a call, where sockets have room, and interfaces are there. There is none yet where
`recv` waits. -/
def answered (sockets : ι → Option BoundSocket) (i : ι) :
    (call : Syscall) → Option (call.Answer × (ι → Option BoundSocket))
  | .openRaw interface => some (.ok (), Function.update sockets i (some (.bound interface)))
  | .write bytes =>
    match sockets i with
    -- `EBADF`
    | none => some (.error (.other 9), sockets)
    | some socket => some (.ok (), Function.update sockets i
        (some { socket with outgoing := socket.outgoing ++ [bytes] }))
  | .recv =>
    match sockets i with
    | none => some (.error (.other 9), sockets)
    | some socket =>
      match socket.incoming with
      | [] => none
      | bytes :: incoming =>
        some (.ok bytes, Function.update sockets i (some { socket with incoming }))
  | .sleep _ => some ((), sockets)
  | .print _ => some ((), sockets)
  | .report _ => some ((), sockets)

/-- The next frame of a socket is sent. -/
def sent (order : ByteOrder) (sockets : ι → Option BoundSocket) (i : ι) :
    Option (ι → Option BoundSocket) :=
  match sockets i with
  | none => none
  | some socket =>
    match socket.outgoing with
    | [] => none
    | bytes :: outgoing => some (Function.update
        (fun j => (sockets j).map (.receive order socket.interface bytes false)) i
        (some { socket with outgoing }))

/-- A kernel that has nothing but the sockets. -/
def socketsOnly (order : ByteOrder) : Environment ι (ι → Option BoundSocket) Syscall.Answer where
  answers sockets i event next := answered sockets i event.question = some (event.answer, next)
  moves sockets next := ∃ i, sent order sockets i = some next

theorem socketsOnly_documented (order : ByteOrder) :
    Documented order (socketsOnly order : Environment ι _ _) id where
  openRaw w i interface next _ h := by
    cases h
    rfl
  write w i socket bytes next h_socket h := by
    simp only [socketsOnly, answered, show w i = some socket from h_socket] at h
    cases h
    rfl
  recv w i socket bytes next h_socket h := by
    simp only [socketsOnly, answered, show w i = some socket from h_socket] at h
    cases h_incoming : socket.incoming with
    -- without a frame there is no answer
    | nil =>
      rw [h_incoming] at h
      cases h
    | cons first incoming =>
      rw [h_incoming] at h
      cases h
      exact ⟨incoming, rfl, rfl⟩
  idle w i event next h_opens h_writes h_hears h := by
    -- of each call only the failing answer is in no history, and it leaves the sockets alone
    obtain ⟨call, answer⟩ := event
    simp only [socketsOnly, answered] at h
    cases call with
    | openRaw interface =>
      cases h
      cases h_opens
    | write bytes =>
      cases h_socket : w i with
      | none =>
        rw [h_socket] at h
        cases h
        rfl
      | some socket =>
        rw [h_socket] at h
        cases h
        cases h_writes
    | recv =>
      cases h_socket : w i with
      | none =>
        rw [h_socket] at h
        cases h
        rfl
      | some socket =>
        simp only [h_socket] at h
        cases h_incoming : socket.incoming with
        | nil =>
          rw [h_incoming] at h
          cases h
        | cons bytes incoming =>
          rw [h_incoming] at h
          cases h
          cases h_hears
    | _ =>
      cases h
      rfl
  moves w next h := by
    obtain ⟨i, h_sent⟩ := h
    rw [sent] at h_sent
    cases h_socket : w i with
    | none =>
      rw [h_socket] at h_sent
      cases h_sent
    | some socket =>
      simp only [h_socket] at h_sent
      cases h_outgoing : socket.outgoing with
      | nil =>
        rw [h_outgoing] at h_sent
        cases h_sent
      | cons bytes outgoing =>
        rw [h_outgoing] at h_sent
        cases h_sent
        -- no socket is full
        exact ⟨i, socket, bytes, outgoing, fun _ => false, h_socket, h_outgoing, rfl⟩

theorem socketsOnly_progress (order : ByteOrder) :
    Progress (socketsOnly order : Environment ι _ _) id where
  returns w i question h_recv := by
    refine .inl ?_
    simp only [socketsOnly]
    cases question with
    -- a write without a socket fails, but is answered
    | write bytes =>
      cases h_socket : w i with
      | none => exact ⟨_, _, by rw [answered, h_socket]⟩
      | some socket => exact ⟨_, _, by rw [answered, h_socket]⟩
    | recv => exact absurd rfl h_recv
    | _ => exact ⟨_, _, rfl⟩
  receives w i socket h_socket h_incoming := by
    obtain ⟨bytes, incoming, h_cons⟩ := List.exists_cons_of_ne_nil h_incoming
    refine ⟨.ok bytes, Function.update w i (some { socket with incoming }), ?_⟩
    simp only [socketsOnly, answered, show w i = some socket from h_socket, h_cons]
  sends w i socket h_socket h_outgoing := by
    obtain ⟨bytes, outgoing, h_cons⟩ := List.exists_cons_of_ne_nil h_outgoing
    refine ⟨Function.update (fun j => (w j).map (.receive order socket.interface bytes false)) i
      (some { socket with outgoing }), i, ?_⟩
    simp only [sent, show w i = some socket from h_socket, h_cons]

/-- Who goes on next, with a call that is answered or with a frame that is sent. -/
inductive Choice (ι : Type) where
  | answer (i : ι)
  | send (i : ι)

section Schedule

variable {order : ByteOrder} {φ α : Type}

def next (order : ByteOrder) (c : Config ι (ι → Option BoundSocket) Syscall.Answer φ α) :
    Choice ι → Option (Label ι Syscall.Answer ×
      Config ι (ι → Option BoundSocket) Syscall.Answer φ α)
  | .answer i =>
    match c.process i with
    | asking question resume => (answered c.world i question).map fun replied =>
        (some (i, ⟨question, replied.1⟩), c.advance i replied.2 (resume replied.1))
    | _ => none
  | .send i => (sent order c.world i).map fun world => (none, { c with world })

/-- The steps of a schedule, and what they lead to. -/
def schedule (order : ByteOrder) (c : Config ι (ι → Option BoundSocket) Syscall.Answer φ α)
    (choices : List (Choice ι)) :
    Option (List (Label ι Syscall.Answer) ×
      Config ι (ι → Option BoundSocket) Syscall.Answer φ α) :=
  choices.foldlM (fun done choice => (next order done.2 choice).map fun step =>
    (done.1 ++ [step.1], step.2)) ([], c)

variable {c c' : Config ι (ι → Option BoundSocket) Syscall.Answer φ α}

theorem step_of_next {choice : Choice ι} {label : Label ι Syscall.Answer}
    (h : next order c choice = some (label, c')) : Step (socketsOnly order) c label c' := by
  cases choice with
  -- the process asks, and the kernel answers it
  | answer i =>
    rw [next] at h
    split at h
    · next question resume h_asks =>
      obtain ⟨replied, h_answered, h_eq⟩ := Option.map_eq_some_iff.mp h
      cases h_eq
      exact .answer h_asks h_answered
    · cases h
  -- the kernel sends by itself
  | send i =>
    obtain ⟨world, h_sent, h_eq⟩ := Option.map_eq_some_iff.mp h
    cases h_eq
    exact .move ⟨i, h_sent⟩

/-- **A schedule is a run.** -/
theorem run_of_schedule {choices : List (Choice ι)} {labels : List (Label ι Syscall.Answer)}
    (h : schedule order c choices = some (labels, c')) : Run (socketsOnly order) c labels c' := by
  -- over the choices, from what has been done so far
  have h_from : ∀ done, Run (socketsOnly order) c done.1 done.2 →
      choices.foldlM (fun done choice => (next order done.2 choice).map fun step =>
        (done.1 ++ [step.1], step.2)) done = some (labels, c') →
      Run (socketsOnly order) c labels c' := by
    clear h
    induction choices with
    | nil =>
      rintro done h_done h
      cases h
      exact h_done
    | cons choice choices ih =>
      rintro done h_done h
      rw [List.foldlM_cons] at h
      obtain ⟨later, h_next, h⟩ := Option.bind_eq_some_iff.mp h
      obtain ⟨step, h_step, rfl⟩ := Option.map_eq_some_iff.mp h_next
      exact ih _ (.snoc h_done (step_of_next h_step)) h
  exact h_from ([], c) (.refl c) h

/-- Nothing happens where all processes are done, and nothing is to be sent. -/
theorem final_of_done (h_done : ∀ i, ∃ a, c.process i = done a)
    (h_sent : ∀ i, (sent order c.world i).isNone) : Final (socketsOnly order) c := by
  intro label c'' h_step
  cases h_step with
  | @answer i _ _ _ _ h_asks _ =>
    obtain ⟨a, h_a⟩ := h_done i
    cases h_a.symm.trans h_asks
  | move h_move =>
    obtain ⟨i, h_some⟩ := h_move
    have h_none := h_sent i
    rw [show sent order c.world i = _ from h_some] at h_none
    cases h_none

end Schedule

/-- A host without databases. -/
def plainHost : Host (Codec.Path → Option (List UInt8)) String String Unit where
  order := .little
  checks := true
  display _ := "0".toList
  scaled _ nanos := nanos
  loader :=
    { files := Codec.disk, invalidData := "not text", parse := fun _ => .error "no database" }
  crates := Codec.plainCrates

/-- A frame is sent while another command waits for one. -/
def sendAndDump : Bool → Command Unit
  | true => .send "can0" "123".toList "0102".toList false false false
  | false => .dump "can0" 1 []

def oneFrame : Option (List (Label Bool Syscall.Answer) × Config Bool (Bool → Option BoundSocket)
    Syscall.Answer (Program.Fault (CommandError String String)) Unit) :=
  schedule .little (start plainHost (fun _ => none) sendAndDump fun _ => none)
    [.answer false, .answer true, .answer true, .send true, .answer true, .answer false,
      .answer false]

theorem oneFrame_isSome : oneFrame.isSome = true := by rfl

/-- The steps of the schedule, and what they lead to. -/
theorem oneFrame_run :
    Run (socketsOnly .little) (start plainHost (fun _ => none) sendAndDump fun _ => none)
      (oneFrame.get oneFrame_isSome).1 (oneFrame.get oneFrame_isSome).2 :=
  run_of_schedule (Option.some_get oneFrame_isSome).symm

example : oneFrame.map (fun done => (printed (view false done.1)).map String.ofList)
    = some ["123 [ 2] 01 02"] := by rfl

end Example

end Cantools.Cli
