import Cantools.Cli.Conduct

/-!
# Traffic

What commands do side by side on a broadcast network. There is one sequence of frames such that each
sender has its frames on it in order (`exists_carries`), and what each dump prints are the lines of
frames that were on its interface since it opened its socket, in the order of the bus
(`run_watches`).

Every run ends (`length_run_le`). If no call failed and nothing was lost, then all frames of all
senders are on the bus when nothing more can happen (`Quiet.sentBy`), and each dump has printed
exactly its first frames (`Quiet.finishes`).
-/

namespace Cantools.Cli

open Broadcast Buffer Chunks Codec Dialogue Interleaving LittleEndian Program SocketCan
open Broadcast.Network (sentBy passed)

/-! ### What a command has done so far -/

section Conduct

variable {σ ε δ Factor : Type} {host : Host σ ε δ Factor} {files : σ} {command : Command Factor}
variable {trace : List (Event Syscall.Answer)} {p : Routine ε δ Unit}

/-- The process has no question but for a frame. -/
def Waits (p : Routine ε δ Unit) : Prop :=
  ∀ question resume, p = asking question resume → question = .recv

/-- What all commands have in common. -/
structure Conducts (host : Host σ ε δ Factor) (files : σ) (command : Command Factor)
    (trace : List (Event Syscall.Answer)) (p : Routine ε δ Unit) : Prop where
  opened : ∀ name ∈ opened trace, name = command.interface
  written : written trace <+: (command.frames host files).map (wire host.order)
  ready : ∀ question resume, p = asking question resume → Ready command.interface trace question
  complete : Undisturbed trace → Waits p →
    Cli.written trace = (command.frames host files).map (wire host.order)

theorem conducts_sender {all : List (List UInt8)}
    (h_all : (command.frames host files).map (wire host.order) = all)
    (h : Dialogue.Meets (SenderAsks command.interface all)
      (fun trace _ => Over command.interface all trace) trace p) :
    Conducts host files command trace p := by
  subst h_all
  cases p with
  | done a => exact ⟨h.opened, h.written, fun _ _ h => (nomatch h), fun h' _ => h.complete h'⟩
  | failed e => exact ⟨h.opened, h.written, fun _ _ h => (nomatch h), fun h' _ => h.complete h'⟩
  | asking question resume =>
    refine ⟨h.1.opened, h.1.written, ?_, fun _ h_waits => absurd (h_waits _ _ rfl) h.1.sends⟩
    rintro _ _ ⟨⟩
    exact h.1.ready

theorem conducts_dump {count : ℕ} {decoder : Option Decoder}
    (h_frames : command.frames host files = [])
    (h : Dialogue.Meets (DumpAsks host command.interface count decoder)
      (fun trace _ => DumpOver host command.interface count decoder trace) trace p) :
    Conducts host files command trace p := by
  have h_so : Dumped host command.interface count decoder trace :=
    h.always (fun _ _ h => h.so) fun _ _ h => h.so
  have h_written : written trace = (command.frames host files).map (wire host.order) := by
    rw [h_so.written, h_frames]
    rfl
  refine ⟨h_so.opened, h_written ▸ List.prefix_rfl, ?_, fun _ _ => h_written⟩
  rintro question resume rfl
  exact h.1.ready

/-- A dump whose databases are not loaded does nothing. -/
theorem dump_fails {interface : String} {count : ℕ} {dbcPaths : List Path}
    {e : Decoder.LoadError ε δ}
    (h_load : Decoder.loadDecoder host.loader files dbcPaths = .error e)
    (h : Follows (dumpCommand host files interface count dbcPaths) trace p) :
    trace = [] ∧ ∀ question resume, p ≠ asking question resume := by
  rw [dumpCommand, h_load] at h
  cases h
  refine ⟨rfl, fun question resume h_asks => ?_⟩
  cases h_asks

/-- **Every command**, on its own. -/
theorem conducts_of_follows (h : Follows (command.routine host files) trace p) :
    Conducts host files command trace p := by
  cases command with
  | send interface id data fd brs esi =>
    exact conducts_sender rfl ((send_meets host files interface id data fd brs esi).follows h)
  | play interface input immediate scale =>
    exact conducts_sender rfl ((play_meets host files interface input immediate scale).follows h)
  | dump interface count dbcPaths =>
    cases h_load : Decoder.loadDecoder host.loader files dbcPaths with
    | ok decoder => exact conducts_dump rfl ((dump_meets files interface count h_load).follows h)
    -- a dump that cannot load its databases ends before it opens a socket
    | error e =>
      obtain ⟨rfl, h_end⟩ := dump_fails h_load h
      exact ⟨List.forall_mem_nil _, List.nil_prefix, fun _ _ h => absurd h (h_end _ _),
        fun _ _ => rfl⟩

end Conduct

/-! ### Error frames -/

/-- The bytes of a frame without the error flag. A raw socket is handed the others only if it asks
for them (`CAN_RAW_ERR_FILTER`), which the sockets of the commands do not. -/
def passesFilter (order : ByteOrder) (bytes : List UInt8) : Bool :=
  order.toU32 (slice bytes 0 4) &&& canErrFlag = 0

/-- The same, of frames. -/
def isReceived (frame : CanFrame) : Bool := frame.class' ≠ .error

theorem slice_ofU32 (order : ByteOrder) (word : UInt32) (rest : List (List UInt8)) :
    slice (order.ofU32 word :: rest).flatten 0 4 = order.ofU32 word :=
  slice_flatten [] _ _ rfl (by simp)

/-- The identifier is in front of the bytes. -/
theorem toU32_wire (order : ByteOrder) {frame : CanFrame} (h : frame.Valid) :
    order.toU32 (slice (wire order frame) 0 4) = canIdFromFrame frame := by
  have h_bytes := (nativeBytes_wire order h).1
  rw [nativeBytes] at h_bytes
  split at h_bytes
  · obtain ⟨data, -, h_pure⟩ := bind_eq_ok_iff.mp h_bytes
    rw [← Except.ok.inj h_pure, CanFdFrameNative.bytes, slice_ofU32, ByteOrder.toU32_ofU32]
  · obtain ⟨data, -, h_pure⟩ := bind_eq_ok_iff.mp h_bytes
    rw [← Except.ok.inj h_pure, CanFrameNative.bytes, slice_ofU32, ByteOrder.toU32_ofU32]

/-- Error frames are those with the flag. -/
theorem passesFilter_wire (order : ByteOrder) {frame : CanFrame} (h : frame.Valid) :
    passesFilter order (wire order frame) = isReceived frame := by
  rw [passesFilter, toU32_wire order h, isReceived]
  refine decide_eq_decide.mpr ?_
  rw [← classOf_canIdFromFrame frame, IdLayout.classOf]
  by_cases h_error : canIdFromFrame frame &&& canErrFlag = 0
  · -- no flag: the frame is of another class
    have h_not : ¬ canIdFromFrame frame &&& idLayout.errorFlag ≠ 0 := not_not.mpr h_error
    rw [if_neg h_not]
    refine ⟨fun _ => ?_, fun _ => h_error⟩
    split
    · decide
    · decide
  · have h_flag : canIdFromFrame frame &&& idLayout.errorFlag ≠ 0 := h_error
    rw [if_pos h_flag]
    exact ⟨fun h_zero => absurd h_zero h_error, fun h_ne => absurd rfl h_ne⟩

/-! ### One bus -/

section Bus

variable {ι σ ε δ Factor : Type} [DecidableEq ι] {host : Host σ ε δ Factor} {files : σ}
variable {commands : ι → Command Factor} {labels : List (Label ι Syscall.Answer)}
variable {c : Config ι (Net ι) Syscall.Answer (Program.Fault (CommandError ε δ)) Unit}

variable {accepts : List UInt8 → Bool}

/-- A run of the commands on the network, of which they do not hear the error frames. -/
abbrev NetRun (host : Host σ ε δ Factor) (files : σ) (commands : ι → Command Factor)
    (labels : List (Label ι Syscall.Answer))
    (c : Config ι (Net ι) Syscall.Answer (Program.Fault (CommandError ε δ)) Unit) : Prop :=
  Run (environment (passesFilter host.order)) (start host files commands Network.empty) labels c

theorem run_conducts (h : NetRun host files commands labels c) (i : ι) :
    Conducts host files (commands i) (view i labels) (c.process i) :=
  conducts_of_follows (h.follows i)

/-- What is written, of one socket. -/
theorem accounts_some {net : Net ι} (h : Accounts accepts net labels) {i : ι}
    {e : Endpoint ι String (List UInt8)} (h_e : net.endpoint i = some e) :
    opened (view i labels) = [e.group] ∧ written (view i labels) = e.posted ∧
      heard (view i labels) = e.taken.map Packet.message := by
  have h_history := Network.history_some h_e
  rw [h.opened, h.written, h.heard, h_history]
  exact ⟨rfl, rfl, rfl⟩

theorem accounts_none {net : Net ι} (h : Accounts accepts net labels) {i : ι}
    (h_none : net.endpoint i = none) : opened (view i labels) = [] ∧ written (view i labels) = [] ∧
      heard (view i labels) = [] := by
  have h_history := Network.history_none h_none
  rw [h.opened, h.written, h.heard, h_history]
  exact ⟨rfl, rfl, rfl⟩

/-- The frames that are on the bus. -/
structure Carries (host : Host σ ε δ Factor) (files : σ) (commands : ι → Command Factor)
    (bus : List (Packet ι String CanFrame)) : Prop where
  sent : ∀ i, sentBy bus i <+: (commands i).frames host files
  interface : ∀ packet ∈ bus, packet.group = (commands packet.origin).interface

/-- The same frames, as their bytes. -/
def Encodes (order : ByteOrder) (bus : List (Packet ι String CanFrame))
    (log : List (Packet ι String (List UInt8))) : Prop :=
  bus.map (Packet.encode (wire order)) = log

theorem mem_sentBy {bus : List (Packet ι String CanFrame)} {packet : Packet ι String CanFrame}
    (h : packet ∈ bus) : packet.message ∈ sentBy bus packet.origin :=
  List.mem_map_of_mem (List.mem_filter.mpr ⟨h, decide_eq_true rfl⟩)

theorem Carries.valid {bus : List (Packet ι String CanFrame)}
    (h : Carries host files commands bus) :
    ∀ packet ∈ bus, packet.message.Valid := fun packet h_packet =>
  (commands packet.origin).valid_frames host files _ ((h.sent _).subset (mem_sentBy h_packet))

/-- **There is such a bus** in every run. -/
theorem exists_carries (h : NetRun host files commands labels c) :
    ∃ bus, Carries host files commands bus ∧ Encodes host.order bus c.world.log := by
  have h_accounts := run_accounts h rfl
  -- what is on the log of a sender is what it wrote, up to what still waits
  have h_sent : ∀ i, sentBy c.world.log i
      <+: ((commands i).frames host files).map (wire host.order) := by
    intro i
    have h_written := (run_conducts h i).written
    cases h_e : c.world.endpoint i with
    | none =>
      have h_absent := h_accounts.sound.absent i h_e
      rw [sentBy, List.filter_eq_nil_iff.mpr (by simpa using h_absent)]
      exact List.nil_prefix
    | some e =>
      rw [(accounts_some h_accounts h_e).2.1,
        ← (h_accounts.sound.attached i e h_e).posted] at h_written
      exact (List.prefix_append ..).trans h_written
  -- so the log is one of frames
  obtain ⟨bus, h_encoded, h_bus⟩ := Network.exists_values h_sent
  refine ⟨bus, ⟨h_bus, fun packet h_packet => ?_⟩, h_encoded⟩
  have h_log : packet.encode (wire host.order) ∈ c.world.log :=
    h_encoded ▸ List.mem_map_of_mem h_packet
  cases h_e : c.world.endpoint packet.origin with
  | none => exact absurd rfl (h_accounts.sound.absent _ h_e _ h_log)
  | some e =>
    -- a socket sends on the interface it was opened for
    have h_group := (h_accounts.sound.attached _ e h_e).group _ h_log rfl
    have h_opened := (run_conducts h packet.origin).opened e.group (by
      rw [(accounts_some h_accounts h_e).1]
      exact List.mem_singleton_self _)
    exact h_group.trans h_opened

/-- All frames that were sent are on the bus. -/
theorem Encodes.length_eq {bus : List (Packet ι String CanFrame)}
    (h_log : Encodes host.order bus c.world.log) (h : NetRun host files commands labels c) :
    bus.length = sends labels := by
  rw [← (run_dated h rfl).length, ← h_log, List.length_map]

/-! ### What a dump prints -/

/-- The line of a packet. -/
def packetLine (host : Host σ ε δ Factor) (decoder : Option Decoder)
    (packet : Packet ι String CanFrame) : Program.Run Empty (List Char) :=
  dumpLine host.checks host.display decoder packet.message

/-- A frame is printed as it was sent. -/
theorem lineOf_wire (decoder : Option Decoder) {frame : CanFrame} (h : frame.Valid) :
    lineOf host decoder (wire host.order frame)
      = dumpLine host.checks host.display decoder frame := by
  rw [lineOf, (nativeBytes_wire host.order h).2]
  exact dumpLine_asReceived ..

/-- What passes the filter of a socket are the frames that are no error frames. -/
theorem Carries.passed_wire {bus : List (Packet ι String CanFrame)}
    (h : Carries host files commands bus) (since : ℕ) (interface : String) (i : ι) :
    passed (passesFilter host.order ∘ wire host.order) bus since interface i
      = passed isReceived bus since interface i := by
  refine List.filter_congr fun packet h_packet => ?_
  rw [Function.comp_apply, passesFilter_wire _ (h.valid packet (List.mem_of_mem_drop h_packet))]

/-- What a socket has heard are frames of the bus. -/
theorem Carries.exists_seen {net : Net ι} {bus : List (Packet ι String CanFrame)}
    (h : Carries host files commands bus) (h_log : Encodes host.order bus net.log)
    (h_sound : net.Sound (passesFilter host.order)) {i : ι}
    {e : Endpoint ι String (List UInt8)} (h_e : net.endpoint i = some e) :
    ∃ seen, seen.Sublist (passed isReceived bus e.since e.group i) ∧
      e.taken = seen.map (Packet.encode (wire host.order)) ∧
      (e.lost = 0 → ∃ rest, passed isReceived bus e.since e.group i = seen ++ rest ∧
        rest.length = e.inbox.length) := by
  have h_follows := h_sound.attached i e h_e
  -- what the socket can have heard are the bytes of the frames on the bus
  have h_heard : Network.heardBy (passesFilter host.order) net.log i e
      = (passed isReceived bus e.since e.group i).map (Packet.encode (wire host.order)) := by
    rw [Network.heardBy, ← h_log, Network.passed_encode, h.passed_wire]
  by_cases h_lost : e.lost = 0
  · -- nothing was dropped: what was read, and then what is still to be read
    have h_exact := (h_follows.exact h_lost).trans h_heard
    obtain ⟨seen, rest, h_passed, h_seen, h_rest⟩ := List.map_eq_append_iff.mp h_exact.symm
    refine ⟨seen, h_passed ▸ List.sublist_append_left .., h_seen.symm, fun _ =>
      ⟨rest, h_passed, ?_⟩⟩
    rw [← h_rest, List.length_map]
  · -- else what was read is a part of it, in order
    have h_taken := (List.sublist_append_left e.taken e.inbox).trans h_follows.order
    rw [h_heard] at h_taken
    obtain ⟨seen, h_seen, h_eq⟩ := List.sublist_map_iff.mp h_taken
    exact ⟨seen, h_seen, h_eq, fun h_zero => absurd h_zero h_lost⟩

/-- The lines of what was heard are those of the frames. -/
theorem Carries.lines {bus seen : List (Packet ι String CanFrame)}
    (h : Carries host files commands bus)
    (h_seen : ∀ packet ∈ seen, packet ∈ bus) (decoder : Option Decoder) :
    ((seen.map (Packet.encode (wire host.order))).map Packet.message).map (lineOf host decoder)
      = seen.map (packetLine host decoder) := by
  rw [List.map_map, List.map_map]
  exact List.map_congr_left fun packet h_packet =>
    lineOf_wire decoder (h.valid packet (h_seen packet h_packet))

theorem mem_of_mem_passed {bus : List (Packet ι String CanFrame)} {since : ℕ} {group : String}
    {i : ι} {packet : Packet ι String CanFrame} (h : packet ∈ passed isReceived bus since group i) :
    packet ∈ bus := List.mem_of_mem_drop (List.mem_filter.mp h).1

section Dump

variable {i : ι} {interface : String} {count : ℕ} {dbcPaths : List Path}

theorem run_follows_dump (h : NetRun host files commands labels c)
    (h_dump : commands i = .dump interface count dbcPaths) :
    Follows (dumpCommand host files interface count dbcPaths) (view i labels) (c.process i) := by
  have h_follows := h.follows i
  have h_start : (commands i).routine host files
      = dumpCommand host files interface count dbcPaths := by rw [h_dump, Command.routine]
  exact h_start ▸ h_follows

theorem run_meets_dump (h : NetRun host files commands labels c)
    (h_dump : commands i = .dump interface count dbcPaths) {decoder : Option Decoder}
    (h_load : Decoder.loadDecoder host.loader files dbcPaths = .ok decoder) :
    Dialogue.Meets (DumpAsks host interface count decoder)
      (fun trace _ => DumpOver host interface count decoder trace) (view i labels) (c.process i) :=
  (dump_meets files interface count h_load).follows (run_follows_dump h h_dump)

/-- A dump with a socket has loaded its databases, and heard frames of the bus. -/
theorem run_seen (h : NetRun host files commands labels c)
    {bus : List (Packet ι String CanFrame)} (h_bus : Carries host files commands bus)
    (h_log : Encodes host.order bus c.world.log)
    (h_dump : commands i = .dump interface count dbcPaths) {e : Endpoint ι String (List UInt8)}
    (h_e : c.world.endpoint i = some e) :
    ∃ decoder seen, Decoder.loadDecoder host.loader files dbcPaths = .ok decoder ∧
      seen.Sublist (passed isReceived bus (joined i labels) interface i) ∧
      (e.lost = 0 → ∃ rest, passed isReceived bus (joined i labels) interface i = seen ++ rest ∧
        rest.length = e.inbox.length) ∧
      (heard (view i labels)).length = seen.length ∧
      (heard (view i labels)).map (lineOf host decoder) = seen.map (packetLine host decoder) := by
  have h_accounts := run_accounts h rfl
  obtain ⟨h_opened, -, h_heard⟩ := accounts_some h_accounts h_e
  have h_group : e.group = interface := by
    have h_interface := (run_conducts h i).opened e.group (h_opened ▸ List.mem_singleton_self _)
    rwa [h_dump, Command.interface] at h_interface
  cases h_load : Decoder.loadDecoder host.loader files dbcPaths with
  | error fault =>
    -- nothing was opened
    rw [(dump_fails h_load (run_follows_dump h h_dump)).1] at h_opened
    cases h_opened
  | ok decoder =>
    obtain ⟨seen, h_seen, h_taken, h_exact⟩ := h_bus.exists_seen h_log h_accounts.sound h_e
    rw [h_group, (run_dated h rfl).since i e h_e] at h_seen h_exact
    refine ⟨decoder, seen, rfl, h_seen, h_exact, ?_, ?_⟩
    · rw [h_heard, h_taken, List.length_map, List.length_map]
    · rw [h_heard, h_taken]
      exact h_bus.lines (fun packet h_packet => mem_of_mem_passed (h_seen.subset h_packet)) decoder

end Dump

/-- What a dump has printed: the lines of the frames that its socket has heard, of all of them or
of all but the last. The socket has heard frames of the bus in their order, and if it lost none,
it has heard them one after the other. -/
def Watches (host : Host σ ε δ Factor) (files : σ) (bus : List (Packet ι String CanFrame)) (i : ι)
    (interface : String) (count : ℕ) (dbcPaths : List Path)
    (labels : List (Label ι Syscall.Answer)) (lost : ℕ) : Prop :=
  ∃ decoder seen, Decoder.loadDecoder host.loader files dbcPaths = .ok decoder ∧
    seen.Sublist (passed isReceived bus (joined i labels) interface i) ∧
    (lost = 0 → seen <+: passed isReceived bus (joined i labels) interface i) ∧
    seen.length ≤ count ∧ seen.length ≤ (printed (view i labels)).length + 1 ∧
    (printed (view i labels)).map .ok <+: seen.map (packetLine host decoder)

/-- **What a dump prints**, while it has no socket and while it has one. -/
theorem run_watches (h : NetRun host files commands labels c)
    {bus : List (Packet ι String CanFrame)} (h_bus : Carries host files commands bus)
    (h_log : Encodes host.order bus c.world.log) {i : ι} {interface : String} {count : ℕ}
    {dbcPaths : List Path} (h_dump : commands i = .dump interface count dbcPaths) :
    (c.world.endpoint i = none → printed (view i labels) = []) ∧
      ∀ e, c.world.endpoint i = some e →
        Watches host files bus i interface count dbcPaths labels e.lost := by
  constructor
  · intro h_e
    -- what was not heard is not printed
    have h_heard := (accounts_none (run_accounts h rfl) h_e).2.2
    cases h_load : Decoder.loadDecoder host.loader files dbcPaths with
    | error fault =>
      rw [(dump_fails h_load (run_follows_dump h h_dump)).1]
      rfl
    | ok decoder =>
      have h_dumped := (run_meets_dump h h_dump h_load).always (fun _ _ h => h.so) fun _ _ h => h.so
      have h_printed := h_dumped.printed
      rw [h_heard, List.map_nil] at h_printed
      exact List.map_eq_nil_iff.mp (List.prefix_nil.mp h_printed)
  · intro e h_e
    obtain ⟨decoder, seen, h_load, h_seen, h_exact, h_length, h_lines⟩ :=
      run_seen h h_bus h_log h_dump h_e
    have h_dumped := (run_meets_dump h h_dump h_load).always (fun _ _ h => h.so) fun _ _ h => h.so
    refine ⟨decoder, seen, h_load, h_seen, fun h_lost => ?_, h_length ▸ h_dumped.heard_le,
      h_length ▸ h_dumped.late, h_lines ▸ h_dumped.printed⟩
    obtain ⟨rest, h_rest, -⟩ := h_exact h_lost
    exact ⟨rest, h_rest.symm⟩

/-! ### When nothing more happens -/

/-- Who is left waits for a frame, and there is none, nor any that is still to be sent. -/
structure Quiet (c : Config ι (Net ι) Syscall.Answer (Program.Fault (CommandError ε δ)) Unit) :
    Prop where
  waits : ∀ i, Waits (c.process i)
  outbox : ∀ i e, c.world.endpoint i = some e → e.outbox = []
  inbox : ∀ i resume e, c.process i = asking .recv resume → c.world.endpoint i = some e →
    e.inbox = []

/-- A socket is open where it was opened. -/
theorem exists_endpoint {net : Net ι} (h : Accounts accepts net labels) {i : ι} {interface : String}
    (h_opened : opened (view i labels) = [interface]) : ∃ e, net.endpoint i = some e := by
  cases h_e : net.endpoint i with
  | none =>
    rw [(accounts_none h h_e).1] at h_opened
    cases h_opened
  | some e => exact ⟨e, rfl⟩

/-- **Everything is sent.** -/
theorem Quiet.sentBy (h : Quiet c)
    (h_run : NetRun host files commands labels c)
    {bus : List (Packet ι String CanFrame)} (h_bus : Carries host files commands bus)
    (h_log : Encodes host.order bus c.world.log)
    {i : ι} (h_undisturbed : Undisturbed (view i labels)) :
    sentBy bus i = (commands i).frames host files := by
  have h_accounts := run_accounts h_run rfl
  have h_written := (run_conducts h_run i).complete h_undisturbed (h.waits i)
  have h_sent : Network.sentBy c.world.log i = (Network.sentBy bus i).map (wire host.order) := by
    rw [← h_log, Network.sentBy_encode]
  -- a prefix with all the frames is the whole
  refine (h_bus.sent i).eq_of_length ?_
  rw [← List.length_map (wire host.order), ← h_sent,
    ← @List.length_map _ _ ((commands i).frames host files) (wire host.order), ← h_written]
  cases h_e : c.world.endpoint i with
  -- a process without a socket has written nothing
  | none =>
    have h_absent := h_accounts.sound.absent i h_e
    rw [(accounts_none h_accounts h_e).2.1, Network.sentBy,
      List.filter_eq_nil_iff.mpr (by simpa using h_absent)]
    rfl
  -- what it has written has left its socket
  | some e =>
    rw [(accounts_some h_accounts h_e).2.1, ← (h_accounts.sound.attached i e h_e).posted,
      h.outbox i e h_e, List.append_nil]

/-- The lines up to the first frame that has none. -/
theorem takeWhile_isOk {α β : Type} {lines : List β} {shown tail : List (Except α β)}
    (h : (lines.map .ok = shown ∧ tail = []) ∨
      ∃ e, lines.map .ok ++ [.error e] = shown) :
    (shown ++ tail).takeWhile Except.isOk = lines.map .ok := by
  have h_all : ∀ result ∈ (lines.map .ok : List (Except α β)), Except.isOk result = true := by
    intro result h_result
    obtain ⟨line, -, rfl⟩ := List.mem_map.mp h_result
    rfl
  obtain ⟨rfl, rfl⟩ | ⟨e, rfl⟩ := h
  · rw [List.append_nil]
    exact List.takeWhile_eq_self_iff.mpr h_all
  · rw [List.append_assoc, List.takeWhile_append_of_pos h_all]
    exact List.append_nil _

/-- What a dump prints in the end: the lines of the first frames that were on its interface since it
opened its socket, as many as it was asked for, up to the first one for which there is no line. -/
def Finishes (host : Host σ ε δ Factor) (files : σ) (bus : List (Packet ι String CanFrame)) (i : ι)
    (interface : String) (count : ℕ) (dbcPaths : List Path)
    (labels : List (Label ι Syscall.Answer)) : Prop :=
  match Decoder.loadDecoder host.loader files dbcPaths with
  | .error _ => printed (view i labels) = []
  | .ok decoder => opened (view i labels) = [interface] ∧ (printed (view i labels)).map .ok =
      (((passed isReceived bus (joined i labels) interface i).take count).map
        (packetLine host decoder)).takeWhile Except.isOk

/-- **Every frame is shown.** -/
theorem Quiet.finishes (h : Quiet c)
    (h_run : NetRun host files commands labels c)
    {bus : List (Packet ι String CanFrame)} (h_bus : Carries host files commands bus)
    (h_log : Encodes host.order bus c.world.log)
    {i : ι} {interface : String} {count : ℕ} {dbcPaths : List Path}
    (h_dump : commands i = .dump interface count dbcPaths)
    (h_undisturbed : Undisturbed (view i labels))
    (h_lossless : ∀ e, c.world.endpoint i = some e → e.lost = 0) :
    Finishes host files bus i interface count dbcPaths labels := by
  rw [Finishes]
  cases h_load : Decoder.loadDecoder host.loader files dbcPaths with
  | error fault =>
    -- without databases nothing is printed
    rw [(dump_fails h_load (run_follows_dump h_run h_dump)).1]
    rfl
  | ok decoder =>
    have h_meets := run_meets_dump h_run h_dump h_load
    have h_waits := h.waits i
    have h_ready := (run_conducts h_run i).ready
    -- it is over, or waits for a frame
    have h_end : opened (view i labels) = [interface] ∧
        (((heard (view i labels)).length = count ∧
            Shows host decoder (heard (view i labels)) (printed (view i labels))) ∨
          (∃ earlier bytes fault, heard (view i labels) = earlier ++ [bytes] ∧
            Shows host decoder earlier (printed (view i labels)) ∧
            lineOf host decoder bytes = .error fault) ∨
          ((heard (view i labels)).length < count ∧
            Shows host decoder (heard (view i labels)) (printed (view i labels)) ∧
            ∀ e, c.world.endpoint i = some e → e.inbox = [])) := by
      cases h_process : c.process i with
      | done a =>
        rw [h_process] at h_meets
        obtain ⟨h_opened, h_all | h_last⟩ := h_meets.complete h_undisturbed
        · exact ⟨h_opened, .inl h_all⟩
        · exact ⟨h_opened, .inr (.inl h_last)⟩
      | failed e =>
        rw [h_process] at h_meets
        obtain ⟨h_opened, h_all | h_last⟩ := h_meets.complete h_undisturbed
        · exact ⟨h_opened, .inl h_all⟩
        · exact ⟨h_opened, .inr (.inl h_last)⟩
      | asking question resume =>
        obtain rfl := h_waits question resume h_process
        have h_opened := h_ready _ resume h_process
        rw [h_dump] at h_opened
        rw [h_process] at h_meets
        obtain ⟨h_count, h_shows⟩ := h_meets.1.waits rfl
        exact ⟨h_opened, .inr (.inr ⟨h_count, h_shows, fun e h_e =>
          h.inbox i resume e h_process h_e⟩)⟩
    -- what was heard is the beginning of what was on the interface
    obtain ⟨e, h_e⟩ := exists_endpoint (run_accounts h_run rfl) h_end.1
    obtain ⟨decoder', seen, h_load', -, h_exact, h_length, h_lines⟩ :=
      run_seen h_run h_bus h_log h_dump h_e
    cases h_load.symm.trans h_load'
    obtain ⟨rest, h_passed, h_rest⟩ := h_exact (h_lossless e h_e)
    have h_heard_le := (h_meets.always (fun _ _ h => h.so) fun _ _ h => h.so).heard_le
    refine ⟨h_end.1, ?_⟩
    rw [h_passed, List.take_append, List.take_of_length_le (by omega), List.map_append, ← h_lines]
    refine (takeWhile_isOk ?_).symm
    obtain ⟨h_count, h_shows⟩ | ⟨earlier, bytes, fault, h_heard, h_shows, h_last⟩ |
      ⟨-, h_shows, h_inbox⟩ := h_end.2
    · -- all that was asked for was heard
      refine .inl ⟨h_shows, ?_⟩
      rw [← h_length, h_count, Nat.sub_self]
      rfl
    · -- the last one heard has no line
      refine .inr ⟨fault, ?_⟩
      rw [h_shows, h_heard, List.map_append, List.map_singleton, h_last]
    · -- nothing waits to be heard, so there was nothing more
      refine .inl ⟨h_shows, ?_⟩
      rw [h_inbox e h_e] at h_rest
      rw [List.length_eq_zero_iff.mp h_rest, List.take_nil]
      rfl

/-! ### Every run ends -/

variable [Fintype ι]

theorem queued_answers {net next : Net ι} {i : ι} {event : Event Syscall.Answer}
    (h : (environment accepts).answers net i event next) : next.queued ≤ net.queued + 1 := by
  obtain ⟨interface, -, h_attach⟩ | ⟨bytes, -, h_put⟩ | ⟨packet, -, h_take⟩ | ⟨-, rfl⟩ :=
    answers_cases h
  · exact (Network.queued_attach h_attach).le.trans (Nat.le_succ _)
  · -- only a write adds a message
    exact (Network.queued_put h_put).le
  · exact (Network.queued_take h_take).le.trans (Nat.le_succ _)
  · exact Nat.le_succ _

theorem length_run_le (h : NetRun host files commands labels c) :
    labels.length ≤ 2 * ∑ i, (commands i).steps host files := by
  have h_empty : (Network.empty : Net ι).queued = 0 := Finset.sum_eq_zero fun i _ => rfl
  have h_le := h.length_le (fun _ _ _ _ h => queued_answers h)
    (fun _ _ ⟨_, _, h⟩ => Network.queued_deliver h) fun i => routine_within host files (commands i)
  rw [show (start host files commands Network.empty).world = Network.empty from rfl, h_empty]
    at h_le
  omega

end Bus

end Cantools.Cli
