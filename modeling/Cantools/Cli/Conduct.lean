import Cantools.Cli.Network
import Cantools.Codec.WellFormed
import Cantools.SocketCan.NativeRoundTrip

/-!
# What a command does, whatever it is answered

The specifications of `send`, `play` and `dump`, each on its own (`Dialogue.Meets`). A sender opens
its socket and writes its frames in order; when it is over, it has written all of them, or one of
its calls failed (`send_meets`, `play_meets`). A dump opens its socket, never writes, and prints
what it receives line by line until it has had its number of frames (`dump_meets`). None of them
asks more than a fixed number of questions (`routine_within`).
-/

namespace Cantools.Cli

open Buffer Codec Dialogue LittleEndian Program SocketCan

/-! ### Frames on the wire -/

/-- The bytes of a frame. -/
def wire (order : ByteOrder) (frame : CanFrame) : List UInt8 :=
  match nativeBytes order frame with
  | .ok bytes => bytes
  | .error _ => []

/-- The frame as others receive it. -/
def asReceived (frame : CanFrame) : CanFrame :=
  { frame with
    fdFlags := if frame.fd then frame.fdFlags
      else { bitRateSwitch := false, errorStateIndicator := false } }

theorem received_ok {bytes : List UInt8} {buffer : FixedArray UInt8 72}
    (h : filled 72 0 bytes = some buffer) :
    received (.ok bytes) = { received := bytes.length, errno := .other 0, buffer } := by
  have h_buffer : receiveBuffer bytes = buffer := by
    rw [filled] at h
    split at h
    · next h_le =>
      cases h
      exact Subtype.ext (congrArg (· ++ _) (List.take_of_length_le h_le))
    · cases h
  rw [received, h_buffer]

/-- A call that failed. -/
theorem recvNative_error (order : ByteOrder) (e : Errno) : recvNative order (received (.error e))
    = if e = .wouldBlock then .ok none else .error (.error (.io e)) := by
  rw [recvNative]
  exact if_pos rfl

theorem nativeBytes_eq_wire {order : ByteOrder} {frame : CanFrame} {bytes : List UInt8}
    {buffer : FixedArray UInt8 72} {result : Run SocketCan.Error (Option CanFrame)}
    (h_bytes : nativeBytes order frame = .ok bytes) (h_buffer : filled 72 0 bytes = some buffer)
    (h_recv : recvNative order { received := bytes.length, errno := .other 0, buffer } = result) :
    nativeBytes order frame = .ok (wire order frame) ∧
      recvNative order (received (.ok (wire order frame))) = result := by
  have h_wire : wire order frame = bytes := by rw [wire, h_bytes]
  rw [h_wire, received_ok h_buffer]
  exact ⟨h_bytes, h_recv⟩

/-- **A valid frame** has bytes, and is received from them. -/
theorem nativeBytes_wire (order : ByteOrder) {frame : CanFrame} (h : frame.Valid) :
    nativeBytes order frame = .ok (wire order frame) ∧
      recvNative order (received (.ok (wire order frame))) = .ok (some (asReceived frame)) := by
  cases h_fd : frame.fd with
  -- a CAN FD frame has the longer of the two layouts
  | true =>
    obtain ⟨bytes, buffer, h_bytes, h_len, h_buffer, h_recv⟩ :=
      recvNative_nativeBytes_fd order (.other 0) h h_fd
    refine nativeBytes_eq_wire h_bytes h_buffer ?_
    rw [h_len, asReceived, if_pos h_fd]
    exact h_recv
  | false =>
    obtain ⟨bytes, buffer, h_bytes, h_len, h_buffer, h_recv⟩ :=
      recvNative_nativeBytes_classic order (.other 0) h h_fd
    refine nativeBytes_eq_wire h_bytes h_buffer ?_
    rw [h_len, asReceived, if_neg (ne_true_of_eq_false h_fd)]
    exact h_recv

section

variable {σ ε δ Factor : Type} (host : Host σ ε δ Factor) (files : σ)

/-! ### What a command is for -/

def Command.interface : Command Factor → String
  | .send interface .. => interface
  | .dump interface .. => interface
  | .play interface .. => interface

/-- The frames that a command sends, in order; none if they cannot be read. -/
def Command.frames : Command Factor → List CanFrame
  | .send _ id data fd brs esi =>
    match buildFrame id data fd brs esi with
    | .ok frame => [frame]
    | .error _ => []
  | .dump .. => []
  | .play _ input _ _ =>
    match readPath host.crates host.loader.files files input with
    | .ok report => report.events.map (·.frame)
    | .error _ => []

theorem valid_of_buildFrame {id data : List Char} {fd brs esi : Bool} {frame : CanFrame}
    (h : buildFrame id data fd brs esi = .ok frame) : frame.Valid := by
  simp only [buildFrame, bind_eq_ok_iff, orFail_eq_ok_iff, mapError_eq_ok_iff,
    CanFrame.new_eq_ok_iff] at h
  obtain ⟨_, -, _, -, -, h_valid⟩ := h
  exact h_valid

/-- **Only valid frames are sent.** -/
theorem Command.valid_frames (command : Command Factor) :
    ∀ frame ∈ command.frames host files, frame.Valid := by
  intro frame h_frame
  cases command with
  -- the frame of the command line is checked when it is built
  | send interface id data fd brs esi =>
    rw [Command.frames] at h_frame
    split at h_frame
    · next built h_built =>
      rw [List.mem_singleton.mp h_frame]
      exact valid_of_buildFrame h_built
    · exact absurd h_frame List.not_mem_nil
  | dump interface count dbcPaths => exact absurd h_frame List.not_mem_nil
  -- the frames of a file are checked by its reader
  | play interface input immediate scale =>
    rw [Command.frames] at h_frame
    split at h_frame
    · next report h_report =>
      obtain ⟨event, h_event, rfl⟩ := List.mem_map.mp h_frame
      exact (wellFormed_readPath h_report event h_event).valid
    · exact absurd h_frame List.not_mem_nil

/-- The line of a frame does not depend on flags that are not sent. -/
theorem dumpLine_asReceived (checks : Bool) (display : Float → List Char)
    (decoder : Option Decoder) (frame : CanFrame) :
    dumpLine checks display decoder (asReceived frame)
      = dumpLine checks display decoder frame := rfl

end

/-- **Every capture can be played.** Whatever bytes a file has, what is read from it is well formed,
has bytes on the wire, and is received from them, but for flags that a classic frame does not
have. -/
theorem readPath_playable {σ ε : Type} (order : ByteOrder) (crates : Crates ε) (files : Files σ ε)
    (s : σ) (path : Path) (report : ReadReport)
    (h : readPath crates files s path = .ok report) :
    ∀ event ∈ report.events, WellFormed event ∧
      nativeBytes order event.frame = .ok (wire order event.frame) ∧
      recvNative order (received (.ok (wire order event.frame)))
        = .ok (some (asReceived event.frame)) := by
  intro event h_event
  have h_wellFormed := wellFormed_readPath h event h_event
  exact ⟨h_wellFormed, nativeBytes_wire order h_wellFormed.valid⟩

theorem readPath_playable_log :
    let files : Path → Option (List UInt8) := fun _ =>
      some (Utf8.encode "1.000000 can0 123 Rx d 2 11 22".toList)
    ∃ event, readPath plainCrates disk files (Utf8.encode "a.asc".toList)
        = .ok { events := [event], notes := [] } ∧
      recvNative .big (received (.ok (wire .big event.frame)))
        = .ok (some (asReceived event.frame)) := by
  intro files
  obtain ⟨event, h_read⟩ : ∃ event, readPath plainCrates disk files (Utf8.encode "a.asc".toList)
      = .ok { events := [event], notes := [] } := ⟨_, rfl⟩
  have h_playable := readPath_playable .big _ _ _ _ _ h_read event (List.mem_singleton_self _)
  exact ⟨event, h_read, h_playable.2.2⟩

/-! ### Calls that failed -/

/-- No call failed. -/
def Undisturbed (trace : List (Event Syscall.Answer)) : Prop := ∀ event ∈ trace, ¬ Failed event

instance (trace : List (Event Syscall.Answer)) : Decidable (Undisturbed trace) :=
  inferInstanceAs (Decidable (∀ event ∈ trace, ¬ Failed event))

theorem not_undisturbed_snoc {trace : List (Event Syscall.Answer)} {event : Event Syscall.Answer}
    (h : Failed event) : ¬ Undisturbed (trace ++ [event]) :=
  fun h_all => h_all event (List.mem_append_right _ (List.mem_singleton_self _)) h

/-! ### Senders -/

/-- The socket is open where it is used, and opened once. -/
def Ready (interface : String) (trace : List (Event Syscall.Answer)) : Syscall → Prop
  | .openRaw name => name = interface ∧ opened trace = []
  | .write _ => opened trace = [interface]
  | .recv => opened trace = [interface]
  | _ => True

/-- What a command that sends these bytes may ask, and when. -/
structure SenderAsks (interface : String) (all : List (List UInt8))
    (trace : List (Event Syscall.Answer)) (question : Syscall) : Prop where
  opened : ∀ name ∈ opened trace, name = interface
  written : written trace <+: all
  ready : Ready interface trace question
  sends : question ≠ .recv

/-- What a sender has done that is over. -/
structure Over (interface : String) (all : List (List UInt8))
    (trace : List (Event Syscall.Answer)) : Prop where
  opened : ∀ name ∈ opened trace, name = interface
  written : written trace <+: all
  complete : Undisturbed trace → Cli.written trace = all

/-- The socket is open and these bytes are written, or the command is over. -/
def Reached {ε' α : Type} (interface : String) (all before : List (List UInt8))
    (trace : List (Event Syscall.Answer)) : Except ε' α → Prop
  | .ok _ => opened trace = [interface] ∧ written trace = before
  | .error _ => Over interface all trace

theorem forall_mem_of_eq_singleton {interface : String} {names : List String}
    (h : names = [interface]) : ∀ name ∈ names, name = interface :=
  fun _ h_name => List.mem_singleton.mp (h ▸ h_name)

theorem Reached.over {ε' α : Type} {interface : String} {all : List (List UInt8)}
    {trace : List (Event Syscall.Answer)} {result : Except ε' α}
    (h : Reached interface all all trace result) : Over interface all trace := by
  cases result with
  | error e => exact h
  | ok a =>
    refine ⟨forall_mem_of_eq_singleton h.1, ?_, fun _ => h.2⟩
    exact h.2 ▸ List.prefix_rfl

section

variable {σ ε δ Factor : Type} {interface : String} {all before : List (List UInt8)}
variable {trace : List (Event Syscall.Answer)}

theorem openRaw_meets (interface : String) (all : List (List UInt8)) :
    Dialogue.Meets (SenderAsks interface all) (Reached interface all []) []
      (openRaw interface : Routine ε δ Unit) := by
  refine ⟨⟨List.forall_mem_nil _, List.nil_prefix, ⟨rfl, rfl⟩, fun h => nomatch h⟩,
    fun answer => ?_⟩
  cases answer with
  | ok _ => exact ⟨rfl, rfl⟩
  | error e =>
    exact ⟨fun _ h => absurd h List.not_mem_nil, List.nil_prefix, fun h =>
      absurd h (@not_undisturbed_snoc [] ⟨.openRaw interface, .error e⟩ trivial)⟩

/-- One frame. -/
theorem sendFrame_meets (order : ByteOrder) {frame : CanFrame} (h_valid : frame.Valid)
    (h_opened : opened trace = [interface]) (h_written : written trace = before)
    (h_next : before ++ [wire order frame] <+: all) :
    Dialogue.Meets (SenderAsks interface all)
      (Reached interface all (before ++ [wire order frame])) trace
      (sendFrame order frame : Routine ε δ Unit) := by
  rw [sendFrame, (nativeBytes_wire order h_valid).1, lift_ok, done_bind, ask_bind]
  have h_before : written trace <+: all := h_written ▸ (List.prefix_append ..).trans h_next
  -- one write, on the open socket, of what comes next
  refine ⟨⟨forall_mem_of_eq_singleton h_opened, h_before, h_opened, by simp⟩, fun answer => ?_⟩
  cases answer with
  -- the bytes are behind those written before
  | ok _ =>
    refine ⟨?_, ?_⟩
    · rw [opened_snoc, h_opened]
      rfl
    · rw [written_snoc, h_written]
      rfl
  -- a write that fails leaves them as they are, and the run is disturbed
  | error e =>
    refine ⟨?_, ?_, fun h => absurd h (@not_undisturbed_snoc trace ⟨.write _, .error e⟩ trivial)⟩
    · rw [opened_snoc, h_opened]
      exact forall_mem_of_eq_singleton rfl
    · rw [written_snoc]
      exact (List.append_nil (written trace)).symm ▸ h_before

/-- A question that is not about the socket. -/
theorem ask_meets {question : Syscall}
    (h_silent : ∀ answer, opens ⟨question, answer⟩ = none ∧ writes ⟨question, answer⟩ = none)
    (h_ready : Ready interface trace question) (h_sends : question ≠ .recv)
    (h_opened : opened trace = [interface]) (h_written : written trace = before)
    (h_before : before <+: all) :
    Dialogue.Meets (SenderAsks interface all) (Reached interface all before) trace
      (ask question : Routine ε δ (Syscall.Answer question)) := by
  refine ⟨⟨forall_mem_of_eq_singleton h_opened, h_written ▸ h_before, h_ready, h_sends⟩,
    fun answer => ⟨?_, ?_⟩⟩
  · rw [opened_snoc, (h_silent answer).1, h_opened, Option.toList_none, List.append_nil]
  · rw [written_snoc, (h_silent answer).2, h_written, Option.toList_none, List.append_nil]

variable (host : Host σ ε δ Factor) (files : σ)

/-- **What `send` does.** -/
theorem send_meets (interface : String) (id data : List Char) (fd brs esi : Bool) :
    let all := ((Command.send interface id data fd brs esi).frames host files).map (wire host.order)
    Dialogue.Meets (SenderAsks interface all) (fun trace _ => Over interface all trace) []
      (sendCommand host interface id data fd brs esi) := by
  intro all
  cases h_built : buildFrame id data fd brs esi with
  | error fault =>
    -- without a frame, nothing is asked and nothing was to be sent
    have h_all : all = [] := by
      simp only [all, Command.frames, h_built]
      rfl
    have h_over : Over interface all [] :=
      ⟨fun _ h => absurd h List.not_mem_nil, List.nil_prefix, fun _ => h_all.symm⟩
    rw [sendCommand, h_built]
    cases fault <;> exact h_over
  | ok frame =>
    have h_all : all = [wire host.order frame] := by
      simp only [all, Command.frames, h_built]
      rfl
    rw [sendCommand, h_built, lift_ok, done_bind]
    -- open, send, print
    refine (openRaw_meets interface all).bind (fun trace _ h_open => ?_) fun _ _ h => h
    have h_next : [] ++ [wire host.order frame] <+: all := by
      rw [h_all]
      exact List.prefix_rfl
    refine (sendFrame_meets host.order (valid_of_buildFrame h_built) h_open.1 h_open.2 h_next).bind
      (fun trace _ h_sent => ?_) fun _ _ h => h
    -- all bytes are written now, and printing changes nothing
    rw [← h_all] at h_sent
    have h_ready : Ready interface trace (.print (renderFrame frame)) := trivial
    exact (ask_meets (fun _ => ⟨rfl, rfl⟩) h_ready (fun h => nomatch h) h_sent.1 h_sent.2
      List.prefix_rfl).mono fun _ _ h => h.over

/-! ### The loop of `play` -/

theorem pauseBefore_meets (mode : ReplayMode Factor) (previous : Option Timestamp)
    (event : CaptureEvent) (h_opened : opened trace = [interface])
    (h_written : written trace = before) (h_before : before <+: all) :
    Dialogue.Meets (SenderAsks interface all) (Reached interface all before) trace
      (pauseBefore host mode previous event : Routine ε δ Unit) := by
  -- a sleep is no call on the socket, so nothing changes
  have h_sleep : ∀ nanos, Dialogue.Meets (SenderAsks interface all) (Reached interface all before)
      trace (ask (Syscall.sleep nanos) : Routine ε δ Unit) := by
    intro nanos
    have h_ready : Ready interface trace (.sleep nanos) := trivial
    exact ask_meets (fun _ => ⟨rfl, rfl⟩) h_ready (fun h => nomatch h) h_opened h_written h_before
  cases previous with
  | none => exact ⟨h_opened, h_written⟩
  | some previous =>
    cases mode with
    | immediate => exact ⟨h_opened, h_written⟩
    | preserve => exact h_sleep _
    | scale factor => exact h_sleep _

/-- **All frames in order**, whatever the sleeps are. -/
theorem replayLoop_meets (mode : ReplayMode Factor) (previous : Option Timestamp)
    {events : List CaptureEvent} (h_valid : ∀ event ∈ events, event.frame.Valid)
    (h_opened : opened trace = [interface]) (h_written : written trace = before)
    (h_all : before ++ events.map (fun event => wire host.order event.frame) = all) :
    Dialogue.Meets (SenderAsks interface all) (Reached interface all all) trace
      (replayLoop host mode previous events : Routine ε δ Unit) := by
  induction events generalizing trace previous before with
  | nil => exact ⟨h_opened, h_written.trans ((List.append_nil _).symm.trans h_all)⟩
  | cons event events ih =>
    obtain ⟨h_event, h_events⟩ := List.forall_mem_cons.mp h_valid
    rw [List.map_cons, List.append_cons] at h_all
    have h_next : before ++ [wire host.order event.frame] <+: all := ⟨_, h_all⟩
    refine (pauseBefore_meets host mode previous event h_opened h_written
      ((List.prefix_append ..).trans h_next)).bind (fun trace _ h_pause => ?_) fun _ _ h => h
    refine (sendFrame_meets host.order h_event h_pause.1 h_pause.2 h_next).bind
      (fun trace _ h_sent => ?_) fun _ _ h => h
    exact ih (some event.timestamp) h_events h_sent.1 h_sent.2 h_all

theorem reportNotes_meets (notes : List FidelityNote) (h_opened : opened trace = [interface])
    (h_written : written trace = all) :
    Dialogue.Meets (SenderAsks interface all) (Reached interface all all) trace
      (reportNotes notes : Routine ε δ Unit) := by
  induction notes generalizing trace with
  | nil => exact ⟨h_opened, h_written⟩
  | cons note notes ih =>
    have h_ready : Ready interface trace (.report ("note: ".toList ++ note.detail.toList)) :=
      trivial
    exact (ask_meets (fun _ => ⟨rfl, rfl⟩) h_ready (fun h => nomatch h) h_opened h_written
      List.prefix_rfl).bind (fun _ _ h => ih h.1 h.2) fun _ _ h => h

/-- **What `play` does.** -/
theorem play_meets (interface : String) (input : Path) (immediate : Bool) (scale : Option Factor) :
    let all := ((Command.play interface input immediate scale).frames host files).map
      (wire host.order)
    Dialogue.Meets (SenderAsks interface all) (fun trace _ => Over interface all trace) []
      (playCommand host files interface input immediate scale) := by
  intro all
  refine (openRaw_meets interface all).bind (fun trace _ h_open => ?_) fun _ _ h => h
  cases h_read : readPath host.crates host.loader.files files input with
  | error fault =>
    -- a capture that cannot be read has no frames
    have h_all : all = [] := by
      simp only [all, Command.frames, h_read]
      rfl
    have h_reached : Reached interface all all trace (.ok () : Except Empty Unit) :=
      ⟨h_open.1, h_open.2.trans h_all.symm⟩
    cases fault <;> exact h_reached.over
  | ok report =>
    have h_all : report.events.map (fun event => wire host.order event.frame) = all := by
      simp only [all, Command.frames, h_read, List.map_map]
      rfl
    have h_valid := fun event h_event => (wellFormed_readPath h_read event h_event).valid
    rw [lift_ok, done_bind]
    -- the frames are sent, and then the notes are reported
    refine (replayLoop_meets host _ none h_valid h_open.1 h_open.2 h_all).bind
      (fun trace _ h_sent => ?_) fun _ _ h => h
    exact (reportNotes_meets report.notes h_sent.1 h_sent.2).mono fun _ _ h => h.over

/-! ### Dumps -/

/-- The line for bytes that were received. -/
def lineOf (decoder : Option Decoder) (bytes : List UInt8) : Run Empty (List Char) :=
  match recvNative host.order (received (.ok bytes)) with
  | .ok (some frame) => dumpLine host.checks host.display decoder frame
  | _ => .error .panic

/-- These lines are those of these bytes. -/
def Shows (decoder : Option Decoder) (bytes : List (List UInt8)) (lines : List (List Char)) :
    Prop :=
  lines.map .ok = bytes.map (lineOf host decoder)

/-- What a dump has done so far: it has printed the lines of what it heard, but for the last one
at most. -/
structure Dumped (interface : String) (count : ℕ) (decoder : Option Decoder)
    (trace : List (Event Syscall.Answer)) : Prop where
  opened : ∀ name ∈ opened trace, name = interface
  written : written trace = []
  heard_le : (heard trace).length ≤ count
  printed : (printed trace).map .ok <+: (heard trace).map (lineOf host decoder)
  late : (heard trace).length ≤ (Cli.printed trace).length + 1

/-- What a dump may ask, and when. -/
structure DumpAsks (interface : String) (count : ℕ) (decoder : Option Decoder)
    (trace : List (Event Syscall.Answer)) (question : Syscall) : Prop where
  so : Dumped host interface count decoder trace
  ready : Ready interface trace question
  /-- It waits only between two rounds. -/
  waits : question = .recv → (heard trace).length < count ∧
    Shows host decoder (heard trace) (printed trace)

/-- What a dump has done that is over. If no call failed, it has had all its frames, or there was
no line for the last one. -/
structure DumpOver (interface : String) (count : ℕ) (decoder : Option Decoder)
    (trace : List (Event Syscall.Answer)) : Prop where
  so : Dumped host interface count decoder trace
  complete : Undisturbed trace → opened trace = [interface] ∧
    (((heard trace).length = count ∧ Shows host decoder (heard trace) (printed trace)) ∨
      ∃ earlier bytes fault, heard trace = earlier ++ [bytes] ∧
        Shows host decoder earlier (printed trace) ∧ lineOf host decoder bytes = .error fault)

/-- A dump between two rounds, with this many left. -/
structure Dumping (interface : String) (count : ℕ) (decoder : Option Decoder) (left : ℕ)
    (trace : List (Event Syscall.Answer)) : Prop where
  opened : opened trace = [interface]
  written : written trace = []
  shows : Shows host decoder (heard trace) (printed trace)
  heard_le : (heard trace).length + left ≤ count
  heard_eq : Undisturbed trace → (heard trace).length + left = count

section Dump

variable {host} {count left : ℕ} {decoder : Option Decoder}

theorem Undisturbed.of_snoc {event : Event Syscall.Answer} (h : Undisturbed (trace ++ [event])) :
    Undisturbed trace := fun e h_e => h e (List.mem_append_left _ h_e)

theorem Shows.prefix {bytes : List (List UInt8)} {lines : List (List Char)}
    (h : Shows host decoder bytes lines) (later : List (List UInt8)) :
    lines.map .ok <+: (bytes ++ later).map (lineOf host decoder) := by
  rw [List.map_append, ← h]
  exact List.prefix_append ..

/-- There is one line for each frame. -/
theorem Shows.length_eq {bytes : List (List UInt8)} {lines : List (List Char)}
    (h : Shows host decoder bytes lines) : lines.length = bytes.length := by
  have h_length := congrArg List.length h
  rwa [List.length_map, List.length_map] at h_length

/-- The line of one more frame. -/
theorem Shows.snoc {bytes : List (List UInt8)} {lines : List (List Char)} {line : List Char}
    {last : List UInt8} (h : Shows host decoder bytes lines)
    (h_last : lineOf host decoder last = .ok line) :
    Shows host decoder (bytes ++ [last]) (lines ++ [line]) := by
  rw [Shows, List.map_append, List.map_append, ← h, List.map_singleton, List.map_singleton, h_last]

theorem dumped_nil (interface : String) (count : ℕ) : Dumped host interface count decoder [] :=
  ⟨List.forall_mem_nil _, rfl, Nat.zero_le _, List.nil_prefix, Nat.zero_le _⟩

theorem Dumping.dumped (h : Dumping host interface count decoder left trace) :
    Dumped host interface count decoder trace where
  opened := forall_mem_of_eq_singleton h.opened
  written := h.written
  heard_le := le_trans (Nat.le_add_right ..) h.heard_le
  printed := by
    have h_prefix := h.shows.prefix []
    rwa [List.append_nil] at h_prefix
  late := by
    rw [h.shows.length_eq]
    exact Nat.le_succ _

/-- Without rounds left, or behind a call that failed, the dump is over. -/
theorem Dumping.over (h : Dumping host interface count decoder left trace)
    (h_left : Undisturbed trace → left = 0) : DumpOver host interface count decoder trace where
  so := h.dumped
  complete h_undisturbed := by
    have h_heard := h.heard_eq h_undisturbed
    rw [h_left h_undisturbed] at h_heard
    exact ⟨h.opened, .inl ⟨h_heard, h.shows⟩⟩

/-- A round in which the call failed. -/
theorem Dumping.fails (e : Errno) (h : Dumping host interface count decoder (left + 1) trace) :
    Dumping host interface count decoder left (trace ++ [⟨.recv, .error e⟩]) where
  opened := by
    rw [opened_snoc, h.opened]
    rfl
  written := by
    rw [written_snoc, h.written]
    rfl
  shows := by
    rw [heard_snoc, printed_snoc]
    simpa [hears, prints] using h.shows
  heard_le := by
    rw [heard_snoc]
    exact le_trans (Nat.le_of_eq (by simp [hears])) (le_trans (Nat.le_succ _) h.heard_le)
  heard_eq h_all := absurd h_all (@not_undisturbed_snoc trace ⟨.recv, .error e⟩ trivial)

/-- What a round leads to. -/
def Round (host : Host σ ε δ Factor) (interface : String) (count : ℕ) (decoder : Option Decoder)
    (left : ℕ) {ε' α : Type} (trace : List (Event Syscall.Answer)) : Except ε' α → Prop
  | .ok _ => Dumping host interface count decoder left trace
  | .error _ => DumpOver host interface count decoder trace

/-- A round in which bytes were received: there is a line for them, which is printed, or the dump
is over. -/
theorem printFrame_meets {bytes : List UInt8} {frame : CanFrame}
    (h : Dumping host interface count decoder (left + 1) trace)
    (h_frame : recvNative host.order (received (.ok bytes)) = .ok (some frame)) :
    Dialogue.Meets (DumpAsks host interface count decoder)
      (Round host interface count decoder left) (trace ++ [⟨.recv, .ok bytes⟩])
      (printFrame host decoder (some frame) : Routine ε δ Unit) := by
  -- the answer to `recv` is in what was heard, and in nothing else
  have h_line : lineOf host decoder bytes
      = dumpLine host.checks host.display decoder frame := by rw [lineOf, h_frame]
  have h_opened : opened (trace ++ [⟨.recv, .ok bytes⟩]) = [interface] := by
    rw [opened_snoc, h.opened]
    rfl
  have h_written : written (trace ++ [⟨.recv, .ok bytes⟩]) = [] := by
    rw [written_snoc, h.written]
    rfl
  have h_heard : heard (trace ++ [⟨.recv, .ok bytes⟩]) = heard trace ++ [bytes] := heard_snoc ..
  have h_printed : printed (trace ++ [⟨.recv, .ok bytes⟩]) = printed trace := by
    rw [printed_snoc]
    exact List.append_nil _
  have h_length : (heard (trace ++ [⟨.recv, .ok bytes⟩])).length = (heard trace).length + 1 := by
    rw [h_heard, List.length_append, List.length_singleton]
  have h_le := h.heard_le
  -- the line is not printed yet
  have h_so : Dumped host interface count decoder (trace ++ [⟨.recv, .ok bytes⟩]) := by
    refine ⟨forall_mem_of_eq_singleton h_opened, h_written, by omega, ?_, ?_⟩
    · rw [h_heard, h_printed]
      exact h.shows.prefix [bytes]
    · rw [h_length, h_printed, h.shows.length_eq]
  rw [printFrame, ← h_line]
  cases h_shown : lineOf host decoder bytes with
  | error fault =>
    -- decoding panics: the frame was heard and is not printed
    have h_over : DumpOver host interface count decoder (trace ++ [⟨.recv, .ok bytes⟩]) :=
      ⟨h_so, fun _ => ⟨h_opened, .inr
        ⟨heard trace, bytes, fault, h_heard, h_printed ▸ h.shows, h_shown⟩⟩⟩
    cases fault with
    | error e => exact e.elim
    | panic => exact h_over
  | ok line =>
    -- behind the line, one round less is left
    refine ⟨⟨h_so, trivial, fun h => nomatch h⟩, fun answer => ⟨?_, ?_, ?_, ?_, fun h_all => ?_⟩⟩
    · rw [opened_snoc, h_opened]
      rfl
    · rw [written_snoc, h_written]
      rfl
    · rw [heard_snoc, printed_snoc, h_heard, h_printed]
      exact (List.append_nil (heard trace ++ [bytes])).symm ▸ h.shows.snoc h_shown
    · rw [heard_snoc, List.length_append, h_length]
      show (heard trace).length + 1 + 0 + left ≤ count
      omega
    · have h_eq := h.heard_eq h_all.of_snoc.of_snoc
      rw [heard_snoc, List.length_append, h_length]
      show (heard trace).length + 1 + 0 + left = count
      omega

/-- **One round.** -/
theorem dumpRound_meets (h : Dumping host interface count decoder (left + 1) trace) :
    Dialogue.Meets (DumpAsks host interface count decoder)
      (Round host interface count decoder left) trace
      (dumpRound host decoder : Routine ε δ Unit) := by
  have h_le := h.heard_le
  refine ⟨⟨h.dumped, h.opened, fun _ => ⟨by omega, h.shows⟩⟩, fun answer => ?_⟩
  show Dialogue.Meets _ _ _ (lift .socket (recvNative host.order (received answer)) >>=
    printFrame host decoder)
  cases answer with
  | error e =>
    have h_fails := h.fails e
    have h_over := h_fails.over fun h_all =>
      absurd h_all (@not_undisturbed_snoc trace ⟨.recv, .error e⟩ trivial)
    -- a call that would block has no frame, and the dump goes on
    by_cases h_block : e = .wouldBlock
    · rw [recvNative_error, if_pos h_block]
      exact h_fails
    · rw [recvNative_error, if_neg h_block]
      exact h_over
  | ok bytes =>
    have h_size : (received (.ok bytes)).received ≠ -1 := by
      show (bytes.length : ℤ) ≠ -1
      omega
    obtain ⟨frame, h_frame, -⟩ := recvNative_total host.order h_size
    rw [h_frame]
    exact printFrame_meets h h_frame

theorem dumpLoop_meets (h : Dumping host interface count decoder left trace) :
    Dialogue.Meets (DumpAsks host interface count decoder)
      (fun trace _ => DumpOver host interface count decoder trace) trace
      (dumpLoop host decoder left : Routine ε δ Unit) := by
  induction left generalizing trace with
  | zero => exact h.over fun _ => rfl
  | succ left ih => exact (dumpRound_meets h).bind (fun _ _ h => ih h) fun _ _ h => h

/-- **What `dump` does**, with its databases loaded. -/
theorem dump_meets (interface : String) (count : ℕ) {dbcPaths : List Path}
    (h_load : Decoder.loadDecoder host.loader files dbcPaths = .ok decoder) :
    Dialogue.Meets (DumpAsks host interface count decoder)
      (fun trace _ => DumpOver host interface count decoder trace) []
      (dumpCommand host files interface count dbcPaths) := by
  rw [dumpCommand, h_load, orFail_ok, lift_ok, done_bind]
  refine ⟨⟨dumped_nil .., ⟨rfl, rfl⟩, fun h => nomatch h⟩, fun answer => ?_⟩
  cases answer with
  | ok _ =>
    exact dumpLoop_meets ⟨rfl, rfl, rfl, Nat.le_of_eq (Nat.zero_add _), fun _ => Nat.zero_add _⟩
  | error e =>
    refine ⟨⟨fun _ h => absurd h List.not_mem_nil, rfl, Nat.zero_le _, List.nil_prefix,
      Nat.zero_le _⟩, fun h => ?_⟩
    exact absurd h (@not_undisturbed_snoc [] ⟨.openRaw interface, .error e⟩ trivial)

end Dump

/-! ### The number of questions -/

/-- How many questions a command asks at most. -/
def Command.steps : Command Factor → ℕ
  | .send .. => 3
  | .dump _ count _ => 1 + 2 * count
  | .play _ input _ _ =>
    1 + match readPath host.crates host.loader.files files input with
      | .ok report => 2 * report.events.length + report.notes.length
      | .error _ => 0

theorem lift_within {α ε' : Type} (n : ℕ) (wrap : ε' → CommandError ε δ)
    (result : Program.Run ε' α) : Within n (lift wrap result : Routine ε δ α) := by
  cases result with
  | ok a => exact within_done n a
  | error fault => cases fault <;> exact within_failed n _

theorem ask_within (question : Syscall) :
    Within 1 (ask question : Routine ε δ (Syscall.Answer question)) := fun _ => trivial

theorem openRaw_within (interface : String) : Within 1 (openRaw interface : Routine ε δ Unit) := by
  intro answer
  cases answer <;> trivial

theorem sendFrame_within (order : ByteOrder) (frame : CanFrame) :
    Within 1 (sendFrame order frame : Routine ε δ Unit) := by
  rw [sendFrame]
  cases nativeBytes order frame with
  | error fault => cases fault <;> trivial
  | ok bytes =>
    intro answer
    cases answer <;> trivial

theorem replayLoop_within (mode : ReplayMode Factor) (previous : Option Timestamp)
    (events : List CaptureEvent) : Within (2 * events.length)
      (replayLoop host mode previous events : Routine ε δ Unit) := by
  induction events generalizing previous with
  | nil => exact within_done _ _
  | cons event events ih =>
    -- an event costs a sleep and a write
    have h_pause : Within 1 (pauseBefore host mode previous event : Routine ε δ Unit) := by
      cases previous with
      | none => trivial
      | some previous =>
        cases mode with
        | immediate => trivial
        | preserve => exact ask_within _
        | scale factor => exact ask_within _
    refine (h_pause.bind fun _ => (sendFrame_within host.order event.frame).bind fun _ =>
      ih (some event.timestamp)).mono ?_
    rw [List.length_cons]
    omega

theorem reportNotes_within (notes : List FidelityNote) :
    Within notes.length (reportNotes notes : Routine ε δ Unit) := by
  induction notes with
  | nil => trivial
  | cons note notes ih =>
    refine ((ask_within _).bind fun _ => ih).mono ?_
    rw [List.length_cons]
    omega

theorem dumpLoop_within (decoder : Option Decoder) (count : ℕ) :
    Within (2 * count) (dumpLoop host decoder count : Routine ε δ Unit) := by
  have h_print : ∀ frame, Within 1 (printFrame host decoder frame : Routine ε δ Unit) := by
    intro frame
    cases frame with
    | none => trivial
    | some frame => exact (lift_within 0 _ _).bind fun line => ask_within (.print line)
  -- a round asks for a frame and prints its line
  have h_round : Within 2 (dumpRound host decoder : Routine ε δ Unit) :=
    ((ask_within .recv).bind fun answer => lift_within 0 _ _).bind h_print
  induction count with
  | zero => trivial
  | succ count ih =>
    refine (h_round.bind fun _ => ih).mono ?_
    omega

/-- **Every command stops asking.** -/
theorem routine_within (command : Command Factor) :
    Within (command.steps host files) (command.routine host files) := by
  cases command with
  | send interface id data fd brs esi =>
    exact (lift_within 0 _ _).bind fun frame => (openRaw_within interface).bind fun _ =>
      (sendFrame_within host.order frame).bind fun _ => ask_within (.print (renderFrame frame))
  | dump interface count dbcPaths =>
    -- loading asks nothing, opening once, and each round at most twice
    have h_dump := (lift_within 0 .load
      (orFail (Decoder.loadDecoder host.loader files dbcPaths))).bind fun decoder =>
        (openRaw_within interface).bind fun _ => dumpLoop_within host decoder count
    refine h_dump.mono ?_
    rw [Nat.zero_add]
    rfl
  | play interface input immediate scale =>
    refine (openRaw_within interface).bind fun _ => ?_
    cases readPath host.crates host.loader.files files input with
    | error fault => cases fault <;> trivial
    | ok report =>
      exact (replayLoop_within host _ none report.events).bind fun _ =>
        reportNotes_within report.notes

end

end Cantools.Cli
