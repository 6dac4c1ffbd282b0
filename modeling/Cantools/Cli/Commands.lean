import Cantools.Cli.Basic
import Cantools.Cli.Replay
import Cantools.Codec.Path
import Cantools.Decoder.Load
import Cantools.Framework.Dialogue
import Cantools.SocketCan.Socket

/-!
# Commands

`cantools send`, `dump` and `play` as dialogues with the system, so that several of them may run
side by side. A command asks for its socket, writes to it, reads from it, sleeps and prints; what
it does in between is its own. Opening a socket is one question: it is bound once, and the steps
around that are those of `SocketCan.Socket`.

Files, crates and floating point are parameters, as they are where they are used (`Host`).

The sleeps and sends of `play` are those of `replay` (`playing_replayLoop`).
-/

namespace Cantools.Cli

open Codec Dialogue LittleEndian Program SocketCan

/-! ### The system -/

/-- What a command asks of the system. -/
inductive Syscall where
  /-- `RawSocket::open` -/
  | openRaw (interface : String)
  /-- `write` to the socket -/
  | write (bytes : List UInt8)
  /-- `recv` from the socket, which blocks -/
  | recv
  /-- `thread::sleep`, in nanoseconds -/
  | sleep (nanos : UInt64)
  /-- `println!` -/
  | print (line : List Char)
  /-- `eprintln!` -/
  | report (line : List Char)
  deriving DecidableEq, Repr

@[reducible] def Syscall.Answer : Syscall → Type
  | .openRaw _ => Except SocketError Unit
  | .write _ => Except Errno Unit
  /- as many bytes as were received -/
  | .recv => Except Errno (List UInt8)
  | .sleep _ => Unit
  | .print _ => Unit
  | .report _ => Unit

/-- The errors of a command, which `anyhow` carries. -/
inductive CommandError (ε δ : Type) where
  | cli (error : CliError)
  | opening (error : SocketError)
  | socket (error : SocketCan.Error)
  | load (error : Decoder.LoadError ε δ)
  | path (error : PathError ε)

/-- A part of a command. -/
abbrev Routine (ε δ α : Type) := Dialogue Syscall Syscall.Answer (Fault (CommandError ε δ)) α

/-- Where a command runs. -/
structure Host (σ ε δ Factor : Type) where
  order : ByteOrder
  /-- Arithmetic is checked for overflow. -/
  checks : Bool
  /-- `Display` of an `f64` -/
  display : Float → List Char
  /-- A delay, divided by the factor of a replay mode. -/
  scaled : Factor → UInt64 → UInt64
  loader : Decoder.Loader σ ε δ
  crates : Crates ε

section Routines

variable {σ ε δ Factor α ε' : Type}

/-- The `?` operator on the result of a function without questions. -/
def lift (wrap : ε' → CommandError ε δ) : Run ε' α → Routine ε δ α
  | .ok a => done a
  | .error (.error e) => failed (.error (wrap e))
  | .error .panic => failed .panic

@[simp] theorem lift_ok (wrap : ε' → CommandError ε δ) (a : α) :
    (lift wrap (.ok a) : Routine ε δ α) = done a := rfl

/-- `RawSocket::open` -/
def openRaw (interface : String) : Routine ε δ Unit := do
  match ← ask (Syscall.openRaw interface) with
  | .ok () => pure ()
  | .error e => failed (.error (.opening e))

/-- `send` of the socket. -/
def sendFrame (order : ByteOrder) (frame : CanFrame) : Routine ε δ Unit := do
  let bytes ← lift .socket (nativeBytes order frame)
  match ← ask (Syscall.write bytes) with
  | .ok () => pure ()
  | .error e => failed (.error (.socket (.io e)))

/-- What a call of `recv` leaves behind. -/
def received : Except Errno (List UInt8) → Received
  | .ok bytes => { received := bytes.length, errno := .other 0, buffer := receiveBuffer bytes }
  | .error e => { received := -1, errno := e, buffer := receiveBuffer [] }

/-- `recv` of the socket. -/
def recvFrame (order : ByteOrder) : Routine ε δ (Option CanFrame) := do
  let answer ← ask Syscall.recv
  lift .socket (recvNative order (received answer))

def println (line : List Char) : Routine ε δ Unit := ask (Syscall.print line)

/-! ### The commands -/

variable (host : Host σ ε δ Factor) (files : σ)

/-- `Command::Send` -/
def sendCommand (interface : String) (id data : List Char) (fd brs esi : Bool) :
    Routine ε δ Unit := do
  let frame ← lift .cli (buildFrame id data fd brs esi)
  openRaw interface
  sendFrame host.order frame
  println (renderFrame frame)

/-- The decoded signals of a line. -/
def signalsText (display : Float → List Char) (signals : List Decoder.DecodedSignal) : List Char :=
  ", ".toList.intercalate
    (signals.map fun signal => signal.name.toList ++ '=' :: display signal.scaled)

/-- The line of a frame. -/
def dumpLine (checks : Bool) (display : Float → List Char) (decoder : Option Decoder)
    (frame : CanFrame) : Run Empty (List Char) :=
  let rendered := renderFrame frame
  match decoder with
  | none => pure rendered
  | some decoder => do
    let outcome ← Decoder.decodeFrame checks decoder.databases frame
    match outcome.message with
    | some message => pure (rendered ++ "  ".toList ++ signalsText display message.signals)
    -- no line has the diagnostics
    | none => pure rendered

def printFrame (decoder : Option Decoder) : Option CanFrame → Routine ε δ Unit
  | none => pure ()
  | some frame => do
    let line ← lift Empty.elim (dumpLine host.checks host.display decoder frame)
    println line

/-- A frame that is received is printed. -/
def dumpRound (decoder : Option Decoder) : Routine ε δ Unit := do
  let frame ← recvFrame host.order
  printFrame host decoder frame

/-- The loop of `Command::Dump`. -/
def dumpLoop (decoder : Option Decoder) : ℕ → Routine ε δ Unit
  | 0 => pure ()
  | count + 1 => do
    dumpRound host decoder
    dumpLoop decoder count

/-- `Command::Dump` -/
def dumpCommand (interface : String) (count : ℕ) (dbcPaths : List Path) : Routine ε δ Unit := do
  let decoder ← lift .load (orFail (Decoder.loadDecoder host.loader files dbcPaths))
  openRaw interface
  dumpLoop host decoder count

/-- `replay_mode` -/
def replayMode (immediate : Bool) (scale : Option Factor) : ReplayMode Factor :=
  if immediate then .immediate
  else
    match scale with
    | some scale => .scale scale
    | none => .preserve

/-- The sleep before an event, which the first one does not have. -/
def pauseBefore (mode : ReplayMode Factor) (previous : Option Timestamp) (event : CaptureEvent) :
    Routine ε δ Unit :=
  match previous with
  | none => pure ()
  | some previous =>
    match mode with
    | .immediate => pure ()
    | .preserve => ask (Syscall.sleep (deltaNs event.timestamp previous))
    | .scale factor => ask (Syscall.sleep (host.scaled factor (deltaNs event.timestamp previous)))

/-- The loop of `replay`. -/
def replayLoop (mode : ReplayMode Factor) : Option Timestamp → List CaptureEvent → Routine ε δ Unit
  | _, [] => pure ()
  | previous, event :: events => do
    pauseBefore host mode previous event
    sendFrame host.order event.frame
    replayLoop mode (some event.timestamp) events

/-- The notes of a report. -/
def reportNotes : List FidelityNote → Routine ε δ Unit
  | [] => pure ()
  | note :: notes => do
    ask (Syscall.report ("note: ".toList ++ note.detail.toList))
    reportNotes notes

/-- `Command::Play` -/
def playCommand (interface : String) (input : Path) (immediate : Bool) (scale : Option Factor) :
    Routine ε δ Unit := do
  openRaw interface
  let report ← lift .path (readPath host.crates host.loader.files files input)
  replayLoop host (replayMode immediate scale) none report.events
  reportNotes report.notes

/-- `enum Command`: those that exchange frames. -/
inductive Command (Factor : Type) where
  | send (interface : String) (id data : List Char) (fd brs esi : Bool)
  | dump (interface : String) (count : ℕ) (dbcPaths : List Path)
  | play (interface : String) (input : Path) (immediate : Bool) (scale : Option Factor)

def Command.routine : Command Factor → Routine ε δ Unit
  | .send interface id data fd brs esi => sendCommand host interface id data fd brs esi
  | .dump interface count dbcPaths => dumpCommand host files interface count dbcPaths
  | .play interface input immediate scale => playCommand host files interface input immediate scale

end Routines

/-! ### Commands on their own -/

section Alone

variable {σ ε δ Factor World : Type} {handle : (call : Syscall) → World → call.Answer × World}

/-- The calls of a socket are those of a kernel, to one descriptor. -/
structure ServedBy (kernel : Kernel World) (fd : ℕ)
    (handle : (call : Syscall) → World → call.Answer × World) : Prop where
  write : ∀ bytes world, handle (.write bytes) world =
    (if (kernel.request (.write bytes) fd world).1.value = -1 then
      .error (kernel.errno (kernel.request (.write bytes) fd world).2) else .ok (),
    (kernel.request (.write bytes) fd world).2)
  recv : ∀ world, let answer := kernel.request (.recv 72) fd world
    (answer.1.value = -1 ∧ handle .recv world = (.error (kernel.errno answer.2), answer.2)) ∨
    (answer.1.value = answer.1.bytes.length ∧ handle .recv world = (.ok answer.1.bytes, answer.2))

/-- An error of the socket, for the command. -/
def socketFault : Fault SocketCan.Error → Fault (CommandError ε δ)
  | .error e => .error (.socket e)
  | .panic => .panic

variable {kernel : Kernel World} {fd : ℕ}

/-- A result is passed on with its error. -/
theorem run_lift {α : Type} (log : Event Syscall.Answer → List (Ledger.Use ℕ))
    (result : Run SocketCan.Error α) (world : World) :
    run handle log (lift .socket result : Routine ε δ α) world
      = Interaction.mapError socketFault (SocketCan.ofRun result) world := by
  cases result with
  | ok a => rfl
  | error fault => cases fault <;> rfl

/-- `send` of a command is that of its socket. -/
theorem run_sendFrame (h : ServedBy kernel fd handle) (order : ByteOrder) {socket : RawSocketImpl}
    (h_fd : socket.fd = fd) (frame : CanFrame) (world : World) :
    run handle (fun _ => [Ledger.Use.touch fd])
        (sendFrame order frame : Routine ε δ Unit) world
      = Interaction.mapError socketFault (RawSocketImpl.send kernel order socket frame) world := by
  subst h_fd
  rw [Interaction.mapError, sendFrame, RawSocketImpl.send]
  -- nothing is asked without the bytes of the frame
  cases nativeBytes order frame with
  | error fault => cases fault <;> rfl
  | ok bytes =>
    show run handle _ (asking (.write bytes) _) world = _
    rw [run_asking, h.write]
    -- the one call, which is a request to the kernel on the other side
    have h_demand : (kernel.demand (.write bytes) socket.fd :
        SocketCan.Call World (Fault SocketCan.Error) Answer) world
        = ([.touch socket.fd], .ok (kernel.request (.write bytes) socket.fd world).1,
          (kernel.request (.write bytes) socket.fd world).2) := rfl
    have h_silent : (SocketCan.ofRun (.ok bytes) :
        SocketCan.Call World (Fault SocketCan.Error) (List UInt8)) world
          = ([], .ok bytes, world) := rfl
    rw [Interaction.bind_apply_silent h_silent, Interaction.bind_apply_ok h_demand]
    -- `-1` is the only answer that fails
    by_cases h_value : (kernel.request (.write bytes) socket.fd world).1.value = -1
    · simp only [if_pos h_value]
      rfl
    · simp only [if_neg h_value]
      rfl

/-- What is received does not depend on the buffer of a call that failed, nor on the `errno` of one
that did not. -/
theorem recvNative_received (order : ByteOrder) {answer : Answer} {errno : Errno}
    {result : Except Errno (List UInt8)}
    (h : (answer.value = -1 ∧ result = .error errno) ∨
      (answer.value = answer.bytes.length ∧ result = .ok answer.bytes)) :
    recvNative order (received result) = recvNative order
      { received := answer.value, errno, buffer := receiveBuffer answer.bytes } := by
  obtain ⟨h_value, rfl⟩ | ⟨h_value, rfl⟩ := h
  · rw [h_value, received, recvNative, if_pos rfl, recvNative, if_pos rfl]
  · have h_some : (answer.bytes.length : ℤ) ≠ -1 := by omega
    rw [h_value, received, recvNative, if_neg h_some, recvNative, if_neg h_some]

/-- `recv` of a command is that of its socket. -/
theorem run_recvFrame (h : ServedBy kernel fd handle) (order : ByteOrder) {socket : RawSocketImpl}
    (h_fd : socket.fd = fd) (world : World) :
    run handle (fun _ => [Ledger.Use.touch fd]) (recvFrame order : Routine ε δ _) world
      = Interaction.mapError socketFault (RawSocketImpl.recv kernel order socket) world := by
  subst h_fd
  have h_demand : (kernel.demand (.recv 72) socket.fd :
      SocketCan.Call World (Fault SocketCan.Error) Answer) world
      = ([.touch socket.fd], .ok (kernel.request (.recv 72) socket.fd world).1,
        (kernel.request (.recv 72) socket.fd world).2) := rfl
  -- what the kernel leaves, and what the socket makes of it
  let next := (kernel.request (.recv 72) socket.fd world).2
  let answered := recvNative order
    { received := (kernel.request (.recv 72) socket.fd world).1.value
      errno := kernel.errno next
      buffer := receiveBuffer (kernel.request (.recv 72) socket.fd world).1.bytes }
  have h_socket : RawSocketImpl.recv kernel order socket world
      = ([.touch socket.fd] ++ (SocketCan.ofRun answered next).1,
        (SocketCan.ofRun answered next).2) :=
    Interaction.bind_apply_ok h_demand
  -- the answer of the call is the same, as an error or as bytes
  have h_next : (handle .recv world).2 = next := by
    obtain ⟨-, h_recv⟩ | ⟨-, h_recv⟩ := h.recv world <;> rw [h_recv]
  have h_frame : recvNative order (received (handle .recv world).1) = answered :=
    recvNative_received order ((h.recv world).imp
      (fun h => ⟨h.1, congrArg Prod.fst h.2⟩) fun h => ⟨h.1, congrArg Prod.fst h.2⟩)
  rw [Interaction.mapError, h_socket, ← h_frame, ← h_next]
  show run handle _ (asking .recv fun answer => lift .socket (recvNative order (received answer)))
    world = _
  rw [run_asking, run_lift]
  rfl

/-! ### The loop of `play` -/

/-- A call of `send` or a sleep, as `replay` has it, with the bytes of the frame. -/
abbrev Sent (ε δ : Type) :=
  Timed.Action (List UInt8 × Except (Fault (CommandError ε δ)) Unit)

/-- What a command does that `replay` does. -/
def sentLog : Event Syscall.Answer → List (Sent ε δ)
  | ⟨.sleep nanos, _⟩ => [.wait nanos.toNat]
  | ⟨.write bytes, .ok ()⟩ => [.emit (bytes, .ok ())]
  | ⟨.write bytes, .error e⟩ => [.emit (bytes, .error (.error (.socket (.io e))))]
  | _ => []

/-- What `replay` does, on the wire. A frame that has no bytes is not written. -/
def onWire (order : ByteOrder) :
    Timed.Action (Call (Fault (CommandError ε δ))) → List (Sent ε δ)
  | .wait nanos => [.wait nanos]
  | .emit (frame, result) =>
    match nativeBytes order frame with
    | .ok bytes => [.emit (bytes, result)]
    | .error _ => []

section Replay

variable (handle)

/-- A part of a command with what it sends. -/
def playing {α : Type} (p : Routine ε δ α) :
    Interaction World (Sent ε δ) (Fault (CommandError ε δ)) α := run handle sentLog p

/-- `send` of the socket, as `replay` has it. -/
def sendWith (order : ByteOrder) (world : World) (frame : CanFrame) :
    Except (Fault (CommandError ε δ)) Unit × World :=
  (playing handle (sendFrame order frame) world).2

end Replay

theorem playing_bind {α β : Type} (p : Routine ε δ α) (f : α → Routine ε δ β) (world : World) :
    playing handle (p >>= f) world
      = (playing handle p >>= fun a => playing handle (f a)) world := run_bind ..

/-- One frame. -/
theorem playing_sendFrame (order : ByteOrder) (frame : CanFrame) (world : World) :
    playing handle (sendFrame order frame : Routine ε δ Unit) world
      = (onWire order (.emit (frame, (sendWith handle order world frame).1)),
        sendWith handle order world frame) := by
  rw [sendWith, playing, sendFrame, onWire]
  cases nativeBytes order frame with
  | error fault => cases fault <;> rfl
  | ok bytes =>
    rw [lift_ok, done_bind, ask_bind, run_asking]
    cases (handle (.write bytes) world).1 with
    | ok _ => rfl
    | error e => rfl

variable (host : Host σ ε δ Factor) (mode : ReplayMode Factor)

/-- The sleep before a frame. -/
theorem playing_pauseBefore (h_sleep : ∀ nanos world, (handle (.sleep nanos) world).2 = world)
    (previous : Option Timestamp) (event : CaptureEvent) (world : World) :
    playing handle (pauseBefore host mode previous event) world
      = ((pause host.scaled mode previous event).flatMap (onWire host.order), .ok (), world) := by
  have h_ask : ∀ nanos : UInt64, playing handle (ask (Syscall.sleep nanos) : Routine ε δ Unit) world
      = ([.wait nanos.toNat], .ok (), world) := by
    intro nanos
    show ([Timed.Action.wait nanos.toNat], _, (handle (.sleep nanos) world).2) = _
    rw [h_sleep]
  -- only a mode that keeps times asks for a sleep, and never before the first event
  cases previous with
  | none => rfl
  | some previous =>
    cases mode with
    | immediate => rfl
    | preserve => exact h_ask _
    | scale factor => exact h_ask _

/-- **The loop of `play` is that of `replay`**: it sleeps and sends alike, and ends alike, over any
socket, if sleeping leaves the socket alone. -/
theorem playing_replayLoop (h_sleep : ∀ nanos world, (handle (.sleep nanos) world).2 = world)
    (previous : Option Timestamp) (events : List CaptureEvent) (world : World) :
    let plain := replayFrom (sendWith handle host.order) host.scaled mode previous world events
    (playing handle (replayLoop host mode previous events) world).1
        = plain.1.flatMap (onWire host.order) ∧
      (playing handle (replayLoop host mode previous events) world).2.1 = plain.2 := by
  induction events generalizing previous world with
  | nil => exact ⟨rfl, rfl⟩
  | cons event events ih =>
    intro plain
    have h_pause := playing_pauseBefore host mode h_sleep previous event world
    have h_send := @playing_sendFrame ε δ World handle host.order event.frame world
    -- the sleep comes first, and leads to the frame and the rest
    have h_loop : playing handle (replayLoop host mode previous (event :: events)) world = _ :=
      (playing_bind ..).trans (Interaction.bind_apply_ok h_pause)
    have h_rest := @playing_bind ε δ World handle _ _ (sendFrame host.order event.frame)
      (fun _ => replayLoop host mode (some event.timestamp) events) world
    obtain ⟨e, next, h_sent, h_plain⟩ | ⟨next, h_sent, h_plain⟩ :=
      @replayFrom_cons _ _ _ (sendWith handle host.order) host.scaled mode previous world event
        events
    · rw [h_sent] at h_send
      rw [Interaction.bind_apply_error h_send] at h_rest
      rw [h_loop, h_rest, show plain = _ from h_plain, List.flatMap_append, List.flatMap_singleton]
      exact ⟨rfl, rfl⟩
    · rw [h_sent] at h_send
      rw [Interaction.bind_apply_ok h_send] at h_rest
      obtain ⟨h_trace, h_result⟩ := ih (some event.timestamp) next
      rw [h_loop, h_rest, show plain = _ from h_plain, List.flatMap_append, List.flatMap_cons,
        ← h_trace]
      exact ⟨rfl, h_result⟩

end Alone

end Cantools.Cli
