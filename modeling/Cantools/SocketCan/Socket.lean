import Cantools.Framework.Interaction
import Cantools.Framework.Ledger
import Cantools.SocketCan.Native

/-!
# Sockets

The three sockets of the backend: `RawSocketImpl`, `IsotpSocketImpl` and `J1939SocketImpl`. Each
of them owns a file descriptor, from `open` until it is dropped. The system calls are outside the
model: a `Kernel` answers them, with what is documented about the descriptors that it hands out.
A program leaves a trace of the uses of descriptors.

A socket is opened in several steps. Where a later one fails, the descriptor has to be closed
again; `SocketCan.Session` has which failures do so.
-/

namespace Cantools.SocketCan

open Buffer Interaction Ledger LittleEndian Program

/-! ### The kernel -/

/-- `CAN_RAW`, `CAN_ISOTP` and `CAN_J1939` -/
inductive Protocol where
  | raw
  | isotp
  | j1939
  deriving DecidableEq, Repr

/-- `union CanAddr` -/
inductive CanAddr where
  /-- Eight zero bytes. -/
  | align
  | tp (rxId txId : UInt32)
  | j1939 (name : UInt64) (pgn : UInt32) (addr : UInt8)
  deriving DecidableEq, Repr

/-- `struct SockAddrCan`, of the family `AF_CAN` -/
structure SockAddrCan where
  canIfindex : UInt32
  canAddr : CanAddr
  deriving DecidableEq, Repr

/-- What is asked of a descriptor. -/
inductive Request where
  /-- `setsockopt` of `CAN_RAW_FD_FRAMES` to `1` -/
  | setFdFrames
  | bind (addr : SockAddrCan)
  /-- `fcntl` with `F_GETFL` -/
  | getFlags
  /-- `fcntl` with `F_SETFL` -/
  | setFlags (flags : UInt32)
  | write (bytes : List UInt8)
  /-- `recv` into a buffer of this size. -/
  | recv (size : ℕ)
  /-- `read` into a buffer of this size. -/
  | read (size : ℕ)
  deriving DecidableEq, Repr

/-- The value a call returns, and what it puts at the start of its buffer. -/
structure Answer where
  value : ℤ
  bytes : List UInt8

/-- The system calls. -/
structure Kernel (σ : Type) where
  /-- The descriptors that the process has open. -/
  opened : σ → Finset ℕ
  errno : σ → Errno
  /-- `none` for `-1`. -/
  socket : Protocol → σ → Option ℕ × σ
  request : Request → ℕ → σ → Answer × σ
  ifNameToIndex : String → σ → UInt32 × σ
  close : ℕ → σ → σ
  /-- A new descriptor is one that is not open. -/
  opened_socket : ∀ protocol s fd, (socket protocol s).1 = some fd →
    fd ∉ opened s ∧ opened (socket protocol s).2 = insert fd (opened s)
  opened_noSocket : ∀ protocol s, (socket protocol s).1 = none →
    opened (socket protocol s).2 = opened s
  opened_request : ∀ request' fd s, opened (request request' fd s).2 = opened s
  opened_ifNameToIndex : ∀ name s, opened (ifNameToIndex name s).2 = opened s
  /-- A descriptor is closed, also where `close` returns an error. -/
  opened_close : ∀ fd s, opened (close fd s) = (opened s).erase fd

/-- The errors of opening a socket. -/
inductive SocketError where
  /-- I/O failed. -/
  | io (error : Errno)
  /-- The named interface could not be resolved. -/
  | unknownInterface (interface : String)
  deriving DecidableEq, Repr

section Programs

variable {σ : Type} (kernel : Kernel σ)

/-- A program over the kernel. -/
abbrev Call (σ ε α : Type) := Interaction σ (Use ℕ) ε α

/-- A request to a descriptor. -/
def Kernel.demand {ε : Type} (request : Request) (fd : ℕ) : Call σ ε Answer :=
  ask (kernel.request request fd) fun _ => [.touch fd]

/-- `open_socket` -/
def openSocket (protocol : Protocol) : Call σ SocketError ℕ := do
  let fd ← ask (kernel.socket protocol) fun fd => (fd.map Use.acquire).toList
  match fd with
  | some fd => pure fd
  | none => fail (.io (← look kernel.errno))

/-- `close_fd` -/
def closeFd {ε : Type} (fd : ℕ) : Call σ ε Unit :=
  ask (fun s => ((), kernel.close fd s)) fun _ => [.release fd]

/-- A call that returns `-1` where it fails. -/
def checked (request : Request) (fd : ℕ) : Call σ SocketError Unit := do
  let answer ← kernel.demand request fd
  if answer.value = -1 then fail (.io (← look kernel.errno)) else pure ()

/-- `interface_index` -/
def interfaceIndex (interface : String) : Call σ SocketError UInt32 :=
  -- a name with a zero byte is not handed to the kernel
  if '\x00' ∈ interface.toList then fail (.unknownInterface interface)
  else do
    let index ← ask (kernel.ifNameToIndex interface) fun _ => []
    if index = 0 then fail (.unknownInterface interface) else pure index

/-- `set_fd_frames` -/
def setFdFrames (fd : ℕ) : Call σ SocketError Unit := checked kernel .setFdFrames fd

/-- `bind_raw_socket` -/
def bindRawSocket (fd : ℕ) (interface : String) : Call σ SocketError Unit := do
  let ifindex ← interfaceIndex kernel interface
  checked kernel (.bind { canIfindex := ifindex, canAddr := .align }) fd

/-- `O_NONBLOCK` -/
def oNonblock : UInt32 := 0x800

/-- `set_nonblocking` -/
def setNonblocking (fd : ℕ) (enabled : Bool) : Call σ SocketError Unit := do
  let current ← kernel.demand .getFlags fd
  if current.value = -1 then fail (.io (← look kernel.errno))
  else
    -- the flags of a descriptor are an `int`
    let current := (BitVec.ofInt 32 current.value).toNat.toUInt32
    let desired := if enabled then current ||| oNonblock else current &&& ~~~ oNonblock
    checked kernel (.setFlags desired) fd

/-! ### Raw sockets -/

structure RawSocketImpl where
  fd : ℕ
  interface : String
  ifindex : UInt32
  deriving DecidableEq, Repr

/-- `set_fd_frames(fd).and_then(|_| bind_raw_socket(fd, interface))` -/
def prepare (fd : ℕ) (interface : String) : Call σ SocketError Unit := do
  setFdFrames kernel fd
  bindRawSocket kernel fd interface

/-- `RawSocketImpl::open` -/
def RawSocketImpl.open' (interface : String) : Call σ SocketError RawSocketImpl := do
  let fd ← openSocket kernel .raw
  match ← attempt (prepare kernel fd interface) with
  | .error error => do
    closeFd kernel fd
    fail error
  | .ok () => do
    -- asked a second time, behind the check
    let ifindex ← interfaceIndex kernel interface
    pure { fd, interface, ifindex }

/-- The `?` operator on the result of a function without system calls. -/
def ofRun {ε α : Type} : Run ε α → Call σ (Fault ε) α
  | .ok a => pure a
  | .error fault => fail fault

/-- `RawSocketImpl::send` -/
def RawSocketImpl.send (order : ByteOrder) (socket : RawSocketImpl) (frame : CanFrame) :
    Call σ (Fault Error) Unit := do
  let bytes ← ofRun (nativeBytes order frame)
  let answer ← kernel.demand (.write bytes) socket.fd
  if answer.value = -1 then fail (.error (.io (← look kernel.errno))) else pure ()

/-- The zeroed buffer of `recv_native` behind a call. -/
def receiveBuffer (bytes : List UInt8) : FixedArray UInt8 72 :=
  ⟨bytes.take 72 ++ List.replicate (72 - bytes.length) 0, by
    rw [List.length_append, List.length_take, List.length_replicate]
    omega⟩

/-- `RawSocketImpl::recv` -/
def RawSocketImpl.recv (order : ByteOrder) (socket : RawSocketImpl) :
    Call σ (Fault Error) (Option CanFrame) := do
  let answer ← kernel.demand (.recv 72) socket.fd
  let errno ← look kernel.errno
  ofRun (recvNative order
    { received := answer.value, errno, buffer := receiveBuffer answer.bytes })

/-! ### Transport sockets -/

/-- `IsotpSocketImpl` and `J1939SocketImpl` -/
structure TransportSocket where
  fd : ℕ
  deriving DecidableEq, Repr

/-- `open` of both transport sockets, which bind to addresses of their own. -/
def openTransport (protocol : Protocol) (interface : String) (canAddr : CanAddr) :
    Call σ SocketError TransportSocket := do
  let fd ← openSocket kernel protocol
  let ifindex ← interfaceIndex kernel interface
  let answer ← kernel.demand (.bind { canIfindex := ifindex, canAddr }) fd
  if answer.value = -1 then do
    closeFd kernel fd
    -- read behind `close`, which may have set it
    fail (.io (← look kernel.errno))
  else pure { fd }

/-- `IsotpSocketImpl::open` -/
def IsotpSocketImpl.open' (interface : String) (txId rxId : UInt32) :
    Call σ SocketError TransportSocket :=
  openTransport kernel .isotp interface (.tp rxId txId)

/-- `J1939SocketImpl::open` -/
def J1939SocketImpl.open' (interface : String) (name : UInt64) (pgn : UInt32) (address : UInt8) :
    Call σ SocketError TransportSocket :=
  openTransport kernel .j1939 interface (.j1939 name pgn address)

/-- `send` of both transport sockets. -/
def TransportSocket.send (socket : TransportSocket) (payload : List UInt8) :
    Call σ SocketError Unit := checked kernel (.write payload) socket.fd

/-- `recv` of both transport sockets: the number of bytes read, and these bytes. -/
def TransportSocket.recv (socket : TransportSocket) (size : ℕ) :
    Call σ SocketError (ℕ × List UInt8) := do
  let answer ← kernel.demand (.read size) socket.fd
  if answer.value = -1 then fail (.io (← look kernel.errno))
  else pure (answer.value.toNat, answer.bytes)

end Programs

end Cantools.SocketCan
