import Mathlib.Data.Finset.Card
import Mathlib.Data.Finset.SDiff
import Cantools.Framework.Transducer
import Cantools.SocketCan.Socket

/-!
# The descriptors of a process

A process opens sockets, uses them and drops them, in any order and as often as it likes. A
`Session` is such a list of operations, run over a kernel that answers each call as it likes.

Nothing is asked of a descriptor that the process does not hold, and no descriptor is closed twice.
A descriptor is lost, however, where a socket is not opened because the kernel does not find the
interface: `RawSocketImpl::open` looks it up a second time behind the check, and the transport
sockets look it up before they bind (`open_loses_iff`). These are the only descriptors a process
loses (`session_descriptors`).
-/

namespace Cantools.SocketCan

open Buffer Interaction Ledger LittleEndian Program

variable {σ : Type} {kernel : Kernel σ}

/-! ### Single calls -/

section Calls

variable (kernel)

/-- The name of the interface is one that the kernel knows. -/
def Resolves (interface : String) (s : σ) : Prop :=
  '\x00' ∉ interface.toList ∧ (kernel.ifNameToIndex interface s).1 ≠ 0

instance (interface : String) (s : σ) : Decidable (Resolves kernel interface s) :=
  inferInstanceAs (Decidable (_ ∧ _))

/-- The world behind the lookup of a name. -/
def afterLookup (interface : String) (s : σ) : σ :=
  if '\x00' ∈ interface.toList then s else (kernel.ifNameToIndex interface s).2

theorem opened_afterLookup (interface : String) (s : σ) :
    kernel.opened (afterLookup kernel interface s) = kernel.opened s := by
  unfold afterLookup
  split
  · rfl
  · exact kernel.opened_ifNameToIndex interface s

theorem interfaceIndex_of_resolves {interface : String} {s : σ}
    (h : Resolves kernel interface s) : interfaceIndex kernel interface s
      = ([], .ok (kernel.ifNameToIndex interface s).1, afterLookup kernel interface s) := by
  rw [interfaceIndex, if_neg h.1, afterLookup, if_neg h.1]
  refine (bind_apply_silent rfl).trans ?_
  rw [if_neg h.2]
  rfl

theorem interfaceIndex_of_not_resolves {interface : String} {s : σ}
    (h : ¬ Resolves kernel interface s) : interfaceIndex kernel interface s
      = ([], .error (.unknownInterface interface), afterLookup kernel interface s) := by
  rw [interfaceIndex, afterLookup]
  by_cases h_zero : '\x00' ∈ interface.toList
  · rw [if_pos h_zero, if_pos h_zero]
    rfl
  · rw [if_neg h_zero, if_neg h_zero]
    have h_index : (kernel.ifNameToIndex interface s).1 = 0 := by
      by_contra h_index
      exact h ⟨h_zero, h_index⟩
    refine (bind_apply_silent rfl).trans ?_
    rw [if_pos h_index]
    rfl

/-- A socket has a new descriptor, or there is none. -/
theorem openSocket_cases (protocol : Protocol) (s : σ) :
    (∃ fd, (kernel.socket protocol s).1 = some fd ∧
      openSocket kernel protocol s = ([.acquire fd], .ok fd, (kernel.socket protocol s).2)) ∨
    ((kernel.socket protocol s).1 = none ∧ ∃ e, openSocket kernel protocol s
      = ([], .error (.io e), (kernel.socket protocol s).2)) := by
  have h_ask : ask (kernel.socket protocol) (fun fd => (fd.map Use.acquire).toList) s
      = (((kernel.socket protocol s).1.map Use.acquire).toList,
        (.ok (kernel.socket protocol s).1 : Except SocketError (Option ℕ)),
        (kernel.socket protocol s).2) := rfl
  have h_run : openSocket kernel protocol s = _ := bind_apply_ok h_ask
  rw [h_run]
  cases (kernel.socket protocol s).1 with
  | none => exact .inr ⟨rfl, _, rfl⟩
  | some fd => exact .inl ⟨fd, rfl, rfl⟩

end Calls

/-! ### Requests to one descriptor -/

section Requests

variable (kernel)

/-- Held descriptors are used, and all of them are still held. -/
def Quiet (s : σ) (trace : List (Use ℕ)) (s' : σ) : Prop :=
  Allows (kernel.opened s) trace (kernel.opened s') ∧ kernel.opened s' = kernel.opened s

theorem quiet_composes : Composes (Quiet kernel) where
  refl _ := ⟨rfl, rfl⟩
  trans h₁ h₂ := ⟨h₁.1.append h₂.1, h₂.2.trans h₁.2⟩

/-- The program uses nothing but this descriptor, and leaves it open. -/
def UsesOnly {ε α : Type} (fd : ℕ) (p : Call σ ε α) : Prop :=
  Keeps (Quiet kernel) (fun s => fd ∈ kernel.opened s) p fun _ s => fd ∈ kernel.opened s

variable {kernel} {ε α β : Type} {fd : ℕ}

theorem UsesOnly.bind {p : Call σ ε α} {f : α → Call σ ε β} (h_p : UsesOnly kernel fd p)
    (h_f : ∀ a, UsesOnly kernel fd (f a)) : UsesOnly kernel fd (p >>= f) :=
  Keeps.bind (quiet_composes kernel) h_p h_f

theorem usesOnly_pure (a : α) : UsesOnly kernel fd (pure a : Call σ ε α) :=
  Keeps.pure (quiet_composes kernel) fun _ h => h

theorem usesOnly_fail (e : ε) : UsesOnly kernel fd (fail e : Call σ ε α) :=
  Keeps.fail (quiet_composes kernel)

theorem usesOnly_look (view : σ → α) : UsesOnly kernel fd (look view : Call σ ε α) :=
  Keeps.look (quiet_composes kernel)

theorem usesOnly_ofRun (run : Run ε α) : UsesOnly kernel fd (ofRun run : Call σ (Fault ε) α) := by
  cases run with
  | ok a => exact usesOnly_pure a
  | error fault => exact usesOnly_fail fault

theorem usesOnly_demand (request : Request) :
    UsesOnly kernel fd (kernel.demand request fd : Call σ ε Answer) := by
  refine Keeps.ask fun s h_s => ?_
  have h_same := kernel.opened_request request fd s
  refine ⟨⟨allows_touch.mpr ⟨h_s, h_same.symm⟩, h_same⟩, ?_⟩
  rw [h_same]
  exact h_s

/-- Look at `errno` and fail. -/
theorem usesOnly_failErrno (wrap : Errno → ε) :
    UsesOnly kernel fd (do fail (wrap (← look kernel.errno)) : Call σ ε α) :=
  (usesOnly_look _).bind fun _ => usesOnly_fail _

theorem usesOnly_ite {c : Prop} [Decidable c] {p q : Call σ ε α} (h_p : UsesOnly kernel fd p)
    (h_q : UsesOnly kernel fd q) : UsesOnly kernel fd (if c then p else q) := by
  split
  · exact h_p
  · exact h_q

theorem usesOnly_checked (request : Request) : UsesOnly kernel fd (checked kernel request fd) :=
  (usesOnly_demand request).bind fun _ => usesOnly_ite (usesOnly_failErrno _) (usesOnly_pure ())

theorem usesOnly_interfaceIndex (interface : String) :
    UsesOnly kernel fd (interfaceIndex kernel interface) := by
  have h_ask : UsesOnly kernel fd
      (ask (kernel.ifNameToIndex interface) fun _ => [] : Call σ SocketError UInt32) := by
    refine Keeps.ask fun s h_s => ?_
    have h_same := kernel.opened_ifNameToIndex interface s
    refine ⟨⟨h_same.symm, h_same⟩, ?_⟩
    rw [h_same]
    exact h_s
  exact usesOnly_ite (usesOnly_fail _)
    (h_ask.bind fun _ => usesOnly_ite (usesOnly_fail _) (usesOnly_pure _))

theorem usesOnly_prepare (interface : String) : UsesOnly kernel fd (prepare kernel fd interface) :=
  (usesOnly_checked _).bind fun _ =>
    (usesOnly_interfaceIndex interface).bind fun _ => usesOnly_checked _

/-- **The methods of a socket** use nothing but its descriptor. -/
theorem usesOnly_setNonblocking (enabled : Bool) :
    UsesOnly kernel fd (setNonblocking kernel fd enabled) :=
  (usesOnly_demand _).bind fun _ => usesOnly_ite (usesOnly_failErrno _) (usesOnly_checked _)

@[inherit_doc usesOnly_setNonblocking]
theorem usesOnly_send (order : ByteOrder) (socket : RawSocketImpl) (frame : CanFrame) :
    UsesOnly kernel socket.fd (socket.send kernel order frame) :=
  (usesOnly_ofRun _).bind fun _ => (usesOnly_demand _).bind fun _ =>
    usesOnly_ite (usesOnly_failErrno _) (usesOnly_pure ())

@[inherit_doc usesOnly_setNonblocking]
theorem usesOnly_recv (order : ByteOrder) (socket : RawSocketImpl) :
    UsesOnly kernel socket.fd (socket.recv kernel order) :=
  (usesOnly_demand _).bind fun _ => (usesOnly_look _).bind fun _ => usesOnly_ofRun _

@[inherit_doc usesOnly_setNonblocking]
theorem usesOnly_recvPayload (socket : TransportSocket) (size : ℕ) :
    UsesOnly kernel socket.fd (socket.recv kernel size) :=
  (usesOnly_demand _).bind fun _ => usesOnly_ite (usesOnly_failErrno _) (usesOnly_pure _)

end Requests

/-! ### Opening -/

/-- How an attempt to open a socket ends: with a new descriptor for the socket, without one, or
with one that is open and belongs to no socket. -/
structure Opens {α : Type} (kernel : Kernel σ) (s : σ) (fdOf : α → ℕ) (loses : Prop)
    (run : List (Use ℕ) × Except SocketError α × σ) : Prop where
  allows : Allows (kernel.opened s) run.1 (kernel.opened run.2.2)
  ok : ∀ socket, run.2.1 = .ok socket → ¬ loses ∧ fdOf socket ∉ kernel.opened s ∧
    kernel.opened run.2.2 = insert (fdOf socket) (kernel.opened s)
  closed : ∀ e, run.2.1 = .error e → ¬ loses → kernel.opened run.2.2 = kernel.opened s
  lost : loses → (∃ interface, run.2.1 = .error (.unknownInterface interface)) ∧
    ∃ fd ∉ kernel.opened s, kernel.opened run.2.2 = insert fd (kernel.opened s)

/-- The attempt fails with one more descriptor open, under this condition and no other one; any
other failure leaves the descriptors as they were. -/
structure LosesIff {α : Type} (kernel : Kernel σ) (s : σ) (loses : Prop)
    (run : List (Use ℕ) × Except SocketError α × σ) : Prop where
  lost : loses → (∃ e, run.2.1 = .error e) ∧
    ∃ fd ∉ kernel.opened s, kernel.opened run.2.2 = insert fd (kernel.opened s)
  kept : ∀ e, run.2.1 = .error e → (kernel.opened run.2.2 = kernel.opened s ↔ ¬ loses)

theorem Opens.losesIff {α : Type} {s : σ} {fdOf : α → ℕ} {loses : Prop}
    {run : List (Use ℕ) × Except SocketError α × σ} (h : Opens kernel s fdOf loses run) :
    LosesIff kernel s loses run where
  lost h_loses :=
    have ⟨⟨_, h_error⟩, h_fd⟩ := h.lost h_loses
    ⟨⟨_, h_error⟩, h_fd⟩
  kept e h_error := by
    refine ⟨fun h_same h_loses => ?_, h.closed e h_error⟩
    obtain ⟨-, fd, h_new, h_opened⟩ := h.lost h_loses
    refine h_new ?_
    rw [← h_same, h_opened]
    exact Finset.mem_insert_self ..

section Opening

variable (kernel)

/-- The second lookup of `RawSocketImpl::open` fails, where everything before it went well. -/
def RawLoses (interface : String) (s : σ) : Prop :=
  ∃ fd ∈ (kernel.socket .raw s).1,
    (prepare kernel fd interface (kernel.socket .raw s).2).2.1 = .ok () ∧
    ¬ Resolves kernel interface (prepare kernel fd interface (kernel.socket .raw s).2).2.2

instance (interface : String) (s : σ) : Decidable (RawLoses kernel interface s) :=
  inferInstanceAs (Decidable (∃ fd ∈ (kernel.socket .raw s).1, _ ∧ ¬ _))

/-- The only lookup of a transport socket fails. -/
def TransportLoses (protocol : Protocol) (interface : String) (s : σ) : Prop :=
  (kernel.socket protocol s).1.isSome ∧ ¬ Resolves kernel interface (kernel.socket protocol s).2

instance (protocol : Protocol) (interface : String) (s : σ) :
    Decidable (TransportLoses kernel protocol interface s) := inferInstanceAs (Decidable (_ ∧ _))

/-- The four endings of opening a transport socket. -/
theorem openTransport_cases (protocol : Protocol) (interface : String) (canAddr : CanAddr)
    (s : σ) :
    let s₁ := (kernel.socket protocol s).2
    let run := openTransport kernel protocol interface canAddr s
    ((kernel.socket protocol s).1 = none ∧ ∃ e, run = ([], .error (.io e), s₁)) ∨
    ∃ fd, (kernel.socket protocol s).1 = some fd ∧
      ((¬ Resolves kernel interface s₁ ∧ run = ([.acquire fd],
        .error (.unknownInterface interface), afterLookup kernel interface s₁)) ∨
      (Resolves kernel interface s₁ ∧ ∃ s₂, kernel.opened s₂ = kernel.opened s₁ ∧
        ((∃ e, run = ([.acquire fd, .touch fd, .release fd], .error (.io e), kernel.close fd s₂)) ∨
        run = ([.acquire fd, .touch fd], .ok { fd }, s₂)))) := by
  intro s₁ run
  obtain ⟨fd, h_fd, h_socket⟩ | ⟨h_none, e, h_socket⟩ := openSocket_cases kernel protocol s
  · refine .inr ⟨fd, h_fd, ?_⟩
    -- behind the call of `socket`, the descriptor is held
    have h_run : run = _ := bind_apply_ok h_socket
    by_cases h_resolves : Resolves kernel interface s₁
    · refine .inr ⟨h_resolves, ?_⟩
      rw [bind_apply_silent (interfaceIndex_of_resolves kernel h_resolves)] at h_run
      generalize (kernel.ifNameToIndex interface s₁).1 = ifindex at h_run
      let request : Request := .bind { canIfindex := ifindex, canAddr }
      let answer := kernel.request request fd (afterLookup kernel interface s₁)
      have h_demand : (kernel.demand request fd : Call σ SocketError Answer)
          (afterLookup kernel interface s₁) = ([.touch fd], .ok answer.1, answer.2) := rfl
      rw [bind_apply_ok h_demand] at h_run
      refine ⟨answer.2, ?_, ?_⟩
      · rw [kernel.opened_request, opened_afterLookup]
      · by_cases h_bind : answer.1.value = -1
        · rw [if_pos h_bind] at h_run
          exact .inl ⟨_, h_run⟩
        · rw [if_neg h_bind] at h_run
          exact .inr h_run
    · -- the lookup fails, and nothing closes the descriptor
      rw [bind_apply_error (interfaceIndex_of_not_resolves kernel h_resolves)] at h_run
      exact .inl ⟨h_resolves, h_run⟩
  · exact .inl ⟨h_none, e, bind_apply_error h_socket⟩

/-- The endings of opening a raw socket. -/
theorem openRaw_cases (interface : String) (s : σ) :
    let s₁ := (kernel.socket .raw s).2
    let run := RawSocketImpl.open' kernel interface s
    ((kernel.socket .raw s).1 = none ∧ ∃ e, run = ([], .error (.io e), s₁)) ∨
    ∃ fd, (kernel.socket .raw s).1 = some fd ∧
      let prepared := prepare kernel fd interface s₁
      ((∃ e, prepared.2.1 = .error e ∧ run = (.acquire fd :: (prepared.1 ++ [.release fd]),
        .error e, kernel.close fd prepared.2.2)) ∨
      (prepared.2.1 = .ok () ∧
        ((¬ Resolves kernel interface prepared.2.2 ∧ run = (.acquire fd :: prepared.1,
          .error (.unknownInterface interface), afterLookup kernel interface prepared.2.2)) ∨
        (Resolves kernel interface prepared.2.2 ∧ ∃ ifindex, run = (.acquire fd :: prepared.1,
          .ok { fd, interface, ifindex }, afterLookup kernel interface prepared.2.2))))) := by
  intro s₁ run
  obtain ⟨fd, h_fd, h_socket⟩ | ⟨h_none, e, h_socket⟩ := openSocket_cases kernel .raw s
  · refine .inr ⟨fd, h_fd, ?_⟩
    intro prepared
    have h_run : run = _ := bind_apply_ok h_socket
    -- the socket is prepared, and closed if that fails
    have h_attempt : (attempt (prepare kernel fd interface) :
        Call σ SocketError (Except SocketError Unit)) s₁
        = (prepared.1, .ok prepared.2.1, prepared.2.2) := rfl
    rw [bind_apply_ok h_attempt] at h_run
    cases h_prepared : prepared.2.1 with
    | error e =>
      rw [h_prepared] at h_run
      exact .inl ⟨e, rfl, h_run⟩
    | ok _ =>
      rw [h_prepared] at h_run
      refine .inr ⟨rfl, ?_⟩
      -- the second lookup, behind which nothing is closed
      by_cases h_resolves : Resolves kernel interface prepared.2.2
      · have h_index := interfaceIndex_of_resolves kernel h_resolves
        simp only at h_run
        rw [bind_apply_silent h_index] at h_run
        refine .inr ⟨h_resolves, (kernel.ifNameToIndex interface prepared.2.2).1, ?_⟩
        rw [h_run]
        refine Prod.ext ?_ rfl
        exact congrArg (Use.acquire fd :: ·) (List.append_nil prepared.1)
      · have h_index := interfaceIndex_of_not_resolves kernel h_resolves
        simp only at h_run
        rw [bind_apply_error h_index] at h_run
        refine .inl ⟨h_resolves, ?_⟩
        rw [h_run]
        refine Prod.ext ?_ rfl
        exact congrArg (Use.acquire fd :: ·) (List.append_nil prepared.1)
  · exact .inl ⟨h_none, e, bind_apply_error h_socket⟩

/-- **Opening a transport socket.** -/
theorem openTransport_opens (protocol : Protocol) (interface : String) (canAddr : CanAddr) (s : σ) :
    Opens kernel s TransportSocket.fd (TransportLoses kernel protocol interface s)
      (openTransport kernel protocol interface canAddr s) := by
  obtain ⟨h_none, e, h_run⟩ | ⟨fd, h_fd, ⟨h_lost, h_run⟩ | ⟨h_resolves, s₂, h_same,
    ⟨e, h_run⟩ | h_run⟩⟩ := openTransport_cases kernel protocol interface canAddr s
  · -- the kernel gives no descriptor: nothing is opened, and nothing is lost
    have h_opened := kernel.opened_noSocket protocol s h_none
    rw [h_run]
    refine ⟨h_opened.symm, fun _ h => (nomatch h), fun _ _ _ => h_opened, fun h_loses => ?_⟩
    rw [TransportLoses, h_none] at h_loses
    cases h_loses.1
  · -- the name has no index: the new descriptor stays open without an owner
    obtain ⟨h_fresh, h_opened⟩ := kernel.opened_socket protocol s fd h_fd
    have h_after := (opened_afterLookup kernel interface _).trans h_opened
    rw [h_run]
    exact ⟨⟨h_fresh, h_after.symm⟩, fun _ h => (nomatch h),
      fun _ _ h_not => absurd ⟨by rw [h_fd]; rfl, h_lost⟩ h_not,
      fun _ => ⟨⟨interface, rfl⟩, fd, h_fresh, h_after⟩⟩
  · -- bind fails: what was opened is closed again
    obtain ⟨h_fresh, h_opened⟩ := kernel.opened_socket protocol s fd h_fd
    have h_closed : kernel.opened (kernel.close fd s₂) = kernel.opened s := by
      rw [kernel.opened_close, h_same, h_opened, Finset.erase_insert h_fresh]
    have h_held := Finset.mem_insert_self fd (kernel.opened s)
    rw [h_run]
    refine ⟨⟨h_fresh, h_held, h_held, ?_⟩, fun _ h => (nomatch h), fun _ _ _ => h_closed,
      fun h_loses => absurd h_resolves h_loses.2⟩
    rw [allows_nil, h_closed, Finset.erase_insert h_fresh]
  · -- the socket is handed out, and holds the descriptor
    obtain ⟨h_fresh, h_opened⟩ := kernel.opened_socket protocol s fd h_fd
    have h_held := Finset.mem_insert_self fd (kernel.opened s)
    have h_after := h_same.trans h_opened
    rw [h_run]
    refine ⟨⟨h_fresh, h_held, h_after.symm⟩, fun socket h => ?_, fun _ h => (nomatch h),
      fun h_loses => absurd h_resolves h_loses.2⟩
    cases h
    exact ⟨fun h_loses => h_loses.2 h_resolves, h_fresh, h_after⟩

/-- **Opening a raw socket.** -/
theorem openRaw_opens (interface : String) (s : σ) :
    Opens kernel s RawSocketImpl.fd (RawLoses kernel interface s)
      (RawSocketImpl.open' kernel interface s) := by
  obtain ⟨h_none, e, h_run⟩ | ⟨fd, h_fd, h_cases⟩ := openRaw_cases kernel interface s
  · -- no descriptor: the lookup behind bind is never reached
    have h_opened := kernel.opened_noSocket .raw s h_none
    rw [h_run]
    refine ⟨h_opened.symm, fun _ h => (nomatch h), fun _ _ _ => h_opened, fun h_loses => ?_⟩
    obtain ⟨fd, h_fd, -⟩ := h_loses
    cases h_none.symm.trans h_fd
  · obtain ⟨h_fresh, h_opened⟩ := kernel.opened_socket .raw s fd h_fd
    -- up to bind, the program works on the descriptor that it has just opened
    have h_held : fd ∈ kernel.opened (kernel.socket .raw s).2 := by
      rw [h_opened]
      exact Finset.mem_insert_self ..
    obtain ⟨⟨h_allows, h_same⟩, -⟩ := @usesOnly_prepare _ kernel _ interface _ h_held
    rw [h_same, h_opened] at h_allows
    -- a run loses nothing but this descriptor, and that only behind a bind that succeeds
    have h_unique : RawLoses kernel interface s →
        (prepare kernel fd interface (kernel.socket .raw s).2).2.1 = .ok () ∧
        ¬ Resolves kernel interface (prepare kernel fd interface (kernel.socket .raw s).2).2.2 := by
      rintro ⟨fd', h_fd', h_loses⟩
      cases h_fd.symm.trans h_fd'
      exact h_loses
    -- the lookup changes nothing, whatever it answers
    have h_after := (opened_afterLookup kernel interface _).trans (h_same.trans h_opened)
    obtain ⟨e, h_failed, h_run⟩ | ⟨h_ok, ⟨h_lost, h_run⟩ | ⟨h_resolves, ifindex, h_run⟩⟩ := h_cases
    · -- an option or bind fails: `bind_raw_socket` closes the descriptor
      have h_closed : kernel.opened (kernel.close fd (prepare kernel fd interface
          (kernel.socket .raw s).2).2.2) = kernel.opened s := by
        rw [kernel.opened_close, h_same, h_opened, Finset.erase_insert h_fresh]
      rw [h_run]
      refine ⟨⟨h_fresh, h_allows.append ⟨Finset.mem_insert_self .., ?_⟩⟩, fun _ h => (nomatch h),
        fun _ _ _ => h_closed, fun h_loses => ?_⟩
      · rw [allows_nil, h_closed, Finset.erase_insert h_fresh]
      · cases h_failed.symm.trans (h_unique h_loses).1
    · -- the second lookup fails: nobody closes it
      rw [h_run]
      refine ⟨⟨h_fresh, ?_⟩, fun _ h => (nomatch h),
        fun _ _ h_not => absurd ⟨fd, h_fd, h_ok, h_lost⟩ h_not,
        fun _ => ⟨⟨interface, rfl⟩, fd, h_fresh, h_after⟩⟩
      rw [h_after]
      exact h_allows
    · -- the socket is handed out, and holds the descriptor
      rw [h_run]
      refine ⟨⟨h_fresh, ?_⟩, fun socket h => ?_, fun _ h => (nomatch h),
        fun h_loses => absurd h_resolves (h_unique h_loses).2⟩
      · rw [h_after]
        exact h_allows
      · cases h
        exact ⟨fun h_loses => (h_unique h_loses).2 h_resolves, h_fresh, h_after⟩

end Opening

/-! ### Sessions -/

/-- A socket of any kind. -/
inductive Socket where
  | raw (socket : RawSocketImpl)
  | transport (socket : TransportSocket)
  deriving DecidableEq, Repr

def Socket.fd : Socket → ℕ
  | .raw socket => socket.fd
  | .transport socket => socket.fd

/-- The methods of a socket, with their arguments. -/
inductive Method where
  | setNonblocking (enabled : Bool)
  | sendFrame (frame : CanFrame)
  | recvFrame
  | sendPayload (payload : List UInt8)
  | recvPayload (size : ℕ)

/-- What a process does with the sockets it has, which are counted. -/
inductive Op where
  | openRaw (interface : String)
  | openIsotp (interface : String) (txId rxId : UInt32)
  | openJ1939 (interface : String) (name : UInt64) (pgn : UInt32) (address : UInt8)
  | call (k : ℕ) (method : Method)
  | drop (k : ℕ)

/-- A process: the world, and the sockets it has. -/
structure Process (σ : Type) where
  world : σ
  sockets : List Socket

/-- The descriptors of its sockets. -/
def Process.fds (p : Process σ) : List ℕ := p.sockets.map Socket.fd

section Session

variable (kernel) (order : ByteOrder)

/-- What a program does, whatever it returns. -/
def effect {ε α : Type} (program : Call σ ε α) (s : σ) : List (Use ℕ) × σ :=
  ((program s).1, (program s).2.2)

/-- A method that a socket has. -/
def Method.run : Method → Socket → σ → List (Use ℕ) × σ
  | .setNonblocking enabled, .raw socket =>
    effect (SocketCan.setNonblocking kernel socket.fd enabled)
  | .sendFrame frame, .raw socket => effect (socket.send kernel order frame)
  | .recvFrame, .raw socket => effect (socket.recv kernel order)
  | .sendPayload payload, .transport socket => effect (socket.send kernel payload)
  | .recvPayload size, .transport socket => effect (socket.recv kernel size)
  | _, _ => fun s => ([], s)

/-- The process behind an attempt to open a socket. -/
def Process.add {α : Type} (p : Process σ) (socketOf : α → Socket) :
    List (Use ℕ) × Except SocketError α × σ → List (Use ℕ) × Process σ
  | (trace, .ok socket, world) => (trace, { world, sockets := p.sockets ++ [socketOf socket] })
  | (trace, .error _, world) => (trace, { p with world })

/-- One operation; there is nothing to be done with a socket that the process does not have. -/
def step (p : Process σ) : Op → List (Use ℕ) × Process σ
  | .openRaw interface => p.add .raw (RawSocketImpl.open' kernel interface p.world)
  | .openIsotp interface txId rxId =>
    p.add .transport (IsotpSocketImpl.open' kernel interface txId rxId p.world)
  | .openJ1939 interface name pgn address =>
    p.add .transport (J1939SocketImpl.open' kernel interface name pgn address p.world)
  | .call k method =>
    match p.sockets[k]? with
    | some socket =>
      ((method.run kernel order socket p.world).1,
        { p with world := (method.run kernel order socket p.world).2 })
    | none => ([], p)
  | .drop k =>
    match p.sockets[k]? with
    | some socket =>
      ([.release socket.fd],
        { world := kernel.close socket.fd p.world, sockets := p.sockets.eraseIdx k })
    | none => ([], p)

/-- The operation leaves a descriptor open that belongs to no socket. -/
def Op.Loses (s : σ) : Op → Prop
  | .openRaw interface => RawLoses kernel interface s
  | .openIsotp interface _ _ => TransportLoses kernel .isotp interface s
  | .openJ1939 interface _ _ _ => TransportLoses kernel .j1939 interface s
  | _ => False

instance (s : σ) : (op : Op) → Decidable (op.Loses kernel s)
  | .openRaw interface => inferInstanceAs (Decidable (RawLoses kernel interface s))
  | .openIsotp interface _ _ =>
    inferInstanceAs (Decidable (TransportLoses kernel .isotp interface s))
  | .openJ1939 interface _ _ _ =>
    inferInstanceAs (Decidable (TransportLoses kernel .j1939 interface s))
  | .call _ _ => inferInstanceAs (Decidable False)
  | .drop _ => inferInstanceAs (Decidable False)

/-- How many operations of a session do so. -/
def lossCount : Process σ → List Op → ℕ
  | _, [] => 0
  | p, op :: ops =>
    (if op.Loses kernel p.world then 1 else 0) + lossCount (step kernel order p op).2 ops

/-- The open descriptors that belong to no socket of the process. -/
def unowned (p : Process σ) : Finset ℕ := kernel.opened p.world \ p.fds.toFinset

/-- The sockets of a process have descriptors of their own, which are open. -/
structure Sound (p : Process σ) : Prop where
  nodup : p.fds.Nodup
  held : ∀ fd ∈ p.fds, fd ∈ kernel.opened p.world

/-- What an operation has to do: it uses what is held, leaves the process sound, and leaves the
descriptors of others alone, but for the one that it loses. -/
structure StepKeeps (p : Process σ) (loses : Prop) (after : List (Use ℕ) × Process σ) : Prop where
  allows : Allows (kernel.opened p.world) after.1 (kernel.opened after.2.world)
  sound : Sound kernel after.2
  kept : ¬ loses → unowned kernel after.2 = unowned kernel p
  lost : loses → ∃ fd ∉ unowned kernel p, unowned kernel after.2 = insert fd (unowned kernel p)

variable {kernel order}

/-- Opening a socket. -/
theorem Opens.stepKeeps {α : Type} {p : Process σ} {fdOf : α → ℕ} {socketOf : α → Socket}
    {loses : Prop} {run : List (Use ℕ) × Except SocketError α × σ}
    (h_fd : ∀ socket, (socketOf socket).fd = fdOf socket)
    (h : Opens kernel p.world fdOf loses run) (h_sound : Sound kernel p) :
    StepKeeps kernel p loses (p.add socketOf run) := by
  obtain ⟨trace, e | socket, world⟩ := run
  · -- no socket: those of the process stay as they are
    refine ⟨h.allows, ⟨h_sound.nodup, fun fd h_mem => ?_⟩, fun h_not => ?_, fun h_loses => ?_⟩
    · -- what is lost is open as well, so nothing of theirs was closed
      by_cases h_loses : loses
      · obtain ⟨-, lost, -, h_opened⟩ := h.lost h_loses
        exact h_opened ▸ Finset.mem_insert_of_mem (h_sound.held fd h_mem)
      · exact (h.closed e rfl h_loses).symm ▸ h_sound.held fd h_mem
    · exact congrArg (· \ p.fds.toFinset) (h.closed e rfl h_not)
    · -- it is new, so it is in no socket
      obtain ⟨-, lost, h_new, h_opened⟩ := h.lost h_loses
      have h_none : lost ∉ p.fds.toFinset := fun h_mem =>
        h_new (h_sound.held lost (List.mem_toFinset.mp h_mem))
      refine ⟨lost, fun h_mem => h_new (Finset.mem_sdiff.mp h_mem).1, ?_⟩
      exact (congrArg (· \ p.fds.toFinset) h_opened).trans
        (Finset.insert_sdiff_of_notMem _ h_none)
  · -- a socket: its descriptor is new, and stands behind those of the others
    obtain ⟨h_not, h_new, h_opened⟩ := h.ok socket rfl
    have h_fds : (p.add socketOf (trace, .ok socket, world)).2.fds = p.fds ++ [fdOf socket] := by
      rw [← h_fd]
      exact List.map_append
    have h_none : fdOf socket ∉ p.fds := fun h_mem => h_new (h_sound.held _ h_mem)
    refine ⟨h.allows, ⟨?_, fun fd h_mem => ?_⟩, fun _ => ?_, fun h_loses => absurd h_loses h_not⟩
    · rw [h_fds]
      exact h_sound.nodup.append (List.nodup_singleton _)
        (List.disjoint_singleton.mpr h_none)
    · rw [h_fds, List.mem_append, List.mem_singleton] at h_mem
      rcases h_mem with h_mem | rfl
      · exact h_opened ▸ Finset.mem_insert_of_mem (h_sound.held fd h_mem)
      · exact h_opened ▸ Finset.mem_insert_self ..
    · -- the new descriptor is open and owned, so the rest is the same
      rw [unowned, unowned, h_fds, List.toFinset_append]
      refine (congrArg (· \ _) h_opened).trans ?_
      ext fd
      simp only [Finset.mem_sdiff, Finset.mem_insert, Finset.mem_union, List.mem_toFinset,
        List.mem_singleton]
      constructor
      · rintro ⟨rfl | h_open, h_other⟩
        · exact absurd (.inr rfl) h_other
        · exact ⟨h_open, fun h_mem => h_other (.inl h_mem)⟩
      · rintro ⟨h_open, h_other⟩
        refine ⟨.inr h_open, ?_⟩
        rintro (h_mem | rfl)
        · exact h_other h_mem
        · exact h_new h_open

/-- A program that uses one descriptor of the process. -/
theorem UsesOnly.stepKeeps {ε α : Type} {p : Process σ} {fd : ℕ} {program : Call σ ε α}
    (h : UsesOnly kernel fd program) (h_sound : Sound kernel p) (h_fd : fd ∈ p.fds) :
    StepKeeps kernel p False
      ((effect program p.world).1, { p with world := (effect program p.world).2 }) := by
  obtain ⟨⟨h_allows, h_same⟩, -⟩ := h p.world (h_sound.held fd h_fd)
  refine ⟨h_allows, ⟨h_sound.nodup, fun fd h_mem => ?_⟩, fun _ => ?_, fun h => h.elim⟩
  · exact h_same.symm ▸ h_sound.held fd h_mem
  · exact congrArg (· \ p.fds.toFinset) h_same

/-- Nothing is done. -/
theorem stepKeeps_idle {p : Process σ} (h_sound : Sound kernel p) :
    StepKeeps kernel p False ([], p) := ⟨rfl, h_sound, fun _ => rfl, fun h => h.elim⟩

/-- A socket that is dropped takes its own descriptor with it. -/
theorem stepKeeps_drop {p : Process σ} (h_sound : Sound kernel p) {k : ℕ} {socket : Socket}
    (h_k : p.sockets[k]? = some socket) :
    StepKeeps kernel p False ([.release socket.fd],
      { world := kernel.close socket.fd p.world, sockets := p.sockets.eraseIdx k }) := by
  obtain ⟨h_lt, h_socket⟩ := List.getElem?_eq_some_iff.mp h_k
  -- the descriptors before and behind that of the socket
  let before := (p.sockets.take k).map Socket.fd
  let behind := (p.sockets.drop (k + 1)).map Socket.fd
  have h_fds : p.fds = before ++ socket.fd :: behind := by
    rw [Process.fds, ← List.take_append_drop k p.sockets, List.drop_eq_getElem_cons h_lt, h_socket,
      List.map_append, List.map_cons]
  have h_after : (p.sockets.eraseIdx k).map Socket.fd = before ++ behind := by
    rw [List.eraseIdx_eq_take_drop_succ, List.map_append]
  have h_nodup := h_sound.nodup
  rw [h_fds] at h_nodup
  -- no two sockets share a descriptor, so the others keep theirs
  have h_none : socket.fd ∉ before ++ behind := (List.nodup_middle.mp h_nodup).notMem
  have h_mem : ∀ fd, fd ∈ p.fds ↔ fd = socket.fd ∨ fd ∈ before ++ behind := fun fd => by
    rw [h_fds, List.mem_append, List.mem_cons, List.mem_append]
    exact or_left_comm
  have h_held : socket.fd ∈ kernel.opened p.world :=
    h_sound.held _ ((h_mem _).mpr (.inl rfl))
  have h_opened := kernel.opened_close socket.fd p.world
  refine ⟨⟨h_held, h_opened.symm⟩, ⟨?_, fun fd h_fd => ?_⟩, fun _ => ?_, fun h => h.elim⟩
  · show ((p.sockets.eraseIdx k).map Socket.fd).Nodup
    rw [h_after]
    exact (List.nodup_middle.mp h_nodup).of_cons
  · have h_other : fd ∈ before ++ behind := h_after ▸ h_fd
    refine h_opened.symm ▸ Finset.mem_erase.mpr ⟨fun h_eq => h_none (h_eq ▸ h_other), ?_⟩
    exact h_sound.held fd ((h_mem fd).mpr (.inr h_other))
  · -- the descriptor that is closed was owned
    ext fd
    rw [unowned, unowned, Finset.mem_sdiff, Finset.mem_sdiff, List.mem_toFinset, List.mem_toFinset,
      h_mem, not_or, h_opened, Finset.mem_erase, Process.fds, h_after]
    constructor
    · rintro ⟨⟨h_ne, h_open⟩, h_other⟩
      exact ⟨h_open, h_ne, h_other⟩
    · rintro ⟨h_open, h_ne, h_other⟩
      exact ⟨⟨h_ne, h_open⟩, h_other⟩

/-- **One operation.** -/
theorem step_keeps {p : Process σ} (h_sound : Sound kernel p) (op : Op) :
    StepKeeps kernel p (op.Loses kernel p.world) (step kernel order p op) := by
  cases op with
  -- opening: the one operation that can lose a descriptor
  | openRaw interface =>
    exact (openRaw_opens kernel interface p.world).stepKeeps (fun _ => rfl) h_sound
  | openIsotp interface txId rxId =>
    exact (openTransport_opens kernel _ interface _ p.world).stepKeeps (fun _ => rfl) h_sound
  | openJ1939 interface name pgn address =>
    exact (openTransport_opens kernel _ interface _ p.world).stepKeeps (fun _ => rfl) h_sound
  | call k method =>
    rw [step]
    cases h_k : p.sockets[k]? with
    -- there is no such socket
    | none => exact stepKeeps_idle h_sound
    | some socket =>
      -- a method works on the descriptor of its socket, if the socket has the method
      have h_fd : socket.fd ∈ p.fds := List.mem_map_of_mem (List.mem_of_getElem? h_k)
      cases method with
      | setNonblocking enabled =>
        cases socket with
        | raw socket => exact (usesOnly_setNonblocking enabled).stepKeeps h_sound h_fd
        | transport _ => exact stepKeeps_idle h_sound
      | sendFrame frame =>
        cases socket with
        | raw socket => exact (usesOnly_send order socket frame).stepKeeps h_sound h_fd
        | transport _ => exact stepKeeps_idle h_sound
      | recvFrame =>
        cases socket with
        | raw socket => exact (usesOnly_recv order socket).stepKeeps h_sound h_fd
        | transport _ => exact stepKeeps_idle h_sound
      | sendPayload payload =>
        cases socket with
        | raw _ => exact stepKeeps_idle h_sound
        | transport socket => exact (usesOnly_checked _).stepKeeps h_sound h_fd
      | recvPayload size =>
        cases socket with
        | raw _ => exact stepKeeps_idle h_sound
        | transport socket => exact (usesOnly_recvPayload socket size).stepKeeps h_sound h_fd
  | drop k =>
    rw [step]
    cases h_k : p.sockets[k]? with
    | none => exact stepKeeps_idle h_sound
    | some socket => exact stepKeeps_drop h_sound h_k

/-- **A session**, from any sound process on. -/
theorem session_keeps {p : Process σ} (h_sound : Sound kernel p) (ops : List Op) :
    let last := Transducer.final (step kernel order) p ops
    Allows (kernel.opened p.world) (Transducer.outputs (step kernel order) p ops).flatten
        (kernel.opened last.world) ∧ Sound kernel last ∧ unowned kernel p ⊆ unowned kernel last ∧
      (unowned kernel last).card = (unowned kernel p).card + lossCount kernel order p ops := by
  -- over the operations, from any sound process
  induction ops generalizing p with
  | nil => exact ⟨rfl, h_sound, subset_rfl, rfl⟩
  | cons op ops ih =>
    have h_step := @step_keeps _ kernel order _ h_sound op
    obtain ⟨h_allows, h_last, h_subset, h_card⟩ := ih h_step.sound
    intro last
    rw [Transducer.outputs_cons, List.flatten_cons]
    refine ⟨h_step.allows.append h_allows, h_last, ?_, ?_⟩
    · -- a lost descriptor is never taken back
      refine Finset.Subset.trans ?_ h_subset
      by_cases h_loses : op.Loses kernel p.world
      · obtain ⟨fd, -, h_unowned⟩ := h_step.lost h_loses
        rw [h_unowned]
        exact Finset.subset_insert ..
      · exact (h_step.kept h_loses).ge
    · -- and each loss is one more
      refine h_card.trans ?_
      rw [lossCount]
      by_cases h_loses : op.Loses kernel p.world
      · obtain ⟨fd, h_new, h_unowned⟩ := h_step.lost h_loses
        rw [h_unowned, Finset.card_insert_of_notMem h_new, if_pos h_loses]
        omega
      · rw [h_step.kept h_loses, if_neg h_loses, Nat.zero_add]

/-! ### What a process holds and loses -/

/-- **Opening a socket** fails with a descriptor left open, which nothing closes any more, exactly
where the interface is not found at one place: for a raw socket in the second lookup, where the
first one and everything else before it went well, and for a transport socket in its only one. Any
other failure leaves the descriptors of the process as they were. -/
theorem open_loses_iff (kernel : Kernel σ) (interface : String) (s : σ) :
    LosesIff kernel s (RawLoses kernel interface s) (RawSocketImpl.open' kernel interface s) ∧
    (∀ txId rxId, LosesIff kernel s (TransportLoses kernel .isotp interface s)
      (IsotpSocketImpl.open' kernel interface txId rxId s)) ∧
    ∀ name pgn address, LosesIff kernel s (TransportLoses kernel .j1939 interface s)
      (J1939SocketImpl.open' kernel interface name pgn address s) :=
  ⟨(openRaw_opens kernel interface s).losesIff,
    fun _ _ => (openTransport_opens kernel .isotp interface _ s).losesIff,
    fun _ _ _ => (openTransport_opens kernel .j1939 interface _ s).losesIff⟩

/-- **The descriptors of a process**, over any session of any length, with any number of sockets
at a time. Every descriptor that is used or closed is one that the process holds; between its
release and a later use it has been acquired again. The sockets have descriptors of their own, all
of them open; those that were open before are still so; and as many others are left behind as
operations have lost one. -/
theorem session_descriptors (kernel : Kernel σ) (order : ByteOrder) (s : σ) (ops : List Op) :
    let start : Process σ := { world := s, sockets := [] }
    let trace := (Transducer.outputs (step kernel order) start ops).flatten
    let last := Transducer.final (step kernel order) start ops
    Allows (kernel.opened s) trace (kernel.opened last.world) ∧
    (∀ before between later fd other, other = .touch fd ∨ other = .release fd →
      trace = before ++ .release fd :: (between ++ other :: later) → .acquire fd ∈ between) ∧
    Sound kernel last ∧ kernel.opened s ⊆ unowned kernel last ∧
      (unowned kernel last).card = (kernel.opened s).card + lossCount kernel order start ops := by
  intro start trace last
  have h_start : Sound kernel start := ⟨List.nodup_nil, fun _ h => nomatch h⟩
  have h_unowned : unowned kernel start = kernel.opened s := Finset.sdiff_empty
  obtain ⟨h_allows, h_sound, h_subset, h_card⟩ := @session_keeps _ kernel order _ h_start ops
  rw [h_unowned] at h_subset h_card
  refine ⟨h_allows, fun before between later fd other h_other h_trace => ?_, h_sound, h_subset,
    h_card⟩
  have h_split : Allows (kernel.opened s) trace (kernel.opened last.world) := h_allows
  rw [h_trace] at h_split
  exact h_split.acquired_between h_other

/-- A table of open descriptors below the next one. -/
structure Table where
  next : ℕ
  opened : Finset ℕ
  below : ∀ fd ∈ opened, fd < next

/-- A kernel without interfaces, on which every other call goes well. -/
def bareKernel : Kernel Table where
  opened := Table.opened
  errno _ := .other 0
  socket _ s := (some s.next,
    { next := s.next + 1
      opened := insert s.next s.opened
      below := fun fd h => by
        rcases Finset.mem_insert.mp h with rfl | h
        · exact Nat.lt_succ_self _
        · exact Nat.lt_succ_of_lt (s.below fd h) })
  request _ _ s := ({ value := 0, bytes := [] }, s)
  ifNameToIndex _ s := (0, s)
  close fd s :=
    { s with
      opened := s.opened.erase fd
      below := fun other h => s.below other (Finset.mem_of_mem_erase h) }
  opened_socket _ s fd h := by
    cases h
    exact ⟨fun h_mem => Nat.lt_irrefl _ (s.below _ h_mem), rfl⟩
  opened_noSocket _ _ h := nomatch h
  opened_request _ _ _ := rfl
  opened_ifNameToIndex _ _ := rfl
  opened_close _ _ := rfl

/-- Two sockets that are not opened: the raw one is closed again, the other one is lost. -/
theorem session_descriptors_two :
    let start : Process Table :=
      { world := { next := 3, opened := {0, 1, 2}, below := by decide }, sockets := [] }
    let ops : List Op := [.openRaw "can0", .openIsotp "can0" 0x7e0 0x7e8]
    lossCount bareKernel .little start ops = 1 ∧
      (unowned bareKernel (Transducer.final (step bareKernel .little) start ops)).card = 4 := by
  intro start ops
  have h_count : lossCount bareKernel .little start ops = 1 := by decide
  obtain ⟨-, -, -, -, h_card⟩ := session_descriptors bareKernel .little start.world ops
  rw [h_count] at h_card
  exact ⟨h_count, h_card⟩

end Session

end Cantools.SocketCan
