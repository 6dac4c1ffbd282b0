import Cantools.Codec.Span
import Cantools.Framework.Timed
import Cantools.Framework.Transducer

/-!
# Replaying a capture

`replay` sends the frames of a capture one after the other and sleeps in between for the time that
has passed between their timestamps, which it takes from the previous event. What it does is a
trace of sleeps and calls of `send`, with the result of each call.

The socket is a parameter: `send` answers a frame with a result and the next state of the socket,
so that `Transducer.outputs send` has the results that the frames would get one after the other.
Floating point is one, too: `scaled` divides a delay by the factor of the mode.
-/

namespace Cantools.Cli

open Codec Timed

/-- Timing mode for replay paths. -/
inductive ReplayMode (Factor : Type) where
  /-- Preserve event deltas exactly. -/
  | preserve
  /-- Emit events as quickly as possible. -/
  | immediate
  /-- Scale event deltas by the provided factor. -/
  | scale (factor : Factor)
  deriving DecidableEq, Repr

/-- A call of `send` and its result. -/
abbrev Call (ε : Type) := CanFrame × Except ε Unit

/-- `(current - previous).max(0) as u64`; the instants are `i128`, which holds all of them. -/
def deltaNs (current previous : Timestamp) : UInt64 :=
  (max (current.nanoseconds - previous.nanoseconds) 0).toNat.toUInt64

section Replay

variable {σ ε Factor : Type} (send : σ → CanFrame → Except ε Unit × σ)
variable (scaled : Factor → UInt64 → UInt64) (mode : ReplayMode Factor)

/-- The sleep of a mode for a delta. -/
def sleep (delta : UInt64) : List (Action (Call ε)) :=
  match mode with
  | .immediate => []
  | .preserve => [.wait delta.toNat]
  | .scale factor => [.wait (scaled factor delta).toNat]

/-- What is done before an event is sent; nothing before the first one. -/
def pause (previous : Option Timestamp) (event : CaptureEvent) : List (Action (Call ε)) :=
  match previous with
  | none => []
  | some previous => sleep scaled mode (deltaNs event.timestamp previous)

/-- The loop of `replay`, behind an event with the previous timestamp. -/
def replayFrom (previous : Option Timestamp) (socket : σ) :
    List CaptureEvent → List (Action (Call ε)) × Except ε Unit
  | [] => ([], .ok ())
  | event :: events =>
    match send socket event.frame with
    | (.error e, _) =>
      (pause scaled mode previous event ++ [.emit (event.frame, .error e)], .error e)
    | (.ok (), socket) =>
      let (trace, result) := replayFrom (some event.timestamp) socket events
      (pause scaled mode previous event ++ .emit (event.frame, .ok ()) :: trace, result)

def replay (socket : σ) (events : List CaptureEvent) :
    List (Action (Call ε)) × Except ε Unit :=
  replayFrom send scaled mode none socket events

end Replay

/-! ### Delivery -/

section Delivery

variable {σ ε Factor : Type} {send : σ → CanFrame → Except ε Unit × σ}
variable {scaled : Factor → UInt64 → UInt64} {mode : ReplayMode Factor}

/-- A pause sends nothing. -/
theorem emitted_pause_append (previous : Option Timestamp) (event : CaptureEvent)
    (trace : List (Action (Call ε))) :
    emitted (pause scaled mode previous event ++ trace) = emitted trace := by
  cases previous <;> cases mode <;> rfl

/-- **What the loop does with an event**: a call that fails ends it, and one that returns leads to
the rest behind this event. -/
theorem replayFrom_cons (previous : Option Timestamp) (socket : σ) (event : CaptureEvent)
    (events : List CaptureEvent) :
    (∃ e next, send socket event.frame = (.error e, next) ∧
      replayFrom send scaled mode previous socket (event :: events)
        = (pause scaled mode previous event ++ [.emit (event.frame, .error e)], .error e)) ∨
    ∃ next, send socket event.frame = (.ok (), next) ∧
      replayFrom send scaled mode previous socket (event :: events)
        = (pause scaled mode previous event ++ .emit (event.frame, .ok ()) ::
            (replayFrom send scaled mode (some event.timestamp) next events).1,
          (replayFrom send scaled mode (some event.timestamp) next events).2) := by
  rw [replayFrom]
  obtain ⟨e | _, next⟩ := send socket event.frame
  · exact .inl ⟨e, next, rfl, rfl⟩
  · exact .inr ⟨next, rfl, rfl⟩

/-- The results of the frames one after the other. -/
def results (send : σ → CanFrame → Except ε Unit × σ) (socket : σ) (events : List CaptureEvent) :
    List (Except ε Unit) :=
  Transducer.outputs send socket (events.map (·.frame))

/-- The call of this index fails, and those before it return. -/
def FailsAt (results : List (Except ε Unit)) (k : ℕ) (e : ε) : Prop :=
  results[k]? = some (.error e) ∧ ∀ j < k, results[j]? = some (.ok ())

/-- Every frame is sent once, in order; or the first frames are, up to the call that fails, and
its error is returned. -/
structure Delivers (run : List (Action (Call ε)) × Except ε Unit) (frames : List CanFrame)
    (results : List (Except ε Unit)) : Prop where
  all : (∀ result ∈ results, result = .ok ()) →
    run.2 = .ok () ∧ emitted run.1 = frames.map fun frame => (frame, .ok ())
  fails : ∀ k e, FailsAt results k e → run.2 = .error e ∧ ∃ frame, frames[k]? = some frame ∧
    emitted run.1 = ((frames.take k).map fun frame => (frame, .ok ())) ++ [(frame, .error e)]

theorem replayFrom_delivers (previous : Option Timestamp) (socket : σ)
    (events : List CaptureEvent) :
    Delivers (replayFrom send scaled mode previous socket events) (events.map (·.frame))
      (results send socket events) := by
  induction events generalizing previous socket with
  | nil => exact ⟨fun _ => ⟨rfl, rfl⟩, fun k e h => by cases h.1⟩
  | cons event events ih =>
    rw [results, List.map_cons, Transducer.outputs_cons, ← results]
    obtain ⟨e, next, h_send, h_run⟩ | ⟨next, h_send, h_run⟩ :=
      replayFrom_cons previous socket event events
    · -- the first send fails, and the others are not made
      rw [h_run, h_send]
      refine ⟨fun h => ?_, fun k e' h => ?_⟩
      · cases h _ (List.mem_cons_self ..)
      · cases k with
        | zero =>
          cases h.1
          exact ⟨rfl, event.frame, rfl, emitted_pause_append ..⟩
        | succ k => cases h.2 0 (Nat.zero_lt_succ k)
    · rw [h_run, h_send]
      -- the first send went well; the others start from its socket
      obtain ⟨h_all, h_fails⟩ := ih (some event.timestamp) next
      refine ⟨fun h => ?_, fun k e h => ?_⟩
      · obtain ⟨h_result, h_calls⟩ := h_all (List.forall_mem_cons.mp h).2
        refine ⟨h_result, (emitted_pause_append ..).trans ?_⟩
        rw [emitted_emit, h_calls, List.map_cons]
      · cases k with
        | zero => cases h.1
        | succ k =>
          -- the failing send is one earlier in the rest
          have h_later : FailsAt (results send next events) k e :=
            ⟨h.1, fun j h_j => h.2 (j + 1) (Nat.succ_lt_succ h_j)⟩
          obtain ⟨h_result, frame, h_frame, h_calls⟩ := h_fails k e h_later
          refine ⟨h_result, frame, h_frame, (emitted_pause_append ..).trans ?_⟩
          rw [emitted_emit, h_calls]
          rfl

/-- No event is sent twice. -/
theorem length_emitted_le (previous : Option Timestamp) (socket : σ) (events : List CaptureEvent) :
    (emitted (replayFrom send scaled mode previous socket events).1).length ≤ events.length := by
  induction events generalizing previous socket with
  | nil => exact le_refl 0
  | cons event events ih =>
    obtain ⟨e, next, -, h_run⟩ | ⟨next, -, h_run⟩ := replayFrom_cons previous socket event events
    · rw [h_run, emitted_pause_append]
      exact Nat.succ_le_succ (Nat.zero_le _)
    · rw [h_run, emitted_pause_append]
      exact Nat.succ_le_succ (ih (some event.timestamp) next)

/-- Without delays, nothing is waited for. -/
theorem replayFrom_immediate (previous : Option Timestamp) (socket : σ)
    (events : List CaptureEvent) : ∀ duration,
    .wait duration ∉ (replayFrom send scaled .immediate previous socket events).1 := by
  -- in this mode there is no pause, whatever the events are
  have h_pause : ∀ previous event,
      pause scaled .immediate previous event = ([] : List (Action (Call ε))) :=
    fun previous event => by cases previous <;> rfl
  induction events generalizing previous socket with
  | nil => exact fun _ => List.not_mem_nil
  | cons event events ih =>
    intro duration h_mem
    obtain ⟨e, next, -, h_run⟩ | ⟨next, -, h_run⟩ := replayFrom_cons previous socket event events
    · rw [h_run, h_pause] at h_mem
      cases List.mem_singleton.mp h_mem
    · rw [h_run, h_pause] at h_mem
      rcases List.mem_cons.mp h_mem with h_emit | h_later
      · cases h_emit
      · exact ih _ _ duration h_later

end Delivery

/-! ### Delays -/

section Delays

variable {σ ε Factor : Type} {send : σ → CanFrame → Except ε Unit × σ}
variable {scaled : Factor → UInt64 → UInt64}

/-- The instants of events. -/
def instants (events : List CaptureEvent) : List ℤ := events.map (·.timestamp.nanoseconds)

/-- A delta of less than `2 ^ 64` is exact. -/
theorem toNat_deltaNs {current previous : Timestamp}
    (h : current.nanoseconds - previous.nanoseconds < 2 ^ 64) :
    ((deltaNs current previous).toNat : ℤ)
      = max 0 (current.nanoseconds - previous.nanoseconds) := by
  have h_lt : (max (current.nanoseconds - previous.nanoseconds) 0).toNat < 2 ^ 64 := by omega
  have h_cast : (deltaNs current previous).toNat
      = (max (current.nanoseconds - previous.nanoseconds) 0).toNat :=
    UInt64.toNat_ofNat_of_lt h_lt
  omega

/-- **Behind an event**, the delays climb from its instant. -/
theorem waited_replayFrom {previous : CaptureEvent} {events : List CaptureEvent}
    (h_span : Spans (previous :: events)) (socket : σ) (k : ℕ)
    (h_k : k < (emitted (replayFrom send scaled .preserve (some previous.timestamp) socket
      events).1).length) :
    (waited k (replayFrom send scaled .preserve (some previous.timestamp) socket events).1 : ℤ)
      = climb (fun j => (instants (previous :: events)).getD j 0) (k + 1) := by
  induction events generalizing previous socket k with
  | nil => exact absurd h_k (Nat.not_lt_zero k)
  | cons event events ih =>
    -- no difference of instants overflows, so the pause is the climb of one step
    have h_delta := toNat_deltaNs (h_span previous (List.mem_cons_self ..) event
      (List.mem_cons_of_mem _ (List.mem_cons_self ..)))
    have h_tail : Spans (event :: events) := fun a h_a b h_b =>
      h_span a (List.mem_cons_of_mem _ h_a) b (List.mem_cons_of_mem _ h_b)
    have h_pause : pause scaled .preserve (some previous.timestamp) event
        = [(.wait (deltaNs event.timestamp previous.timestamp).toNat : Action (Call ε))] := rfl
    rw [climb_succ]
    -- a send that fails is the last call, one that does not has calls behind it
    obtain ⟨e, next, -, h_run⟩ | ⟨next, -, h_run⟩ :=
      replayFrom_cons (some previous.timestamp) socket event events
    · rw [h_run, h_pause] at h_k ⊢
      obtain rfl : k = 0 := Nat.lt_one_iff.mp h_k
      rw [climb_zero, List.singleton_append, waited_wait, waited_emit_zero, Nat.add_zero, h_delta]
      exact (add_zero _).symm
    · rw [h_run, h_pause] at h_k ⊢
      rw [List.singleton_append, waited_wait, Nat.cast_add, h_delta]
      cases k with
      | zero => rfl
      | succ k =>
        rw [waited_emit_succ, ih h_tail next k (Nat.lt_of_succ_lt_succ h_k)]
        rfl

/-- **The delays before an event**: they climb from the first instant to its own. -/
theorem waited_replay {events : List CaptureEvent} (h_span : Spans events) (socket : σ) (k : ℕ)
    (h_k : k < (emitted (replay send scaled .preserve socket events).1).length) :
    (waited k (replay send scaled .preserve socket events).1 : ℤ)
      = climb (fun j => (instants events).getD j 0) k := by
  cases events with
  | nil => exact absurd h_k (Nat.not_lt_zero k)
  | cons event events =>
    have h_pause : pause scaled .preserve none event = ([] : List (Action (Call ε))) := rfl
    rw [replay] at h_k ⊢
    obtain ⟨e, next, -, h_run⟩ | ⟨next, -, h_run⟩ := replayFrom_cons none socket event events
    · rw [h_run, h_pause] at h_k ⊢
      obtain rfl : k = 0 := Nat.lt_one_iff.mp h_k
      rw [climb_zero]
      rfl
    · rw [h_run, h_pause] at h_k ⊢
      -- before the first event there is no delay
      cases k with
      | zero =>
        rw [climb_zero]
        rfl
      | succ k => exact waited_replayFrom h_span next k (Nat.lt_of_succ_lt_succ h_k)

/-- Before every event, the delays sum up to the steps forward of the instants so far: to at least
the time since the first event, and to that time if the instants do not go back. -/
structure KeepsTime (trace : List (Action (Call ε))) (t : List ℤ) : Prop where
  waits : ∀ i < (emitted trace).length, (waited i trace : ℤ) = climb (fun j => t.getD j 0) i
  least : ∀ i < (emitted trace).length, t.getD i 0 - t.getD 0 0 ≤ waited i trace
  exactly : t.Pairwise (· ≤ ·) → ∀ i < (emitted trace).length,
    (waited i trace : ℤ) = t.getD i 0 - t.getD 0 0

theorem replay_keepsTime {events : List CaptureEvent} (h_span : Spans events) (socket : σ) :
    KeepsTime (replay send scaled .preserve socket events).1 (instants events) := by
  refine ⟨waited_replay h_span socket, fun i h_i => ?_, fun h_sorted i h_i => ?_⟩
  · rw [waited_replay h_span socket i h_i]
    exact sub_le_climb (fun j => (instants events).getD j 0) i
  · rw [waited_replay h_span socket i h_i]
    refine climb_eq_sub (t := fun j => (instants events).getD j 0) fun j h_j => ?_
    -- both events are in the list
    have h_next : j + 1 < (instants events).length := calc
      j + 1 ≤ i := h_j
      _ < _ := h_i
      _ ≤ events.length := length_emitted_le none socket events
      _ = (instants events).length := (List.length_map _).symm
    rw [List.getD_eq_getElem _ _ (Nat.lt_of_succ_lt h_next), List.getD_eq_getElem _ _ h_next]
    exact List.pairwise_iff_getElem.mp h_sorted j (j + 1) (Nat.lt_of_succ_lt h_next) h_next
      (Nat.lt_succ_self j)

end Delays

/-! ### Schedule and delivery -/

section Schedule

variable {σ ε Factor : Type}

/-- **Replaying a capture.** Frames are delivered in every mode; the delays keep the time of the
capture when deltas are preserved, if no two events are `2 ^ 64` nanoseconds apart; there are none
in immediate mode. What a file reader returns is such a capture. -/
theorem replay_schedule (send : σ → CanFrame → Except ε Unit × σ)
    (scaled : Factor → UInt64 → UInt64) (socket : σ) (events : List CaptureEvent)
    (h_span : Spans events) :
    (∀ mode, Delivers (replay send scaled mode socket events) (events.map (·.frame))
      (results send socket events)) ∧
    KeepsTime (replay send scaled .preserve socket events).1 (instants events) ∧
    (∀ duration, .wait duration ∉ (replay send scaled .immediate socket events).1) ∧
    ∀ read, ReadFromFile read → Spans read :=
  ⟨fun _ => replayFrom_delivers none socket events, replay_keepsTime h_span socket,
    replayFrom_immediate none socket events, fun _ h => h.spans⟩

/-- Two frames half a second apart, over a socket that takes every frame. -/
theorem replay_schedule_two :
    let first : CaptureEvent :=
      { timestamp := ⟨1, 0⟩
        interface := ⟨some "can0", none⟩
        direction := .rx
        frame := ⟨⟨0x123, false, by decide⟩, .data, [1, 2], false, {}⟩
        annotations := [] }
    let second : CaptureEvent := { first with timestamp := ⟨1, 500000000⟩ }
    let send : Unit → CanFrame → Except String Unit × Unit := fun _ _ => (.ok (), ())
    let scaled : Unit → UInt64 → UInt64 := fun _ delta => delta
    let run := replay send scaled .preserve () [first, second]
    run.2 = .ok () ∧ emitted run.1 = [(first.frame, .ok ()), (second.frame, .ok ())] ∧
      (waited 1 run.1 : ℤ) = 500000000 := by
  intro first second send scaled run
  have h_span : Spans [first, second] := by
    unfold Spans
    decide
  obtain ⟨h_delivers, h_time, -, -⟩ := replay_schedule send scaled () [first, second] h_span
  -- both sends go well
  have h_results : ∀ result ∈ results send () [first, second], result = .ok () := by
    intro result h_result
    rcases List.mem_cons.mp h_result with rfl | h_result
    · rfl
    · exact List.mem_singleton.mp h_result
  obtain ⟨h_ok, h_calls⟩ := (h_delivers .preserve).all h_results
  -- half a second lies between the two calls
  have h_sorted : (instants [first, second]).Pairwise (· ≤ ·) := by decide
  have h_called : 1 < (emitted run.1).length := by
    rw [h_calls]
    exact Nat.one_lt_two
  have h_half : (instants [first, second]).getD 1 0 - (instants [first, second]).getD 0 0
      = 500000000 := by decide
  exact ⟨h_ok, h_calls, (h_time.exactly h_sorted 1 h_called).trans h_half⟩

end Schedule

end Cantools.Cli
