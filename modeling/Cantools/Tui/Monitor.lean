import Cantools.Core.Capture
import Cantools.Framework.Window

/-!
# The monitor loop

`run_loop` receives events until there are none, draws what it keeps of them, and looks for the
key that ends it, over and over. A round of the loop is what the outside world answers in it: the
socket, the terminal it draws on and the keyboard. The loop goes as far as the rounds that are
given to it; what it shows is the list of the buffers it draws.

The buffer is a window over all events received so far (`draws_eq`), so that a draw shows exactly
the newest `limit` events, unless the limit is `0` (`monitor_window_iff`).
-/

namespace Cantools.Tui

open Window

variable {ε : Type}

/-! ### The loop -/

inductive KeyEventKind where
  | press
  | repeated
  | release
  deriving DecidableEq, Repr

inductive KeyCode where
  | char (c : Char)
  | other
  deriving DecidableEq, Repr

/-- An event of the terminal. -/
inductive Event where
  | key (kind : KeyEventKind) (code : KeyCode)
  | other
  deriving DecidableEq, Repr

/-- What is answered in a round of the loop. -/
structure Round (ε : Type) where
  /-- The events `recv_event` returns. -/
  batch : List CaptureEvent
  /-- What ends them: no event, or an error. -/
  received : Except ε Unit
  /-- The result of `terminal.draw`. -/
  drawn : Except ε Unit
  /-- The result of `event::poll`. -/
  poll : Except ε Bool
  /-- The result of `event::read`, if it is asked. -/
  read : Except ε Event

/-- Whether the key that ends the loop was pressed. -/
def Round.quits (round : Round ε) : Except ε Bool := do
  if ← round.poll then
    let event ← round.read
    pure (event = .key .press (.char 'q'))
  else pure false

/-- The loop, with the buffers it draws; its result is `none` if it goes on behind the last
round. -/
def runLoop (limit : ℕ) (events : List CaptureEvent) :
    List (Round ε) → List (List CaptureEvent) × Option (Except ε Unit)
  | [] => ([], none)
  | round :: rounds =>
    let events := round.batch.foldl (push limit) events
    match round.received with
    | .error e => ([], some (.error e))
    | .ok () =>
      match round.drawn with
      | .error e => ([events], some (.error e))
      | .ok () =>
        match round.quits with
        | .error e => ([events], some (.error e))
        | .ok true => ([events], some (.ok ()))
        | .ok false =>
          let (draws, result) := runLoop limit events rounds
          (events :: draws, result)

/-! ### What is drawn -/

/-- The events received up to the end of a round. -/
def receivedBy (rounds : List (Round ε)) (k : ℕ) : List CaptureEvent :=
  (rounds.take (k + 1)).flatMap (·.batch)

/-- A round draws at most once, and what is drawn behind it starts from the buffer it leaves. -/
theorem draws_cons_prefix (limit : ℕ) (events : List CaptureEvent) (round : Round ε)
    (rounds : List (Round ε)) :
    let buffer := round.batch.foldl (push limit) events
    (runLoop limit events (round :: rounds)).1
      <+: buffer :: (runLoop limit buffer rounds).1 := by
  intro buffer
  rw [runLoop]
  -- each way out of a round leaves nothing or the draw of this round
  cases round.received with
  | error e => exact List.nil_prefix
  | ok _ =>
    cases round.drawn with
    | error e => exact ⟨_, rfl⟩
    | ok _ =>
      cases round.quits with
      | error e => exact ⟨_, rfl⟩
      | ok quit =>
        cases quit with
        | false => exact List.prefix_rfl
        | true => exact ⟨_, rfl⟩

/-- **The buffers.** Every draw shows what was kept of the events received so far. -/
theorem draws_eq {limit : ℕ} {rounds : List (Round ε)} {events buffer : List CaptureEvent} {k : ℕ}
    (h : (runLoop limit events rounds).1[k]? = some buffer) :
    buffer = (receivedBy rounds k).foldl (push limit) events := by
  induction rounds generalizing events k with
  | nil => cases h
  | cons round rounds ih =>
    obtain ⟨later, h_later⟩ := draws_cons_prefix limit events round rounds
    have h_same : (_ ++ later)[k]? = _ :=
      List.getElem?_append_left (List.getElem?_eq_some_iff.mp h).1
    rw [h_later, h] at h_same
    cases k with
    | zero =>
      cases h_same
      rw [receivedBy, List.take_succ_cons, List.take_zero, List.flatMap_singleton]
    | succ k =>
      rw [receivedBy, List.take_succ_cons, List.flatMap_cons, List.foldl_append]
      exact ih h_same

/-! ### The window -/

/-- The buffer is the newest events that were received, as many as the limit says. -/
structure ShowsNewest (limit : ℕ) (received buffer : List CaptureEvent) : Prop where
  newest : buffer = received.rtake limit
  bounded : buffer.length ≤ limit

/-- **Which draws show the newest events**: those of a limit other than `0`, and of nothing. At a
limit of `0`, everything that was received is kept. -/
theorem monitor_window_iff (limit : ℕ) (rounds : List (Round ε)) (k : ℕ)
    (buffer : List CaptureEvent) (h_draw : (runLoop limit [] rounds).1[k]? = some buffer) :
    ShowsNewest limit (receivedBy rounds k) buffer ↔ 1 ≤ limit ∨ receivedBy rounds k = [] := by
  have h_buffer := draws_eq h_draw
  rcases Nat.eq_zero_or_pos limit with rfl | h_pos
  · -- no event is ever dropped
    rw [foldl_push_zero, List.nil_append] at h_buffer
    subst h_buffer
    constructor
    · exact fun h => .inr (List.eq_nil_of_length_eq_zero (Nat.le_zero.mp h.bounded))
    · rintro (h_zero | h_nil)
      · exact absurd h_zero (by decide)
      · rw [h_nil]
        exact ⟨rfl, le_rfl⟩
  · -- the oldest is dropped at each push behind the limit
    have h_newest := foldl_push h_pos [] (receivedBy rounds k)
    rw [List.rtake_nil, List.nil_append, ← h_buffer] at h_newest
    refine ⟨fun _ => .inl h_pos, fun _ => ⟨h_newest, ?_⟩⟩
    rw [h_newest, length_rtake]
    exact Nat.min_le_right ..

/-- Three events in two rounds, at a limit of `2`. -/
theorem monitor_window_two :
    let event : CaptureEvent :=
      { timestamp := ⟨1, 0⟩
        interface := ⟨some "can0", none⟩
        direction := .rx
        frame := ⟨⟨0x123, false, by decide⟩, .data, [1, 2], false, {}⟩
        annotations := [] }
    let second : CaptureEvent := { event with timestamp := ⟨2, 0⟩ }
    let third : CaptureEvent := { event with timestamp := ⟨3, 0⟩ }
    let round : Round String :=
      { batch := [event, second]
        received := .ok ()
        drawn := .ok ()
        poll := .ok false
        read := .ok .other }
    (runLoop 2 [] [round, { round with batch := [third] }]).1[1]? = some [second, third] ∧
      ShowsNewest 2 [event, second, third] [second, third] := by
  intro event second third round
  have h_draw : (runLoop 2 [] [round, { round with batch := [third] }]).1[1]?
      = some [second, third] := by decide
  exact ⟨h_draw, (monitor_window_iff 2 _ 1 _ h_draw).mpr (.inl (by decide))⟩

/-- One event at a limit of `0`: it is shown, and stays in the buffer. -/
theorem monitor_window_counterexample :
    let event : CaptureEvent :=
      { timestamp := ⟨1, 0⟩
        interface := ⟨some "can0", none⟩
        direction := .rx
        frame := ⟨⟨0x123, false, by decide⟩, .data, [1, 2], false, {}⟩
        annotations := [] }
    let round : Round String :=
      { batch := [event]
        received := .ok ()
        drawn := .ok ()
        poll := .ok false
        read := .ok .other }
    (runLoop 0 [] [round]).1[0]? = some [event] ∧
      ¬ ShowsNewest 0 (receivedBy [round] 0) [event] := by
  intro event round
  exact ⟨by decide, fun h => absurd h.bounded (by decide)⟩

end Cantools.Tui
