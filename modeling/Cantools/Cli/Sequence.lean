import Mathlib.Data.List.Forall2
import Cantools.Cli.Basic
import Cantools.Framework.Interaction
import Cantools.Framework.Subsequence

/-!
# Sequence files

`cantools sequence` is an interpreter: a sequence file has steps that send a frame, sleep, or
expect a frame with an identifier before a deadline, and the command runs them in order up to the
first one that fails. Socket and clock are outside the model; a `Bus` answers the questions which
the command asks of them, and the run is the trace of these questions and answers.

An expectation reads frames, drops those with another identifier, and sleeps while there is none.
It is a loop, which ends when the clock says so; here it also ends, with `none`, when its rounds
run out, and `sequence_settles` has the reason why enough rounds give a result.

The steps and the frames that were read decide how a run ends (`sequence_ok_iff`): it is
successful exactly when the expected identifiers are a subsequence of the identifiers read, and
it reads no frame behind the last one it waits for.
-/

namespace Cantools.Cli

open Interaction Program

/-! ### The interpreter -/

/-- A step of a sequence file. -/
inductive SequenceStep where
  | send (id data : List Char) (fd brs esi : Option Bool)
  | sleep (millis : UInt64)
  | expect (id : List Char) (timeoutMs : UInt64)

/-- The errors that end a sequence. -/
inductive SequenceError (ε : Type) where
  /-- The text of a step is not that of a frame or of an identifier. -/
  | cli (error : CliError)
  | socket (error : ε)
  /-- `bail!`, behind the deadline of an expectation -/
  | timedOut (text : String)
  deriving DecidableEq, Repr

/-- What the command asks the outside world. -/
structure Bus (σ ε : Type) where
  /-- `Instant::now()`, in nanoseconds. -/
  now : σ → ℕ × σ
  /-- `thread::sleep`, in milliseconds. -/
  sleep : ℕ → σ → Unit × σ
  /-- `send` of the socket. -/
  send : CanFrame → σ → Except ε Unit × σ
  /-- `recv` of the socket, which does not block. -/
  recv : σ → Except ε (Option CanFrame) × σ

/-- A question that was asked, with its answer. -/
inductive Action (ε : Type) where
  | looked (instant : ℕ)
  | slept (millis : ℕ)
  | sent (frame : CanFrame) (result : Except ε Unit)
  | received (answer : Except ε (Option CanFrame))
  deriving DecidableEq, Repr

section Run

variable {σ ε : Type} (bus : Bus σ ε)

/-- The questions, with what is logged of them. -/
def Bus.look {ε' : Type} : Interaction σ (Action ε) ε' ℕ :=
  ask bus.now fun instant => [.looked instant]

@[inherit_doc Bus.look]
def Bus.pause {ε' : Type} (millis : ℕ) : Interaction σ (Action ε) ε' Unit :=
  ask (bus.sleep millis) fun _ => [.slept millis]

@[inherit_doc Bus.look]
def Bus.put {ε' : Type} (frame : CanFrame) : Interaction σ (Action ε) ε' (Except ε Unit) :=
  ask (bus.send frame) fun result => [.sent frame result]

@[inherit_doc Bus.look]
def Bus.get {ε' : Type} : Interaction σ (Action ε) ε' (Except ε (Option CanFrame)) :=
  ask bus.recv fun answer => [.received answer]

/-- A program over the bus. -/
abbrev Script (σ ε α : Type) := Interaction σ (Action ε) (Fault (SequenceError ε)) α

/-- The `?` operator on the result of a function of the command line. -/
def ofRun {α : Type} : Run CliError α → Script σ ε α
  | .ok a => pure a
  | .error (.error e) => fail (.error (.cli e))
  | .error .panic => fail .panic

/-- The `?` operator on the result of the socket. -/
def ofSocket : Except ε Unit → Script σ ε Unit
  | .ok () => pure ()
  | .error e => fail (.error (.socket e))

/-- The error of an expectation behind its deadline. -/
def timedOut (id : List Char) : SequenceError ε :=
  .timedOut ("timed out waiting for frame " ++ String.ofList id)

/-- `Duration::from_millis`, in nanoseconds -/
def fromMillis (millis : ℕ) : ℕ := millis * 1000000

/-- `Instant::now() + Duration::from_millis(timeout_ms)` -/
def deadlineAt (start : ℕ) (timeoutMs : UInt64) : ℕ := start + fromMillis timeoutMs.toNat

/-- One round of an expectation; whether it was the last. -/
def expectRound (id : List Char) (expected : CanId) (deadline : ℕ) : Script σ ε Bool := do
  let instant ← bus.look
  if instant > deadline then fail (.error (timedOut id))
  else
    match ← bus.get with
    | .error e => fail (.error (.socket e))
    | .ok (some frame) => pure (frame.id = expected)
    | .ok none => do
      bus.pause 10
      pure false

/-- A step that sends a frame. -/
def sendStep (id data : List Char) (fd brs esi : Option Bool) : Script σ ε Unit := do
  let frame ← ofRun (buildFrame id data (fd.getD false) (brs.getD false) (esi.getD false))
  let result ← bus.put frame
  ofSocket result

/-- A step that expects a frame, with at most this number of rounds. -/
def expectStep (rounds : ℕ) (id : List Char) (timeoutMs : UInt64) :
    Interaction σ (Action ε) (Option (Fault (SequenceError ε))) Unit := do
  let expected ← mapError some (ofRun (orFail (parseId id)))
  -- the clock is read once before the first round
  let start ← bus.look
  loop (expectRound bus id expected (deadlineAt start timeoutMs)) rounds

def runStep (rounds : ℕ) :
    SequenceStep → Interaction σ (Action ε) (Option (Fault (SequenceError ε))) Unit
  | .send id data fd brs esi => mapError some (sendStep bus id data fd brs esi)
  | .sleep millis => bus.pause millis.toNat
  | .expect id timeoutMs => expectStep bus rounds id timeoutMs

/-- The steps of a sequence file, over a socket that is open. -/
def sequence (rounds : ℕ) (steps : List SequenceStep) :
    Interaction σ (Action ε) (Option (Fault (SequenceError ε))) Unit :=
  scan (runStep bus rounds) steps

end Run

/-! ### Traces of single steps -/

section Traces

variable {σ ε : Type} (bus : Bus σ ε)

/-- The rounds of an expectation that is met: with the frame it waits for, behind frames that it
does not wait for and rounds without one, and all in time. -/
inductive Meets (expected : CanId) (deadline : ℕ) : List (Action ε) → Prop
  | hit {instant : ℕ} {frame : CanFrame} (h_time : instant ≤ deadline)
    (h_id : frame.id = expected) :
    Meets expected deadline [.looked instant, .received (.ok (some frame))]
  | other {instant : ℕ} {frame : CanFrame} {later : List (Action ε)}
    (h_time : instant ≤ deadline) (h_id : frame.id ≠ expected)
    (h_later : Meets expected deadline later) :
    Meets expected deadline (.looked instant :: .received (.ok (some frame)) :: later)
  | idle {instant : ℕ} {later : List (Action ε)} (h_time : instant ≤ deadline)
    (h_later : Meets expected deadline later) :
    Meets expected deadline (.looked instant :: .received (.ok none) :: .slept 10 :: later)

/-- The rounds of an expectation that is not met, and the error they end with. -/
inductive Misses (id : List Char) (expected : CanId) (deadline : ℕ) :
    List (Action ε) → SequenceError ε → Prop
  | late {instant : ℕ} (h_time : deadline < instant) :
    Misses id expected deadline [.looked instant] (timedOut id)
  | broken {instant : ℕ} {e : ε} (h_time : instant ≤ deadline) :
    Misses id expected deadline [.looked instant, .received (.error e)] (.socket e)
  | other {instant : ℕ} {frame : CanFrame} {later : List (Action ε)} {e : SequenceError ε}
    (h_time : instant ≤ deadline) (h_id : frame.id ≠ expected)
    (h_later : Misses id expected deadline later e) :
    Misses id expected deadline (.looked instant :: .received (.ok (some frame)) :: later) e
  | idle {instant : ℕ} {later : List (Action ε)} {e : SequenceError ε}
    (h_time : instant ≤ deadline) (h_later : Misses id expected deadline later e) :
    Misses id expected deadline (.looked instant :: .received (.ok none) :: .slept 10 :: later) e

/-- **What a round does**: it is too late, the socket fails, the frame is there, or the loop goes
on behind a frame that is dropped or behind a sleep. -/
theorem expectRound_cases (id : List Char) (expected : CanId) (deadline : ℕ) (world : σ) :
    let look := bus.now world
    let answer := bus.recv look.2
    (deadline < look.1 ∧ expectRound bus id expected deadline world
      = ([.looked look.1], .error (.error (timedOut id)), look.2)) ∨
    look.1 ≤ deadline ∧
      ((∃ e, answer.1 = .error e ∧ expectRound bus id expected deadline world
        = ([.looked look.1, .received (.error e)], .error (.error (.socket e)), answer.2)) ∨
      (∃ frame, answer.1 = .ok (some frame) ∧ expectRound bus id expected deadline world
        = ([.looked look.1, .received (.ok (some frame))], .ok (decide (frame.id = expected)),
          answer.2)) ∨
      (answer.1 = .ok none ∧ expectRound bus id expected deadline world
        = ([.looked look.1, .received (.ok none), .slept 10], .ok false,
          (bus.sleep 10 answer.2).2))) := by
  intro look answer
  have h_look : (bus.look : Script σ ε ℕ) world = ([.looked look.1], .ok look.1, look.2) := rfl
  have h_round : expectRound bus id expected deadline world = _ := bind_apply_ok h_look
  rw [h_round]
  by_cases h_late : look.1 > deadline
  · -- the deadline is over
    refine .inl ⟨h_late, ?_⟩
    rw [if_pos h_late]
    rfl
  · refine .inr ⟨Nat.le_of_not_gt h_late, ?_⟩
    rw [if_neg h_late]
    have h_get : (bus.get : Script σ ε (Except ε (Option CanFrame))) look.2
        = ([.received answer.1], .ok answer.1, answer.2) := rfl
    rw [bind_apply_ok h_get]
    -- the socket is asked once
    rcases answer.1 with e | _ | frame
    · exact .inl ⟨e, rfl, rfl⟩
    · exact .inr (.inr ⟨rfl, rfl⟩)
    · exact .inr (.inl ⟨frame, rfl, rfl⟩)

/-- The rounds of an expectation, however many there are. -/
theorem loop_expectRound (id : List Char) (expected : CanId) (deadline rounds : ℕ) (world : σ) :
    let run := loop (expectRound bus id expected deadline) rounds world
    (run.2.1 = .ok () → Meets expected deadline run.1) ∧
      ∀ e, run.2.1 = .error (some e) → ∃ error, e = .error error ∧
        Misses id expected deadline run.1 error := by
  induction rounds generalizing world with
  | zero => exact ⟨fun h => (nomatch h), fun _ h => nomatch h⟩
  | succ rounds ih =>
    -- how the first round ends: too late, an error, a frame, or nothing
    obtain ⟨h_late, h_round⟩ | ⟨h_time, ⟨e, -, h_round⟩ | ⟨frame, -, h_round⟩ | ⟨-, h_round⟩⟩ :=
      expectRound_cases bus id expected deadline world
    · intro run
      rw [show run = _ from loop_of_error h_round rounds]
      refine ⟨fun h => (nomatch h), fun e h => ?_⟩
      cases h
      exact ⟨_, rfl, .late h_late⟩
    · intro run
      rw [show run = _ from loop_of_error h_round rounds]
      refine ⟨fun h => (nomatch h), fun e h => ?_⟩
      cases h
      exact ⟨_, rfl, .broken h_time⟩
    · -- a frame ends the loop if it is the awaited one
      by_cases h_id : frame.id = expected
      · intro run
        rw [decide_eq_true h_id] at h_round
        rw [show run = _ from loop_of_done h_round rounds]
        exact ⟨fun _ => .hit h_time h_id, fun _ h => nomatch h⟩
      · intro run
        rw [decide_eq_false h_id] at h_round
        rw [show run = _ from loop_of_again h_round rounds]
        obtain ⟨h_ok, h_error⟩ := ih (bus.recv (bus.now world).2).2
        refine ⟨fun h => .other h_time h_id (h_ok h), fun e h => ?_⟩
        obtain ⟨error, h_e, h_misses⟩ := h_error e h
        exact ⟨error, h_e, .other h_time h_id h_misses⟩
    · intro run
      rw [show run = _ from loop_of_again h_round rounds]
      -- nothing was there, so there is a pause before the next round
      obtain ⟨h_ok, h_error⟩ := ih (bus.sleep 10 (bus.recv (bus.now world).2).2).2
      refine ⟨fun h => .idle h_time (h_ok h), fun e h => ?_⟩
      obtain ⟨error, h_e, h_misses⟩ := h_error e h
      exact ⟨error, h_e, .idle h_time h_misses⟩

/-- The error of a step whose text cannot be read. -/
def cliFault : Fault CliError → Fault (SequenceError ε)
  | .error e => .error (.cli e)
  | .panic => .panic

/-- What is done in a step that succeeds. -/
inductive Done : SequenceStep → List (Action ε) → Prop
  | send {id data : List Char} {fd brs esi : Option Bool} {frame : CanFrame}
    (h_frame : buildFrame id data (fd.getD false) (brs.getD false) (esi.getD false) = .ok frame) :
    Done (.send id data fd brs esi) [.sent frame (.ok ())]
  | sleep {millis : UInt64} : Done (.sleep millis) [.slept millis.toNat]
  | expect {id : List Char} {timeoutMs : UInt64} {expected : CanId} {start : ℕ}
    {later : List (Action ε)} (h_id : parseId id = .ok expected)
    (h_meets : Meets expected (deadlineAt start timeoutMs) later) :
    Done (.expect id timeoutMs) (.looked start :: later)

/-- What is done in a step that ends the sequence, and how it ends it. -/
inductive Fails : SequenceStep → List (Action ε) → Fault (SequenceError ε) → Prop
  | noFrame {id data : List Char} {fd brs esi : Option Bool} {fault : Fault CliError}
    (h_frame : buildFrame id data (fd.getD false) (brs.getD false) (esi.getD false)
      = .error fault) :
    Fails (.send id data fd brs esi) [] (cliFault fault)
  | refused {id data : List Char} {fd brs esi : Option Bool} {frame : CanFrame} {e : ε}
    (h_frame : buildFrame id data (fd.getD false) (brs.getD false) (esi.getD false) = .ok frame) :
    Fails (.send id data fd brs esi) [.sent frame (.error e)] (.error (.socket e))
  | noId {id : List Char} {timeoutMs : UInt64} {e : CliError} (h_id : parseId id = .error e) :
    Fails (.expect id timeoutMs) [] (.error (.cli e))
  | missed {id : List Char} {timeoutMs : UInt64} {expected : CanId} {start : ℕ}
    {later : List (Action ε)} {e : SequenceError ε} (h_id : parseId id = .ok expected)
    (h_misses : Misses id expected (deadlineAt start timeoutMs) later e) :
    Fails (.expect id timeoutMs) (.looked start :: later) (.error e)

/-- A step that sends a frame has no frame, or one that the socket takes or refuses. -/
theorem sendStep_spec (id data : List Char) (fd brs esi : Option Bool) (world : σ) :
    let run := sendStep bus id data fd brs esi world
    (run.2.1 = .ok () → Done (.send id data fd brs esi) run.1) ∧
      ∀ e, run.2.1 = .error e → Fails (.send id data fd brs esi) run.1 e := by
  intro run
  rcases h_frame : buildFrame id data (fd.getD false) (brs.getD false) (esi.getD false) with
    fault | frame
  · -- a frame that cannot be built fails before anything is sent
    have h_run : run = ([], .error (cliFault fault), world) := by
      refine bind_apply_error ?_
      rw [h_frame]
      cases fault <;> rfl
    rw [h_run]
    refine ⟨fun h => (nomatch h), fun e h => ?_⟩
    cases h
    exact .noFrame h_frame
  · have h_ofRun : (ofRun (buildFrame id data (fd.getD false) (brs.getD false) (esi.getD false)) :
        Script σ ε CanFrame) world = ([], .ok frame, world) := by
      rw [h_frame]
      rfl
    have h_put : (bus.put frame : Script σ ε (Except ε Unit)) world
        = ([.sent frame (bus.send frame world).1], .ok (bus.send frame world).1,
          (bus.send frame world).2) := rfl
    rw [show run = _ from (bind_apply_silent h_ofRun).trans (bind_apply_ok h_put)]
    -- what the socket answers decides
    rcases (bus.send frame world).1 with e | _
    · refine ⟨fun h => (nomatch h), fun fault h => ?_⟩
      cases h
      exact .refused h_frame
    · exact ⟨fun _ => .send h_frame, fun _ h => nomatch h⟩

/-- A step that expects a frame has no identifier, or rounds that end. -/
theorem expectStep_spec (rounds : ℕ) (id : List Char) (timeoutMs : UInt64) (world : σ) :
    let run := expectStep bus rounds id timeoutMs world
    (run.2.1 = .ok () → Done (.expect id timeoutMs) run.1) ∧
      ∀ e, run.2.1 = .error (some e) → Fails (.expect id timeoutMs) run.1 e := by
  intro run
  rcases h_id : parseId id with e | expected
  · -- an identifier that cannot be read fails before the clock is looked at
    have h_run : run = ([], .error (some (.error (.cli e))), world) := by
      refine bind_apply_error ?_
      rw [h_id]
      rfl
    rw [h_run]
    refine ⟨fun h => (nomatch h), fun fault h => ?_⟩
    cases h
    exact .noId h_id
  · have h_ofRun : mapError some (ofRun (orFail (parseId id)) : Script σ ε CanId) world
        = ([], .ok expected, world) := by
      rw [h_id]
      rfl
    have h_look : (bus.look : Interaction σ (Action ε) (Option (Fault (SequenceError ε))) ℕ) world
        = ([.looked (bus.now world).1], .ok (bus.now world).1, (bus.now world).2) := rfl
    rw [show run = _ from (bind_apply_silent h_ofRun).trans (bind_apply_ok h_look)]
    -- the rounds are those of the loop, up to the deadline from here
    obtain ⟨h_ok, h_error⟩ := loop_expectRound bus id expected
      (deadlineAt (bus.now world).1 timeoutMs) rounds (bus.now world).2
    refine ⟨fun h => .expect h_id (h_ok h), fun fault h => ?_⟩
    obtain ⟨error, rfl, h_misses⟩ := h_error fault h
    exact .missed h_id h_misses

/-- **What a step does**, if its rounds do not run out. -/
theorem runStep_spec (rounds : ℕ) (step : SequenceStep) (world : σ) :
    let run := runStep bus rounds step world
    (run.2.1 = .ok () → Done step run.1) ∧
      ∀ e, run.2.1 = .error (some e) → Fails step run.1 e := by
  cases step with
  -- the errors of a step are the errors of the run
  | send id data fd brs esi =>
    obtain ⟨h_done, h_fails⟩ := sendStep_spec bus id data fd brs esi world
    intro run
    have h_run : run.2.1 = (sendStep bus id data fd brs esi world).2.1.mapError some := rfl
    rcases h : (sendStep bus id data fd brs esi world).2.1 with e | _
    · rw [h_run, h]
      refine ⟨fun h_ok => (nomatch h_ok), fun fault h_fault => ?_⟩
      cases h_fault
      exact h_fails e h
    · rw [h_run, h]
      exact ⟨fun _ => h_done h, fun _ h_fault => nomatch h_fault⟩
  | sleep millis => exact ⟨fun _ => .sleep, fun _ h => nomatch h⟩
  | expect id timeoutMs => exact expectStep_spec bus rounds id timeoutMs world

end Traces

/-! ### Frames that are sent and read -/

section Frames

variable {σ ε : Type}

/-- The calls of `send` with their results. -/
def calls (trace : List (Action ε)) : List (CanFrame × Except ε Unit) :=
  trace.filterMap fun
    | .sent frame result => some (frame, result)
    | _ => none

/-- The frames that were read. -/
def framesRead (trace : List (Action ε)) : List CanFrame :=
  trace.filterMap fun
    | .received (.ok frame) => frame
    | _ => none

/-- The identifiers that were read. -/
def idsRead (trace : List (Action ε)) : List CanId := (framesRead trace).map (·.id)

@[simp] theorem calls_append (t₁ t₂ : List (Action ε)) :
    calls (t₁ ++ t₂) = calls t₁ ++ calls t₂ := List.filterMap_append

@[simp] theorem idsRead_append (t₁ t₂ : List (Action ε)) :
    idsRead (t₁ ++ t₂) = idsRead t₁ ++ idsRead t₂ := by
  rw [idsRead, framesRead, List.filterMap_append, List.map_append]
  rfl

/-- The frame of a step that sends one. -/
def SequenceStep.frame : SequenceStep → Option CanFrame
  | .send id data fd brs esi =>
    (buildFrame id data (fd.getD false) (brs.getD false) (esi.getD false)).toOption
  | _ => none

/-- The identifier of a step that expects one. -/
def SequenceStep.expected : SequenceStep → Option CanId
  | .expect id _ => (parseId id).toOption
  | _ => none

/-- The frames that the steps send, in order. -/
def framesOf (steps : List SequenceStep) : List CanFrame := steps.filterMap (·.frame)

/-- The identifiers that the steps expect, in order. -/
def expectedIds (steps : List SequenceStep) : List CanId := steps.filterMap (·.expected)

/-- Rounds that meet an expectation read the identifier and, before it, no other one of its kind. -/
theorem Meets.spells {expected : CanId} {deadline : ℕ} {trace : List (Action ε)}
    (h : Meets expected deadline trace) : Spells [expected] (idsRead trace) ∧ calls trace = [] := by
  induction h with
  | hit _ h_id =>
    subst h_id
    exact ⟨.take .nil, rfl⟩
  | other _ h_id _ ih => exact ⟨.skip h_id ih.1, ih.2⟩
  | idle _ _ ih => exact ih

/-- Rounds that miss an expectation do not read the identifier. -/
theorem Misses.unread {id : List Char} {expected : CanId} {deadline : ℕ}
    {trace : List (Action ε)} {e : SequenceError ε} (h : Misses id expected deadline trace e) :
    (∀ x ∈ idsRead trace, x ≠ expected) ∧ calls trace = [] := by
  induction h with
  | late _ => exact ⟨fun _ h => (nomatch h), rfl⟩
  | broken _ => exact ⟨fun _ h => (nomatch h), rfl⟩
  | other _ h_id _ ih => exact ⟨List.forall_mem_cons.mpr ⟨h_id, ih.1⟩, ih.2⟩
  | idle _ _ ih => exact ih

/-- **What a step reads and sends.** -/
theorem Done.spells {step : SequenceStep} {trace : List (Action ε)} (h : Done step trace) :
    Spells step.expected.toList (idsRead trace) ∧
      calls trace = step.frame.toList.map fun frame => (frame, .ok ()) := by
  cases h with
  | send h_frame =>
    refine ⟨.nil, ?_⟩
    rw [SequenceStep.frame, h_frame]
    rfl
  | sleep => exact ⟨.nil, rfl⟩
  | expect h_id h_meets =>
    obtain ⟨h_spells, h_calls⟩ := h_meets.spells
    refine ⟨?_, h_calls⟩
    rw [SequenceStep.expected, h_id]
    exact h_spells

/-- **What the steps read and send** one after the other. -/
theorem spells_of_done {steps : List SequenceStep} {runs : List (List (Action ε))}
    (h : List.Forall₂ Done steps runs) :
    Spells (expectedIds steps) (idsRead runs.flatten) ∧
      calls runs.flatten = (framesOf steps).map fun frame => (frame, .ok ()) := by
  induction h with
  | nil => exact ⟨.nil, rfl⟩
  | @cons step trace steps runs h_step _ ih =>
    obtain ⟨h_spells, h_calls⟩ := h_step.spells
    have h_ids : expectedIds (step :: steps) = step.expected.toList ++ expectedIds steps := by
      rw [expectedIds, List.filterMap_cons]
      cases step.expected <;> rfl
    have h_frames : framesOf (step :: steps) = step.frame.toList ++ framesOf steps := by
      rw [framesOf, List.filterMap_cons]
      cases step.frame <;> rfl
    -- what this step reads and sends is in front of the rest
    rw [List.flatten_cons, idsRead_append, calls_append, h_ids, h_frames, List.map_append, h_calls,
      ih.2]
    exact ⟨h_spells.append ih.1, rfl⟩

end Frames

/-! ### How a run ends -/

section Endings

variable {σ ε : Type}

/-- Every step is done. -/
def Completes (steps : List SequenceStep) (trace : List (Action ε)) : Prop :=
  ∃ runs, List.Forall₂ Done steps runs ∧ trace = runs.flatten

/-- The steps before one of them are done, and this one fails. -/
def StopsAt (steps : List SequenceStep) (trace : List (Action ε))
    (fault : Fault (SequenceError ε)) : Prop :=
  ∃ before step after done last, steps = before ++ step :: after ∧ trace = done ++ last ∧
    Completes before done ∧ Fails step last fault

theorem Completes.spells {steps : List SequenceStep} {trace : List (Action ε)}
    (h : Completes steps trace) : Spells (expectedIds steps) (idsRead trace) ∧
      calls trace = (framesOf steps).map fun frame => (frame, .ok ()) := by
  obtain ⟨runs, h_runs, rfl⟩ := h
  exact spells_of_done h_runs

/-- **The two endings of a run** whose rounds do not run out. -/
theorem sequence_ends (bus : Bus σ ε) (rounds : ℕ) (steps : List SequenceStep) (world : σ) :
    let run := sequence bus rounds steps world
    (run.2.1 = .ok () → Completes steps run.1) ∧
      ∀ fault, run.2.1 = .error (some fault) → StopsAt steps run.1 fault := by
  -- runs that end well are runs of steps that are done
  have h_done : ∀ {steps runs}, List.Forall₂ (Ends (runStep bus rounds)) steps runs →
      List.Forall₂ Done steps runs := by
    intro steps runs h
    refine h.imp fun step trace h_ends => ?_
    obtain ⟨before, next, h_step⟩ := h_ends
    have h_spec := (runStep_spec bus rounds step before).1
    rw [h_step] at h_spec
    exact h_spec rfl
  intro run
  rcases h_run : run with ⟨trace, e | _, next⟩
  · refine ⟨fun h => (nomatch h), fun fault h => ?_⟩
    cases h
    -- the steps before the one that fails went well
    obtain ⟨before, step, after, runs, last, middle, h_steps, h_runs, h_last, h_trace⟩ :=
      scan_eq_error h_run
    refine ⟨before, step, after, runs.flatten, last, h_steps, h_trace,
      ⟨runs, h_done h_runs, rfl⟩, ?_⟩
    have h_spec := (runStep_spec bus rounds step middle).2
    rw [h_last] at h_spec
    exact h_spec _ rfl
  · refine ⟨fun _ => ?_, fun _ h => nomatch h⟩
    obtain ⟨runs, h_runs, h_trace⟩ := scan_eq_ok h_run
    exact ⟨runs, h_done h_runs, h_trace⟩

/-- A run that stops has sent the frames of the steps before, read what they wait for, and then
failed. -/
theorem StopsAt.spells {steps : List SequenceStep} {trace : List (Action ε)}
    {fault : Fault (SequenceError ε)} (h : StopsAt steps trace fault) :
    ∃ before step after done last, steps = before ++ step :: after ∧ trace = done ++ last ∧
      Fails step last fault ∧ Spells (expectedIds before) (idsRead done) ∧
      calls done = (framesOf before).map fun frame => (frame, .ok ()) := by
  obtain ⟨before, step, after, done, last, h_steps, h_trace, h_done, h_fails⟩ := h
  exact ⟨before, step, after, done, last, h_steps, h_trace, h_fails, h_done.spells⟩

/-- A sequence that has timed out has not read the identifiers it expects. -/
theorem StopsAt.not_sublist {steps : List SequenceStep} {trace : List (Action ε)}
    {id : List Char} (h : StopsAt steps trace (.error (timedOut id))) :
    ¬ (expectedIds steps).Sublist (idsRead trace) := by
  obtain ⟨before, step, after, done, last, rfl, rfl, h_fails, h_spells, -⟩ := h.spells
  intro h_sub
  generalize h_fault : Fault.error (timedOut id) = fault at h_fails
  cases h_fails with
  | @noFrame _ _ _ _ _ fault _ => cases fault <;> cases h_fault
  | refused _ => cases h_fault
  | noId _ => cases h_fault
  | @missed id' timeoutMs expected _ later _ h_id h_misses =>
    -- up to the step that fails, the list ends with the identifier that was not read
    have h_ids : expectedIds (before ++ .expect id' timeoutMs :: after)
        = expectedIds before ++ [expected] ++ expectedIds after := by
      rw [expectedIds, List.filterMap_append, List.filterMap_cons, SequenceStep.expected, h_id,
        List.append_assoc]
      rfl
    have h_upto : (expectedIds before ++ [expected]).Sublist (idsRead done ++ idsRead later) := by
      rw [h_ids, idsRead_append] at h_sub
      exact (List.sublist_append_left _ _).trans h_sub
    exact h_spells.not_sublist h_misses.unread.1 h_upto

/-- The text of a step is that of a frame or of an identifier. -/
def SequenceStep.Readable : SequenceStep → Prop
  | .send id data fd brs esi =>
    ∃ frame, (SequenceStep.send id data fd brs esi).frame = some frame
  | .sleep _ => True
  | .expect id timeoutMs => ∃ expected, (SequenceStep.expect id timeoutMs).expected = some expected

theorem Done.readable {step : SequenceStep} {trace : List (Action ε)} (h : Done step trace) :
    step.Readable := by
  cases h with
  | @send _ _ _ _ _ frame h_frame => exact ⟨frame, by rw [SequenceStep.frame, h_frame]; rfl⟩
  | sleep => trivial
  | @expect _ _ expected _ _ h_id _ =>
    exact ⟨expected, by rw [SequenceStep.expected, h_id]; rfl⟩

/-- A step that fails sends at most its own frame, which the socket refuses. -/
theorem Fails.calls {step : SequenceStep} {trace : List (Action ε)}
    {fault : Fault (SequenceError ε)} (h : Fails step trace fault) : calls trace = [] ∨
      ∃ frame e, step.frame = some frame ∧ fault = .error (.socket e) ∧
        calls trace = [(frame, .error e)] := by
  cases h with
  | noFrame _ => exact .inl rfl
  | @refused _ _ _ _ _ frame e h_frame =>
    refine .inr ⟨frame, e, ?_, rfl, rfl⟩
    rw [SequenceStep.frame, h_frame]
    rfl
  | noId _ => exact .inl rfl
  | missed _ h_misses => exact .inl h_misses.unread.2

/-- **What a sequence sends.** A run that is successful has done every step, each as the file says
and in time, and has sent the frames of the steps once and in order. A run that fails has done so
up to one step, and then nothing but what this step does: no frame of a later one is sent. -/
theorem sequence_delivers (bus : Bus σ ε) (rounds : ℕ) (steps : List SequenceStep) (world : σ) :
    let run := sequence bus rounds steps world
    (run.2.1 = .ok () → Completes steps run.1 ∧ (∀ step ∈ steps, step.Readable) ∧
      calls run.1 = (framesOf steps).map fun frame => (frame, .ok ())) ∧
    ∀ fault, run.2.1 = .error (some fault) → StopsAt steps run.1 fault ∧
      ∃ before step after, steps = before ++ step :: after ∧
        (calls run.1 = ((framesOf before).map fun frame => (frame, .ok ())) ∨
          ∃ frame e, step.frame = some frame ∧ fault = .error (.socket e) ∧
            calls run.1 = ((framesOf before).map fun frame => (frame, .ok ())) ++
              [(frame, .error e)]) := by
  intro run
  obtain ⟨h_ok, h_error⟩ := sequence_ends bus rounds steps world
  refine ⟨fun h => ?_, fun fault h => ?_⟩
  · have h_completes := h_ok h
    refine ⟨h_completes, ?_, h_completes.spells.2⟩
    obtain ⟨runs, h_runs, -⟩ := h_completes
    exact ((List.forall₂_and_left _ _).mp
      (h_runs.imp fun _ _ h_done => ⟨h_done.readable, h_done⟩)).1
  · have h_stops := h_error fault h
    refine ⟨h_stops, ?_⟩
    obtain ⟨before, step, after, done, last, h_steps, h_trace, h_fails, -, h_calls⟩ :=
      h_stops.spells
    -- what was sent: by the steps before, and by the step that fails
    have h_all : calls run.1 = calls done ++ calls last := by
      rw [← calls_append, ← h_trace]
    refine ⟨before, step, after, h_steps, ?_⟩
    rcases h_fails.calls with h_none | ⟨frame, e, h_frame, h_fault, h_one⟩
    · rw [h_calls, h_none, List.append_nil] at h_all
      exact .inl h_all
    · rw [h_calls, h_one] at h_all
      exact .inr ⟨frame, e, h_frame, h_fault, h_all⟩

/-- **What a sequence waits for.** A run that ends successfully or with a time-out is successful
exactly when the identifiers that the steps expect are, in this order, among the identifiers of
the frames that were read. Then no shorter part of these frames has them: the run has left every
frame behind the last expected one to others. -/
theorem sequence_ok_iff (bus : Bus σ ε) (rounds : ℕ) (steps : List SequenceStep) (world : σ)
    (h_ends : (sequence bus rounds steps world).2.1 = .ok () ∨
      ∃ id, (sequence bus rounds steps world).2.1 = .error (some (.error (timedOut id)))) :
    let run := sequence bus rounds steps world
    (run.2.1 = .ok () ↔ (expectedIds steps).Sublist (idsRead run.1)) ∧
      (run.2.1 = .ok () → ∀ fewer, fewer <+: idsRead run.1 → (expectedIds steps).Sublist fewer →
        fewer = idsRead run.1) := by
  intro run
  obtain ⟨h_ok, h_error⟩ := sequence_ends bus rounds steps world
  refine ⟨⟨fun h => (h_ok h).spells.1.sublist, fun h_sub => ?_⟩,
    fun h fewer => (h_ok h).spells.1.shortest⟩
  rcases h_ends with h | ⟨id, h⟩
  · exact h
  · exact absurd h_sub (h_error _ h).not_sublist

/-- A bus that has received these frames, and on which time stands still. -/
def queueBus : Bus (List CanFrame) String where
  now frames := (0, frames)
  sleep _ frames := ((), frames)
  send _ frames := (.ok (), frames)
  recv frames := (.ok frames.head?, frames.tail)

/-- The frame of this standard identifier without a payload. -/
def emptyFrame (raw : UInt32) (h : raw ≤ idMax false) : CanFrame :=
  ⟨⟨raw, false, h⟩, .data, [], false, {}⟩

/-- One frame is dropped, the one behind it is expected, and the third is left on the bus; all that
within one instant. -/
theorem sequence_ok_third :
    let frames := [emptyFrame 0x456 (by decide), emptyFrame 0x123 (by decide),
      emptyFrame 0x7 (by decide)]
    let run := sequence queueBus 9 [.expect "123".toList 0] frames
    run.2.1 = .ok () ∧ (idsRead run.1).map (·.raw) = [0x456, 0x123] ∧
      (expectedIds [.expect "123".toList 0]).Sublist (idsRead run.1) := by
  intro frames run
  have h_ok : run.2.1 = .ok () := by rfl
  have h_ids : (idsRead run.1).map (·.raw) = [0x456, 0x123] := by rfl
  exact ⟨h_ok, h_ids, (sequence_ok_iff queueBus 9 _ frames (.inl h_ok)).1.mp h_ok⟩

end Endings

/-! ### Every run ends -/

section Time

variable {σ ε : Type} (bus : Bus σ ε)

/-- What is known of the clock and of the bus: the clock does not go back, sleeping takes at least
the time asked for, and there is a bound on the frames that are received up to an instant. -/
structure Bus.Timely (clock received : σ → ℕ) (capacity : ℕ → ℕ) : Prop where
  now_eq : ∀ s, (bus.now s).1 = clock (bus.now s).2
  now_le : ∀ s, clock s ≤ clock (bus.now s).2
  now_received : ∀ s, received (bus.now s).2 = received s
  sleep_le : ∀ millis s, clock s + fromMillis millis ≤ clock (bus.sleep millis s).2
  sleep_received : ∀ millis s, received (bus.sleep millis s).2 = received s
  recv_le : ∀ s, clock s ≤ clock (bus.recv s).2
  recv_frame : ∀ s frame, (bus.recv s).1 = .ok (some frame) →
    received (bus.recv s).2 = received s + 1
  recv_none : ∀ s, (bus.recv s).1 = .ok none → received (bus.recv s).2 = received s
  capacity_mono : Monotone capacity
  received_le : ∀ s, received s ≤ capacity (clock s)

/-- How far an expectation is from its end: a bound on its rounds. -/
def remaining (clock received : σ → ℕ) (capacity : ℕ → ℕ) (deadline : ℕ) (s : σ) : ℕ :=
  if deadline < clock s then 0
  else 1 + (capacity deadline - received s) + (deadline - clock s)

variable {bus}

/-- **A round that is not the last** brings an expectation nearer to its end: a frame is received,
or time goes by. -/
theorem remaining_lt {clock received : σ → ℕ} {capacity : ℕ → ℕ}
    (h : bus.Timely clock received capacity) {id : List Char} {expected : CanId} {deadline : ℕ}
    {world next : σ} {actions : List (Action ε)}
    (h_round : expectRound bus id expected deadline world = (actions, .ok false, next)) :
    remaining clock received capacity deadline next
      < remaining clock received capacity deadline world := by
  have h_now := h.now_le world
  have h_look := h.now_eq world
  have h_recv := h.recv_le (bus.now world).2
  have h_same := h.now_received world
  obtain ⟨-, h_run⟩ | ⟨h_time, ⟨e, -, h_run⟩ | ⟨frame, h_frame, h_run⟩ | ⟨h_none, h_run⟩⟩ :=
    expectRound_cases bus id expected deadline world
  · cases h_round.symm.trans h_run
  · cases h_round.symm.trans h_run
  · -- another frame: one less can still come up to the deadline
    simp only [h_run, Prod.mk.injEq] at h_round
    obtain ⟨-, -, rfl⟩ := h_round
    have h_more := h.recv_frame _ frame h_frame
    have h_bound := h.received_le (bus.recv (bus.now world).2).2
    unfold remaining
    rw [if_neg (by omega : ¬ deadline < clock world)]
    split
    · omega
    · next h_early =>
      have h_capacity := h.capacity_mono (Nat.le_of_not_lt h_early)
      omega
  · -- no frame: the pause brings the deadline closer
    simp only [h_run, Prod.mk.injEq] at h_round
    obtain ⟨-, -, rfl⟩ := h_round
    have h_still := h.recv_none _ h_none
    have h_sleep := h.sleep_le 10 (bus.recv (bus.now world).2).2
    have h_slept := h.sleep_received 10 (bus.recv (bus.now world).2).2
    have h_ten : fromMillis 10 = 10000000 := rfl
    unfold remaining
    rw [if_neg (by omega : ¬ deadline < clock world)]
    split <;> omega

/-- An expectation has enough rounds, whatever its deadline is. -/
theorem settles_expectRound {clock received : σ → ℕ} {capacity : ℕ → ℕ}
    (h : bus.Timely clock received capacity) (id : List Char) (expected : CanId) (deadline : ℕ)
    (world : σ) : Settles (loop (expectRound bus id expected deadline)) world :=
  settles_loop (remaining clock received capacity deadline) (fun _ _ _ => remaining_lt h) world

/-- A step has enough rounds, whatever the world is. -/
theorem settles_runStep {clock received : σ → ℕ} {capacity : ℕ → ℕ}
    (h : bus.Timely clock received capacity) (step : SequenceStep) (world : σ) :
    Settles (fun rounds => runStep bus rounds step) world := by
  cases step with
  | send id data fd brs esi => exact settles_mapError _ world
  | sleep millis => exact settles_const fun h_none => nomatch h_none
  | expect id timeoutMs =>
    exact Settles.bind (settles_mapError _ world) fun _ expected _ _ _ =>
      Settles.bind (settles_const fun h_none => nomatch h_none) fun _ start _ next _ =>
        settles_expectRound h id expected (deadlineAt start timeoutMs) next

/-- **Every sequence ends**, over a clock that goes on and a bus that carries finitely many frames
in finite time: enough rounds give a result, successful or not, and more rounds the same run. The
rounds that are enough may differ from one file and one state of the bus to the next. -/
theorem sequence_settles {clock received : σ → ℕ} {capacity : ℕ → ℕ}
    (h : bus.Timely clock received capacity) (steps : List SequenceStep) (world : σ) :
    Settles (fun rounds => sequence bus rounds steps) world :=
  settles_scan (settles_runStep h) steps world

/-- A bus that always has a frame; receiving one takes a nanosecond. A state is the time and the
number of frames received. -/
def busyBus : Bus {s : ℕ × ℕ // s.2 ≤ s.1} String where
  now s := (s.val.1, s)
  sleep millis s := ((), ⟨(fromMillis millis + s.val.1, s.val.2),
    Nat.le_trans s.property (Nat.le_add_left ..)⟩)
  send _ s := (.ok (), s)
  recv s := (.ok (some (emptyFrame 0x456 (by decide))),
    ⟨(s.val.1 + 1, s.val.2 + 1), Nat.succ_le_succ s.property⟩)

theorem busyBus_timely : busyBus.Timely (·.val.1) (·.val.2) id where
  now_eq _ := rfl
  now_le _ := le_rfl
  now_received _ := rfl
  sleep_le _ _ := (Nat.add_comm ..).le
  sleep_received _ _ := rfl
  recv_le _ := Nat.le_succ _
  recv_frame _ _ _ := rfl
  recv_none _ h := nomatch h
  capacity_mono := monotone_id
  received_le s := s.property

/-- A bus full of other frames does not keep an expectation from its end. -/
theorem sequence_settles_busy :
    Settles (fun rounds => sequence busyBus rounds [.expect "123".toList 50])
      ⟨(0, 0), le_rfl⟩ :=
  sequence_settles busyBus_timely _ _

end Time

end Cantools.Cli
