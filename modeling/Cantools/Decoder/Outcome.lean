import Cantools.Decoder.Contract

/-!
# Which signals a message was decoded from

The decoded signals and the diagnostics of an outcome do not say which signals of the database
they come from. `values` and `missed` list them with their signals (`decodeFrame_outcome`), which
is what statements about multiplexed signals are about.

The signals of the branches are kept apart as long as the payload has the multiplexor. When it has
not, `signal_active` lets the extended multiplexors through, whatever branch they are in
(`decodeFrame_branches`).
-/

namespace Cantools.Decoder

open Machine Program

/-! ### Values and diagnostics with their signals -/

section Entries

variable (checks : Bool) (database : LoadedDbc) (messageId : MessageId) (payload : List UInt8)
  (muxValue : Option Int64)

/-- The value a signal contributes to the message. -/
def valueEntry (signal : Signal) : Option (Signal × DecodedSignal) :=
  if signalActive signal muxValue then
    match extractSignal checks database messageId signal payload with
    | .ok value => some (signal, value)
    | .error _ => none
  else none

/-- The diagnostic a signal leaves. -/
def diagnosticEntry (signal : Signal) : Option (Signal × Diagnostic) :=
  if signalActive signal muxValue then
    match extractSignal checks database messageId signal payload with
    | .error (.error (.payloadTooShort name expectedBits actualBytes)) =>
      some (signal, .payloadTooShort name expectedBits actualBytes)
    | _ => none
  else none

section Entry

variable {checks database messageId payload muxValue} {signal : Signal}

theorem valueEntry_eq_some_iff {entry : Signal × DecodedSignal} :
    valueEntry checks database messageId payload muxValue signal = some entry ↔
      signal = entry.1 ∧ signalActive signal muxValue ∧
        extractSignal checks database messageId signal payload = .ok entry.2 := by
  unfold valueEntry
  constructor
  · intro h
    -- a signal that is inactive or has no value leaves no entry
    split at h
    · next h_active =>
      split at h
      · next value h_value =>
        cases h
        exact ⟨rfl, h_active, h_value⟩
      · cases h
    · cases h
  · rintro ⟨rfl, h_active, h_value⟩
    rw [if_pos h_active, h_value]

theorem diagnosticEntry_eq_some_iff {entry : Signal × Diagnostic} :
    diagnosticEntry checks database messageId payload muxValue signal = some entry ↔
      signal = entry.1 ∧ signalActive signal muxValue ∧
        ∃ name expectedBits actualBytes,
          extractSignal checks database messageId signal payload
            = .error (.error (.payloadTooShort name expectedBits actualBytes)) ∧
          entry.2 = .payloadTooShort name expectedBits actualBytes := by
  unfold diagnosticEntry
  constructor
  · intro h
    -- a signal that is inactive or has a value leaves no diagnostic
    split at h
    · next h_active =>
      split at h
      · next name expectedBits actualBytes h_error =>
        cases h
        exact ⟨rfl, h_active, name, expectedBits, actualBytes, h_error, rfl⟩
      · cases h
    · cases h
  · rintro ⟨h_signal, h_active, name, expectedBits, actualBytes, h_error, h_diagnostic⟩
    rw [if_pos h_active, h_error]
    simp only [h_signal, ← h_diagnostic]

end Entry

/-- **The signal loop** returns the entries of all signals. -/
theorem decodeSignals_entries {signals : List Signal} {decoded : List DecodedSignal}
    {diagnostics : List Diagnostic}
    (h : decodeSignals checks database messageId payload muxValue signals
      = .ok (decoded, diagnostics)) :
    decoded = (signals.filterMap
        (valueEntry checks database messageId payload muxValue)).map Prod.snd ∧
      diagnostics = (signals.filterMap
        (diagnosticEntry checks database messageId payload muxValue)).map Prod.snd := by
  -- signal by signal: each adds a value, a diagnostic or nothing in front of what the rest adds
  induction signals generalizing decoded diagnostics with
  | nil =>
    cases h
    exact ⟨rfl, rfl⟩
  | cons signal rest ih =>
    unfold decodeSignals at h
    by_cases h_active : signalActive signal muxValue
    · rw [if_pos h_active] at h
      obtain ⟨extracted, h_extracted, h⟩ := bind_eq_ok_iff.mp h
      obtain ⟨⟨decoded', diagnostics'⟩, h_rest, h⟩ := bind_eq_ok_iff.mp h
      obtain ⟨rfl, rfl⟩ := ih h_rest
      cases h_signal : extractSignal checks database messageId signal payload with
      | ok value =>
        rw [h_signal] at h_extracted
        cases h_extracted
        cases h
        rw [List.filterMap_cons_some (b := (signal, value))
            (by rw [valueEntry, if_pos h_active, h_signal]),
          List.filterMap_cons_none (by rw [diagnosticEntry, if_pos h_active, h_signal])]
        exact ⟨rfl, rfl⟩
      | error fault =>
        rw [h_signal] at h_extracted
        -- the loop went on, so the fault is a diagnostic
        cases fault with
        | panic => cases h_extracted
        | error e =>
          cases h_extracted
          cases e with
          | payloadTooShort name expectedBits actualBytes =>
            cases h
            rw [List.filterMap_cons_none (by rw [valueEntry, if_pos h_active, h_signal]),
              List.filterMap_cons_some
                (b := (signal, .payloadTooShort name expectedBits actualBytes))
                (by rw [diagnosticEntry, if_pos h_active, h_signal])]
            exact ⟨rfl, rfl⟩
    · rw [if_neg h_active] at h
      obtain ⟨rfl, rfl⟩ := ih h
      rw [List.filterMap_cons_none (by rw [valueEntry, if_neg h_active]),
        List.filterMap_cons_none (by rw [diagnosticEntry, if_neg h_active])]
      exact ⟨rfl, rfl⟩

end Entries

section Message

variable (checks : Bool) (database : LoadedDbc) (message : Message) (payload : List UInt8)

/-- The value of the multiplexor, where it is read. -/
def muxOf : Option Int64 :=
  match messageMuxValue checks database.dbc message.id payload with
  | .ok muxValue => muxValue
  | .error _ => none

/-- The values of the message, with their signals. -/
def values : List (Signal × DecodedSignal) :=
  message.signals.filterMap
    (valueEntry checks database message.id payload (muxOf checks database message payload))

/-- The diagnostics of the message, with their signals. -/
def missed : List (Signal × Diagnostic) :=
  message.signals.filterMap
    (diagnosticEntry checks database message.id payload (muxOf checks database message payload))

/-- The outcome with these values and diagnostics. -/
def messageOutcome : DecodeOutcome where
  message := some
    { database := database.name
      messageName := message.name
      signals := (values checks database message payload).map Prod.snd }
  diagnostics := (missed checks database message payload).map Prod.snd

end Message

section Membership

variable {checks : Bool} {database : LoadedDbc} {message : Message} {payload : List UInt8}

theorem mem_values {entry : Signal × DecodedSignal} :
    entry ∈ values checks database message payload ↔
      entry.1 ∈ message.signals ∧
        signalActive entry.1 (muxOf checks database message payload) ∧
        extractSignal checks database message.id entry.1 payload = .ok entry.2 := by
  rw [values, List.mem_filterMap]
  simp only [valueEntry_eq_some_iff]
  constructor
  · rintro ⟨signal, h_mem, rfl, h_entry⟩
    exact ⟨h_mem, h_entry⟩
  · rintro ⟨h_mem, h_entry⟩
    exact ⟨entry.1, h_mem, rfl, h_entry⟩

theorem mem_missed {entry : Signal × Diagnostic} :
    entry ∈ missed checks database message payload ↔
      entry.1 ∈ message.signals ∧
        signalActive entry.1 (muxOf checks database message payload) ∧
        ∃ name expectedBits actualBytes,
          extractSignal checks database message.id entry.1 payload
            = .error (.error (.payloadTooShort name expectedBits actualBytes)) ∧
          entry.2 = .payloadTooShort name expectedBits actualBytes := by
  rw [missed, List.mem_filterMap]
  simp only [diagnosticEntry_eq_some_iff]
  constructor
  · rintro ⟨signal, h_mem, rfl, h_entry⟩
    exact ⟨h_mem, h_entry⟩
  · rintro ⟨h_mem, h_entry⟩
    exact ⟨entry.1, h_mem, rfl, h_entry⟩

end Membership

/-- The outcome of a frame with one matching database. -/
theorem decodeFrame_outcome {checks : Bool} {databases : List LoadedDbc} {frame : CanFrame}
    {outcome : DecodeOutcome} (h_ok : decodeFrame checks databases frame = .ok outcome)
    {database : LoadedDbc} (h_one : matching databases frame = [database]) {message : Message}
    (h_message : firstMessage frame database = some message) :
    outcome = messageOutcome checks database message frame.data := by
  -- the message is the first one of the database, and the loop was run on its signals
  obtain ⟨message', h_message', h_frame⟩ := decodeFrame_of_one checks h_one
  obtain rfl : message' = message := Option.some.inj (h_message'.symm.trans h_message)
  rw [h_frame] at h_ok
  obtain ⟨muxValue, h_mux, h_ok⟩ := bind_eq_ok_iff.mp h_ok
  obtain ⟨⟨decoded, diagnostics⟩, h_signals, h_ok⟩ := bind_eq_ok_iff.mp h_ok
  obtain ⟨rfl, rfl⟩ := decodeSignals_entries _ _ _ _ _ h_signals
  have h_muxOf : muxOf checks database message' frame.data = muxValue := by rw [muxOf, h_mux]
  rw [messageOutcome, values, missed, h_muxOf]
  exact (Except.ok.inj h_ok).symm

/-! ### Branches -/

/-- The branch a signal belongs to. -/
def Signal.selector (signal : Signal) : Option UInt64 :=
  match signal.multiplexerIndicator with
  | .plain => none
  | .multiplexor => none
  | .multiplexedSignal k => some k
  | .multiplexorAndMultiplexedSignal k => some k

/-- An active signal of a branch is selected, or the multiplexor is not in the payload. -/
theorem Active.selects {dbc : Dbc} {message : Message} {payload : List UInt8} {signal : Signal}
    (h_active : Active dbc message payload signal) {k : UInt64}
    (h_selector : signal.selector = some k) (h_some : ¬ SelectsNone dbc message payload) :
    Selects dbc message payload k := by
  unfold Active at h_active
  unfold Signal.selector at h_selector
  cases h_kind : signal.multiplexerIndicator with
  | plain =>
    rw [h_kind] at h_selector
    cases h_selector
  | multiplexor =>
    rw [h_kind] at h_selector
    cases h_selector
  | multiplexedSignal k' =>
    rw [h_kind] at h_active h_selector
    cases h_selector
    exact h_active
  | multiplexorAndMultiplexedSignal k' =>
    -- the only kind that is active without a multiplexor
    rw [h_kind] at h_active h_selector
    cases h_selector
    exact h_active.resolve_left h_some

/-- Only signals of the branch in the payload have values. -/
structure BranchConsistent (checks : Bool) (mux : Signal) (payload : List UInt8)
    (values : List (Signal × DecodedSignal)) : Prop where
  /-- The branch is the raw value of the multiplexor. -/
  selected : ∀ entry ∈ values, ∀ k, entry.1.selector = some k →
    extractRaw checks payload mux = .ok k
  /-- There is one branch. -/
  oneBranch : ∀ entry ∈ values, ∀ entry' ∈ values, ∀ k k',
    entry.1.selector = some k → entry'.1.selector = some k' → k = k'
  /-- There is none without the multiplexor. -/
  noBranch : ¬ mux.LiesIn payload.length → ∀ entry ∈ values, entry.1.selector = none

/-- **Branches.** With the multiplexor in the payload only its branch is decoded. Without it no
multiplexed signal is, unless it is an extended multiplexor. -/
theorem decodeFrame_branches {checks : Bool} {databases : List LoadedDbc} {frame : CanFrame}
    (h_len : frame.data.length < 2 ^ 61) {outcome : DecodeOutcome}
    (h_ok : decodeFrame checks databases frame = .ok outcome) {database : LoadedDbc}
    (h_one : matching databases frame = [database]) {message : Message}
    (h_message : firstMessage frame database = some message) {mux : Signal}
    (h_mux : database.dbc.messageMultiplexorSwitch message.id = .ok (some mux)) :
    outcome = messageOutcome checks database message frame.data ∧
      (mux.LiesIn frame.data.length →
        BranchConsistent checks mux frame.data (values checks database message frame.data)) ∧
      (¬ mux.LiesIn frame.data.length →
        ∀ entry ∈ values checks database message frame.data, ∀ k,
          entry.1.multiplexerIndicator ≠ .multiplexedSignal k) := by
  have h_safe := (safe_of_ok h_len h_ok database message h_one h_message).1
  obtain ⟨muxValue, h_value, h_is⟩ := messageMuxValue_of_safe h_len h_safe
  have h_muxOf : muxOf checks database message frame.data = muxValue := by rw [muxOf, h_value]
  -- what selects a branch is this multiplexor
  have h_selects : ∀ k, Selects database.dbc message frame.data k →
      mux.LiesIn frame.data.length ∧ extractRaw checks frame.data mux = .ok k := by
    rintro k ⟨mux', h_mux', h_in, h_raw⟩
    obtain rfl : mux = mux' := by
      rw [h_mux] at h_mux'
      cases h_mux'
      rfl
    rw [← h_raw]
    exact ⟨h_in, (extractRaw_of_safe h_len (h_safe mux h_mux)).1 h_in⟩
  -- a signal with a value is active
  have h_active : ∀ entry ∈ values checks database message frame.data,
      Active database.dbc message frame.data entry.1 := by
    intro entry h_entry
    have h_entry := (mem_values.mp h_entry).2.1
    rw [h_muxOf] at h_entry
    exact (h_is.signalActive_iff entry.1).mp h_entry
  refine ⟨decodeFrame_outcome h_ok h_one h_message, fun h_in => ?_,
    fun h_out entry h_entry k h_kind => ?_⟩
  · have h_some : ¬ SelectsNone database.dbc message frame.data :=
      fun h_none => h_none mux h_mux h_in
    have h_selected : ∀ entry ∈ values checks database message frame.data, ∀ k,
        entry.1.selector = some k → extractRaw checks frame.data mux = .ok k :=
      fun entry h_entry k h_selector =>
        (h_selects k ((h_active entry h_entry).selects h_selector h_some)).2
    refine ⟨h_selected, fun entry h entry' h' k k' h_k h_k' => ?_, fun h_out => absurd h_in h_out⟩
    exact Except.ok.inj ((h_selected entry h k h_k).symm.trans (h_selected entry' h' k' h_k'))
  · -- a multiplexed signal is active only where the multiplexor selects it
    have h := h_active entry h_entry
    rw [Active, h_kind] at h
    exact h_out (h_selects k h).1

/-- A multiplexor in the payload, and one signal of each of two branches. -/
theorem decodeFrame_branches_two :
    let mux : Signal :=
      { name := "Mux", multiplexerIndicator := .multiplexor, startBit := 0, size := 8
        byteOrder := .littleEndian, valueType := .unsigned, factor := 1, offset := 0, unit := "" }
    let first : Signal :=
      { name := "First", multiplexerIndicator := .multiplexedSignal 1, startBit := 8, size := 8
        byteOrder := .littleEndian, valueType := .unsigned, factor := 1, offset := 0, unit := "" }
    let second : Signal :=
      { name := "Second", multiplexerIndicator := .multiplexedSignal 2, startBit := 8, size := 8
        byteOrder := .littleEndian, valueType := .unsigned, factor := 1, offset := 0, unit := "" }
    let message : Message := { id := ⟨291⟩, name := "Muxed", signals := [mux, first, second] }
    let database : LoadedDbc :=
      { name := "vehicle.dbc"
        dbc := { messages := [message]
                 messageMultiplexorSwitch := fun _ => .ok (some mux)
                 valueDescriptionsForSignal := fun _ _ => none } }
    BranchConsistent true mux [2, 7] (values true database message [2, 7]) := by
  intro mux first second message database
  let frame : CanFrame :=
    { id := ⟨0x123, false, by decide⟩, class' := .data, data := [2, 7], fd := false, fdFlags := {} }
  have h_all : ∀ signal ∈ [mux, first, second], signal.Safe true 2 := by decide
  -- both bytes are there, so nothing panics
  have h_safe : Safe true [database] frame := by
    refine safe_of_forall database rfl rfl (fun mux' h_mux => ?_) h_all
    obtain rfl : mux = mux' := Option.some.inj (Except.ok.inj h_mux)
    exact (h_all mux (List.mem_cons_self ..)).1
  obtain ⟨outcome, h_ok⟩ := h_safe.returns (by decide)
  exact (decodeFrame_branches (by decide) h_ok rfl rfl rfl).2.1 (by decide)

/-- An extended multiplexor in a payload that is too short for the multiplexor: it is decoded,
whatever branch it is in. -/
theorem decodeFrame_branches_counterexample :
    let mux : Signal :=
      { name := "Mux", multiplexerIndicator := .multiplexor, startBit := 8, size := 8
        byteOrder := .littleEndian, valueType := .unsigned, factor := 1, offset := 0, unit := "" }
    let extended : Signal :=
      { name := "Extended", multiplexerIndicator := .multiplexorAndMultiplexedSignal 1
        startBit := 0, size := 8, byteOrder := .littleEndian, valueType := .unsigned, factor := 1
        offset := 0, unit := "" }
    let message : Message := { id := ⟨291⟩, name := "Muxed", signals := [mux, extended] }
    let database : LoadedDbc :=
      { name := "vehicle.dbc"
        dbc := { messages := [message]
                 messageMultiplexorSwitch := fun _ => .ok (some mux)
                 valueDescriptionsForSignal := fun _ _ => none } }
    let frame : CanFrame :=
      { id := ⟨0x123, false, by decide⟩, class' := .data, data := [5], fd := false, fdFlags := {} }
    ∀ checks, ∃ decoded,
      decodeFrame checks [database] frame = .ok (messageOutcome checks database message [5]) ∧
      (extended, decoded) ∈ values checks database message [5] ∧
      ¬ BranchConsistent checks mux [5] (values checks database message [5]) := by
  intro mux extended message database frame checks
  have h_all : ∀ checks, ∀ signal ∈ [mux, extended], signal.Safe checks 1 := by decide
  have h_safe : Safe checks [database] frame := by
    refine safe_of_forall database rfl rfl (fun mux' h_mux => ?_) (h_all checks)
    obtain rfl : mux = mux' := Option.some.inj (Except.ok.inj h_mux)
    exact (h_all checks mux (List.mem_cons_self ..)).1
  obtain ⟨outcome, h_ok⟩ := h_safe.returns (by decide)
  -- the multiplexor lies behind the payload, the extended one does not
  have h_short : ∀ checks, extractRaw checks [5] mux
      = .error (.error (.payloadTooShort "Mux" 16 1)) := by decide
  have h_raw : ∀ checks, extractRaw checks [5] extended = .ok 5 := by decide
  -- without a value of the multiplexor the extended one is active
  have h_mux : muxOf checks database message [5] = none := by
    simp only [muxOf, messageMuxValue, h_short, database]
    rfl
  obtain ⟨decoded, h_value⟩ :
      ∃ decoded, extractSignal checks database ⟨291⟩ extended [5] = .ok decoded := by
    rw [extractSignal, h_raw, ok_bind, if_neg (by decide)]
    exact ⟨_, rfl⟩
  have h_mem : (extended, decoded) ∈ values checks database message [5] :=
    mem_values.mpr ⟨List.mem_cons_of_mem _ (List.mem_singleton_self _), by rw [h_mux]; rfl, h_value⟩
  refine ⟨decoded, ?_, h_mem, fun h_consistent => ?_⟩
  · rw [h_ok, decodeFrame_outcome h_ok (rfl : _ = [database]) (rfl : _ = some message)]
  · cases h_consistent.noBranch (by decide) _ h_mem

end Cantools.Decoder
