import Cantools.Decoder.Decode

/-!
# The contract of `decode_frame`

Which databases count, what is reported when none or several of them match, and that the signals
of the one matching message are sorted into values and diagnostics, each active signal once and
in order (`Contract`).

Everything but the last part holds of every input. The signals are sorted exactly when no
extraction panics (`Safe`): the multiplexor, when the message has one, and every active signal
must be safe to extract. The equivalence `decodeFrame_contract_iff` holds for builds with and
without overflow checks.
-/

namespace Cantools.Decoder

open Machine Program

/-! ### Matching databases -/

/-- The database has a message with the frame's identifier, where bit 31 stands for the extended
format. -/
def HasId (frame : CanFrame) (message : Message) : Prop :=
  message.id.raw.toNat = frame.id.raw.toNat + if frame.id.isExtended then 2 ^ 31 else 0

instance (frame : CanFrame) (message : Message) : Decidable (HasId frame message) :=
  inferInstanceAs (Decidable (_ = _))

/-- The first message of the database with the frame's identifier. -/
def firstMessage (frame : CanFrame) (database : LoadedDbc) : Option Message :=
  database.dbc.messages.find? (HasId frame ·)

/-- The databases that have one, in load order. -/
def matching (databases : List LoadedDbc) (frame : CanFrame) : List LoadedDbc :=
  databases.filter fun database => database.dbc.messages.any (HasId frame ·)

theorem toNat_frameMessageId (id : CanId) :
    (frameMessageId id).toNat = id.raw.toNat + if id.isExtended then 2 ^ 31 else 0 := by
  unfold frameMessageId
  split
  · -- the identifier has 29 bits, so bit 31 is free
    have h_lt : id.raw.toNat < 2 ^ 31 := Nat.lt_trans id.toNat_raw_lt (by decide)
    have h_or := Nat.two_pow_add_eq_or_of_lt (i := 31) h_lt 1
    rw [UInt32.toNat_or]
    simp only [UInt32.reduceToNat, Nat.reducePow, Nat.mul_one] at h_or ⊢
    omega
  · rfl

theorem find_eq_firstMessage (frame : CanFrame) (database : LoadedDbc) :
    database.dbc.messages.find? (·.id.raw = frameMessageId frame.id)
      = firstMessage frame database := by
  unfold firstMessage
  congr 1
  funext message
  rw [decide_eq_decide, ← UInt32.toNat_inj, toNat_frameMessageId]
  rfl

theorem isSome_firstMessage (frame : CanFrame) (database : LoadedDbc) :
    (firstMessage frame database).isSome = database.dbc.messages.any (HasId frame ·) :=
  List.isSome_find?

/-- **The matches** are the matching databases, each with its first message. -/
theorem matchesOf_eq (databases : List LoadedDbc) (frame : CanFrame) :
    matchesOf databases frame
      = (matching databases frame).filterMap
          fun database => (firstMessage frame database).map (database, ·) := by
  unfold matchesOf matching
  simp only [find_eq_firstMessage, ← isSome_firstMessage]
  -- database by database: kept by the filter exactly when it has a first message
  induction databases with
  | nil => rfl
  | cons database databases ih =>
    cases h : firstMessage frame database with
    | none =>
      rw [List.filterMap_cons_none (by rw [h]; rfl), List.filter_cons_of_neg (by simp [h]), ih]
    | some message =>
      rw [List.filterMap_cons_some (by rw [h]; rfl), List.filter_cons_of_pos (by simp [h]),
        List.filterMap_cons_some (by rw [h]; rfl), ih]

/-- Every matching database has a first message. -/
theorem matchesOf_map_fst (databases : List LoadedDbc) (frame : CanFrame) :
    (matchesOf databases frame).map Prod.fst = matching databases frame := by
  rw [matchesOf_eq, matching]
  simp only [← isSome_firstMessage]
  induction databases with
  | nil => rfl
  | cons database databases ih =>
    cases h : firstMessage frame database with
    | none => rw [List.filter_cons_of_neg (by simp [h]), ih]
    | some message =>
      rw [List.filter_cons_of_pos (by simp [h]), List.filterMap_cons_some (by rw [h]; rfl),
        List.map_cons, ih]

/-! ### Active signals -/

section Branch

variable (dbc : Dbc) (message : Message) (payload : List UInt8)

/-- The multiplexor of the message lies in the payload and has the raw value `k`. -/
def Selects (k : UInt64) : Prop :=
  ∃ mux, dbc.messageMultiplexorSwitch message.id = .ok (some mux) ∧
    mux.LiesIn payload.length ∧ rawValue payload mux = k

/-- The message has no multiplexor in the payload. -/
def SelectsNone : Prop :=
  ∀ mux, dbc.messageMultiplexorSwitch message.id = .ok (some mux) → ¬ mux.LiesIn payload.length

/-- The signal is in the selected branch, or in all of them. -/
def Active (signal : Signal) : Prop :=
  match signal.multiplexerIndicator with
  | .plain => True
  | .multiplexor => True
  | .multiplexedSignal k => Selects dbc message payload k
  | .multiplexorAndMultiplexedSignal k =>
    SelectsNone dbc message payload ∨ Selects dbc message payload k

end Branch

/-- `muxValue` is the multiplexor's raw value, when the payload has one. -/
structure IsMuxValue (dbc : Dbc) (message : Message) (payload : List UInt8)
    (muxValue : Option Int64) : Prop where
  some_iff : ∀ k : UInt64, muxValue = some k.toInt64 ↔ Selects dbc message payload k
  none_iff : muxValue = none ↔ SelectsNone dbc message payload

theorem IsMuxValue.signalActive_iff {dbc : Dbc} {message : Message} {payload : List UInt8}
    {muxValue : Option Int64} (h : IsMuxValue dbc message payload muxValue) (signal : Signal) :
    signalActive signal muxValue ↔ Active dbc message payload signal := by
  unfold signalActive Active
  cases signal.multiplexerIndicator with
  | plain => simp
  | multiplexor => simp
  | multiplexedSignal k => simp [h.some_iff]
  | multiplexorAndMultiplexedSignal k => simp [h.some_iff, h.none_iff]

theorem toInt64_inj {a b : UInt64} : a.toInt64 = b.toInt64 ↔ a = b := by
  constructor
  · intro h
    have h_back := congrArg Int64.toUInt64 h
    rwa [UInt64.toUInt64_toInt64, UInt64.toUInt64_toInt64] at h_back
  · exact congrArg UInt64.toInt64

section Mux

variable {checks : Bool} {dbc : Dbc} {message : Message} {payload : List UInt8}

/-- **The multiplexor**, when it is safe to extract or absent. -/
theorem messageMuxValue_of_safe (h_len : payload.length < 2 ^ 61)
    (h_safe : ∀ mux, dbc.messageMultiplexorSwitch message.id = .ok (some mux) →
      mux.RawSafe checks payload.length) :
    ∃ muxValue, messageMuxValue checks dbc message.id payload = .ok muxValue ∧
      IsMuxValue dbc message payload muxValue := by
  unfold messageMuxValue
  split
  · next mux h_mux =>
    obtain ⟨h_in, h_out⟩ := extractRaw_of_safe h_len (h_safe mux h_mux)
    -- the database has one switch for the message
    have h_only : ∀ mux', dbc.messageMultiplexorSwitch message.id = .ok (some mux') →
        mux' = mux := by
      intro mux' h_mux'
      rw [h_mux] at h_mux'
      cases h_mux'
      rfl
    by_cases h : mux.LiesIn payload.length
    · refine ⟨some (rawValue payload mux).toInt64, by rw [h_in h]; rfl, ?_, ?_⟩
      · intro k
        rw [Option.some.injEq, toInt64_inj]
        constructor
        · exact fun h_k => ⟨mux, h_mux, h, h_k⟩
        · rintro ⟨mux', h_mux', -, h_k⟩
          rwa [h_only mux' h_mux'] at h_k
      · constructor
        · intro h_none
          cases h_none
        · exact fun h_none => absurd h (h_none mux h_mux)
    · obtain ⟨bits, h_error⟩ := h_out h
      refine ⟨none, by rw [h_error]; rfl, ?_, ?_⟩
      · intro k
        constructor
        · intro h_none
          cases h_none
        · rintro ⟨mux', h_mux', h_lies, -⟩
          rw [h_only mux' h_mux'] at h_lies
          exact absurd h_lies h
      · refine ⟨fun _ mux' h_mux' => ?_, fun _ => rfl⟩
        rwa [h_only mux' h_mux']
  · next h_other =>
    -- no multiplexor: nothing is selected
    refine ⟨none, rfl, fun k => ⟨fun h => absurd h.symm (Option.some_ne_none _), ?_⟩,
      fun _ mux h_mux => ?_, fun _ => rfl⟩
    · rintro ⟨mux, h_mux, -⟩
      exact absurd h_mux (h_other mux)
    · exact absurd h_mux (h_other mux)

theorem messageMuxValue_of_not_safe (h_len : payload.length < 2 ^ 61) {mux : Signal}
    (h_mux : dbc.messageMultiplexorSwitch message.id = .ok (some mux))
    (h_not_safe : ¬ mux.RawSafe checks payload.length) :
    messageMuxValue checks dbc message.id payload = .error .panic := by
  unfold messageMuxValue
  rw [h_mux]
  simp only [extractRaw_of_not_safe h_len h_not_safe]
  rfl

end Mux

/-! ### Signals -/

/-- **Safe to decode**: besides the extraction, the sign extension of a signed signal inside the
payload needs a width of `1` to `64` bits, where a build checks for overflow. The width is the
size cut to 32 bits. -/
def Signal.Safe (checks : Bool) (signal : Signal) (n : ℕ) : Prop :=
  signal.RawSafe checks n ∧
    (checks → signal.LiesIn n → signal.valueType = .signed →
      1 ≤ signal.size.toNat % 2 ^ 32 ∧ signal.size.toNat % 2 ^ 32 ≤ 64)

instance (checks : Bool) (signal : Signal) (n : ℕ) : Decidable (signal.Safe checks n) :=
  inferInstanceAs (Decidable (_ ∧ _))

theorem signExtend_of_width {checks : Bool} (raw : UInt64) {width : ℕ}
    (h : checks → 1 ≤ width ∧ width ≤ 64) : ∃ value, signExtend checks raw width = .ok value := by
  unfold signExtend subU32 shl sar
  cases checks with
  | false =>
    -- any width returns: the subtraction wraps and the shifts are reduced
    by_cases h_width : width ≤ 64
    · rw [if_pos h_width]
      exact ⟨_, rfl⟩
    · rw [if_neg h_width]
      exact ⟨_, rfl⟩
  | true =>
    obtain ⟨h_one, h_width⟩ := h rfl
    have h_shift : ¬ (true && decide (64 ≤ 64 - width)) = true := by
      simp only [Bool.true_and, decide_eq_true_eq]
      omega
    rw [if_pos h_width, ok_bind, if_neg h_shift, ok_bind, if_neg h_shift]
    exact ⟨_, rfl⟩

theorem signExtend_checked (raw : UInt64) {width : ℕ} (h : ¬ (1 ≤ width ∧ width ≤ 64)) :
    signExtend true raw width = .error .panic := by
  unfold signExtend subU32
  by_cases h_width : width ≤ 64
  · -- width `0`: the shift is by `64`
    obtain rfl : width = 0 := by omega
    rfl
  · rw [if_neg h_width]
    rfl

section Extract

variable {checks : Bool} {payload : List UInt8} {signal : Signal} (database : LoadedDbc)
  (messageId : MessageId)

/-- **A safe signal** has a value under its own name, or is too long for the payload. -/
theorem extractSignal_of_safe (h_len : payload.length < 2 ^ 61)
    (h_safe : signal.Safe checks payload.length) :
    (∃ decoded, extractSignal checks database messageId signal payload = .ok decoded ∧
        decoded.name = signal.name) ∨
      ∃ bits, extractSignal checks database messageId signal payload
        = .error (.error (.payloadTooShort signal.name bits payload.length)) := by
  obtain ⟨h_raw, h_sign⟩ := h_safe
  obtain ⟨h_in, h_out⟩ := extractRaw_of_safe h_len h_raw
  -- the payload has all the bits of the signal, or the length is reported
  by_cases h : signal.LiesIn payload.length
  · left
    rw [extractSignal, h_in h, ok_bind]
    by_cases h_type : signal.valueType = .signed
    · obtain ⟨value, h_value⟩ := signExtend_of_width (rawValue payload signal)
        (fun h_checks => h_sign h_checks h h_type)
      rw [if_pos h_type, h_value]
      exact ⟨_, rfl, rfl⟩
    · rw [if_neg h_type]
      exact ⟨_, rfl, rfl⟩
  · right
    obtain ⟨bits, h_error⟩ := h_out h
    rw [extractSignal, h_error]
    exact ⟨bits, rfl⟩

theorem extractSignal_of_not_safe (h_len : payload.length < 2 ^ 61)
    (h_not_safe : ¬ signal.Safe checks payload.length) :
    extractSignal checks database messageId signal payload = .error .panic := by
  by_cases h_raw : signal.RawSafe checks payload.length
  · -- the sign extension panics, so this is a build with checks
    have h_sign : ¬ (checks → signal.LiesIn payload.length → signal.valueType = .signed →
        1 ≤ signal.size.toNat % 2 ^ 32 ∧ signal.size.toNat % 2 ^ 32 ≤ 64) :=
      fun h => h_not_safe ⟨h_raw, h⟩
    simp only [Classical.not_imp] at h_sign
    obtain ⟨h_checks, h_in, h_type, h_width⟩ := h_sign
    subst h_checks
    rw [extractSignal, (extractRaw_of_safe h_len h_raw).1 h_in, ok_bind, if_pos h_type,
      signExtend_checked _ h_width]
    rfl
  · rw [extractSignal, extractRaw_of_not_safe h_len h_raw]
    rfl

end Extract

/-! ### Sorting the signals of a message -/

/-- **Sorted signals.** Every active signal contributes one entry, in order: a value under its
name, or a diagnostic that the payload is too short for it. Inactive signals contribute none. -/
inductive Sorted (active : Signal → Prop) :
    List Signal → List DecodedSignal → List Diagnostic → Prop where
  | nil : Sorted active [] [] []
  | inactive {signal signals decoded diagnostics} : ¬ active signal →
      Sorted active signals decoded diagnostics →
      Sorted active (signal :: signals) decoded diagnostics
  | decoded {signal signals value decoded diagnostics} : active signal →
      value.name = signal.name → Sorted active signals decoded diagnostics →
      Sorted active (signal :: signals) (value :: decoded) diagnostics
  | tooShort {signal signals decoded diagnostics} (expectedBits actualBytes : ℕ) :
      active signal → Sorted active signals decoded diagnostics →
      Sorted active (signal :: signals) decoded
        (.payloadTooShort signal.name expectedBits actualBytes :: diagnostics)

section Loop

variable {checks : Bool} {payload : List UInt8} (database : LoadedDbc) (messageId : MessageId)
  (muxValue : Option Int64)

/-- **The signal loop** sorts the signals when every active one is safe. -/
theorem decodeSignals_of_safe (h_len : payload.length < 2 ^ 61) {signals : List Signal}
    (h_safe : ∀ signal ∈ signals, signalActive signal muxValue →
      signal.Safe checks payload.length) :
    ∃ decoded diagnostics,
      decodeSignals checks database messageId payload muxValue signals
        = .ok (decoded, diagnostics) ∧
      Sorted (signalActive · muxValue) signals decoded diagnostics := by
  -- signal by signal: each constructor of `Sorted` is one way through the body of the loop
  induction signals with
  | nil => exact ⟨[], [], rfl, .nil⟩
  | cons signal rest ih =>
    obtain ⟨decoded, diagnostics, h_rest, h_sorted⟩ :=
      ih fun s h_s => h_safe s (List.mem_cons_of_mem _ h_s)
    unfold decodeSignals
    split
    · next h_active =>
      rcases extractSignal_of_safe database messageId h_len
          (h_safe signal (List.mem_cons_self ..) h_active) with
        ⟨value, h_value, h_name⟩ | ⟨bits, h_error⟩
      · rw [h_value, h_rest]
        exact ⟨_, _, rfl, .decoded h_active h_name h_sorted⟩
      · rw [h_error, h_rest]
        exact ⟨_, _, rfl, .tooShort _ _ h_active h_sorted⟩
    · next h_inactive => exact ⟨_, _, h_rest, .inactive h_inactive h_sorted⟩

/-- The loop panics at the first active signal that is not safe. -/
theorem decodeSignals_of_not_safe (h_len : payload.length < 2 ^ 61) {signals : List Signal}
    {signal : Signal} (h_mem : signal ∈ signals) (h_active : signalActive signal muxValue)
    (h_not_safe : ¬ signal.Safe checks payload.length) :
    decodeSignals checks database messageId payload muxValue signals = .error .panic := by
  induction signals with
  | nil => cases h_mem
  | cons first rest ih =>
    unfold decodeSignals
    -- either this signal is the first to panic, or the unsafe one comes later
    by_cases h_first : signalActive first muxValue ∧ ¬ first.Safe checks payload.length
    · rw [if_pos h_first.1, extractSignal_of_not_safe database messageId h_len h_first.2]
      rfl
    · have h_rest : signal ∈ rest := by
        rcases List.mem_cons.mp h_mem with rfl | h
        · exact absurd ⟨h_active, h_not_safe⟩ h_first
        · exact h
      split
      · next h_first_active =>
        have h_safe : first.Safe checks payload.length := by
          by_contra h
          exact h_first ⟨h_first_active, h⟩
        rcases extractSignal_of_safe database messageId h_len h_safe with
          ⟨value, h_value, -⟩ | ⟨bits, h_error⟩
        · rw [h_value, ih h_rest]
          rfl
        · rw [h_error, ih h_rest]
          rfl
      · exact ih h_rest

end Loop

/-! ### The contract -/

/-- **The contract of `decode_frame`.** -/
structure Contract (checks : Bool) (databases : List LoadedDbc) (frame : CanFrame) : Prop where
  /-- Only the matching databases count. -/
  onlyMatching : ∀ databases', matching databases' frame = matching databases frame →
    decodeFrame checks databases' frame = decodeFrame checks databases frame
  /-- No match. -/
  noMatch : matching databases frame = [] →
    decodeFrame checks databases frame
      = .ok { message := none, diagnostics := [.noMatch frame.id.raw] }
  /-- More than one match. -/
  ambiguous : 2 ≤ (matching databases frame).length →
    decodeFrame checks databases frame
      = .ok { message := none
              diagnostics := [.ambiguousMessage frame.id.raw
                ((matching databases frame).map LoadedDbc.name)] }
  /-- One match: its first message is decoded. -/
  unique : ∀ database, matching databases frame = [database] →
    ∃ message decoded diagnostics,
      firstMessage frame database = some message ∧
      decodeFrame checks databases frame
        = .ok { message := some { database := database.name
                                  messageName := message.name
                                  signals := decoded }
                diagnostics } ∧
      Sorted (Active database.dbc message frame.data) message.signals decoded diagnostics

/-- **Where the contract is met**: if one database matches, the multiplexor of its first message
is safe to extract, and every active signal is safe to decode. -/
def Safe (checks : Bool) (databases : List LoadedDbc) (frame : CanFrame) : Prop :=
  ∀ database message, matching databases frame = [database] →
    firstMessage frame database = some message →
      (∀ mux, database.dbc.messageMultiplexorSwitch message.id = .ok (some mux) →
        mux.RawSafe checks frame.data.length) ∧
      ∀ signal ∈ message.signals, Active database.dbc message frame.data signal →
        signal.Safe checks frame.data.length

section Frame

variable {checks : Bool} {databases : List LoadedDbc} {frame : CanFrame}

theorem decodeFrame_congr {databases' : List LoadedDbc}
    (h : matching databases' frame = matching databases frame) :
    decodeFrame checks databases' frame = decodeFrame checks databases frame := by
  unfold decodeFrame
  rw [matchesOf_eq, matchesOf_eq, h]

theorem decodeFrame_of_none (h : matching databases frame = []) :
    decodeFrame checks databases frame
      = .ok { message := none, diagnostics := [.noMatch frame.id.raw] } := by
  unfold decodeFrame
  rw [matchesOf_eq, h]
  rfl

theorem decodeFrame_of_several (h : 2 ≤ (matching databases frame).length) :
    decodeFrame checks databases frame
      = .ok { message := none
              diagnostics := [.ambiguousMessage frame.id.raw
                ((matching databases frame).map LoadedDbc.name)] } := by
  have h_fst := matchesOf_map_fst databases frame
  unfold decodeFrame
  -- the branch of `decode_frame` is chosen by the length of the matches
  split
  · next h_nil =>
    rw [h_nil] at h_fst
    rw [← h_fst] at h
    exact absurd h (by decide)
  · next h_one =>
    rw [h_one] at h_fst
    rw [← h_fst] at h
    exact absurd h (by simp)
  · rw [← h_fst, List.map_map]
    rfl

/-- A single matching database has a first message, and `decode_frame` decodes that. -/
theorem decodeFrame_of_one (checks : Bool) {database : LoadedDbc}
    (h : matching databases frame = [database]) :
    ∃ message, firstMessage frame database = some message ∧
      decodeFrame checks databases frame
        = (messageMuxValue checks database.dbc message.id frame.data >>= fun muxValue =>
            decodeSignals checks database message.id frame.data muxValue message.signals >>=
              fun r => .ok { message := some { database := database.name
                                               messageName := message.name
                                               signals := r.1 }
                             diagnostics := r.2 }) := by
  -- a database matches because it has a first message
  have h_some : (firstMessage frame database).isSome := by
    rw [isSome_firstMessage]
    have h_mem : database ∈ matching databases frame := by rw [h]; exact List.mem_singleton_self _
    exact (List.mem_filter.mp h_mem).2
  obtain ⟨message, h_message⟩ := Option.isSome_iff_exists.mp h_some
  refine ⟨message, h_message, ?_⟩
  have h_matches : matchesOf databases frame = [(database, message)] := by
    rw [matchesOf_eq, h, List.filterMap_cons_some (by rw [h_message]; rfl), List.filterMap_nil]
  unfold decodeFrame
  rw [h_matches]
  rfl

theorem Sorted.congr {active active' : Signal → Prop} (h : ∀ signal, active signal ↔ active' signal)
    {signals : List Signal} {decoded : List DecodedSignal} {diagnostics : List Diagnostic}
    (h_sorted : Sorted active signals decoded diagnostics) :
    Sorted active' signals decoded diagnostics := by
  have h_eq : active = active' := funext fun signal => propext (h signal)
  rwa [← h_eq]

/-- A frame is safe when all signals of its message are. -/
theorem safe_of_forall (database : LoadedDbc) (h_one : matching databases frame = [database])
    {message : Message} (h_message : firstMessage frame database = some message)
    (h_mux : ∀ mux, database.dbc.messageMultiplexorSwitch message.id = .ok (some mux) →
      mux.RawSafe checks frame.data.length)
    (h_all : ∀ signal ∈ message.signals, signal.Safe checks frame.data.length) :
    Safe checks databases frame := by
  intro database' message' h_one' h_message'
  obtain rfl : database = database' := List.head_eq_of_cons_eq (h_one.symm.trans h_one')
  obtain rfl : message = message' := Option.some.inj (h_message.symm.trans h_message')
  exact ⟨h_mux, fun signal h_mem _ => h_all signal h_mem⟩

theorem Safe.contract (h_len : frame.data.length < 2 ^ 61)
    (h_safe : Safe checks databases frame) : Contract checks databases frame := by
  refine ⟨fun _ h => decodeFrame_congr h, decodeFrame_of_none, decodeFrame_of_several, ?_⟩
  intro database h_one
  obtain ⟨message, h_message, h_frame⟩ := decodeFrame_of_one checks h_one
  obtain ⟨h_mux, h_signals⟩ := h_safe database message h_one h_message
  obtain ⟨muxValue, h_value, h_is⟩ := messageMuxValue_of_safe h_len h_mux
  -- active in the code is active in the contract, since the multiplexor was read
  obtain ⟨decoded, diagnostics, h_decode, h_sorted⟩ :=
    decodeSignals_of_safe database message.id muxValue h_len
      (fun signal h_mem h_active =>
        h_signals signal h_mem ((h_is.signalActive_iff signal).mp h_active))
  refine ⟨message, decoded, diagnostics, h_message, ?_, h_sorted.congr h_is.signalActive_iff⟩
  rw [h_frame, h_value, ok_bind, h_decode, ok_bind]

theorem Safe.returns (h_len : frame.data.length < 2 ^ 61)
    (h_safe : Safe checks databases frame) :
    ∃ outcome, decodeFrame checks databases frame = .ok outcome := by
  -- by the number of matching databases
  match h : matching databases frame with
  | [] => exact ⟨_, decodeFrame_of_none h⟩
  | [database] =>
    obtain ⟨message, decoded, diagnostics, -, h_ok, -⟩ := (h_safe.contract h_len).unique database h
    exact ⟨_, h_ok⟩
  | first :: second :: rest =>
    refine ⟨_, decodeFrame_of_several ?_⟩
    rw [h]
    exact Nat.le_add_left ..

/-- Had anything been unsafe, the frame would have panicked. -/
theorem safe_of_ok (h_len : frame.data.length < 2 ^ 61) {outcome : DecodeOutcome}
    (h_ok : decodeFrame checks databases frame = .ok outcome) : Safe checks databases frame := by
  intro database message h_one h_message
  obtain ⟨message', h_message', h_frame⟩ := decodeFrame_of_one checks h_one
  obtain rfl : message' = message := Option.some.inj (h_message'.symm.trans h_message)
  rw [h_frame] at h_ok
  have h_mux : ∀ mux, database.dbc.messageMultiplexorSwitch message'.id = .ok (some mux) →
      mux.RawSafe checks frame.data.length := by
    intro mux h_switch
    by_contra h_not_safe
    rw [messageMuxValue_of_not_safe h_len h_switch h_not_safe] at h_ok
    cases h_ok
  refine ⟨h_mux, fun signal h_mem h_active => ?_⟩
  -- the multiplexor was read, so the code knows which signals are active
  obtain ⟨muxValue, h_value, h_is⟩ := messageMuxValue_of_safe h_len h_mux
  by_contra h_not_safe
  rw [h_value, ok_bind, decodeSignals_of_not_safe database message'.id muxValue h_len h_mem
    ((h_is.signalActive_iff signal).mpr h_active) h_not_safe] at h_ok
  cases h_ok

theorem Contract.safe (h_len : frame.data.length < 2 ^ 61)
    (h_contract : Contract checks databases frame) : Safe checks databases frame := by
  intro database message h_one h_message
  obtain ⟨_, _, _, -, h_ok, -⟩ := h_contract.unique database h_one
  exact safe_of_ok h_len h_ok database message h_one h_message

end Frame

/-- **When `decode_frame` meets its contract**: exactly when nothing it extracts is unsafe. -/
theorem decodeFrame_contract_iff (checks : Bool) (databases : List LoadedDbc) (frame : CanFrame)
    (h_len : frame.data.length < 2 ^ 61) :
    Contract checks databases frame ↔ Safe checks databases frame :=
  ⟨Contract.safe h_len, Safe.contract h_len⟩

/-- A signed signal of `16` bits behind the first byte, in a payload of eight: the contract is
met in both kinds of build. -/
theorem decodeFrame_contract_signed :
    let signal : Signal :=
      { name := "Speed", multiplexerIndicator := .plain, startBit := 8, size := 16
        byteOrder := .littleEndian, valueType := .signed, factor := 0.1, offset := 0
        unit := "km/h" }
    let database : LoadedDbc :=
      { name := "vehicle.dbc"
        dbc := { messages := [{ id := ⟨291⟩, name := "ExampleMessage", signals := [signal] }]
                 messageMultiplexorSwitch := fun _ => .ok none
                 valueDescriptionsForSignal := fun _ _ => none } }
    let frame : CanFrame :=
      { id := ⟨0x123, false, by decide⟩, class' := .data, data := List.replicate 8 0
        fd := false, fdFlags := {} }
    Contract true [database] frame ∧ Contract false [database] frame := by
  intro signal database frame
  have h_all : ∀ checks, ∀ s ∈ [signal], s.Safe checks 8 := by decide
  -- eight bytes are enough for the signal, with and without overflow checks
  have h_safe : ∀ checks, Safe checks [database] frame := fun checks =>
    safe_of_forall database rfl rfl (fun mux h_mux => by cases h_mux) (h_all checks)
  exact ⟨(decodeFrame_contract_iff true _ _ (by decide)).mpr (h_safe true),
    (decodeFrame_contract_iff false _ _ (by decide)).mpr (h_safe false)⟩

/-- Two bits from the last position on: with overflow checks the end of the signal is not
representable, and without them it wraps to the start of the payload. -/
theorem decodeFrame_contract_counterexample :
    let signal : Signal :=
      { name := "Far", multiplexerIndicator := .plain, startBit := 0xffffffffffffffff, size := 2
        byteOrder := .littleEndian, valueType := .unsigned, factor := 1, offset := 0
        unit := "" }
    let database : LoadedDbc :=
      { name := "vehicle.dbc"
        dbc := { messages := [{ id := ⟨291⟩, name := "ExampleMessage", signals := [signal] }]
                 messageMultiplexorSwitch := fun _ => .ok none
                 valueDescriptionsForSignal := fun _ _ => none } }
    let frame : CanFrame :=
      { id := ⟨0x123, false, by decide⟩, class' := .data, data := List.replicate 8 0
        fd := false, fdFlags := {} }
    ¬ Contract true [database] frame ∧ ¬ Contract false [database] frame := by
  intro signal database frame
  -- the last bit does not fit: the sum wraps to a bit in the payload, or panics
  have h_not_safe : ∀ checks, ¬ Safe checks [database] frame := by
    intro checks h_safe
    have h_signal := ((h_safe database _ rfl rfl).2 signal (List.mem_singleton_self _) trivial).1
    cases checks with
    | false => exact h_signal.elim (fun h => absurd h (by decide)) (fun h => absurd h (by decide))
    | true => exact absurd h_signal.1 (by decide)
  exact ⟨fun h => h_not_safe true (h.safe (by decide)),
    fun h => h_not_safe false (h.safe (by decide))⟩

end Cantools.Decoder
