import Cantools.Decoder.Outcome

/-!
# Padded payloads

CAN FD pads payloads to fixed sizes, so a frame should decode as before when bytes are appended.
A signal inside the payload keeps its raw value, since the walks read covered bits only
(`extractRaw_append`). Only signals that were not decoded before may change what they contribute,
and a multiplexed one appears newly when the padding makes the multiplexor readable.

What the padding may do is to make a signal unsafe: one that the multiplexor now selects, or one
whose last position wraps into the longer payload. `padding_iff` shows that nothing else
disturbs the decoding.
-/

namespace Cantools.Decoder

open Machine Program

/-! ### The walks -/

section Walk

variable {payload : List UInt8} (extra : List UInt8)

theorem bitValue_append {bit : ℕ} (h : bit < 8 * payload.length) :
    bitValue (payload ++ extra) bit = bitValue payload bit := by
  rw [bitValue, bitValue, List.getElem?_append_left (by omega)]

theorem littleEndianValue_append {start k offset : ℕ} (value : UInt64)
    (h_in : start + (offset + k) ≤ 8 * payload.length) :
    littleEndianValue (payload ++ extra) start k offset value
      = littleEndianValue payload start k offset value := by
  -- on the bits still to come: each of them is in the payload
  induction k generalizing offset value with
  | zero => rfl
  | succ k ih =>
    rw [littleEndianValue, littleEndianValue, bitValue_append extra (by omega), ih _ (by omega)]

theorem bigEndianValue_append {k p : ℕ} (value : UInt64) (h_in : p + k ≤ 8 * payload.length) :
    bigEndianValue (payload ++ extra) k p value = bigEndianValue payload k p value := by
  induction k generalizing p value with
  | zero => rfl
  | succ k ih =>
    -- the bit at a position is in the byte of the position
    have h_byte := linear_div p
    rw [bigEndianValue, bigEndianValue, bitValue_append extra (by omega), ih _ (by omega)]

/-- **The raw value** does not depend on what follows the signal. -/
theorem rawValue_append {signal : Signal} (h_in : signal.LiesIn payload.length) :
    rawValue (payload ++ extra) signal = rawValue payload signal := by
  unfold Signal.LiesIn Signal.lastPosition at h_in
  unfold rawValue
  cases h_order : signal.byteOrder with
  | littleEndian =>
    rw [h_order, ByteOrder.order] at h_in
    exact littleEndianValue_append extra 0 (by omega)
  | bigEndian =>
    rw [h_order, ByteOrder.order] at h_in
    exact bigEndianValue_append extra 0 (by omega)

end Walk

theorem Signal.LiesIn.append {signal : Signal} {payload : List UInt8}
    (h : signal.LiesIn payload.length) (extra : List UInt8) :
    signal.LiesIn (payload ++ extra).length := by
  unfold Signal.LiesIn at *
  rw [List.length_append]
  omega

section Extract

variable {checks : Bool} {payload extra : List UInt8} {signal : Signal}

/-- What is extracted from a payload. -/
theorem extractRaw_eq_ok (h_len : payload.length < 2 ^ 61) {v : UInt64}
    (h_ok : extractRaw checks payload signal = .ok v) :
    signal.RawSafe checks payload.length ∧ signal.LiesIn payload.length ∧
      rawValue payload signal = v := by
  have h_safe : signal.RawSafe checks payload.length := by
    by_contra h_not_safe
    rw [extractRaw_of_not_safe h_len h_not_safe] at h_ok
    cases h_ok
  have h_in : signal.LiesIn payload.length := (extractRaw_ok_iff h_len h_safe).mp ⟨v, h_ok⟩
  rw [(extractRaw_of_safe h_len h_safe).1 h_in] at h_ok
  exact ⟨h_safe, h_in, Except.ok.inj h_ok⟩

/-- **Extraction** is not changed by padding. -/
theorem extractRaw_append (h_len : (payload ++ extra).length < 2 ^ 61) {v : UInt64}
    (h_ok : extractRaw checks payload signal = .ok v) :
    extractRaw checks (payload ++ extra) signal = .ok v := by
  have h_short : payload.length < 2 ^ 61 := by
    rw [List.length_append] at h_len
    omega
  obtain ⟨h_safe, h_in, rfl⟩ := extractRaw_eq_ok h_short h_ok
  rw [← rawValue_append extra h_in]
  -- the bound on the width is needed with checks only, and was needed before
  refine extractRaw_of_liesIn h_len (h_in.append extra) ?_
  rintro rfl
  exact h_safe.2.2 h_in

theorem extractSignal_append (h_len : (payload ++ extra).length < 2 ^ 61) {database : LoadedDbc}
    {messageId : MessageId} {decoded : DecodedSignal}
    (h_ok : extractSignal checks database messageId signal payload = .ok decoded) :
    extractSignal checks database messageId signal (payload ++ extra) = .ok decoded := by
  -- past the raw value the payload is not looked at
  obtain ⟨raw, h_raw, h_rest⟩ := bind_eq_ok_iff.mp h_ok
  rw [extractSignal, extractRaw_append h_len h_raw]
  exact h_rest

end Extract

/-! ### What padding may change -/

/-- The signal is in every branch. -/
def Signal.isCommon (signal : Signal) : Bool :=
  match signal.multiplexerIndicator with
  | .plain => true
  | .multiplexor => true
  | _ => false

/-- The signal is a multiplexor inside a branch. -/
def Signal.isExtendedMultiplexor (signal : Signal) : Bool :=
  match signal.multiplexerIndicator with
  | .multiplexorAndMultiplexedSignal _ => true
  | _ => false

/-- The message has a multiplexor, and the payload is too short for it. -/
def MuxUnreadable (checks : Bool) (dbc : Dbc) (message : Message) (payload : List UInt8) : Prop :=
  ∃ mux, dbc.messageMultiplexorSwitch message.id = .ok (some mux) ∧
    ∀ v, extractRaw checks payload mux ≠ .ok v

/-- **Undisturbed decoding** of a message when its payload grows. -/
structure Undisturbed (checks : Bool) (database : LoadedDbc) (message : Message)
    (payload payload' : List UInt8) : Prop where
  /-- Values stay as they are, and in order. -/
  kept : ((values checks database message payload).filter
      fun entry => !entry.1.isExtendedMultiplexor).Sublist
    (values checks database message payload')
  /-- No signal of every branch gains a diagnostic. -/
  noDiagnostic : (((missed checks database message payload').map Prod.fst).filter
      Signal.isCommon).Sublist
    ((missed checks database message payload).map Prod.fst)
  /-- A new value of a multiplexed signal: the multiplexor was not readable, or the signal was
  reported. -/
  newValue : ∀ entry ∈ values checks database message payload', ∀ k,
    entry.1.multiplexerIndicator = .multiplexedSignal k →
    entry.1 ∉ (values checks database message payload).map Prod.fst →
      MuxUnreadable checks database.dbc message payload ∨
        entry.1 ∈ (missed checks database message payload).map Prod.fst
  /-- A new diagnostic of a multiplexed signal: the multiplexor was not readable. -/
  newDiagnostic : ∀ entry ∈ missed checks database message payload', ∀ k,
    entry.1.multiplexerIndicator = .multiplexedSignal k →
    entry.1 ∉ (missed checks database message payload).map Prod.fst →
      MuxUnreadable checks database.dbc message payload

/-- Filtering commutes with a selection that keeps what the filter lets through. -/
theorem filter_filterMap_sublist {α β : Type} {f g : α → Option β} {p : β → Bool} {l : List α}
    (h : ∀ a ∈ l, ∀ b, f a = some b → p b → g a = some b) :
    ((l.filterMap f).filter p).Sublist (l.filterMap g) := by
  -- each item that is kept on the left is kept on the right, in its place
  induction l with
  | nil => exact .slnil
  | cons a l ih =>
    have h_tail := ih fun a' h_a' => h a' (List.mem_cons_of_mem _ h_a')
    have h_grow : (l.filterMap g).Sublist ((a :: l).filterMap g) :=
      (List.sublist_cons_self a l).filterMap g
    cases h_f : f a with
    | none =>
      rw [List.filterMap_cons_none h_f]
      exact h_tail.trans h_grow
    | some b =>
      rw [List.filterMap_cons_some h_f]
      by_cases h_p : p b
      · have h_g : g a = some b := h a (List.mem_cons_self ..) b h_f h_p
        rw [List.filter_cons_of_pos h_p, List.filterMap_cons_some h_g]
        exact h_tail.cons_cons b
      · rw [List.filter_cons_of_neg h_p]
        exact h_tail.trans h_grow

section Message

variable {checks : Bool} {database : LoadedDbc} {message : Message} {payload extra : List UInt8}

theorem Selects.append {dbc : Dbc} {k : UInt64} (h : Selects dbc message payload k)
    (extra : List UInt8) : Selects dbc message (payload ++ extra) k := by
  obtain ⟨mux, h_mux, h_in, h_raw⟩ := h
  exact ⟨mux, h_mux, h_in.append extra, (rawValue_append extra h_in).trans h_raw⟩

/-- Padding switches no signal off, save an extended multiplexor. -/
theorem Active.append {dbc : Dbc} {signal : Signal} (h_kind : signal.isExtendedMultiplexor = false)
    (h : Active dbc message payload signal) (extra : List UInt8) :
    Active dbc message (payload ++ extra) signal := by
  unfold Active at *
  unfold Signal.isExtendedMultiplexor at h_kind
  cases h_indicator : signal.multiplexerIndicator with
  | plain => trivial
  | multiplexor => trivial
  | multiplexedSignal k =>
    rw [h_indicator] at h
    exact h.append extra
  | multiplexorAndMultiplexedSignal k =>
    -- active without the multiplexor, and perhaps no longer with it
    rw [h_indicator] at h_kind
    cases h_kind

/-- With a readable multiplexor padding switches no multiplexed signal on. -/
theorem active_of_append (h_len : payload.length < 2 ^ 61) {signal : Signal} {k : UInt64}
    (h_kind : signal.multiplexerIndicator = .multiplexedSignal k)
    (h_readable : ¬ MuxUnreadable checks database.dbc message payload)
    (h : Active database.dbc message (payload ++ extra) signal) :
    Active database.dbc message payload signal := by
  rw [Active, h_kind] at h ⊢
  obtain ⟨mux, h_mux, -, h_raw⟩ := h
  have h_ok : ∃ v, extractRaw checks payload mux = .ok v := by
    by_contra h_none
    exact h_readable ⟨mux, h_mux, not_exists.mp h_none⟩
  obtain ⟨v, h_v⟩ := h_ok
  -- a multiplexor that is read lies in the payload, and has the same value in the longer one
  obtain ⟨-, h_in, -⟩ := extractRaw_eq_ok h_len h_v
  rw [rawValue_append extra h_in] at h_raw
  exact ⟨mux, h_mux, h_in, h_raw⟩

/-- The signals of the message are safe in a payload: the part of `Safe` about one message. -/
structure MessageSafe (checks : Bool) (database : LoadedDbc) (message : Message)
    (payload : List UInt8) : Prop where
  mux : ∀ mux, database.dbc.messageMultiplexorSwitch message.id = .ok (some mux) →
    mux.RawSafe checks payload.length
  signals : ∀ signal ∈ message.signals, Active database.dbc message payload signal →
    signal.Safe checks payload.length

theorem MessageSafe.signalActive_iff (h_len : payload.length < 2 ^ 61)
    (h : MessageSafe checks database message payload) (signal : Signal) :
    signalActive signal (muxOf checks database message payload) ↔
      Active database.dbc message payload signal := by
  obtain ⟨muxValue, h_value, h_is⟩ := messageMuxValue_of_safe h_len h.mux
  have h_muxOf : muxOf checks database message payload = muxValue := by rw [muxOf, h_value]
  rw [h_muxOf]
  exact h_is.signalActive_iff signal

/-- An active signal has a value or a diagnostic. -/
theorem MessageSafe.mem_or_mem (h_len : payload.length < 2 ^ 61)
    (h : MessageSafe checks database message payload) {signal : Signal}
    (h_mem : signal ∈ message.signals) (h_active : Active database.dbc message payload signal) :
    (∃ decoded, (signal, decoded) ∈ values checks database message payload) ∨
      ∃ diagnostic, (signal, diagnostic) ∈ missed checks database message payload := by
  have h_code := (h.signalActive_iff h_len signal).mpr h_active
  rcases extractSignal_of_safe database message.id h_len (h.signals signal h_mem h_active) with
    ⟨decoded, h_ok, -⟩ | ⟨bits, h_error⟩
  · exact .inl ⟨decoded, mem_values.mpr ⟨h_mem, h_code, h_ok⟩⟩
  · exact .inr ⟨_, mem_missed.mpr ⟨h_mem, h_code, _, _, _, h_error, rfl⟩⟩

/-- A value is not taken away by padding. -/
theorem not_missed_of_value (h_len : (payload ++ extra).length < 2 ^ 61) {signal : Signal}
    {decoded : DecodedSignal} (h_value : (signal, decoded) ∈ values checks database message payload)
    {diagnostic : Diagnostic} :
    (signal, diagnostic) ∉ missed checks database message (payload ++ extra) := by
  intro h_missed
  obtain ⟨-, -, h_ok⟩ := mem_values.mp h_value
  obtain ⟨-, -, _, _, _, h_error, -⟩ := mem_missed.mp h_missed
  rw [extractSignal_append h_len h_ok] at h_error
  cases h_error

/-- **Padding a safe message** leaves its decoding undisturbed. -/
theorem undisturbed_of_safe (h_len : (payload ++ extra).length < 2 ^ 61)
    (h_safe : MessageSafe checks database message payload)
    (h_safe' : MessageSafe checks database message (payload ++ extra)) :
    Undisturbed checks database message payload (payload ++ extra) := by
  have h_short : payload.length < 2 ^ 61 := by
    rw [List.length_append] at h_len
    omega
  have h_active := h_safe.signalActive_iff h_short
  have h_active' := h_safe'.signalActive_iff h_len
  refine ⟨?_, ?_, ?_, ?_⟩
  · -- a value: the signal stays active and its raw value stays as it is
    refine filter_filterMap_sublist fun signal h_mem entry h_entry h_kind => ?_
    obtain ⟨rfl, h_code, h_ok⟩ := valueEntry_eq_some_iff.mp h_entry
    have h_kept := ((h_active entry.1).mp h_code).append (by simpa using h_kind) extra
    exact valueEntry_eq_some_iff.mpr
      ⟨rfl, (h_active' entry.1).mpr h_kept, extractSignal_append h_len h_ok⟩
  · rw [missed, missed, List.map_filterMap, List.map_filterMap]
    refine filter_filterMap_sublist fun signal h_mem signal' h_source h_common => ?_
    obtain ⟨entry, h_entry, rfl⟩ := Option.map_eq_some_iff.mp h_source
    obtain ⟨rfl, -, _, _, _, h_error, -⟩ := diagnosticEntry_eq_some_iff.mp h_entry
    -- a common signal is active in both payloads
    have h_on : Active database.dbc message payload entry.1 := by
      unfold Signal.isCommon at h_common
      unfold Active
      cases h_indicator : entry.1.multiplexerIndicator <;> simp_all
    -- with a value before it would have one now, so it had a diagnostic
    rcases h_safe.mem_or_mem h_short h_mem h_on with ⟨decoded, h_value⟩ | ⟨diagnostic, h_missed⟩
    · rw [extractSignal_append h_len (mem_values.mp h_value).2.2] at h_error
      cases h_error
    · obtain ⟨-, h_missed⟩ := mem_missed.mp h_missed
      rw [diagnosticEntry_eq_some_iff.mpr ⟨rfl, h_missed⟩]
      rfl
  · -- a new value: with a readable multiplexor the signal was active before
    intro entry h_entry k h_kind h_new
    obtain ⟨h_mem, h_code, -⟩ := mem_values.mp h_entry
    by_cases h_readable : MuxUnreadable checks database.dbc message payload
    · exact .inl h_readable
    · have h_on := active_of_append h_short h_kind h_readable ((h_active' entry.1).mp h_code)
      rcases h_safe.mem_or_mem h_short h_mem h_on with ⟨decoded, h_value⟩ | ⟨_, h_missed⟩
      · exact absurd (List.mem_map.mpr ⟨_, h_value, rfl⟩) h_new
      · exact .inr (List.mem_map.mpr ⟨_, h_missed, rfl⟩)
  · -- a new diagnostic: neither a value nor a diagnostic before allows for it
    intro entry h_entry k h_kind h_new
    obtain ⟨h_mem, h_code, -⟩ := mem_missed.mp h_entry
    by_contra h_readable
    have h_on := active_of_append h_short h_kind h_readable ((h_active' entry.1).mp h_code)
    rcases h_safe.mem_or_mem h_short h_mem h_on with ⟨decoded, h_value⟩ | ⟨_, h_missed⟩
    · exact not_missed_of_value h_len h_value h_entry
    · exact h_new (List.mem_map.mpr ⟨_, h_missed, rfl⟩)

end Message

/-! ### Frames -/

/-- Decoding is undisturbed when `frame` grows to `frame'`: where the short frame decodes, so does
the long one, and their messages are those of an undisturbed decoding. -/
def PaddingHolds (checks : Bool) (databases : List LoadedDbc) (frame frame' : CanFrame) : Prop :=
  ∀ outcome, decodeFrame checks databases frame = .ok outcome →
    ∃ outcome', decodeFrame checks databases frame' = .ok outcome' ∧
      ∀ database message, matching databases frame = [database] →
        firstMessage frame database = some message →
          outcome = messageOutcome checks database message frame.data ∧
            outcome' = messageOutcome checks database message frame'.data ∧
            Undisturbed checks database message frame.data frame'.data

/-- Which databases and messages match is a matter of the identifier. -/
theorem matching_congr {frame frame' : CanFrame} (h_id : frame'.id = frame.id)
    (databases : List LoadedDbc) :
    matching databases frame' = matching databases frame ∧
      firstMessage frame' = firstMessage frame := by
  have h_has : ∀ message, HasId frame' message ↔ HasId frame message := by
    intro message
    rw [HasId, HasId, h_id]
  constructor
  · simp only [matching, h_has]
  · funext database
    simp only [firstMessage, h_has]

/-- **When padding is harmless**: unless it makes a signal unsafe to decode. -/
theorem padding_iff (checks : Bool) (databases : List LoadedDbc) (frame frame' : CanFrame)
    (extra : List UInt8) (h_id : frame'.id = frame.id) (h_data : frame'.data = frame.data ++ extra)
    (h_len : frame'.data.length < 2 ^ 61) :
    PaddingHolds checks databases frame frame' ↔
      (Safe checks databases frame → Safe checks databases frame') := by
  obtain ⟨h_matching, h_first⟩ := matching_congr h_id databases
  have h_short : frame.data.length < 2 ^ 61 := by
    rw [h_data, List.length_append] at h_len
    omega
  constructor
  · intro h_holds h_safe
    -- only a safe frame is decoded, and the long one is
    obtain ⟨outcome, h_ok⟩ := h_safe.returns h_short
    obtain ⟨outcome', h_ok', -⟩ := h_holds outcome h_ok
    exact safe_of_ok h_len h_ok'
  · intro h_grows outcome h_ok
    have h_safe := safe_of_ok h_short h_ok
    have h_safe' := h_grows h_safe
    obtain ⟨outcome', h_ok'⟩ := h_safe'.returns h_len
    refine ⟨outcome', h_ok', fun database message h_one h_message => ?_⟩
    have h_one' : matching databases frame' = [database] := h_matching.trans h_one
    have h_message' : firstMessage frame' database = some message := by rw [h_first, h_message]
    refine ⟨decodeFrame_outcome h_ok h_one h_message,
      decodeFrame_outcome h_ok' h_one' h_message', ?_⟩
    obtain ⟨h_mux, h_signals⟩ := h_safe database message h_one h_message
    obtain ⟨h_mux', h_signals'⟩ := h_safe' database message h_one' h_message'
    rw [h_data] at h_len h_mux' h_signals' ⊢
    exact undisturbed_of_safe h_len ⟨h_mux, h_signals⟩ ⟨h_mux', h_signals'⟩

/-- A frame of two bytes, padded to eight. -/
theorem padding_iff_eight :
    let first : Signal :=
      { name := "First", multiplexerIndicator := .plain, startBit := 0, size := 16
        byteOrder := .littleEndian, valueType := .signed, factor := 1, offset := 0, unit := "" }
    let second : Signal :=
      { name := "Second", multiplexerIndicator := .plain, startBit := 23, size := 16
        byteOrder := .bigEndian, valueType := .unsigned, factor := 1, offset := 0, unit := "" }
    let database : LoadedDbc :=
      { name := "vehicle.dbc"
        dbc := { messages := [{ id := ⟨291⟩, name := "Padded", signals := [first, second] }]
                 messageMultiplexorSwitch := fun _ => .ok none
                 valueDescriptionsForSignal := fun _ _ => none } }
    let frame : CanFrame :=
      { id := ⟨0x123, false, by decide⟩, class' := .data, data := [1, 2], fd := false
        fdFlags := {} }
    PaddingHolds true [database] frame { frame with data := [1, 2] ++ List.replicate 6 0 } := by
  intro first second database frame
  have h_all : ∀ s ∈ [first, second], s.Safe true 8 := by decide
  -- in eight bytes both signals lie
  exact (padding_iff true [database] frame { frame with data := [1, 2] ++ List.replicate 6 0 }
    (List.replicate 6 0) rfl rfl (by decide)).mpr fun _ =>
      safe_of_forall database rfl rfl (fun mux h_mux => by cases h_mux) h_all

/-- One byte more makes the multiplexor readable, which selects a signal that is not safe: the long
frame is not decoded, and the common signal of the short one is lost. -/
theorem padding_counterexample :
    let common : Signal :=
      { name := "Common", multiplexerIndicator := .plain, startBit := 0, size := 8
        byteOrder := .littleEndian, valueType := .unsigned, factor := 1, offset := 0, unit := "" }
    let mux : Signal :=
      { name := "Mux", multiplexerIndicator := .multiplexor, startBit := 8, size := 8
        byteOrder := .littleEndian, valueType := .unsigned, factor := 1, offset := 0, unit := "" }
    let far : Signal :=
      { name := "Far", multiplexerIndicator := .multiplexedSignal 0
        startBit := 0xffffffffffffffff, size := 2, byteOrder := .littleEndian
        valueType := .unsigned, factor := 1, offset := 0, unit := "" }
    let message : Message := { id := ⟨291⟩, name := "Padded", signals := [common, mux, far] }
    let database : LoadedDbc :=
      { name := "vehicle.dbc"
        dbc := { messages := [message]
                 messageMultiplexorSwitch := fun _ => .ok (some mux)
                 valueDescriptionsForSignal := fun _ _ => none } }
    let frame : CanFrame :=
      { id := ⟨0x123, false, by decide⟩, class' := .data, data := [5], fd := false, fdFlags := {} }
    ∀ checks, (∃ decoded, (common, decoded) ∈ values checks database message [5]) ∧
      ¬ PaddingHolds checks [database] frame { frame with data := [5] ++ [0] } := by
  intro common mux far message database frame checks
  have h_all : ∀ checks, ∀ s ∈ [common, mux], s.Safe checks 1 := by decide
  have h_mux : ∀ mux', database.dbc.messageMultiplexorSwitch message.id = .ok (some mux') →
      mux' = mux := fun mux' h_switch => (Option.some.inj (Except.ok.inj h_switch)).symm
  -- the short payload has no multiplexor, so the unsafe signal is inactive
  have h_far : ¬ Active database.dbc message [5] far := by
    rintro ⟨mux', h_switch, h_in, -⟩
    rw [h_mux mux' h_switch] at h_in
    exact absurd h_in (by decide)
  have h_safe : MessageSafe checks database message [5] := by
    refine ⟨fun mux' h_switch => ?_, fun signal h_mem h_active => ?_⟩
    · rw [h_mux mux' h_switch]
      exact (h_all checks mux (by simp)).1
    · rcases List.mem_cons.mp h_mem with rfl | h_mem
      · exact h_all checks common (by simp)
      · rcases List.mem_cons.mp h_mem with rfl | h_mem
        · exact h_all checks mux (by simp)
        · obtain rfl := List.mem_singleton.mp h_mem
          exact absurd h_active h_far
  have h_raw : ∀ checks, extractRaw checks [5] common = .ok 5 := by decide
  obtain ⟨decoded, h_value⟩ :
      ∃ decoded, extractSignal checks database ⟨291⟩ common [5] = .ok decoded := by
    rw [extractSignal, h_raw, ok_bind, if_neg (by decide)]
    exact ⟨_, rfl⟩
  have h_common : (common, decoded) ∈ values checks database message [5] :=
    mem_values.mpr ⟨List.mem_cons_self .., rfl, h_value⟩
  refine ⟨⟨decoded, h_common⟩, fun h_holds => ?_⟩
  have h_frame : Safe checks [database] frame := by
    intro database' message' h_one h_message
    obtain rfl : database = database' := List.head_eq_of_cons_eq h_one
    obtain rfl : message = message' := Option.some.inj h_message
    exact ⟨h_safe.mux, h_safe.signals⟩
  obtain ⟨outcome, h_ok⟩ := h_frame.returns (by decide)
  obtain ⟨outcome', h_ok', -⟩ := h_holds outcome h_ok
  -- the long payload selects it
  have h_selects : Active database.dbc message ([5] ++ [0]) far := ⟨mux, rfl, by decide, by decide⟩
  have h_far_safe := (safe_of_ok (by decide) h_ok' database message rfl rfl).2 far
    (by simp [message]) h_selects
  have h_not_safe : ∀ checks, ¬ far.Safe checks 2 := by decide
  exact h_not_safe checks h_far_safe

end Cantools.Decoder
