import Cantools.Codec.AscFidelity

/-!
# Where the frames of an ASC log come from

`Traced` is the property that no frame of a report is made up: every line of content has its own
part of the report, which is one event that the line states (`States`), or one note. A line states
an event if its kind is one of the four that the format has, and if the payload of a data frame
has the declared length and the values of the words behind it.

The reader takes any other kind for a data frame without a payload, and takes what words there
are for a payload that was declared longer. `Stated` excludes exactly these lines
(`readAsc_traced_iff`).
-/

namespace Cantools.Codec.Asc

open Numeral Program Text

variable {float : FloatText}

/-! ### Lines that state an event -/

/-- A kind of a data frame. -/
def IsDataKind (frameKind : List Char) : Prop :=
  eqIgnoreAsciiCase frameKind "d".toList ∨ eqIgnoreAsciiCase frameKind "fd".toList

/-- One of the four kinds of the format. -/
def IsKind (frameKind : List Char) : Prop :=
  IsDataKind frameKind ∨ eqIgnoreAsciiCase frameKind "r".toList ∨
    eqIgnoreAsciiCase frameKind "error".toList

/-- A word that is the hexadecimal value of a byte. -/
def IsByte (token : List Char) (byte : UInt8) : Prop :=
  fromStrRadix 16 (2 ^ 8) token = .ok byte.toNat

/-- A line that the reader looks at: not blank, no header, footer or comment. -/
def IsContent (line : List Char) : Prop :=
  ¬ (trim line = [] ∨ ∃ start ∈ skippedStarts, start <+: trim line)

/-- The line states this event: its fifth word is a kind, and if that is one of a data frame, the
payload has as many bytes as the sixth word says and is made of the words behind it. -/
def States (line : List Char) (event : CaptureEvent) : Prop :=
  ∃ time name id direction frameKind len tokens,
    splitWhitespace (trim line) = time :: name :: id :: direction :: frameKind :: len :: tokens ∧
    IsKind frameKind ∧
    (IsDataKind frameKind → ∃ declared, parseNumber "dlc" 10 (2 ^ 64) len = .ok declared ∧
      event.frame.data.length = declared ∧
      List.Forall₂ IsByte (tokens.take declared) event.frame.data)

/-- What a line may add to a report: a line of content adds an event that it states, or a note;
any other line adds nothing. -/
inductive Yields (line : List Char) : ReadReport → Prop where
  | skip : ¬ IsContent line → Yields line noReport
  | event {event : CaptureEvent} : IsContent line → States line event →
      Yields line { events := [event], notes := [] }
  | note (note : FidelityNote) : IsContent line → Yields line { events := [], notes := [note] }

/-- The report is made of what each line adds to an empty report, in order, and no line adds more
than it may. -/
def Traced (float : FloatText) (log : List Char) (report : ReadReport) : Prop :=
  ∃ parts, List.Forall₂ (fun line part => readLine float noReport line = .ok part ∧
      Yields line part) (lines log) parts ∧
    report = parts.foldr behind noReport

/-! ### The payload of a line -/

/-- A number that was parsed is the value of its word. -/
theorem parseNumber_eq_ok {what : String} {radix bound : ℕ} {word : List Char} {n : ℕ}
    (h : parseNumber what radix bound word = .ok n) : fromStrRadix radix bound word = .ok n := by
  rw [parseNumber] at h
  cases h_read : fromStrRadix radix bound word with
  | error e =>
    rw [h_read] at h
    cases h
  | ok m =>
    rw [h_read] at h
    cases h
    rfl

/-- The parser of a payload takes the words as far as there are any. -/
theorem parseData_eq_ok {frameKind len : List Char} {tokens : List (List Char)}
    {data : List UInt8} (h : parseData frameKind len tokens = .ok data)
    (h_kind : IsDataKind frameKind) :
    ∃ declared, parseNumber "dlc" 10 (2 ^ 64) len = .ok declared ∧
      List.Forall₂ IsByte (tokens.take declared) data := by
  have h_kind' : eqIgnoreAsciiCase frameKind "d".toList ∨
      eqIgnoreAsciiCase frameKind "fd".toList := h_kind
  rw [parseData, if_pos h_kind'] at h
  obtain ⟨declared, h_len, h⟩ := bind_eq_ok_iff.mp h
  refine ⟨declared, h_len, (mapM_eq_ok_iff.mp h).imp fun token byte h_token => ?_⟩
  obtain ⟨value, h_value, h_byte⟩ := bind_eq_ok_iff.mp h_token
  cases h_byte
  have h_read := parseNumber_eq_ok h_value
  have h_lt : value < 2 ^ 8 := fromStrRadix_lt (by decide) h_read
  rw [IsByte, h_read, Nat.toUInt8_eq, UInt8.toNat_ofNat', Nat.mod_eq_of_lt h_lt]

/-! ### One line -/

/-- A line of content with six words or more has a kind of the format, and a data frame has as many
words behind its length as that says. -/
def Stated (line : List Char) : Prop :=
  IsContent line → ∀ time name id direction frameKind len tokens,
    splitWhitespace (trim line) = time :: name :: id :: direction :: frameKind :: len :: tokens →
    IsKind frameKind ∧ (IsDataKind frameKind →
      ∀ declared, parseNumber "dlc" 10 (2 ^ 64) len = .ok declared → declared ≤ tokens.length)

/-- The event that is read from a line is one that it states exactly if the line is a stated
one. -/
theorem states_iff_stated {line time name id direction frameKind len : List Char}
    {tokens : List (List Char)} {read : CaptureEvent} (h_content : IsContent line)
    (h_words : splitWhitespace (trim line)
      = time :: name :: id :: direction :: frameKind :: len :: tokens)
    (h_read : parseEvent float time name id direction frameKind len tokens = .ok read) :
    States line read ↔ Stated line := by
  obtain ⟨seconds, parsed, dir, data, -, -, -, h_data, -, rfl⟩ := parseEvent_cases h_read
  constructor
  · rintro ⟨_, _, _, _, _, _, _, h_words', h_kind, h_payload⟩ - _ _ _ _ _ _ _ h_words''
    cases h_words'.symm.trans h_words''
    refine ⟨h_kind, fun h_isData declared h_len => ?_⟩
    obtain ⟨declared', h_len', h_length, h_bytes⟩ := h_payload h_isData
    cases h_len.symm.trans h_len'
    -- as many bytes as were declared, and each of them has its word
    have h_count := h_bytes.length_eq
    rw [h_length, List.length_take] at h_count
    omega
  · intro h_stated
    obtain ⟨h_kind, h_enough⟩ := h_stated h_content _ _ _ _ _ _ _ h_words
    refine ⟨_, _, _, _, _, _, _, h_words, h_kind, fun h_isData => ?_⟩
    obtain ⟨declared, h_len, h_bytes⟩ := parseData_eq_ok h_data h_isData
    refine ⟨declared, h_len, ?_, h_bytes⟩
    have h_le := h_enough h_isData declared h_len
    rw [← h_bytes.length_eq, List.length_take, Nat.min_eq_left h_le]

/-- **One line.** What a line adds is what it may add exactly if it is a stated one. -/
theorem yields_iff_stated {line : List Char} {part : ReadReport}
    (h : readLine float noReport line = .ok part) : Yields line part ↔ Stated line := by
  simp only [readLine] at h
  split at h
  · next h_skip =>
    -- a line that is passed over yields nothing
    have h_not : ¬ IsContent line := not_not.mpr h_skip
    cases h
    exact ⟨fun _ h_content => absurd h_content h_not, fun _ => .skip h_not⟩
  · next h_content =>
    split at h
    · next time name id direction frameKind len tokens h_words =>
      obtain ⟨read, h_read, h⟩ := bind_eq_ok_iff.mp h
      cases h
      -- an event line yields its event, which states what the words say
      rw [← states_iff_stated h_content h_words h_read]
      refine ⟨fun h_yields => ?_, .event h_content⟩
      cases h_yields with
      | event _ h_states => exact h_states
    · next h_few =>
      cases h
      refine ⟨fun _ _ _ _ _ _ _ _ _ h_words => ?_, fun _ => .note _ h_content⟩
      exact absurd h_words (h_few _ _ _ _ _ _ _)

/-! ### A log -/

/-- The reader returns what its lines add. -/
theorem readLines_eq_ok_iff {ls : List (List Char)} {report : ReadReport} :
    readLines float ls = .ok report ↔ ∃ parts,
      List.Forall₂ (fun line part => readLine float noReport line = .ok part) ls parts ∧
        report = parts.foldr behind noReport := by
  induction ls generalizing report with
  | nil =>
    constructor
    · intro h
      cases h
      exact ⟨[], .nil, rfl⟩
    · rintro ⟨parts, h_parts, rfl⟩
      cases h_parts
      rfl
  | cons line ls ih =>
    rw [readLines, List.foldlM_cons, bind_eq_ok_iff]
    constructor
    · rintro ⟨part, h_part, h⟩
      rw [foldlM_readLine] at h
      -- the rest is read as if it stood alone, and put behind the first part
      obtain ⟨later, h_later, h⟩ := bind_eq_ok_iff.mp h
      cases h
      obtain ⟨parts, h_parts, rfl⟩ := ih.mp h_later
      exact ⟨part :: parts, .cons h_part h_parts, rfl⟩
    · rintro ⟨parts, h_parts, rfl⟩
      cases h_parts with
      | cons h_part h_parts =>
        refine ⟨_, h_part, ?_⟩
        rw [foldlM_readLine, ih.mpr ⟨_, h_parts, rfl⟩, ok_bind]
        rfl

/-- **Which logs are traced**: those with a line that the reader does not accept, which are not
read at all, and those whose lines are all stated. -/
theorem readAsc_traced_iff (float : FloatText) (log : List Char) :
    (∀ report, readAsc float log = .ok report → Traced float log report) ↔
      ((∀ line ∈ lines log, Accepted float line) → ∀ line ∈ lines log, Stated line) := by
  constructor
  · -- each line yields what it states, if the whole log is read
    intro h_traced h_accepted
    obtain ⟨report, h_report⟩ := readLines_ok_iff.mpr h_accepted
    obtain ⟨parts, h_parts, -⟩ := h_traced report h_report
    have h_stated := h_parts.imp fun line part h =>
      (⟨(yields_iff_stated h.1).mp h.2, h.1⟩ :
        Stated line ∧ readLine float noReport line = .ok part)
    exact ((List.forall₂_and_left _ _).mp h_stated).1
  · -- the report is put together from those of the lines
    intro h_stated report h_report
    have h_accepted := readLines_ok_iff.mp ⟨report, h_report⟩
    obtain ⟨parts, h_parts, rfl⟩ := readLines_eq_ok_iff.mp h_report
    refine ⟨parts, ?_, rfl⟩
    have h_both := (List.forall₂_and_left _ _).mpr ⟨h_stated h_accepted, h_parts⟩
    exact h_both.imp fun line part h => ⟨h.2, (yields_iff_stated h.2).mpr h.1⟩

/-- A line that declares eight bytes and has one: it is read as a frame with one byte. -/
theorem readAsc_traced_counterexample :
    let log := "1.000000 can0 123 Rx d 8 11".toList
    ∃ report, readAsc oneSecond log = .ok report ∧ ¬ Traced oneSecond log report := by
  intro log
  refine ⟨_, rfl, ?_⟩
  rintro ⟨parts, h_parts, -⟩
  have h_lines : lines log = [log] := by decide
  rw [h_lines] at h_parts
  obtain ⟨part, _, ⟨h_part, h_yields⟩, -, -⟩ := List.forall₂_cons_left_iff.mp h_parts
  -- eight bytes are declared, and one word is there
  have h_content : IsContent log := by
    rw [IsContent]
    decide
  have h_words : splitWhitespace (trim log) = ["1.000000".toList, "can0".toList, "123".toList,
      "Rx".toList, "d".toList, "8".toList, "11".toList] := by decide
  have h_stated := ((yields_iff_stated h_part).mp h_yields h_content _ _ _ _ _ _ _ h_words).2
  exact absurd (h_stated (.inl (by decide)) 8 (by decide)) (by decide)

end Cantools.Codec.Asc
