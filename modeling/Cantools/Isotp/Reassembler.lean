import Cantools.Framework.Transducer
import Cantools.Isotp.Pdu

/-!
# The reassembler and what it is for

`Reassembler.ingest` is the state machine of `cantools-isotp`, field for field.

Over it stands its purpose: a stream has at any time at most one *transfer*, the last first
frame together with the consecutive frames accepted since (`Transfer`). `Transfer.step` is
the protocol on these terms: a consecutive frame is accepted exactly when the transfer is not
yet complete and the frame carries the next sequence number, and a payload is delivered at
the frame that completes the transfer.

`Represents` relates the three fields of the reassembler to the transfer. The buffer holds
the transfer's bytes only while the transfer is open: once it completes, `take_if_complete`
leaves the surplus bytes in the buffer, and the next first frame clears them.
`Represents.ingest` shows that every `ingest` simulates one `Transfer.step`; all results about
streams of PDUs are read off the transfer.
-/

namespace Cantools.Isotp

open Transducer

/-- The result of ingesting one PDU: an error, nothing yet, or a completed payload. -/
abbrev Outcome := Except IsotpError (Option (List UInt8))

/-! ### The reassembler -/

/-- Reassembles ISO-TP PDUs into full payloads. -/
structure Reassembler where
  totalLen : Option ℕ := none
  nextSeq : UInt8 := 0
  buffer : List UInt8 := []
  deriving DecidableEq, Repr

namespace Reassembler

/-- Hand out the first `total_len` bytes once the buffer holds them, and keep the rest. -/
def takeIfComplete (r : Reassembler) : Option (List UInt8) × Reassembler :=
  match r.totalLen with
  | none => (none, r)
  | some total =>
    if r.buffer.length < total then (none, r)
    else
      -- `split_off` and `swap`: surplus bytes stay in the buffer until the next first frame
      (some (r.buffer.take total), { r with totalLen := none, buffer := r.buffer.drop total })

/-- Ingest one PDU. Returns a completed payload when the transfer finishes. -/
def ingest (r : Reassembler) : ProtocolDataUnit → Outcome × Reassembler
  | .singleFrame payload => (.ok (some payload), r)
  | .firstFrame totalLen payload =>
    let (done, r') :=
      -- every field is replaced, also in the middle of another transfer
      takeIfComplete { r with totalLen := some totalLen, nextSeq := 1, buffer := payload }
    (.ok done, r')
  | .consecutiveFrame sequenceNumber payload =>
    if r.totalLen.isNone then (.error .unexpectedConsecutiveFrame, r)
    else if sequenceNumber ≠ r.nextSeq then
      -- the transfer stays active after a mismatch
      (.error (.sequenceNumberMismatch r.nextSeq sequenceNumber), r)
    else
      let (done, r') := takeIfComplete
        { r with buffer := r.buffer ++ payload, nextSeq := nextSequence r.nextSeq }
      (.ok done, r')
  | .flowControl _ _ _ => (.ok none, r)

end Reassembler

/-! ### Transfers -/

/-- The `k`-th consecutive frame of a transfer, counted from `1`, carries this number. -/
def sequenceNumber (k : ℕ) : UInt8 := (k % 16).toUInt8

theorem nextSequence_sequenceNumber (k : ℕ) :
    nextSequence (sequenceNumber k) = sequenceNumber (k + 1) := by
  apply UInt8.toNat_inj.mp
  have h_mask : ∀ x : ℕ, x &&& 15 = x % 16 := fun x => Nat.and_two_pow_sub_one_eq_mod x 4
  simp only [nextSequence, sequenceNumber, UInt8.toNat_and, UInt8.toNat_add]
  simp only [Nat.toUInt8_eq, UInt8.toNat_ofNat', UInt8.reduceToNat, h_mask]
  omega

theorem sequenceNumber_le (k : ℕ) : sequenceNumber k ≤ 15 := by
  refine UInt8.le_iff_toNat_le.mpr ?_
  simp only [sequenceNumber, Nat.toUInt8_eq, UInt8.toNat_ofNat', UInt8.reduceToNat]
  omega

/-- Neighbouring frames carry different numbers. -/
theorem sequenceNumber_ne_succ (k : ℕ) : sequenceNumber k ≠ sequenceNumber (k + 1) := by
  intro h
  have h_nat := congrArg UInt8.toNat h
  simp only [sequenceNumber, Nat.toUInt8_eq, UInt8.toNat_ofNat'] at h_nat
  omega

/-- A transfer: its first frame and the consecutive frames accepted since, oldest first, each
with its sequence number. -/
structure Transfer where
  totalLen : ℕ
  first : List UInt8
  accepted : List (UInt8 × List UInt8)
  deriving DecidableEq, Repr

namespace Transfer

/-- The first frame's payload followed by the accepted payloads. -/
def bytes (t : Transfer) : List UInt8 := t.first ++ (t.accepted.map Prod.snd).flatten

/-- The sequence number the transfer waits for. -/
def expected (t : Transfer) : UInt8 := sequenceNumber (t.accepted.length + 1)

/-- The transfer with one more accepted frame. -/
def accept (t : Transfer) (seq : UInt8) (payload : List UInt8) : Transfer :=
  { t with accepted := t.accepted ++ [(seq, payload)] }

/-- The transfer still waits for bytes. -/
def Open (t : Transfer) : Prop := t.bytes.length < t.totalLen

instance (t : Transfer) : Decidable t.Open := inferInstanceAs (Decidable (_ < _))

/-- The payload handed out at the frame that completes the transfer. -/
def delivered (t : Transfer) : Option (List UInt8) :=
  if t.Open then none else some (t.bytes.take t.totalLen)

/-- One PDU, on the transfer a stream has: `none` before the first first frame. -/
def step : Option Transfer → ProtocolDataUnit → Outcome × Option Transfer
  | h, .singleFrame payload => (.ok (some payload), h)
  | _, .firstFrame totalLen payload =>
    let t : Transfer := ⟨totalLen, payload, []⟩
    (.ok t.delivered, some t)
  | none, .consecutiveFrame _ _ => (.error .unexpectedConsecutiveFrame, none)
  | some t, .consecutiveFrame seq payload =>
    if ¬ t.Open then (.error .unexpectedConsecutiveFrame, some t)
    else if seq ≠ t.expected then (.error (.sequenceNumberMismatch t.expected seq), some t)
    else (.ok (t.accept seq payload).delivered, some (t.accept seq payload))
  | h, .flowControl _ _ _ => (.ok none, h)

@[simp] theorem bytes_accept (t : Transfer) (seq : UInt8) (payload : List UInt8) :
    (t.accept seq payload).bytes = t.bytes ++ payload := by
  simp [bytes, accept, List.append_assoc]

@[simp] theorem totalLen_accept (t : Transfer) (seq : UInt8) (payload : List UInt8) :
    (t.accept seq payload).totalLen = t.totalLen := rfl

theorem expected_accept (t : Transfer) (seq : UInt8) (payload : List UInt8) :
    (t.accept seq payload).expected = nextSequence t.expected := by
  rw [expected, expected, nextSequence_sequenceNumber]
  simp [accept]

theorem delivered_of_open {t : Transfer} (h : t.Open) : t.delivered = none := if_pos h

theorem delivered_of_not_open {t : Transfer} (h : ¬ t.Open) :
    t.delivered = some (t.bytes.take t.totalLen) := if_neg h

theorem delivered_eq_some_iff {t : Transfer} {x : List UInt8} :
    t.delivered = some x ↔ ¬ t.Open ∧ x = t.bytes.take t.totalLen := by
  by_cases h : t.Open
  · simp [delivered_of_open h, h]
  · rw [delivered_of_not_open h, Option.some.injEq]
    exact ⟨fun h_eq => ⟨h, h_eq.symm⟩, fun h_eq => h_eq.2.symm⟩

/-- **What one PDU does to the transfer.** Either it leaves the transfer alone, and then it is
no first frame, or it starts a transfer, or it is the awaited frame of an open one. -/
theorem step_cases (h : Option Transfer) (pdu : ProtocolDataUnit) :
    (step h pdu).2 = h ∧ (∀ n p, pdu ≠ .firstFrame n p) ∧
        ((∃ p, pdu = .singleFrame p ∧ (step h pdu).1 = .ok (some p)) ∨
          (step h pdu).1 = .ok none ∨ ∃ e, (step h pdu).1 = .error e) ∨
      (∃ n p, pdu = .firstFrame n p ∧
        step h pdu = (.ok (delivered ⟨n, p, []⟩), some ⟨n, p, []⟩)) ∨
      (∃ t p, h = some t ∧ t.Open ∧ pdu = .consecutiveFrame t.expected p ∧
        step h pdu = (.ok (t.accept t.expected p).delivered, some (t.accept t.expected p))) := by
  cases pdu with
  | singleFrame p => exact .inl ⟨rfl, by simp, .inl ⟨p, rfl, rfl⟩⟩
  | firstFrame n p => exact .inr (.inl ⟨n, p, rfl, rfl⟩)
  | flowControl s b m => exact .inl ⟨rfl, by simp, .inr (.inl rfl)⟩
  | consecutiveFrame seq p =>
    -- the guards of `ingest` in their order: an open transfer, then the number
    cases h with
    | none => exact .inl ⟨rfl, by simp, .inr (.inr ⟨_, rfl⟩)⟩
    | some t =>
      by_cases h_open : t.Open
      · by_cases h_seq : seq = t.expected
        · subst h_seq
          refine .inr (.inr ⟨t, p, rfl, h_open, rfl, ?_⟩)
          simp [step, h_open]
        · refine .inl ⟨?_, by simp, .inr (.inr ⟨.sequenceNumberMismatch t.expected seq, ?_⟩)⟩ <;>
            simp [step, h_open, h_seq]
      · refine .inl ⟨?_, by simp, .inr (.inr ⟨.unexpectedConsecutiveFrame, ?_⟩)⟩ <;>
          simp [step, h_open]

end Transfer

/-! ### The reassembler simulates the transfer -/

/-- The state of the reassembler when the stream has the given transfer. -/
def Represents (r : Reassembler) : Option Transfer → Prop
  | none => r.totalLen = none ∧ r.nextSeq ≤ 15
  | some t => r.nextSeq = t.expected ∧
      (t.Open → r.totalLen = some t.totalLen ∧ r.buffer = t.bytes) ∧
      (¬ t.Open → r.totalLen = none)

namespace Represents

theorem initial : Represents {} none := ⟨rfl, by decide⟩

/-- `take_if_complete`, on the fields of a transfer that may just have been completed. -/
theorem takeIfComplete {r : Reassembler} {t : Transfer} (h_total : r.totalLen = some t.totalLen)
    (h_seq : r.nextSeq = t.expected) (h_buffer : r.buffer = t.bytes) :
    r.takeIfComplete.1 = t.delivered ∧ Represents r.takeIfComplete.2 (some t) := by
  unfold Reassembler.takeIfComplete
  rw [h_total]
  by_cases h_open : t.Open
  · have h_lt : r.buffer.length < t.totalLen := by rw [h_buffer]; exact h_open
    simp only [if_pos h_lt, Transfer.delivered_of_open h_open]
    exact ⟨trivial, h_seq, fun _ => ⟨h_total, h_buffer⟩, fun h => absurd h_open h⟩
  · have h_ge : ¬ t.bytes.length < t.totalLen := h_open
    simp only [h_buffer, if_neg h_ge, Transfer.delivered_of_not_open h_open]
    exact ⟨trivial, h_seq, fun h => absurd h h_open, fun _ => rfl⟩

/-- A first frame opens its transfer from whatever state the reassembler is in. -/
theorem firstFrame (r : Reassembler) (n : ℕ) (p : List UInt8) :
    (r.ingest (.firstFrame n p)).1 = .ok (Transfer.delivered ⟨n, p, []⟩) ∧
      Represents (r.ingest (.firstFrame n p)).2 (some ⟨n, p, []⟩) := by
  have h := takeIfComplete (t := ⟨n, p, []⟩)
    (r := { r with totalLen := some n, nextSeq := 1, buffer := p }) rfl rfl
    (by simp [Transfer.bytes])
  exact ⟨congrArg Except.ok h.1, h.2⟩

/-- **One step.** `ingest` answers as the transfer does and keeps representing it. -/
theorem ingest {r : Reassembler} {h : Option Transfer} (h_rep : Represents r h)
    (pdu : ProtocolDataUnit) :
    (r.ingest pdu).1 = (Transfer.step h pdu).1 ∧
      Represents (r.ingest pdu).2 (Transfer.step h pdu).2 := by
  cases pdu with
  | singleFrame p => exact ⟨rfl, h_rep⟩
  | firstFrame n p => exact firstFrame r n p
  | flowControl s b m => exact ⟨rfl, h_rep⟩
  | consecutiveFrame seq p =>
    -- the two machines test the same thing: `total_len` is set exactly while the transfer is open
    cases h with
    | none =>
      have h_none : r.totalLen.isNone = true := by rw [h_rep.1]; rfl
      simp only [Reassembler.ingest, Transfer.step, if_pos h_none]
      exact ⟨trivial, h_rep⟩
    | some t =>
      obtain ⟨h_seq, h_open, h_closed⟩ := h_rep
      by_cases h_t : t.Open
      · have h_some : ¬ r.totalLen.isNone = true := by simp [(h_open h_t).1]
        simp only [Reassembler.ingest, Transfer.step, if_neg h_some, if_neg (not_not.mpr h_t),
          h_seq]
        by_cases h_eq : seq = t.expected
        · -- accepted: the buffer grows as the transfer's bytes do
          have h_take := takeIfComplete (t := t.accept seq p)
            (r := { r with buffer := r.buffer ++ p, nextSeq := nextSequence r.nextSeq })
            (h_open h_t).1 (by rw [Transfer.expected_accept, h_seq])
            (by rw [Transfer.bytes_accept, (h_open h_t).2])
          rw [h_seq] at h_take
          simp only [ne_eq, h_eq, not_true_eq_false, if_false] at h_take ⊢
          exact ⟨congrArg Except.ok h_take.1, h_take.2⟩
        · simp only [ne_eq, h_eq, not_false_eq_true, if_true]
          exact ⟨trivial, h_seq, h_open, h_closed⟩
      · have h_none : r.totalLen.isNone = true := by rw [h_closed h_t]; rfl
        simp only [Reassembler.ingest, Transfer.step, if_pos h_none, if_pos h_t]
        exact ⟨trivial, h_seq, h_open, h_closed⟩

/-- The bound on the sequence number and the shape of an active buffer, read off the
transfer. -/
theorem bounds {r : Reassembler} {h : Option Transfer} (h_rep : Represents r h) :
    r.nextSeq ≤ 15 ∧ ∀ total, r.totalLen = some total → r.buffer.length < total := by
  cases h with
  | none => exact ⟨h_rep.2, fun total h_total => by rw [h_rep.1] at h_total; cases h_total⟩
  | some t =>
    obtain ⟨h_seq, h_open, h_closed⟩ := h_rep
    refine ⟨h_seq ▸ sequenceNumber_le _, fun total h_total => ?_⟩
    by_cases h_t : t.Open
    · rw [(h_open h_t).1, Option.some.injEq] at h_total
      rw [(h_open h_t).2, ← h_total]
      exact h_t
    · rw [h_closed h_t] at h_total
      cases h_total

end Represents

/-- From represented states the two machines answer every stream alike. -/
theorem outputs_ingest {r : Reassembler} {h : Option Transfer} (h_rep : Represents r h)
    (pdus : List ProtocolDataUnit) :
    outputs Reassembler.ingest r pdus = outputs Transfer.step h pdus :=
  outputs_eq_of_simulation (R := Represents) (fun _ _ pdu h' => (h'.ingest pdu).1)
    (fun _ _ pdu h' => (h'.ingest pdu).2) h_rep pdus

/-- After any stream the reassembler represents the stream's transfer. -/
theorem final_represents {r : Reassembler} {h : Option Transfer} (h_rep : Represents r h)
    (pdus : List ProtocolDataUnit) :
    Represents (final Reassembler.ingest r pdus) (final Transfer.step h pdus) :=
  final_of_simulation (R := Represents) (fun _ _ pdu h' => (h'.ingest pdu).2) h_rep pdus

end Cantools.Isotp
