import Cantools.Isotp.Reassembler

/-!
# What an answered stream says about the reassembler

The PDUs a reassembler has been given, each with its answer, determine the transfer of the
stream without looking at the reassembler (`history`): the last first frame, and the
consecutive frames answered without error since. This is the history variable of the
refinement. It is the transfer the reassembler represents (`history_trace`), so
`reassembler_refines` can speak about every stream, hostile or lossy, in terms of its PDUs and
answers alone:

* the bounds on the sequence number and on the buffer of an active transfer;
* rejected PDUs, single frames and flow control leave no mark;
* a payload is handed out exactly where the history reaches its announced length for the first
  time, and the accepted frames are numbered without gap.
-/

namespace Cantools.Isotp

open Transducer

/-- The PDU starts or continues a transfer. -/
def ProtocolDataUnit.isTransfer : ProtocolDataUnit → Bool
  | .firstFrame _ _ | .consecutiveFrame _ _ => true
  | .singleFrame _ | .flowControl _ _ _ => false

/-- The PDU starts or continues a transfer and was answered without error. -/
def counts : ProtocolDataUnit × Outcome → Bool
  | (pdu, .ok _) => pdu.isTransfer
  | (_, .error _) => false

/-- The history variable: a first frame starts a new transfer, and a consecutive frame belongs
to it when it was answered without error. -/
def historyStep : Option Transfer → ProtocolDataUnit × Outcome → Option Transfer
  | _, (.firstFrame totalLen payload, _) => some ⟨totalLen, payload, []⟩
  -- an answer without error is what makes the frame part of the transfer
  | h, (.consecutiveFrame seq payload, .ok _) => h.map (·.accept seq payload)
  | h, _ => h

/-- The transfer described by a stream of answered PDUs. -/
def history (answered : List (ProtocolDataUnit × Outcome)) : Option Transfer :=
  answered.foldl historyStep none

/-- A PDU takes the bytes of the transfer to the announced length for the first time, and `x`
is what was announced: a first frame does it alone, a consecutive frame on top of a transfer
that was still short. -/
def CompletesAt (before : Option Transfer) (pdu : ProtocolDataUnit) (after : Option Transfer)
    (x : List UInt8) : Prop :=
  ∃ t, after = some t ∧ t.totalLen ≤ t.bytes.length ∧ x = t.bytes.take t.totalLen ∧
    ∀ seq payload, pdu = .consecutiveFrame seq payload →
      ∃ t₀, before = some t₀ ∧ t₀.bytes.length < t₀.totalLen

/-- The accepted frames of a transfer carry the numbers `1, 2, …, 15, 0, 1, …`. -/
def Numbered (t : Transfer) : Prop :=
  t.accepted.map Prod.fst
    = (List.range t.accepted.length).map fun k => sequenceNumber (k + 1)

/-! ### The history is the transfer -/

/-- One step of the history, fed with the transfer's own answer. -/
theorem historyStep_step (h : Option Transfer) (pdu : ProtocolDataUnit) :
    historyStep h (pdu, (Transfer.step h pdu).1) = (Transfer.step h pdu).2 := by
  cases pdu with
  | singleFrame p => rfl
  | firstFrame n p => rfl
  | flowControl s b m => rfl
  | consecutiveFrame seq p =>
    cases h with
    | none => rfl
    | some t =>
      by_cases h_open : t.Open
      · by_cases h_seq : seq = t.expected <;>
          simp [Transfer.step, historyStep, h_open, h_seq]
      · simp [Transfer.step, historyStep, h_open]

/-- The history of a stream is the transfer the reassembler represents. -/
theorem foldl_historyStep_trace {r : Reassembler} {h : Option Transfer} (h_rep : Represents r h)
    (pdus : List ProtocolDataUnit) :
    (trace Reassembler.ingest r pdus).foldl historyStep h = final Transfer.step h pdus := by
  -- along the stream: the history and the transfer start equal and step alike
  induction pdus generalizing r h with
  | nil => rfl
  | cons pdu pdus ih =>
    obtain ⟨h_out, h_next⟩ := h_rep.ingest pdu
    rw [trace_cons, List.foldl_cons, h_out, historyStep_step]
    exact ih h_next

theorem history_trace (pdus : List ProtocolDataUnit) :
    history (trace Reassembler.ingest {} pdus) = final Transfer.step none pdus :=
  foldl_historyStep_trace Represents.initial pdus

/-! ### Transfers under one PDU -/

/-- PDUs that do not count leave the reassembler alone. -/
theorem ingest_of_not_counts {r : Reassembler} {pdu : ProtocolDataUnit}
    (h : counts (pdu, (r.ingest pdu).1) = false) : (r.ingest pdu).2 = r := by
  cases pdu with
  | singleFrame p => rfl
  | flowControl s b m => rfl
  | firstFrame n p => exact absurd h (by simp [Reassembler.ingest, counts,
      ProtocolDataUnit.isTransfer])
  -- a frame that is refused changes nothing, and one that is accepted counts
  | consecutiveFrame seq p =>
    by_cases h_none : r.totalLen.isNone = true
    · simp only [Reassembler.ingest, if_pos h_none]
    · by_cases h_seq : seq ≠ r.nextSeq
      · simp only [Reassembler.ingest, if_neg h_none, if_pos h_seq]
      · simp only [Reassembler.ingest, if_neg h_none, if_neg h_seq] at h
        exact absurd h (by simp [counts, ProtocolDataUnit.isTransfer])

/-- A payload is handed out for a first or consecutive frame exactly where the transfer
reaches its length for the first time. -/
theorem step_delivers_iff {h : Option Transfer} {pdu : ProtocolDataUnit}
    (h_pdu : pdu.isTransfer = true) (x : List UInt8) :
    (Transfer.step h pdu).1 = .ok (some x) ↔
      CompletesAt h pdu (Transfer.step h pdu).2 x := by
  cases pdu with
  | singleFrame p => cases h_pdu
  | flowControl s b m => cases h_pdu
  | firstFrame n p =>
    simp only [Transfer.step, Except.ok.injEq, Transfer.delivered_eq_some_iff, CompletesAt,
      Transfer.Open, Nat.not_lt]
    constructor
    · -- a first frame delivers if it already has the whole length
      rintro ⟨h_len, rfl⟩
      exact ⟨_, rfl, h_len, rfl, by simp⟩
    · rintro ⟨t, h_t, h_len, rfl, -⟩
      obtain rfl := Option.some.inj h_t
      exact ⟨h_len, rfl⟩
  | consecutiveFrame seq p =>
    cases h with
    | none =>
      simp [Transfer.step, CompletesAt]
    | some t =>
      by_cases h_open : t.Open
      · by_cases h_seq : seq = t.expected
        · subst h_seq
          -- the awaited frame is accepted, and delivers if it closes the transfer
          have h_step : Transfer.step (some t) (.consecutiveFrame t.expected p)
              = (.ok (t.accept t.expected p).delivered, some (t.accept t.expected p)) := by
            simp [Transfer.step, h_open]
          rw [h_step, Except.ok.injEq, Transfer.delivered_eq_some_iff]
          constructor
          · rintro ⟨h_closed, rfl⟩
            exact ⟨_, rfl, Nat.not_lt.mp h_closed, rfl, fun _ _ _ => ⟨t, rfl, h_open⟩⟩
          · rintro ⟨t', h_t', h_len, rfl, -⟩
            obtain rfl := Option.some.inj h_t'
            exact ⟨Nat.not_lt.mpr h_len, rfl⟩
        · -- a wrong number leaves the transfer open
          simp only [Transfer.step, if_neg (not_not.mpr h_open), ne_eq, h_seq, not_false_eq_true,
            if_true, reduceCtorEq, false_iff]
          rintro ⟨t', h_t', h_len, -, -⟩
          obtain rfl := Option.some.inj h_t'
          exact Nat.not_lt.mpr h_len h_open
      · -- a completed transfer does not complete again
        simp only [Transfer.step, if_pos h_open, reduceCtorEq, false_iff]
        rintro ⟨t', -, -, -, h_first⟩
        obtain ⟨t₀, h_t₀, h_short⟩ := h_first seq p rfl
        obtain rfl := Option.some.inj h_t₀
        exact h_open h_short

/-- A consecutive frame is accepted exactly as the awaited one of a transfer that is still short. -/
theorem step_accepts_iff (h : Option Transfer) (seq : UInt8) (payload : List UInt8) :
    (∃ x, (Transfer.step h (.consecutiveFrame seq payload)).1 = .ok x) ↔
      ∃ t, h = some t ∧ t.bytes.length < t.totalLen ∧
        seq = sequenceNumber (t.accepted.length + 1) := by
  cases h with
  | none => simp [Transfer.step]
  | some t =>
    simp only [Option.some.injEq, exists_eq_left']
    -- the two guards in their order
    by_cases h_open : t.Open
    · by_cases h_seq : seq = t.expected
      · simp only [Transfer.step, if_neg (not_not.mpr h_open), h_seq, ne_eq, not_true_eq_false,
          if_false]
        exact ⟨fun _ => ⟨h_open, rfl⟩, fun _ => ⟨_, rfl⟩⟩
      · simp only [Transfer.step, if_neg (not_not.mpr h_open), ne_eq, h_seq, not_false_eq_true,
          if_true]
        refine ⟨fun h => ?_, fun h => absurd h.2 h_seq⟩
        obtain ⟨x, h_x⟩ := h
        cases h_x
    · simp only [Transfer.step, if_pos h_open]
      refine ⟨fun h => ?_, fun h => absurd h.1 h_open⟩
      obtain ⟨x, h_x⟩ := h
      cases h_x

/-- Every PDU keeps the accepted frames numbered. -/
theorem step_numbered {h : Option Transfer} (h_num : ∀ t, h = some t → Numbered t)
    (pdu : ProtocolDataUnit) : ∀ t, (Transfer.step h pdu).2 = some t → Numbered t := by
  intro t h_t
  rcases Transfer.step_cases h pdu with ⟨h_same, -⟩ | ⟨n, p, -, h_step⟩ |
      ⟨t₀, p, rfl, -, -, h_step⟩
  · -- nothing has changed
    exact h_num t (h_same ▸ h_t)
  · -- a first frame starts the numbers over
    rw [h_step] at h_t
    obtain rfl := Option.some.inj h_t
    rfl
  · -- an accepted frame has the next number
    rw [h_step] at h_t
    obtain rfl := Option.some.inj h_t
    have h_t₀ := h_num t₀ rfl
    unfold Numbered at h_t₀ ⊢
    simp only [Transfer.accept, List.map_append, List.map_cons, List.map_nil,
      List.length_append, List.length_singleton, List.range_succ, h_t₀]
    rfl

/-! ### The refinement -/

/-- **Refinement over arbitrary streams.** After any finite sequence of PDUs ingested from the
default reassembler, with `answered` the PDUs and their answers:

* the sequence number is at most `15` and an active transfer is short of its length;
* a PDU that is answered with an error, or is a single frame or flow control, leaves the
  reassembler as it was, and deleting all of these from the stream changes neither the answers
  to the others nor the final state;
* a first or consecutive frame is answered with a payload exactly when it takes the history to
  its announced length for the first time, and the payload is the announced prefix; the
  accepted frames carry the numbers `1, 2, …, 15, 0, 1, …`;
* a consecutive frame is accepted exactly when the history is still short of its announced length
  and the frame carries the next of these numbers. -/
theorem reassembler_refines (pdus : List ProtocolDataUnit) :
    let r := final Reassembler.ingest {} pdus
    let answered := trace Reassembler.ingest {} pdus
    (r.nextSeq ≤ 15 ∧ ∀ total, r.totalLen = some total → r.buffer.length < total) ∧
    ((∀ pdu, (∃ e, (r.ingest pdu).1 = .error e) ∨ pdu.isTransfer = false →
        (r.ingest pdu).2 = r) ∧
      outputs Reassembler.ingest {} ((answered.filter counts).map Prod.fst)
        = (answered.filter counts).map Prod.snd ∧
      final Reassembler.ingest {} ((answered.filter counts).map Prod.fst) = r) ∧
    ((∀ pdu x, pdu.isTransfer = true →
        ((r.ingest pdu).1 = .ok (some x) ↔
          CompletesAt (history answered) pdu
            (history (answered ++ [(pdu, (r.ingest pdu).1)])) x)) ∧
      (∀ t, history answered = some t → Numbered t) ∧
      ∀ seq payload, (∃ x, (r.ingest (.consecutiveFrame seq payload)).1 = .ok x) ↔
        ∃ t, history answered = some t ∧ t.bytes.length < t.totalLen ∧
          seq = sequenceNumber (t.accepted.length + 1)) := by
  intro r answered
  have h_rep := final_represents Represents.initial pdus
  have h_hist : history answered = final Transfer.step none pdus := history_trace pdus
  -- the deleted PDUs are idle steps, so `Transducer` removes them from a run
  have h_idle : ∀ (s : Reassembler) (pdu : ProtocolDataUnit),
      counts (pdu, (s.ingest pdu).1) = false → (s.ingest pdu).2 = s :=
    fun _ _ h => ingest_of_not_counts h
  refine ⟨h_rep.bounds, ⟨?_, ?_, ?_⟩, ?_, ?_, ?_⟩
  · -- errors and other PDUs do not count
    rintro pdu (⟨e, h_err⟩ | h_other)
    · exact ingest_of_not_counts (by rw [h_err]; rfl)
    · refine ingest_of_not_counts ?_
      cases (r.ingest pdu).1 with
      | error e => rfl
      | ok x => exact h_other
  · exact outputs_filter h_idle {} pdus
  · exact final_filter h_idle {} pdus
  · intro pdu x h_pdu
    -- the history grows by what the transfer does
    have h_next : history (answered ++ [(pdu, (r.ingest pdu).1)])
        = (Transfer.step (history answered) pdu).2 := by
      calc history (answered ++ [(pdu, (r.ingest pdu).1)])
          = historyStep (history answered) (pdu, (r.ingest pdu).1) := by
            rw [history, List.foldl_append, List.foldl_cons, List.foldl_nil, ← history]
        _ = historyStep (history answered) (pdu, (Transfer.step (history answered) pdu).1) := by
            rw [(h_rep.ingest pdu).1, h_hist]
        _ = (Transfer.step (history answered) pdu).2 := historyStep_step ..
    rw [h_next, (h_rep.ingest pdu).1, ← h_hist]
    exact step_delivers_iff h_pdu x
  · rw [h_hist]
    -- the numbers are those of the accepted frames in every run
    exact final_induction (fun h => ∀ t, h = some t → Numbered t)
      (fun _ pdu h_num => step_numbered h_num pdu) (fun _ h => by cases h) pdus
  · intro seq payload
    rw [(h_rep.ingest _).1, h_hist]
    exact step_accepts_iff _ seq payload

end Cantools.Isotp
