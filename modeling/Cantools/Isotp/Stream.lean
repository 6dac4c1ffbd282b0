import Mathlib.Data.List.Forall2
import Cantools.Isotp.Reassembler

/-!
# Segmented payloads through one reassembler

A stream made of segmented payloads, one after the other and each with a frame capacity of its
own, is reassembled payload by payload (`stream_roundTrip`).

The step is one message (`segment_delivers`), and it holds from *every* state of the
reassembler: a single frame does not look at the state, and a first frame replaces it. The
stream then needs no invariant between messages, whatever `take_if_complete` leaves in the
buffer. Inside a message the transfer carries the argument (`Transfer.run_consecutiveFrames`):
its bytes and the pieces still to come always make up the payload, and it stays open until the
last piece because no piece is empty.
-/

namespace Cantools.Isotp

open Transducer Chunks

/-- The answers to the PDUs of one message: nothing until the last, which hands out the
payload. -/
def delivery (payload : List UInt8) (pdus : List ProtocolDataUnit) : List Outcome :=
  List.replicate (pdus.length - 1) (.ok none) ++ [.ok (some payload)]

/-- The payloads handed out, in order. -/
def completed (answers : List Outcome) : List (List UInt8) :=
  answers.filterMap fun
    | .ok (some x) => some x
    | _ => none

@[simp] theorem completed_append (xs ys : List Outcome) :
    completed (xs ++ ys) = completed xs ++ completed ys :=
  List.filterMap_append

@[simp] theorem completed_delivery (payload : List UInt8) (pdus : List ProtocolDataUnit) :
    completed (delivery payload pdus) = [payload] := by
  have h_none : ∀ n, completed (List.replicate n (.ok none)) = [] := by
    intro n
    induction n with
    | zero => rfl
    | succ n ih => rw [List.replicate_succ]; exact ih
  rw [delivery, completed_append, h_none]
  rfl

/-! ### One message -/

/-- **The consecutive frames of one message.** From an open transfer whose bytes and the
pieces to come make up `total_len` bytes, every frame is accepted, nothing is handed out
before the last, and the last hands out all the bytes and closes the transfer. -/
theorem Transfer.run_consecutiveFrames {cs : List (List UInt8)} {t : Transfer} (h_cs : cs ≠ [])
    (h_pieces : ∀ c ∈ cs, c ≠ []) (h_total : t.totalLen = (t.bytes ++ cs.flatten).length) :
    outputs Transfer.step (some t) (consecutiveFrames t.expected cs)
        = List.replicate (cs.length - 1) (.ok none) ++ [.ok (some (t.bytes ++ cs.flatten))] ∧
      ∃ t', final Transfer.step (some t) (consecutiveFrames t.expected cs) = some t' ∧
        ¬ t'.Open := by
  -- the accepted bytes and the pieces to come make up the payload at every step
  induction cs generalizing t with
  | nil => exact absurd rfl h_cs
  | cons c cs ih =>
    have h_c := List.length_pos_iff.mpr (h_pieces c (List.mem_cons_self ..))
    rw [List.flatten_cons] at h_total ⊢
    have h_open : t.Open := by
      unfold Transfer.Open
      rw [h_total]
      simp only [List.length_append]
      omega
    have h_step : Transfer.step (some t) (.consecutiveFrame t.expected c)
        = (.ok (t.accept t.expected c).delivered, some (t.accept t.expected c)) := by
      simp [Transfer.step, h_open]
    have h_total' : (t.accept t.expected c).totalLen
        = ((t.accept t.expected c).bytes ++ cs.flatten).length := by
      rw [Transfer.totalLen_accept, h_total, Transfer.bytes_accept, List.append_assoc]
    rw [consecutiveFrames, outputs_cons, final_cons, h_step, ← Transfer.expected_accept t _ c]
    cases h_rest : cs with
    | nil =>
      -- the last frame completes the transfer
      have h_len : (t.accept t.expected c).totalLen
          = (t.accept t.expected c).bytes.length := by
        rw [h_total', h_rest, List.flatten_nil, List.append_nil]
      have h_closed : ¬ (t.accept t.expected c).Open := by
        unfold Transfer.Open
        rw [h_len]
        exact Nat.lt_irrefl _
      refine ⟨?_, _, rfl, h_closed⟩
      rw [Transfer.delivered_of_not_open h_closed, h_len, List.take_length]
      simp [consecutiveFrames]
    | cons d ds =>
      have h_pieces' : ∀ e ∈ cs, e ≠ [] := fun e he => h_pieces e (List.mem_cons_of_mem _ he)
      have h_ne : cs ≠ [] := by rw [h_rest]; exact List.cons_ne_nil _ _
      have h_open' : (t.accept t.expected c).Open := by
        have h_d := List.length_pos_iff.mpr (h_pieces' d (h_rest ▸ List.mem_cons_self ..))
        unfold Transfer.Open
        rw [h_total', h_rest, List.flatten_cons]
        simp only [List.length_append]
        omega
      obtain ⟨h_out, h_final⟩ := ih h_ne h_pieces' h_total'
      rw [← h_rest]
      refine ⟨?_, h_final⟩
      rw [h_out, Transfer.delivered_of_open h_open', Transfer.bytes_accept, List.append_assoc]
      have h_len : (c :: cs).length - 1 = (cs.length - 1) + 1 := by
        have := List.length_pos_iff.mpr h_ne
        simp only [List.length_cons]
        omega
      rw [h_len, List.replicate_succ, List.cons_append]

/-- **One message**, from any state of the reassembler. A message of several frames leaves no
active transfer. -/
theorem segment_delivers {payload : List UInt8} {capacity : ℕ} {pdus : List ProtocolDataUnit}
    (h_cap : 2 ≤ capacity) (h_seg : segment payload capacity = some (.ok pdus))
    (r : Reassembler) :
    outputs Reassembler.ingest r pdus = delivery payload pdus ∧
      (2 ≤ pdus.length → (final Reassembler.ingest r pdus).totalLen = none) := by
  rw [segment_eq h_cap, Option.some.injEq, Except.ok.injEq] at h_seg
  split at h_seg
  · subst h_seg
    exact ⟨rfl, fun h => absurd h (by simp)⟩
  · next h_long =>
    subst h_seg
    have h_flat := chunks_flatten (show 0 < capacity - 1 by omega)
      (payload.drop (capacity - 2))
    have h_pieces : ∀ c ∈ chunks (capacity - 1) (payload.drop (capacity - 2)), c ≠ [] :=
      fun c hc => ne_nil_of_mem_chunks (show 0 < capacity - 1 by omega) hc
    generalize chunks (capacity - 1) (payload.drop (capacity - 2)) = cs at h_flat h_pieces
    set t : Transfer := ⟨payload.length, payload.take (capacity - 2), []⟩ with ht
    have h_bytes : t.bytes ++ cs.flatten = payload := by
      rw [h_flat]
      simp [ht, Transfer.bytes]
    have h_total : t.totalLen = (t.bytes ++ cs.flatten).length := by rw [h_bytes]
    have h_cs : cs ≠ [] := by
      rintro rfl
      have h_nil := List.drop_eq_nil_iff.mp h_flat.symm
      omega
    -- the first frame alone never completes: the payload is longer than its share
    have h_open : t.Open := by
      show (payload.take (capacity - 2) ++ ([] : List (List UInt8)).flatten).length
        < payload.length
      simp only [List.flatten_nil, List.append_nil, List.length_take]
      omega
    -- from here on the reassembler's own past does not matter
    obtain ⟨h_first, h_rep⟩ := Represents.firstFrame r payload.length (payload.take (capacity - 2))
    obtain ⟨h_out, t', h_final, h_closed⟩ := Transfer.run_consecutiveFrames h_cs h_pieces h_total
    have h_expected : t.expected = 1 := rfl
    rw [h_expected] at h_out h_final
    have h_rep' := final_represents h_rep (consecutiveFrames 1 cs)
    rw [h_final] at h_rep'
    refine ⟨?_, fun _ => h_rep'.2.2 h_closed⟩
    have h_len : (ProtocolDataUnit.firstFrame payload.length (payload.take (capacity - 2)) ::
        consecutiveFrames 1 cs).length - 1 = (cs.length - 1) + 1 := by
      have := List.length_pos_iff.mpr h_cs
      simp only [List.length_cons, length_consecutiveFrames]
      omega
    calc outputs Reassembler.ingest r (.firstFrame payload.length (payload.take (capacity - 2)) ::
          consecutiveFrames 1 cs)
        = .ok none :: outputs Transfer.step (some t) (consecutiveFrames 1 cs) := by
          rw [outputs_cons, h_first, outputs_ingest h_rep, Transfer.delivered_of_open h_open]
      _ = .ok none :: (List.replicate (cs.length - 1) (.ok none) ++ [.ok (some payload)]) := by
          rw [h_out, h_bytes]
      _ = delivery payload (.firstFrame payload.length (payload.take (capacity - 2)) ::
          consecutiveFrames 1 cs) := by
          rw [delivery, h_len, List.replicate_succ, List.cons_append]

/-! ### A stream of messages -/

/-- A stream of messages, from any state of the reassembler. -/
theorem outputs_segments {messages : List (List UInt8 × ℕ)}
    {segments : List (List ProtocolDataUnit)} (h_cap : ∀ m ∈ messages, 2 ≤ m.2)
    (h_seg : List.Forall₂ (fun m pdus => segment m.1 m.2 = some (.ok pdus)) messages segments)
    (r : Reassembler) :
    outputs Reassembler.ingest r segments.flatten
      = (List.zipWith (fun m pdus => delivery m.1 pdus) messages segments).flatten := by
  induction h_seg generalizing r with
  | nil => rfl
  | @cons m pdus ms segs h_m _ ih =>
    -- the state a message leaves behind does not matter to the next one
    have h_first := (segment_delivers (h_cap m (List.mem_cons_self ..)) h_m r).1
    rw [List.flatten_cons, outputs_append, List.zipWith_cons_cons, List.flatten_cons, h_first,
      ih (fun m' hm' => h_cap m' (List.mem_cons_of_mem _ hm'))]

theorem completed_segments {messages : List (List UInt8 × ℕ)}
    {segments : List (List ProtocolDataUnit)} (h_len : messages.length = segments.length) :
    completed (List.zipWith (fun m pdus => delivery m.1 pdus) messages segments).flatten
      = messages.map Prod.fst := by
  induction messages generalizing segments with
  | nil => rfl
  | cons m ms ih =>
    obtain ⟨pdus, segs, rfl⟩ := List.exists_cons_of_length_eq_add_one (h_len.symm)
    rw [List.zipWith_cons_cons, List.flatten_cons, completed_append, completed_delivery,
      ih (by simpa using h_len)]
    rfl

/-- Every payload can be segmented at a capacity of at least `2`. -/
theorem exists_segments {messages : List (List UInt8 × ℕ)} (h_cap : ∀ m ∈ messages, 2 ≤ m.2) :
    ∃ segments : List (List ProtocolDataUnit),
      List.Forall₂ (fun m pdus => segment m.1 m.2 = some (.ok pdus)) messages segments := by
  induction messages with
  | nil => exact ⟨[], .nil⟩
  | cons m ms ih =>
    obtain ⟨segs, h_segs⟩ := ih (fun m' hm' => h_cap m' (List.mem_cons_of_mem _ hm'))
    exact ⟨_ :: segs, .cons (segment_eq (h_cap m (List.mem_cons_self ..))) h_segs⟩

/-- **Stream round trip.** Every list of payloads, each with a frame capacity of at least `2`,
can be segmented; feeding the PDU lists one after the other to a default reassembler answers
every PDU without error, hands out each payload exactly at the last PDU of its list, and so
completes exactly the payloads in order. A list of several PDUs does this from any state of
the reassembler and leaves no active transfer. -/
theorem stream_roundTrip (messages : List (List UInt8 × ℕ)) (h_cap : ∀ m ∈ messages, 2 ≤ m.2) :
    (∃ segments : List (List ProtocolDataUnit),
      List.Forall₂ (fun m pdus => segment m.1 m.2 = some (.ok pdus)) messages segments ∧
      outputs Reassembler.ingest {} segments.flatten
        = (List.zipWith (fun m pdus => delivery m.1 pdus) messages segments).flatten ∧
      completed (outputs Reassembler.ingest {} segments.flatten) = messages.map Prod.fst) ∧
    ∀ m ∈ messages, ∀ pdus, segment m.1 m.2 = some (.ok pdus) → 2 ≤ pdus.length →
      ∀ r : Reassembler, outputs Reassembler.ingest r pdus = delivery m.1 pdus ∧
        (final Reassembler.ingest r pdus).totalLen = none := by
  constructor
  · obtain ⟨segments, h_seg⟩ := exists_segments h_cap
    have h_out := outputs_segments h_cap h_seg {}
    refine ⟨segments, h_seg, h_out, ?_⟩
    rw [h_out, completed_segments h_seg.length_eq]
  · intro m hm pdus h_seg h_multi r
    obtain ⟨h_out, h_final⟩ := segment_delivers (h_cap m hm) h_seg r
    exact ⟨h_out, h_final h_multi⟩

/-- Two payloads, the second in three frames, which a reassembler left in the middle of another
transfer reassembles just as well. -/
theorem stream_roundTrip_two :
    (∃ segments : List (List ProtocolDataUnit),
      List.Forall₂ (fun m pdus => segment m.1 m.2 = some (.ok pdus))
        [([1, 2, 3], 8), ((List.range 20).map Nat.toUInt8, 8)] segments ∧
      completed (outputs Reassembler.ingest {} segments.flatten)
        = [[1, 2, 3], (List.range 20).map Nat.toUInt8]) ∧
    ∃ first second third, segment ((List.range 20).map Nat.toUInt8) 8
        = some (.ok [first, second, third]) ∧
      outputs Reassembler.ingest ⟨some 9, 3, [7, 7]⟩ [first, second, third]
        = [.ok none, .ok none, .ok (some ((List.range 20).map Nat.toUInt8))] := by
  obtain ⟨⟨segments, h_seg, -, h_done⟩, h_multi⟩ :=
    stream_roundTrip [([1, 2, 3], 8), ((List.range 20).map Nat.toUInt8, 8)] (by decide)
  refine ⟨⟨segments, h_seg, h_done⟩, _, _, _, rfl, ?_⟩
  exact (h_multi ((List.range 20).map Nat.toUInt8, 8) (by simp) _ rfl (by decide)
    ⟨some 9, 3, [7, 7]⟩).1

end Cantools.Isotp
