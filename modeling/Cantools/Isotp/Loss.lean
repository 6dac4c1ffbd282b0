import Cantools.Framework.Channel
import Cantools.Isotp.Reassembler

/-!
# Segmented payloads over a lossy channel

The PDUs of one payload reach the reassembler over a channel that drops and repeats
(`Channel.Lossy`). The reassembler cannot tell a lost frame from a late one: after a mismatch
the transfer stays active, and the frame sixteen positions on carries the awaited number and
*is* accepted. What keeps the delivered payload right is a count.

* A repeated consecutive frame is never accepted twice (`Transfer.step_consecutiveFrame_twice`):
  the transfer then waits for the next number, which differs.
* So the accepted payloads are at every moment a sub-list of the pieces already sent
  (`Partial`), in order.
* No piece is empty, so some of the pieces reach `total_len` bytes only if they are all of them
  (`Chunks.eq_of_sublist_of_length_le`), and then their concatenation is the payload.
-/

namespace Cantools.Isotp

open Transducer Chunks Channel

/-- A consecutive frame that comes again immediately is rejected and changes nothing. -/
theorem Transfer.step_consecutiveFrame_twice (h : Option Transfer) (seq : UInt8)
    (p : List UInt8) :
    ∃ e, Transfer.step (Transfer.step h (.consecutiveFrame seq p)).2 (.consecutiveFrame seq p)
      = (.error e, (Transfer.step h (.consecutiveFrame seq p)).2) := by
  cases h with
  | none => exact ⟨_, rfl⟩
  | some t =>
    by_cases h_open : t.Open
    · by_cases h_seq : seq = t.expected
      · -- accepted: the next awaited number is another one
        subst h_seq
        have h_ne : t.expected ≠ (t.accept t.expected p).expected := by
          rw [Transfer.expected_accept, Transfer.expected, nextSequence_sequenceNumber]
          exact sequenceNumber_ne_succ _
        have h_step : Transfer.step (some t) (.consecutiveFrame t.expected p)
            = (.ok (t.accept t.expected p).delivered, some (t.accept t.expected p)) := by
          simp [Transfer.step, h_open]
        rw [h_step]
        -- it is open and awaits another number, or is closed
        by_cases h_open' : (t.accept t.expected p).Open
        · exact ⟨.sequenceNumberMismatch (t.accept t.expected p).expected t.expected, by
            simp [Transfer.step, h_open', h_ne]⟩
        · exact ⟨.unexpectedConsecutiveFrame, by simp [Transfer.step, h_open']⟩
      · exact ⟨.sequenceNumberMismatch t.expected seq, by simp [Transfer.step, h_open, h_seq]⟩
    · exact ⟨.unexpectedConsecutiveFrame, by simp [Transfer.step, h_open]⟩

/-- What a lossy receiver has: nothing, or a transfer with the announced length and first
frame whose accepted payloads are some of the pieces sent so far, in order. -/
def Partial (total : ℕ) (first : List UInt8) (sent : List (List UInt8)) :
    Option Transfer → Prop
  | none => True
  | some t => t.totalLen = total ∧ t.first = first ∧ (t.accepted.map Prod.snd).Sublist sent

theorem Partial.mono {total : ℕ} {first : List UInt8} {sent sent' : List (List UInt8)}
    {h : Option Transfer} (h_part : Partial total first sent h) (h_sub : sent.Sublist sent') :
    Partial total first sent' h := by
  cases h with
  | none => trivial
  | some t => exact ⟨h_part.1, h_part.2.1, h_part.2.2.trans h_sub⟩

/-- One copy of the next piece: it is accepted after some of the earlier ones, or not at
all. -/
theorem Partial.step {total : ℕ} {first c : List UInt8} {sent : List (List UInt8)}
    {h : Option Transfer} (h_part : Partial total first sent h) (seq : UInt8) :
    Partial total first (sent ++ [c]) (Transfer.step h (.consecutiveFrame seq c)).2 := by
  rcases Transfer.step_cases h (.consecutiveFrame seq c) with ⟨h_same, -⟩ | ⟨n, p, h_pdu, -⟩ |
      ⟨t, p, rfl, -, h_pdu, h_step⟩
  · rw [h_same]
    exact h_part.mono (List.sublist_append_left _ _)
  · cases h_pdu
  · obtain ⟨rfl, rfl⟩ : seq = t.expected ∧ c = p := by
      simpa using h_pdu
    rw [h_step]
    refine ⟨h_part.1, h_part.2.1, ?_⟩
    simp only [Transfer.accept, List.map_append, List.map_cons, List.map_nil]
    exact h_part.2.2.append (List.Sublist.refl _)

/-- A payload handed out at a consecutive frame is the announced prefix of the first frame and
some of the pieces, long enough. -/
theorem Partial.delivered {total : ℕ} {first x : List UInt8} {sent : List (List UInt8)}
    {h : Option Transfer} {seq : UInt8} {c : List UInt8}
    (h_part : Partial total first sent (Transfer.step h (.consecutiveFrame seq c)).2)
    (h_out : (Transfer.step h (.consecutiveFrame seq c)).1 = .ok (some x)) :
    ∃ acc : List (List UInt8), acc.Sublist sent ∧ total ≤ (first ++ acc.flatten).length ∧
      x = (first ++ acc.flatten).take total := by
  rcases Transfer.step_cases h (.consecutiveFrame seq c) with ⟨-, -, h_other⟩ |
      ⟨n, p, h_pdu, -⟩ | ⟨t, p, rfl, -, -, h_step⟩
  · -- nothing is delivered where the transfer does not change
    rcases h_other with ⟨p, h_pdu, -⟩ | h_none | ⟨e, h_err⟩
    · cases h_pdu
    · rw [h_none] at h_out; cases h_out
    · rw [h_err] at h_out; cases h_out
  · cases h_pdu
  · -- the frame that closes the transfer: its bytes are those accepted so far
    rw [h_step] at h_part h_out
    obtain ⟨h_total, h_first, h_sub⟩ := h_part
    obtain ⟨h_closed, rfl⟩ := Transfer.delivered_eq_some_iff.mp (Except.ok.inj h_out)
    refine ⟨_, h_sub, ?_, ?_⟩
    · rw [← h_total, ← h_first]
      exact Nat.not_lt.mp h_closed
    · rw [← h_total, ← h_first]
      rfl

/-- **The consecutive frames of one message over the channel.** Whatever is handed out is the
announced prefix of the first frame and some of the pieces, in order. -/
theorem Partial.run {total : ℕ} {first : List UInt8} {cs : List (List UInt8)} {seq : UInt8}
    {received : List ProtocolDataUnit} (h_chan : Lossy (consecutiveFrames seq cs) received)
    {sent : List (List UInt8)} {h : Option Transfer} (h_part : Partial total first sent h)
    {x : List UInt8} (h_out : .ok (some x) ∈ outputs Transfer.step h received) :
    ∃ acc : List (List UInt8), acc.Sublist (sent ++ cs) ∧
      total ≤ (first ++ acc.flatten).length ∧ x = (first ++ acc.flatten).take total := by
  -- on the frames sent; `Partial` is the invariant, and `sent` grows by the frame treated
  induction cs generalizing seq received sent h with
  | nil =>
    rw [consecutiveFrames, lossy_nil_iff] at h_chan
    subst h_chan
    exact absurd h_out (by simp)
  | cons c cs ih =>
    obtain ⟨copies, rest, rfl, h_rest⟩ := lossy_cons_iff.mp h_chan
    have h_assoc : sent ++ c :: cs = (sent ++ [c]) ++ cs := by simp
    rw [h_assoc]
    cases copies with
    | zero =>
      -- the frame is lost
      exact ih h_rest (h_part.mono (List.sublist_append_left _ _)) h_out
    | succ copies =>
      obtain ⟨e, h_twice⟩ := Transfer.step_consecutiveFrame_twice h seq c
      obtain ⟨h_outs, h_final⟩ := outputs_replicate h_twice copies
      have h_part' := h_part.step (c := c) seq
      rw [List.replicate_succ, List.cons_append, outputs_cons, outputs_append, h_outs,
        h_final] at h_out
      rcases List.mem_cons.mp h_out with h_first | h_out
      · -- the first copy
        obtain ⟨acc, h_sub, h_len, h_x⟩ := h_part'.delivered h_first.symm
        exact ⟨acc, h_sub.trans (List.sublist_append_left _ _), h_len, h_x⟩
      · rcases List.mem_append.mp h_out with h_copy | h_out
        · exact absurd (List.eq_of_mem_replicate h_copy) (by simp)
        · exact ih h_rest h_part' h_out

/-- **No corruption on a lossy channel.** Every payload can be segmented at a capacity of at
least `2`, and whatever a default reassembler hands out when the PDUs are dropped and repeated
on the way is that payload. -/
theorem lossy_delivers_payload (payload : List UInt8) (capacity : ℕ) (h_cap : 2 ≤ capacity) :
    ∃ pdus, segment payload capacity = some (.ok pdus) ∧
      ∀ received, Lossy pdus received →
        ∀ x, .ok (some x) ∈ outputs Reassembler.ingest {} received → x = payload := by
  refine ⟨_, segment_eq h_cap, ?_⟩
  intro received h_chan x h_out
  rw [outputs_ingest Represents.initial] at h_out
  split at h_chan
  · -- a single frame hands out the payload at every copy
    obtain ⟨copies, rest, rfl, h_rest⟩ := lossy_cons_iff.mp h_chan
    obtain rfl := lossy_nil_iff.mp h_rest
    have h_step : Transfer.step none (.singleFrame payload) = (.ok (some payload), none) := rfl
    rw [List.append_nil, (outputs_replicate h_step copies).1] at h_out
    simpa using List.eq_of_mem_replicate h_out
  · next h_long =>
    obtain ⟨copies, rest, rfl, h_rest⟩ := lossy_cons_iff.mp h_chan
    set first := payload.take (capacity - 2) with h_first
    set cs := chunks (capacity - 1) (payload.drop (capacity - 2)) with h_cs
    have h_all : first ++ cs.flatten = payload := by
      rw [h_cs, chunks_flatten (by omega), h_first, List.take_append_drop]
    have h_open : (Transfer.mk payload.length first []).Open := by
      show (first ++ ([] : List (List UInt8)).flatten).length < payload.length
      rw [List.flatten_nil, List.append_nil, h_first, List.length_take]
      omega
    have h_step : Transfer.step (some ⟨payload.length, first, []⟩)
        (.firstFrame payload.length first) = (.ok none, some ⟨payload.length, first, []⟩) := by
      simp [Transfer.step, Transfer.delivered_of_open h_open]
    -- after the first frames, if any, there is nothing or a transfer without accepted frames
    obtain ⟨h, h_part, h_out⟩ : ∃ h, Partial payload.length first [] h ∧
        .ok (some x) ∈ outputs Transfer.step h rest := by
      cases copies with
      | zero => exact ⟨none, trivial, h_out⟩
      | succ copies =>
        obtain ⟨h_outs, h_final⟩ := outputs_replicate h_step copies
        rw [List.replicate_succ, List.cons_append, outputs_cons] at h_out
        change _ ∈ .ok (Transfer.mk payload.length first []).delivered ::
          outputs Transfer.step (some ⟨payload.length, first, []⟩) _ at h_out
        rw [Transfer.delivered_of_open h_open, outputs_append, h_outs, h_final] at h_out
        simp only [List.mem_cons, List.mem_append, Except.ok.injEq, reduceCtorEq,
          List.mem_replicate, and_false, false_or] at h_out
        exact ⟨some ⟨payload.length, first, []⟩, ⟨rfl, rfl, List.Sublist.refl _⟩, h_out⟩
    obtain ⟨acc, h_sub, h_len, rfl⟩ := Partial.run h_rest h_part h_out
    rw [List.nil_append] at h_sub
    -- what was accepted is long enough, so no piece is missing
    have h_acc : acc = cs := by
      refine eq_of_sublist_of_length_le h_sub
        (fun d hd => ne_nil_of_mem_chunks (by omega) hd) ?_
      have h_length := congrArg List.length h_all
      rw [List.length_append] at h_length h_len
      omega
    rw [h_acc, h_all, List.take_length]

/-- A payload of twenty bytes: the second frame repeated and nothing else lost, and a first
frame lost. -/
theorem lossy_delivers_payload_twenty :
    ∃ first second third, segment ((List.range 20).map Nat.toUInt8) 8
        = some (.ok [first, second, third]) ∧
      ∀ received ∈ [[first, second, second, third], [second, third], [first, third]],
        ∀ x, .ok (some x) ∈ outputs Reassembler.ingest {} received →
          x = (List.range 20).map Nat.toUInt8 := by
  obtain ⟨pdus, h_seg, h_all⟩ :=
    lossy_delivers_payload ((List.range 20).map Nat.toUInt8) 8 (by decide)
  refine ⟨_, _, _, rfl, ?_⟩
  cases h_seg
  intro received h_mem
  refine h_all received ?_
  simp only [List.mem_cons, List.not_mem_nil, or_false] at h_mem
  rcases h_mem with rfl | rfl | rfl
  · exact .cons _ 1 (.cons _ 2 (.cons _ 1 .nil))
  · exact .cons _ 0 (.cons _ 1 (.cons _ 1 .nil))
  · exact .cons _ 1 (.cons _ 0 (.cons _ 1 .nil))

end Cantools.Isotp
