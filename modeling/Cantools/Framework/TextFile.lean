import Cantools.Framework.Text
import Cantools.Framework.Utf8

/-!
# Text in a file

A file has bytes, and text only where its bytes are well-formed UTF-8. `decode` is the strict
decoder: it accepts the encodings of texts and nothing else. Reading a file line by line cuts the
bytes at line feeds and decodes every line on its own (`byteLines`), so what is wrong with one
line does not keep the lines before it from being read. The line feed is one byte that is part of
no other character, so on a text both ways to cut it into lines are the same
(`byteLines_encode`).
-/

namespace Utf8

open Text

/-! ### Strict decoding -/

/-- The text that these bytes are the encoding of, if there is one. -/
def decode (bytes : List UInt8) : Option (List Char) :=
  if encode (decodeLossy bytes) = bytes then some (decodeLossy bytes) else none

theorem decode_encode (s : List Char) : decode (encode s) = some s := by
  rw [decode, decodeLossy_encode, if_pos rfl]

/-- The lossy decoder changes exactly the bytes that are no text. -/
theorem isSome_decode_iff {bytes : List UInt8} :
    (decode bytes).isSome ↔ encode (decodeLossy bytes) = bytes := by
  rw [decode]
  split
  · next h => exact ⟨fun _ => h, fun _ => rfl⟩
  · next h => exact ⟨fun h_some => (nomatch h_some), fun h_eq => absurd h_eq h⟩

/-! ### The line feed -/

/-- Only the line feed has a byte of its value, and that is its encoding. -/
theorem Sequence.eq_lf {bytes : List UInt8} {c : Char} (h : Sequence bytes c) (h_lf : 10 ∈ bytes) :
    bytes = [10] ∧ c = '\n' := by
  have h_width : charWidth 10 = 1 := by decide
  have h_cont : isContinuation 10 = false := by decide
  -- a line feed is no byte of a longer sequence
  have h_second : ∀ a, isSecond a 10 = false := by
    intro a
    unfold isSecond
    split <;> rfl
  cases h with
  | one h_a =>
    obtain rfl := List.mem_singleton.mp h_lf
    exact ⟨rfl, rfl⟩
  | two h_a h_b =>
    simp only [List.mem_cons, List.not_mem_nil, or_false] at h_lf
    rcases h_lf with rfl | rfl <;> simp_all
  | three h_a h_b h_c =>
    simp only [List.mem_cons, List.not_mem_nil, or_false] at h_lf
    rcases h_lf with rfl | rfl | rfl <;> simp_all
  | four h_a h_b h_c h_d =>
    simp only [List.mem_cons, List.not_mem_nil, or_false] at h_lf
    rcases h_lf with rfl | rfl | rfl | rfl <;> simp_all

theorem lf_mem_encode_iff {s : List Char} : 10 ∈ encode s ↔ '\n' ∈ s := by
  constructor
  · intro h
    obtain ⟨c, h_c, h_byte⟩ := List.mem_flatMap.mp h
    rwa [((sequence_encodeChar c).eq_lf h_byte).2] at h_c
  · intro h
    exact List.mem_flatMap.mpr ⟨'\n', h, by decide⟩

/-- **Cutting at line feeds** is the same in a text and in its bytes. -/
theorem splitOn_encode (s : List Char) :
    (encode s).splitOn 10 = (s.splitOn '\n').map encode := by
  -- on the text behind the first line feed
  induction h_len : s.length using Nat.strong_induction_on generalizing s with
  | _ n ih =>
    by_cases h_lf : '\n' ∈ s
    · obtain ⟨line, rest, rfl, h_line⟩ := List.eq_append_cons_of_mem h_lf
      have h_bytes : encode (line ++ '\n' :: rest) = encode line ++ 10 :: encode rest := by
        rw [encode, List.flatMap_append, List.flatMap_cons]
        rfl
      have h_rest := ih rest.length (by rw [← h_len, List.length_append, List.length_cons]; omega)
        rest rfl
      have h_char : ∀ c ∈ line, (c == '\n') = false := fun c h_c =>
        beq_false_of_ne fun h_eq => h_line (h_eq ▸ h_c)
      have h_byte : ∀ b ∈ encode line, (b == 10) = false := fun b h_b =>
        beq_false_of_ne fun h_eq => h_line (lf_mem_encode_iff.mp (h_eq ▸ h_b))
      rw [h_bytes, List.splitOn, List.splitOn,
        List.splitOnP_append_cons_of_forall_mem h_byte 10 rfl,
        List.splitOnP_append_cons_of_forall_mem h_char '\n' rfl, List.map_cons]
      exact congrArg _ h_rest
    · have h_char : ∀ c ∈ s, (c == '\n') = false := fun c h_c =>
        beq_false_of_ne fun h_eq => h_lf (h_eq ▸ h_c)
      have h_byte : ∀ b ∈ encode s, (b == 10) = false := fun b h_b =>
        beq_false_of_ne fun h_eq => h_lf (lf_mem_encode_iff.mp (h_eq ▸ h_b))
      rw [List.splitOn, List.splitOn, List.splitOnP_eq_singleton h_char,
        List.splitOnP_eq_singleton h_byte, List.map_singleton]

/-! ### Lines -/

/-- `BufRead::lines`: the lines of a file, `none` for one that is no text. -/
def byteLines (bytes : List UInt8) : List (Option (List Char)) :=
  let pieces := bytes.splitOn 10
  pieces.dropLast.map (fun line => (decode line).map stripCr) ++
    (pieces.getLast?.toList.filter (· ≠ [])).map decode

theorem encode_eq_nil_iff {s : List Char} : encode s = [] ↔ s = [] := by
  constructor
  · intro h
    rw [← decodeLossy_encode s, h]
    rfl
  · rintro rfl
    rfl

/-- **The lines of a text file** are those of its text. -/
theorem byteLines_encode (s : List Char) : byteLines (encode s) = (lines s).map some := by
  -- a last line without characters is no line on either side
  have h_last : ∀ last : Option (List Char), ((last.map encode).toList.filter (· ≠ [])).map decode
      = (last.toList.filter (· ≠ [])).map some := by
    intro last
    cases last with
    | none => rfl
    | some line =>
      by_cases h : line = []
      · subst h
        rfl
      · have h_ne := mt encode_eq_nil_iff.mp h
        simp [h, h_ne, decode_encode]
  rw [byteLines, lines, splitOn_encode, List.map_append]
  congr 1
  · -- the lines before the last are cut at the same line feeds
    rw [← List.map_dropLast, List.map_map, List.map_map]
    refine List.map_congr_left fun line _ => ?_
    rw [Function.comp_apply, decode_encode]
    rfl
  · rw [List.getLast?_map]
    exact h_last _

end Utf8
