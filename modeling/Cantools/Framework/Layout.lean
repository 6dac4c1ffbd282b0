import Cantools.Framework.Chunks

/-!
# Blocks linked by their addresses

A file is a list of elements, and a block of it is known by the position it starts at. `At` says
that a block stands at an address; what is put into a file piece by piece stands where the pieces
before it end (`at_flatten`). Blocks that hold the addresses of others make up a structure that a
reader follows from address to address: `Chain` is a list of nodes each of which has the address
of the next one, ended by the address `0`.

A reader that knows only the addresses finds what the writer meant if every address it follows is
one at which the block stands; nothing is said about where in the file that is.
-/

namespace Layout

open Chunks

variable {α N : Type*}

/-! ### Addresses -/

/-- The block stands in the file at this address. -/
def At (file : List α) (addr : ℕ) (block : List α) : Prop := block <+: file.drop addr

/-- **Pieces.** What follows the pieces before it stands where they end. -/
theorem at_flatten (before : List (List α)) (block : List α) (after : List (List α)) {addr : ℕ}
    (h : addr = before.flatten.length) : At (before ++ block :: after).flatten addr block := by
  rw [At, List.flatten_append, List.flatten_cons, h, List.drop_left]
  exact List.prefix_append ..

/-- A block in front of another one. -/
theorem At.front {file : List α} {addr : ℕ} {block after : List α}
    (h : At file addr (block ++ after)) : At file addr block :=
  (List.prefix_append ..).trans h

/-- A block behind another one. -/
theorem At.behind {file : List α} {addr : ℕ} {before block : List α}
    (h : At file addr (before ++ block)) : At file (addr + before.length) block := by
  obtain ⟨rest, h_rest⟩ := h
  refine ⟨rest, ?_⟩
  rw [← List.drop_drop, ← h_rest, List.append_assoc, List.drop_left]

/-- The element run of a block's length at its address is the block. -/
theorem At.slice_eq {file : List α} {addr : ℕ} {block : List α} (h : At file addr block) :
    slice file addr (addr + block.length) = block := by
  rw [slice, List.drop_take, Nat.add_sub_cancel_left]
  exact (List.prefix_iff_eq_take.mp h).symm

/-- A block stands inside the file. -/
theorem At.le_length {file : List α} {addr : ℕ} {block : List α} (h : At file addr block)
    (h_ne : block ≠ []) : addr + block.length ≤ file.length := by
  have h_pos := List.length_pos_of_ne_nil h_ne
  have h_le := List.IsPrefix.length_le h
  rw [List.length_drop] at h_le
  omega

/-- What stands in a block stands in the file. -/
theorem At.trans {file block part : List α} {addr offset : ℕ} (h : At file addr block)
    (h_part : At block offset part) : At file (addr + offset) part := by
  obtain ⟨rest, h_rest⟩ := h
  rw [At, ← List.drop_drop, ← h_rest, List.drop_append]
  exact List.IsPrefix.trans h_part (List.prefix_append ..)

/-! ### Chains -/

/-- The nodes that are met from an address on, when every node has the address of the next one in
`next` and the last has `0`; `stands` says that a node is found at an address. -/
inductive Chain (stands : ℕ → N → Prop) (next : N → ℕ) : ℕ → List N → Prop
  | nil : Chain stands next 0 []
  | cons {addr : ℕ} {node : N} {nodes : List N} : addr ≠ 0 → stands addr node →
      Chain stands next (next node) nodes → Chain stands next addr (node :: nodes)

/-- **One chain only.** Where an address tells its node, the nodes met from an address are
determined by it. -/
theorem Chain.unique {stands : ℕ → N → Prop} {next : N → ℕ}
    (h_one : ∀ addr a b, stands addr a → stands addr b → a = b) {addr : ℕ} {nodes nodes' : List N}
    (h : Chain stands next addr nodes) (h' : Chain stands next addr nodes') : nodes = nodes' := by
  induction h generalizing nodes' with
  | nil =>
    cases h' with
    | nil => rfl
    | cons h_ne => exact absurd rfl h_ne
  | cons h_ne h_stands _ ih =>
    cases h' with
    | nil => exact absurd rfl h_ne
    | cons _ h_stands' h_next' =>
      obtain rfl := h_one _ _ _ h_stands h_stands'
      rw [ih h_next']

end Layout
