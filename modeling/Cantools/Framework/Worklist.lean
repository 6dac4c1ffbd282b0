import Mathlib.Data.List.Perm.Basic
import Mathlib.Algebra.BigOperators.Group.List.Basic
import Mathlib.Algebra.Ring.Nat

/-!
# Walking a tree with a stack

A walk takes a node from a stack, asks for what is in it, puts the nodes among it on the stack and
keeps the leaves, until the stack is empty (`walk`); it stops at the first node that cannot be
read. The tree is given by that question alone, and is finite if no way into it is longer than
some depth (`Bounded`).

On a finite tree the walk comes to an end. If all nodes can be read (`Readable`), it ends with the
leaves below the nodes on the stack, one node after the other (`walk_readable`), each as often as
it is there (`order_perm`); else it ends with the error of a node below (`walk_bounded`).
-/

namespace Worklist

variable {Node Leaf ε : Type}

/-- The nodes of what is in a node. -/
def nodes (entries : List (Node ⊕ Leaf)) : List Node := entries.filterMap Sum.getLeft?

def leaves (entries : List (Node ⊕ Leaf)) : List Leaf := entries.filterMap Sum.getRight?

section

variable (read : Node → Except ε (List (Node ⊕ Leaf)))

/-- A walk of so many rounds; the last node put on the stack is taken first. -/
def walk : ℕ → List Node → List Leaf → Except (Option ε) (List Leaf)
  | 0, _, _ => .error none
  | _ + 1, [], found => .ok found
  | rounds + 1, n :: stack, found =>
    match read n with
    | .error e => .error (some e)
    -- the entries are put on the stack one by one, so the last one is on its top
    | .ok entries => walk rounds ((nodes entries).reverse ++ stack) (found ++ leaves entries)

/-- No way from the node is longer than the depth. -/
def Bounded : ℕ → Node → Prop
  | 0, _ => False
  | depth + 1, n => ∀ entries, read n = .ok entries → ∀ m ∈ nodes entries, Bounded depth m

/-- The same, and all nodes below can be read. -/
def Readable : ℕ → Node → Prop
  | 0, _ => False
  | depth + 1, n => ∃ entries, read n = .ok entries ∧ ∀ m ∈ nodes entries, Readable depth m

/-- There is a way from the node to the other one. -/
inductive Under : Node → Node → Prop
  | refl (n : Node) : Under n n
  | step {n m m' : Node} {entries : List (Node ⊕ Leaf)} (h_read : read n = .ok entries)
    (h_mem : m ∈ nodes entries) (h : Under m m') : Under n m'

/-- The leaves below a node. -/
def below : ℕ → Node → List Leaf
  | 0, _ => []
  | depth + 1, n =>
    match read n with
    | .error _ => []
    | .ok entries => leaves entries ++ (nodes entries).flatMap (below depth)

/-- The same leaves in the order of a walk. -/
def order : ℕ → Node → List Leaf
  | 0, _ => []
  | depth + 1, n =>
    match read n with
    | .error _ => []
    | .ok entries => leaves entries ++ (nodes entries).reverse.flatMap (order depth)

/-- The rounds that a node and what is below it take. -/
def rounds : ℕ → Node → ℕ
  | 0, _ => 0
  | depth + 1, n =>
    match read n with
    | .error _ => 1
    | .ok entries => ((nodes entries).reverse.map (rounds depth)).sum + 1

end

variable {read : Node → Except ε (List (Node ⊕ Leaf))}

/-- **Order.** A walk finds each leaf as often as it is there. -/
theorem order_perm (depth : ℕ) (n : Node) : (order read depth n).Perm (below read depth n) := by
  induction depth generalizing n with
  | zero => exact List.Perm.refl _
  | succ depth ih =>
    rw [order, below]
    cases read n with
    | error e => exact List.Perm.refl _
    | ok entries =>
      -- the stack hands out the nodes of a directory from the last to the first
      refine List.Perm.append_left _ ?_
      calc (nodes entries).reverse.flatMap (order read depth)
          |>.Perm ((nodes entries).flatMap (order read depth)) :=
            (List.reverse_perm _).flatMap_right _
        _ |>.Perm ((nodes entries).flatMap (below read depth)) :=
            List.Perm.flatMap_left _ fun m _ => ih m

/-- A node is walked through before what is under it on the stack. -/
theorem walk_nodes {depth : ℕ} (h_node : ∀ n, Readable read depth n → ∀ more stack found,
      walk read (rounds read depth n + more) (n :: stack) found
        = walk read more stack (found ++ order read depth n))
    {ns : List Node} (h : ∀ n ∈ ns, Readable read depth n) (more : ℕ) (stack : List Node)
    (found : List Leaf) :
    walk read ((ns.map (rounds read depth)).sum + more) (ns ++ stack) found
      = walk read more stack (found ++ ns.flatMap (order read depth)) := by
  induction ns generalizing found with
  | nil => simp
  | cons n ns ih =>
    -- the other nodes start with what the first one has left
    have h_rest := ih (fun m h_m => h m (List.mem_cons_of_mem _ h_m)) (found ++ order read depth n)
    rw [List.map_cons, List.sum_cons, Nat.add_assoc, List.cons_append,
      h_node n (h n (List.mem_cons_self ..)), h_rest, List.flatMap_cons, List.append_assoc]

/-- **A readable tree.** -/
theorem walk_readable {depth : ℕ} {n : Node} (h : Readable read depth n) (more : ℕ)
    (stack : List Node) (found : List Leaf) :
    walk read (rounds read depth n + more) (n :: stack) found
      = walk read more stack (found ++ order read depth n) := by
  induction depth generalizing n more stack found with
  | zero => exact h.elim
  | succ depth ih =>
    obtain ⟨entries, h_read, h_nodes⟩ := h
    -- the nodes under this one are walked through before the rest of the stack
    have h_sub := walk_nodes (fun m h_m more stack found => ih h_m more stack found)
      (fun m h_m => h_nodes m (List.mem_reverse.mp h_m)) more stack (found ++ leaves entries)
    -- one round for the node itself
    have h_rounds : rounds read (depth + 1) n + more
        = ((nodes entries).reverse.map (rounds read depth)).sum + more + 1 := by
      rw [rounds, h_read]
      show _ + 1 + more = _
      omega
    rw [h_rounds, walk, h_read, order, h_read]
    simp only
    rw [h_sub, List.append_assoc]

/-- The walk fails at a node under them that cannot be read, whatever is behind on the stack. -/
def FailsAt (read : Node → Except ε (List (Node ⊕ Leaf))) (ns : List Node) : Prop :=
  ∃ n ∈ ns, ∃ m e k, Under read n m ∧ read m = .error e ∧
    ∀ more stack found, walk read (k + more) (ns ++ stack) found = .error (some e)

theorem readable_or_fails_nodes {depth : ℕ}
    (h_node : ∀ n, Bounded read depth n → Readable read depth n ∨ FailsAt read [n])
    {ns : List Node} (h : ∀ n ∈ ns, Bounded read depth n) :
    (∀ n ∈ ns, Readable read depth n) ∨ FailsAt read ns := by
  induction ns with
  | nil => exact .inl (by simp)
  | cons n ns ih =>
    rcases h_node n (h n (List.mem_cons_self ..)) with
      h_first | ⟨n', h_n', m, e, k, h_under, h_error, h_fails⟩
    · -- the first one is walked through, whatever comes after it
      rcases ih fun m h_m => h m (List.mem_cons_of_mem _ h_m) with
        h_rest | ⟨n', h_n', m, e, k, h_under, h_error, h_fails⟩
      · exact .inl (List.forall_mem_cons.mpr ⟨h_first, h_rest⟩)
      · refine .inr ⟨n', List.mem_cons_of_mem _ h_n', m, e, rounds read depth n + k, h_under,
          h_error, fun more stack found => ?_⟩
        rw [Nat.add_assoc, List.cons_append, walk_readable h_first]
        exact h_fails more stack _
    · -- the first one fails, so the others stay on the stack
      obtain rfl := List.mem_singleton.mp h_n'
      exact .inr ⟨n', List.mem_cons_self .., m, e, k, h_under, h_error, fun more stack found =>
        h_fails more (ns ++ stack) found⟩

/-- **A finite tree** is readable, or the walk fails. -/
theorem readable_or_fails {depth : ℕ} {n : Node} (h : Bounded read depth n) :
    Readable read depth n ∨ FailsAt read [n] := by
  induction depth generalizing n with
  | zero => exact h.elim
  | succ depth ih =>
    cases h_read : read n with
    -- the node itself cannot be read
    | error e =>
      refine .inr ⟨n, List.mem_singleton_self n, n, e, 1, .refl n, h_read,
        fun more stack found => ?_⟩
      rw [Nat.add_comm, List.cons_append, walk, h_read]
    -- its nodes are pushed, so the last of them is next
    | ok entries =>
      have h_nodes := @readable_or_fails_nodes _ _ _ read depth (fun m h_m => ih h_m)
        (nodes entries).reverse fun m h_m => h entries h_read m (List.mem_reverse.mp h_m)
      rcases h_nodes with h_all | ⟨n', h_n', m, e, k, h_under, h_error, h_fails⟩
      · exact .inl ⟨entries, h_read, fun m h_m => h_all m (List.mem_reverse.mpr h_m)⟩
      · -- one round for the node itself, and then its nodes fail
        refine .inr ⟨n, List.mem_singleton_self n, m, e, k + 1,
          .step h_read (List.mem_reverse.mp h_n') h_under, h_error, fun more stack found => ?_⟩
        have h_rounds : k + 1 + more = k + more + 1 := by omega
        rw [h_rounds, List.cons_append, walk, h_read]
        exact h_fails more stack _

/-- **The walk of a finite tree** has one result from some number of rounds on: the leaves, or the
error of a node under the first one if such a node cannot be read. -/
theorem walk_bounded {depth : ℕ} {n : Node} (h : Bounded read depth n) :
    ∃ enough, (Readable read depth n ∧
        ∀ more, walk read (enough + more) [n] [] = .ok (order read depth n)) ∨
      (¬ Readable read depth n ∧ ∃ m e, Under read n m ∧ read m = .error e ∧
        ∀ more, walk read (enough + more) [n] [] = .error (some e)) := by
  by_cases h_read : Readable read depth n
  · refine ⟨rounds read depth n + 1, .inl ⟨h_read, fun more => ?_⟩⟩
    have h_rounds : rounds read depth n + 1 + more = rounds read depth n + (more + 1) := by omega
    rw [h_rounds, walk_readable h_read]
    rfl
  · obtain ⟨n', h_n', m, e, k, h_under, h_error, h_fails⟩ :=
      (readable_or_fails h).resolve_left h_read
    obtain rfl := List.mem_singleton.mp h_n'
    exact ⟨k, .inr ⟨h_read, m, e, h_under, h_error, fun more => h_fails more [] []⟩⟩

end Worklist
