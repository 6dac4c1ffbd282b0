import Mathlib.Logic.Function.Basic
import Cantools.Framework.Interaction

/-!
# Programs that stop at their questions

An `Interaction` runs from its first question to its last. A `Dialogue` is the same program as a
tree: it stops at each question, and what it does next is a function of the answer, so that other
programs may run in between.

* `Follows` says what is left of a dialogue behind some questions and their answers;
* `Meets` is a specification of the questions and of the result, with the rule of sequence
  (`Meets.bind`), and holds of what is left (`Meets.follows`);
* `Within` bounds the number of questions, whatever the answers are;
* `run` gives a dialogue to a world which answers all of its questions. It is an `Interaction`.
-/

/-- A program that stops at its questions. -/
inductive Dialogue (Question : Type) (Answer : Question → Type) (ε α : Type) where
  | done (a : α)
  | failed (e : ε)
  | asking (question : Question) (resume : Answer question → Dialogue Question Answer ε α)

namespace Dialogue

variable {Question : Type} {Answer : Question → Type} {ε ε' α β : Type}

/-- A question with its answer. -/
structure Event (Answer : Question → Type) where
  question : Question
  answer : Answer question

/-- A dialogue and, if it ends with a value, the one that goes on with it. -/
def andThen (p : Dialogue Question Answer ε α) (f : α → Dialogue Question Answer ε β) :
    Dialogue Question Answer ε β :=
  match p with
  | done a => f a
  | failed e => failed e
  | asking question resume => asking question fun answer => andThen (resume answer) f

instance : Monad (Dialogue Question Answer ε) where
  pure := done
  bind := andThen

/-- One question. -/
def ask (question : Question) : Dialogue Question Answer ε (Answer question) :=
  asking question done

@[simp] theorem done_bind (a : α) (f : α → Dialogue Question Answer ε β) :
    done a >>= f = f a := rfl

@[simp] theorem pure_bind (a : α) (f : α → Dialogue Question Answer ε β) :
    pure a >>= f = f a := rfl

@[simp] theorem failed_bind (e : ε) (f : α → Dialogue Question Answer ε β) :
    failed e >>= f = failed e := rfl

@[simp] theorem asking_bind (question : Question)
    (resume : Answer question → Dialogue Question Answer ε α)
    (f : α → Dialogue Question Answer ε β) :
    asking question resume >>= f = asking question fun answer => resume answer >>= f := rfl

@[simp] theorem ask_bind (question : Question)
    (f : Answer question → Dialogue Question Answer ε β) :
    ask question >>= f = asking question f := rfl

/-! ### Paths -/

/-- What is left of a dialogue behind these questions and answers. -/
inductive Follows : Dialogue Question Answer ε α → List (Event Answer) →
    Dialogue Question Answer ε α → Prop
  | refl (p : Dialogue Question Answer ε α) : Follows p [] p
  | step {question : Question} {resume : Answer question → Dialogue Question Answer ε α}
    {answer : Answer question} {trace : List (Event Answer)} {p : Dialogue Question Answer ε α}
    (h : Follows (resume answer) trace p) :
    Follows (asking question resume) (⟨question, answer⟩ :: trace) p

section Paths

variable {p q r : Dialogue Question Answer ε α} {trace : List (Event Answer)}

theorem Follows.trans {later : List (Event Answer)} (h : Follows p trace q)
    (h_later : Follows q later r) : Follows p (trace ++ later) r := by
  induction h with
  | refl => exact h_later
  | step _ ih => exact .step (ih h_later)

/-- A path and one more answer. -/
theorem Follows.snoc {question : Question}
    {resume : Answer question → Dialogue Question Answer ε α}
    (h : Follows p trace (asking question resume)) (answer : Answer question) :
    Follows p (trace ++ [⟨question, answer⟩]) (resume answer) := h.trans (.step (.refl _))

end Paths

/-! ### Specifications -/

/-- Whatever the answers are, `asks` holds of each question and `post` of the result, with all
questions and answers before. -/
def Meets (asks : List (Event Answer) → Question → Prop)
    (post : List (Event Answer) → Except ε α → Prop) :
    List (Event Answer) → Dialogue Question Answer ε α → Prop
  | trace, done a => post trace (.ok a)
  | trace, failed e => post trace (.error e)
  | trace, asking question resume => asks trace question ∧
      ∀ answer, Meets asks post (trace ++ [⟨question, answer⟩]) (resume answer)

section Meets

variable {asks : List (Event Answer) → Question → Prop}
variable {post : List (Event Answer) → Except ε α → Prop}
variable {p q : Dialogue Question Answer ε α} {trace : List (Event Answer)}

/-- **The rule of sequence.** -/
theorem Meets.bind {after : List (Event Answer) → Except ε β → Prop}
    {f : α → Dialogue Question Answer ε β} (h : Meets asks post trace p)
    (h_ok : ∀ trace a, post trace (.ok a) → Meets asks after trace (f a))
    (h_error : ∀ trace e, post trace (.error e) → after trace (.error e)) :
    Meets asks after trace (p >>= f) := by
  induction p generalizing trace with
  | done a => exact h_ok _ a h
  | failed e => exact h_error _ e h
  | asking question resume ih => exact ⟨h.1, fun answer => ih answer (h.2 answer)⟩

theorem Meets.mono {after : List (Event Answer) → Except ε α → Prop}
    (h : Meets asks post trace p)
    (h_post : ∀ trace result, post trace result → after trace result) :
    Meets asks after trace p := by
  induction p generalizing trace with
  | done a => exact h_post _ _ h
  | failed e => exact h_post _ _ h
  | asking question resume ih => exact ⟨h.1, fun answer => ih answer (h.2 answer)⟩

/-- **What is left** of a dialogue meets the specification, too. -/
theorem Meets.follows {later : List (Event Answer)} (h : Meets asks post trace p)
    (h_follows : Follows p later q) : Meets asks post (trace ++ later) q := by
  induction h_follows generalizing trace with
  | refl =>
    rw [List.append_nil]
    exact h
  | step _ ih =>
    rw [List.append_cons]
    exact ih (h.2 _)

/-- What holds at every question and of every result holds all the time. -/
theorem Meets.always {Inv : List (Event Answer) → Prop} (h : Meets asks post trace p)
    (h_asks : ∀ trace question, asks trace question → Inv trace)
    (h_post : ∀ trace result, post trace result → Inv trace) : Inv trace := by
  cases p with
  | done a => exact h_post _ _ h
  | failed e => exact h_post _ _ h
  | asking question resume => exact h_asks _ _ h.1

end Meets

/-! ### The number of questions -/

/-- The dialogue asks at most this number of questions. -/
def Within : ℕ → Dialogue Question Answer ε α → Prop
  | _, done _ => True
  | _, failed _ => True
  | 0, asking _ _ => False
  | n + 1, asking _ resume => ∀ answer, Within n (resume answer)

section Within

variable {p : Dialogue Question Answer ε α} {n m : ℕ}

theorem Within.mono (h : Within n p) (h_le : n ≤ m) : Within m p := by
  induction p generalizing n m with
  | done a => cases m <;> trivial
  | failed e => cases m <;> trivial
  | asking question resume ih =>
    cases n with
    | zero => exact h.elim
    | succ n =>
      obtain ⟨m, rfl⟩ := Nat.exists_eq_add_of_le' (Nat.le_trans (Nat.succ_pos n) h_le)
      exact fun answer => ih answer (h answer) (Nat.le_of_succ_le_succ h_le)

theorem within_done (n : ℕ) (a : α) : Within n (done a : Dialogue Question Answer ε α) := by
  cases n <;> trivial

theorem within_failed (n : ℕ) (e : ε) : Within n (failed e : Dialogue Question Answer ε α) := by
  cases n <;> trivial

/-- **The rule of sequence.** -/
theorem Within.bind {f : α → Dialogue Question Answer ε β} (h : Within n p)
    (h_f : ∀ a, Within m (f a)) : Within (n + m) (p >>= f) := by
  induction p generalizing n with
  | done a => exact (h_f a).mono (Nat.le_add_left ..)
  | failed e => exact within_failed _ e
  | asking question resume ih =>
    cases n with
    | zero => exact h.elim
    | succ n =>
      rw [Nat.succ_add]
      exact fun answer => ih answer (h answer)

end Within

/-! ### A world that answers everything -/

section Run

variable {World Action : Type} (handle : (question : Question) → World → Answer question × World)
variable (log : Event Answer → List Action)

/-- The dialogue with a world, as one program. -/
def run : Dialogue Question Answer ε α → Interaction World Action ε α
  | done a => pure a
  | failed e => Interaction.fail e
  | asking question resume => do
    let answer ← Interaction.ask (handle question) fun answer => log ⟨question, answer⟩
    run (resume answer)

theorem run_asking (question : Question)
    (resume : Answer question → Dialogue Question Answer ε α) (world : World) :
    run handle log (asking question resume) world
      = (log ⟨question, (handle question world).1⟩ ++
          (run handle log (resume (handle question world).1) (handle question world).2).1,
        (run handle log (resume (handle question world).1) (handle question world).2).2) := rfl

/-- Two dialogues in a row. -/
theorem run_bind (p : Dialogue Question Answer ε α) (f : α → Dialogue Question Answer ε β)
    (world : World) :
    run handle log (p >>= f) world
      = (run handle log p >>= fun a => run handle log (f a)) world := by
  induction p generalizing world with
  | done a => rfl
  | failed e => rfl
  | asking question resume ih =>
    rw [asking_bind, run_asking, ih]
    rcases h_rest : run handle log (resume (handle question world).1) (handle question world).2
      with ⟨actions, e | a, next⟩
    · rw [Interaction.bind_apply_error h_rest,
        Interaction.bind_apply_error ((run_asking ..).trans (by rw [h_rest]))]
    · rw [Interaction.bind_apply_ok h_rest,
        Interaction.bind_apply_ok ((run_asking ..).trans (by rw [h_rest])), List.append_assoc]

end Run

end Dialogue
