import Cantools.Framework.Transducer

/-!
# A channel that drops and repeats

`Lossy sent received` says that `received` arises from `sent` by dropping any of the messages
and repeating any of them, any number of times, immediately after itself; the order is
otherwise kept. A receiver is a transducer; repeats are harmless to it where a message it has
just handled changes nothing when it comes again (`outputs_replicate`).
-/

namespace Channel

open Transducer

variable {Message State Output : Type*}

/-- Every sent message arrives some number of times, in the order they were sent. -/
inductive Lossy : List Message → List Message → Prop where
  | nil : Lossy [] []
  | cons (m : Message) (copies : ℕ) {sent received : List Message} :
      Lossy sent received → Lossy (m :: sent) (List.replicate copies m ++ received)

/-- A channel that loses nothing and repeats nothing is one of these channels. -/
theorem Lossy.refl (sent : List Message) : Lossy sent sent := by
  induction sent with
  | nil => exact .nil
  | cons m sent ih => exact .cons m 1 ih

theorem lossy_nil_iff {received : List Message} : Lossy [] received ↔ received = [] := by
  constructor
  · intro h
    cases h
    rfl
  · rintro rfl
    exact .nil

theorem lossy_cons_iff {m : Message} {sent received : List Message} :
    Lossy (m :: sent) received ↔
      ∃ copies rest, received = List.replicate copies m ++ rest ∧ Lossy sent rest := by
  constructor
  · intro h
    cases h with
    | cons _ copies h => exact ⟨copies, _, rfl, h⟩
  · rintro ⟨copies, rest, rfl, h⟩
    exact .cons m copies h

/-! ### Repeats -/

section Repeat

variable {step : State → Message → Output × State} {m : Message}

/-- Once a message that comes again is answered with `o` and changes nothing, so are all its
further copies. -/
theorem outputs_replicate {s : State} {o : Output} (h : step s m = (o, s)) (copies : ℕ) :
    outputs step s (List.replicate copies m) = List.replicate copies o ∧
      final step s (List.replicate copies m) = s := by
  induction copies with
  | zero => exact ⟨rfl, rfl⟩
  | succ copies ih =>
    rw [List.replicate_succ, outputs_cons, final_cons, h, List.replicate_succ]
    exact ⟨congrArg _ ih.1, ih.2⟩

end Repeat

end Channel
