import Mathlib.Data.List.Basic

/-!
# Scanners and readers

Reading a language goes in two steps. A *scanner* goes through a text item by item: each item may
complete some tokens, and what was begun but not completed is the scanner's mode. `Scans` says
what a piece of text completes between two modes, and pieces put together complete what each of
them does (`Scans.append`, `Scans.flatMap`, `Scans.intercalate`), so that what a printed text
scans to is known piece by piece.

A *reader* takes a construct off the front of a list of tokens. `separated` reads constructs with
a separator between them up to a closing token, and `all` reads constructs to the end; both read
back what was printed construct by construct, if the reader does so for each of them
(`separated_terminated`, `separated_intercalate`, `all_flatMap`).
-/

namespace Scanner

variable {Mode Input Output α : Type}

/-! ### Scanners -/

/-- What a text completes, and the mode behind it; `none` where the text is not well formed. -/
def scan (step : Mode → Input → Option (List Output × Mode)) :
    Mode → List Input → Option (List Output × Mode)
  | m, [] => some ([], m)
  | m, i :: is => do
    let (out, next) ← step m i
    let (later, last) ← scan step next is
    return (out ++ later, last)

/-- Between these modes the text completes these outputs. -/
def Scans (step : Mode → Input → Option (List Output × Mode)) (m : Mode) (is : List Input)
    (out : List Output) (last : Mode) : Prop := scan step m is = some (out, last)

instance [DecidableEq Mode] [DecidableEq Output]
    (step : Mode → Input → Option (List Output × Mode)) (m : Mode) (is : List Input)
    (out : List Output) (last : Mode) : Decidable (Scans step m is out last) :=
  inferInstanceAs (Decidable (_ = _))

variable {step : Mode → Input → Option (List Output × Mode)} {m m' m'' : Mode}

theorem Scans.nil (m : Mode) : Scans step m [] [] m := rfl

theorem Scans.cons {i : Input} {is : List Input} {out later : List Output}
    (h : step m i = some (out, m')) (h_later : Scans step m' is later m'') :
    Scans step m (i :: is) (out ++ later) m'' := by
  rw [Scans] at h_later
  rw [Scans, scan, h]
  show (scan step m' is).bind _ = _
  rw [h_later]
  rfl

/-- An item that completes nothing. -/
theorem Scans.silent {i : Input} {is : List Input} {later : List Output}
    (h : step m i = some ([], m')) (h_later : Scans step m' is later m'') :
    Scans step m (i :: is) later m'' := Scans.cons h h_later

/-- **Pieces** complete one after the other. -/
theorem Scans.append {is js : List Input} {out later : List Output} (h : Scans step m is out m')
    (h_later : Scans step m' js later m'') : Scans step m (is ++ js) (out ++ later) m'' := by
  induction is generalizing m out with
  | nil =>
    cases h
    exact h_later
  | cons i is ih =>
    obtain ⟨⟨first, next⟩, h_step, h⟩ := Option.bind_eq_some_iff.mp h
    obtain ⟨⟨rest, last⟩, h_rest, h⟩ := Option.bind_eq_some_iff.mp h
    cases h
    rw [List.append_assoc]
    exact Scans.cons h_step (ih h_rest)

/-- A text behind a piece is scanned from the mode the piece leads to. -/
theorem Scans.scan_append {is : List Input} {out : List Output} (h : Scans step m is out m')
    (js : List Input) :
    scan step m (is ++ js) = (scan step m' js).map fun x => (out ++ x.1, x.2) := by
  -- over the piece: the first step is the same with more text behind it
  induction is generalizing m out with
  | nil =>
    cases h
    rw [List.nil_append]
    cases scan step m' js <;> rfl
  | cons i is ih =>
    obtain ⟨⟨first, next⟩, h_step, h⟩ := Option.bind_eq_some_iff.mp h
    obtain ⟨⟨rest, last⟩, h_rest, h⟩ := Option.bind_eq_some_iff.mp h
    cases h
    rw [List.cons_append, scan, h_step]
    show (scan step next (is ++ js)).bind _ = _
    rw [ih h_rest]
    cases scan step m' js with
    | none => rfl
    | some x =>
      show some (first ++ (rest ++ x.1), x.2) = some (first ++ rest ++ x.1, x.2)
      rw [List.append_assoc]

/-- Pieces that each lead back to where they began. -/
theorem Scans.flatMap {text : α → List Input} {tokens : α → List Output} {as : List α}
    (h : ∀ a ∈ as, Scans step m (text a) (tokens a) m) :
    Scans step m (as.flatMap text) (as.flatMap tokens) m := by
  induction as with
  | nil => exact Scans.nil m
  | cons a as ih =>
    rw [List.flatMap_cons, List.flatMap_cons]
    exact (h a (List.mem_cons_self ..)).append (ih fun b h_b => h b (List.mem_cons_of_mem _ h_b))

/-- The same pieces with a separator that completes nothing. -/
theorem Scans.intercalate {separator : List Input} {text : α → List Input}
    {tokens : α → List Output} {as : List α} (h_separator : Scans step m separator [] m)
    (h : ∀ a ∈ as, Scans step m (text a) (tokens a) m) :
    Scans step m (separator.intercalate (as.map text)) (as.flatMap tokens) m := by
  induction as with
  | nil => exact Scans.nil m
  | cons a as ih =>
    have h_first := h a (List.mem_cons_self ..)
    have h_rest := ih fun b h_b => h b (List.mem_cons_of_mem _ h_b)
    rw [List.flatMap_cons]
    -- the last piece has no separator behind it
    cases as with
    | nil =>
      rw [List.map_singleton, List.intercalate_singleton, List.flatMap_nil, List.append_nil]
      exact h_first
    | cons b as =>
      rw [List.map_cons, List.map_cons, List.intercalate_cons_cons, List.append_assoc]
      exact h_first.append (h_separator.append h_rest)

/-! ### Readers -/

section Readers

variable {τ : Type} {reader : List τ → Option (α × List τ)}

/-- Constructs to the end. Every construct takes one round. -/
def allIn (reader : List τ → Option (α × List τ)) : ℕ → List τ → Option (List α)
  | _, [] => some []
  | 0, _ :: _ => none
  | rounds + 1, t :: tokens => do
    let (a, tokens) ← reader (t :: tokens)
    let as ← allIn reader rounds tokens
    return a :: as

/-- Constructs to the end; there are not more of them than tokens. -/
def all (reader : List τ → Option (α × List τ)) (tokens : List τ) : Option (List α) :=
  allIn reader tokens.length tokens

theorem length_le_length_flatMap {tokens : α → List τ} {as : List α}
    (h : ∀ a ∈ as, tokens a ≠ []) : as.length ≤ (as.flatMap tokens).length := by
  induction as with
  | nil => exact Nat.le_refl _
  | cons a as ih =>
    have h_first := List.length_pos_of_ne_nil (h a (List.mem_cons_self ..))
    have h_rest := ih fun b h_b => h b (List.mem_cons_of_mem _ h_b)
    rw [List.flatMap_cons, List.length_append, List.length_cons]
    omega

/-- **Round trip.** Printed constructs are read to the end. -/
theorem all_flatMap {tokens : α → List τ} {as : List α} (h_first : ∀ a ∈ as, tokens a ≠ [])
    (h : ∀ a ∈ as, ∀ rest, reader (tokens a ++ rest) = some (a, rest)) :
    all reader (as.flatMap tokens) = some as := by
  have h_rounds := length_le_length_flatMap h_first
  rw [all]
  -- all that matters of the rounds is that there are enough for the constructs
  generalize (as.flatMap tokens).length = rounds at h_rounds
  induction as generalizing rounds with
  | nil =>
    cases rounds <;> rfl
  | cons a as ih =>
    rw [List.length_cons] at h_rounds
    obtain ⟨rounds, rfl⟩ : ∃ later, rounds = later + 1 := ⟨rounds - 1, by omega⟩
    have h_rest := ih (fun b h_b => h_first b (List.mem_cons_of_mem _ h_b))
      (fun b h_b => h b (List.mem_cons_of_mem _ h_b)) rounds (by omega)
    obtain ⟨t, others, h_tokens⟩ :=
      List.exists_cons_of_ne_nil (h_first a (List.mem_cons_self ..))
    have h_read := h a (List.mem_cons_self ..) (as.flatMap tokens)
    rw [List.flatMap_cons]
    rw [h_tokens, List.cons_append] at h_read ⊢
    rw [allIn, h_read]
    show (allIn reader rounds _).bind _ = _
    rw [h_rest]
    rfl

/-! ### Constructs with separators -/

variable [DecidableEq τ] {separator close : τ} {tokens : α → List τ}

/-- Constructs with a separator between them, which may follow the last one too, up to a closing
token. Every construct takes one round. -/
def separatedIn (separator close : τ) (reader : List τ → Option (α × List τ)) :
    ℕ → List τ → Option (List α × List τ)
  | 0, _ => none
  | _ + 1, [] => none
  | rounds + 1, t :: tokens =>
    -- nothing, or the end behind a last separator
    if t = close then some ([], tokens)
    else
      match reader (t :: tokens) with
      | some (a, t :: tokens) =>
        if t = close then some ([a], tokens)
        else if t = separator then do
          let (as, tokens) ← separatedIn separator close reader rounds tokens
          return (a :: as, tokens)
        else none
      | _ => none

/-- Constructs with separators; there are not more of them than tokens. -/
def separated (separator close : τ) (reader : List τ → Option (α × List τ)) (tokens : List τ) :
    Option (List α × List τ) := separatedIn separator close reader tokens.length tokens

/-- The construct in front, with what is behind it. -/
theorem separatedIn_cons {rounds : ℕ} {a : α} {t : τ} {others rest : List τ}
    (h_tokens : tokens a = t :: others) (h_ne : t ≠ close)
    (h : ∀ rest, reader (tokens a ++ rest) = some (a, rest)) {next : τ} :
    separatedIn separator close reader (rounds + 1) (tokens a ++ next :: rest)
      = if next = close then some ([a], rest)
        else if next = separator then
          (separatedIn separator close reader rounds rest).map fun x => (a :: x.1, x.2)
        else none := by
  have h_read := h (next :: rest)
  rw [h_tokens, List.cons_append] at h_read ⊢
  rw [separatedIn, if_neg h_ne, h_read]
  show ite _ _ (ite _ (Option.bind _ _) _) = _
  rw [Option.map_eq_bind]
  rfl

variable {as : List α}

omit [DecidableEq τ] in
theorem length_le_length_intercalate (h : ∀ a ∈ as, tokens a ≠ []) :
    as.length ≤ ([separator].intercalate (as.map tokens)).length := by
  induction as with
  | nil => exact Nat.le_refl _
  | cons a as ih =>
    have h_first := List.length_pos_of_ne_nil (h a (List.mem_cons_self ..))
    have h_rest := ih fun b h_b => h b (List.mem_cons_of_mem _ h_b)
    -- the last piece has no separator behind it
    cases as with
    | nil =>
      rw [List.map_singleton, List.intercalate_singleton]
      exact h_first
    | cons b as =>
      rw [List.map_cons] at h_rest
      rw [List.map_cons, List.map_cons, List.intercalate_cons_cons, List.length_append,
        List.length_append, List.length_cons]
      omega

variable (h_first : ∀ a ∈ as, ∃ t others, tokens a = t :: others ∧ t ≠ close)
  (h : ∀ a ∈ as, ∀ rest, reader (tokens a ++ rest) = some (a, rest)) (rest : List τ)

include h_first

omit [DecidableEq τ] in
theorem ne_nil_of_first : ∀ a ∈ as, tokens a ≠ [] := by
  intro a h_a h_nil
  obtain ⟨t, others, h_tokens, -⟩ := h_first a h_a
  cases h_nil.symm.trans h_tokens

include h

/-- **Round trip.** Constructs that were printed with a separator behind each of them. -/
theorem separated_terminated (h_separator : separator ≠ close) :
    separated separator close reader
      (as.flatMap (fun a => tokens a ++ [separator]) ++ close :: rest) = some (as, rest) := by
  have h_rounds : as.length
      < (as.flatMap (fun a => tokens a ++ [separator]) ++ close :: rest).length := by
    have h_le := @length_le_length_flatMap _ _ (fun a => tokens a ++ [separator]) as
      fun a _ => by simp
    rw [List.length_append, List.length_cons]
    omega
  rw [separated]
  -- the induction is on the constructs, with any number of rounds above theirs
  generalize (as.flatMap (fun a => tokens a ++ [separator]) ++ close :: rest).length = rounds
    at h_rounds
  induction as generalizing rounds with
  | nil =>
    obtain ⟨rounds, rfl⟩ := Nat.exists_eq_add_of_lt h_rounds
    exact if_pos rfl
  | cons a as ih =>
    rw [List.length_cons] at h_rounds
    obtain ⟨rounds, rfl⟩ : ∃ later, rounds = later + 1 := ⟨rounds - 1, by omega⟩
    have h_rest := ih (fun b h_b => h_first b (List.mem_cons_of_mem _ h_b))
      (fun b h_b => h b (List.mem_cons_of_mem _ h_b)) rounds (by omega)
    obtain ⟨t, others, h_tokens, h_ne⟩ := h_first a (List.mem_cons_self ..)
    rw [List.flatMap_cons, List.append_assoc, List.append_assoc, List.singleton_append,
      separatedIn_cons h_tokens h_ne (h a (List.mem_cons_self ..)), if_neg h_separator, if_pos rfl,
      h_rest]
    rfl

/-- **Round trip.** Constructs that were printed with a separator between them. -/
theorem separated_intercalate (h_separator : separator ≠ close) :
    separated separator close reader
      ([separator].intercalate (as.map tokens) ++ close :: rest) = some (as, rest) := by
  have h_rounds : as.length
      < ([separator].intercalate (as.map tokens) ++ close :: rest).length := by
    have h_le := @length_le_length_intercalate _ _ separator tokens as (ne_nil_of_first h_first)
    rw [List.length_append, List.length_cons]
    omega
  rw [separated]
  generalize ([separator].intercalate (as.map tokens) ++ close :: rest).length = rounds
    at h_rounds
  induction as generalizing rounds with
  | nil =>
    obtain ⟨rounds, rfl⟩ := Nat.exists_eq_add_of_lt h_rounds
    exact if_pos rfl
  | cons a as ih =>
    rw [List.length_cons] at h_rounds
    obtain ⟨rounds, rfl⟩ : ∃ later, rounds = later + 1 := ⟨rounds - 1, by omega⟩
    have h_rest := ih (fun b h_b => h_first b (List.mem_cons_of_mem _ h_b))
      (fun b h_b => h b (List.mem_cons_of_mem _ h_b)) rounds (by omega)
    obtain ⟨t, others, h_tokens, h_ne⟩ := h_first a (List.mem_cons_self ..)
    -- only the last construct has the closing token behind it
    cases as with
    | nil =>
      rw [List.map_singleton, List.intercalate_singleton,
        separatedIn_cons h_tokens h_ne (h a (List.mem_cons_self ..)), if_pos rfl]
    | cons b as =>
      rw [List.map_cons, List.map_cons, List.intercalate_cons_cons, List.append_assoc,
        List.append_assoc, List.singleton_append,
        separatedIn_cons h_tokens h_ne (h a (List.mem_cons_self ..)), if_neg h_separator,
        if_pos rfl, ← List.map_cons, h_rest]
      rfl

end Readers

end Scanner
