import Mathlib.Data.List.DropRight

/-!
# Lines and words of a text

A text is a list of characters, cut into lines at line feeds (`lines`) and a line into words at
white space (`splitWhitespace`), as the string functions of the source do. Words that are joined
by single blanks are the words of the result (`splitWhitespace_intercalate`), and lines that are
written one after the other are the lines of the result (`lines_unlines`).
-/

namespace Text

/-- The Unicode property `White_Space`. -/
def isWhitespace (c : Char) : Bool :=
  let n := c.toNat
  (9 ≤ n && n ≤ 13) || n == 0x20 || n == 0x85 || n == 0xa0 || n == 0x1680 ||
    (0x2000 ≤ n && n ≤ 0x200a) || n == 0x2028 || n == 0x2029 || n == 0x202f || n == 0x205f ||
    n == 0x3000

/-- `str::trim` -/
def trim (text : List Char) : List Char := (text.dropWhile isWhitespace).rdropWhile isWhitespace

/-- `str::split_whitespace` -/
def splitWhitespace (text : List Char) : List (List Char) :=
  (text.splitOnP isWhitespace).filter (· ≠ [])

/-- A line that was ended by a line feed loses a carriage return before it. -/
def stripCr (line : List Char) : List Char :=
  if line.getLast? = some '\r' then line.dropLast else line

/-- `BufRead::lines`: what follows the last line feed is a line unless it is empty. -/
def lines (text : List Char) : List (List Char) :=
  let pieces := text.splitOn '\n'
  pieces.dropLast.map stripCr ++ pieces.getLast?.toList.filter (· ≠ [])

/-! ### Words -/

/-- A text that is one word. -/
structure IsWord (text : List Char) : Prop where
  ne_nil : text ≠ []
  noSpace : ∀ c ∈ text, isWhitespace c = false

/-- The same as a test that goes through the characters of the text. -/
theorem isWord_iff {text : List Char} : IsWord text ↔ text ≠ [] ∧ text.all (!isWhitespace ·) := by
  rw [List.all_eq_true]
  constructor
  · rintro ⟨h_ne, h_noSpace⟩
    exact ⟨h_ne, fun c h_c => by rw [h_noSpace c h_c]; rfl⟩
  · rintro ⟨h_ne, h_all⟩
    exact ⟨h_ne, fun c h_c => (Bool.not_eq_true' _).mp (h_all c h_c)⟩

instance (text : List Char) : Decidable (IsWord text) := decidable_of_iff' _ isWord_iff

/-- A text is split at each of its white-space characters. -/
theorem splitWhitespace_append_cons {c : Char} (h : isWhitespace c) (text later : List Char) :
    splitWhitespace (text ++ c :: later) = splitWhitespace text ++ splitWhitespace later := by
  rw [splitWhitespace, List.splitOnP_append_cons _ _ h, List.filter_append, splitWhitespace,
    splitWhitespace]

theorem splitWhitespace_of_isWord {word : List Char} (h : IsWord word) :
    splitWhitespace word = [word] := by
  rw [splitWhitespace, List.splitOnP_eq_singleton h.noSpace]
  exact List.filter_cons_of_pos (decide_eq_true h.ne_nil)

/-- **Splitting.** Words joined by blanks are found again. -/
theorem splitWhitespace_intercalate {words : List (List Char)} (h : ∀ w ∈ words, IsWord w) :
    splitWhitespace ([' '].intercalate words) = words := by
  induction words with
  | nil => rfl
  | cons word words ih =>
    have h_word := splitWhitespace_of_isWord (h word (List.mem_cons_self ..))
    cases words with
    | nil => rw [List.intercalate_singleton, h_word]
    | cons next words =>
      have h_rest := ih (fun w h_w => h w (List.mem_cons_of_mem _ h_w))
      rw [List.intercalate_cons_cons, List.append_assoc, List.singleton_append,
        splitWhitespace_append_cons rfl, h_word, h_rest, List.singleton_append]

/-- The pieces between separators hold none. -/
theorem forall_mem_splitOnP {p : Char → Bool} {text piece : List Char}
    (h : piece ∈ text.splitOnP p) : ∀ c ∈ piece, p c = false := by
  induction text generalizing piece with
  | nil =>
    rw [List.splitOnP_nil, List.mem_singleton] at h
    rw [h]
    exact fun _ h_c => nomatch h_c
  | cons d text ih =>
    rw [List.splitOnP_cons_eq_if_modifyHead] at h
    split at h
    · rcases List.mem_cons.mp h with rfl | h
      · exact fun _ h_c => nomatch h_c
      · exact ih h
    · next h_d =>
      -- the first piece begins with the character in front
      obtain ⟨first, rest, h_pieces⟩ := List.exists_cons_of_ne_nil (text.splitOnP_ne_nil p)
      rw [h_pieces, List.modifyHead_cons] at h
      rw [h_pieces] at ih
      rcases List.mem_cons.mp h with rfl | h
      · intro c h_c
        rcases List.mem_cons.mp h_c with rfl | h_c
        · exact Bool.eq_false_iff.mpr h_d
        · exact ih (List.mem_cons_self ..) c h_c
      · exact ih (List.mem_cons_of_mem _ h)

/-- What a text is split into are words. -/
theorem isWord_of_mem_splitWhitespace {text word : List Char} (h : word ∈ splitWhitespace text) :
    IsWord word := by
  obtain ⟨h_mem, h_ne⟩ := List.mem_filter.mp h
  exact ⟨of_decide_eq_true h_ne, forall_mem_splitOnP h_mem⟩

/-- White space before a text that does not begin with it. -/
theorem dropWhile_padded {p : Char → Bool} {before body : List Char} (h_before : ∀ c ∈ before, p c)
    (h_first : ∀ c, body.head? = some c → p c = false) :
    (before ++ body).dropWhile p = body := by
  rw [List.dropWhile_append_of_pos h_before]
  cases body with
  | nil => rfl
  | cons c body =>
    rw [List.dropWhile_cons_of_neg]
    rw [h_first c rfl]
    exact Bool.false_ne_true

/-- **Trimming.** White space around a text that neither begins nor ends with it. -/
theorem trim_padded {before body after : List Char} (h_before : ∀ c ∈ before, isWhitespace c)
    (h_after : ∀ c ∈ after, isWhitespace c) (h_ne : body ≠ [])
    (h_first : ∀ c, body.head? = some c → isWhitespace c = false)
    (h_last : ∀ c, body.getLast? = some c → isWhitespace c = false) :
    trim (before ++ (body ++ after)) = body := by
  have h_head : ∀ c, (body ++ after).head? = some c → isWhitespace c = false := by
    intro c h_c
    rw [List.head?_append_of_ne_nil _ h_ne] at h_c
    exact h_first c h_c
  -- trimming at the end is trimming the reversed text at the front
  have h_reverse : (after.reverse ++ body.reverse).dropWhile isWhitespace = body.reverse := by
    refine dropWhile_padded (fun c h_c => h_after c (List.mem_reverse.mp h_c)) ?_
    rw [List.head?_reverse]
    exact h_last
  calc trim (before ++ (body ++ after))
      = (body ++ after).rdropWhile isWhitespace := by
        rw [trim, dropWhile_padded h_before h_head]
    _ = ((after.reverse ++ body.reverse).dropWhile isWhitespace).reverse := by
        rw [List.rdropWhile, List.reverse_append]
    _ = body := by rw [h_reverse, List.reverse_reverse]

/-- Joined words begin with the first word. -/
theorem head?_intercalate {word : List Char} {words : List (List Char)} (h : word ≠ []) :
    ([' '].intercalate (word :: words)).head? = word.head? := by
  cases words with
  | nil => rw [List.intercalate_singleton]
  | cons next words =>
    rw [List.intercalate_cons_cons, List.append_assoc, List.head?_append_of_ne_nil _ h]

theorem intercalate_ne_nil {word : List Char} {words : List (List Char)} (h : word ≠ []) :
    [' '].intercalate (word :: words) ≠ [] := by
  intro h_nil
  have h_head : ([' '].intercalate (word :: words)).head? = word.head? := head?_intercalate h
  rw [h_nil, List.head?_nil] at h_head
  exact h (List.head?_eq_none_iff.mp h_head.symm)

/-- Joined words end with a character of a word. -/
theorem getLast?_intercalate {words : List (List Char)} (h : ∀ w ∈ words, IsWord w) {c : Char}
    (h_c : ([' '].intercalate words).getLast? = some c) : isWhitespace c = false := by
  induction words with
  | nil => cases h_c
  | cons word words ih =>
    have h_word := h word (List.mem_cons_self ..)
    -- the last character is that of the last word
    cases words with
    | nil =>
      rw [List.intercalate_singleton] at h_c
      exact h_word.noSpace c (List.mem_of_getLast? h_c)
    | cons next words =>
      have h_next := h next (List.mem_cons_of_mem _ (List.mem_cons_self ..))
      refine ih (fun w h_w => h w (List.mem_cons_of_mem _ h_w)) ?_
      have h_ne : [' '].intercalate (next :: words) ≠ [] := intercalate_ne_nil h_next.ne_nil
      rwa [List.intercalate_cons_cons, List.getLast?_append_of_ne_nil _ h_ne] at h_c

/-- **Joined words with white space around them** are trimmed to the joined words. -/
theorem trim_intercalate {before after word : List Char} {words : List (List Char)}
    (h_before : ∀ c ∈ before, isWhitespace c) (h_after : ∀ c ∈ after, isWhitespace c)
    (h : ∀ w ∈ word :: words, IsWord w) :
    trim (before ++ ([' '].intercalate (word :: words) ++ after))
      = [' '].intercalate (word :: words) := by
  have h_word := h word (List.mem_cons_self ..)
  have h_head : ([' '].intercalate (word :: words)).head? = word.head? :=
    head?_intercalate h_word.ne_nil
  refine trim_padded h_before h_after (intercalate_ne_nil h_word.ne_nil) ?_
    (fun c h_c => getLast?_intercalate h h_c)
  intro c h_c
  rw [h_head] at h_c
  exact h_word.noSpace c (List.mem_of_head? h_c)

/-! ### Lines -/

/-- A line that can be written and read back. -/
structure IsLine (line : List Char) : Prop where
  noLf : '\n' ∉ line
  noCr : line.getLast? ≠ some '\r'

/-- A blank, or no white space at all. -/
def isPrintable (c : Char) : Bool := c == ' ' || !isWhitespace c

/-- A line whose only white space is blanks. -/
theorem isLine_of_printable {line : List Char} (h : ∀ c ∈ line, isPrintable c) : IsLine line where
  noLf h_lf := by
    have h_not : ¬ isPrintable '\n' := by decide
    exact h_not (h '\n' h_lf)
  noCr h_cr := by
    have h_not : ¬ isPrintable '\r' := by decide
    exact h_not (h '\r' (List.mem_of_getLast? h_cr))

theorem isPrintable_of_noSpace {c : Char} (h : isWhitespace c = false) : isPrintable c := by
  rw [isPrintable, h, Bool.not_false, Bool.or_true]

theorem isPrintable_of_mem_intercalate {words : List (List Char)} (h : ∀ w ∈ words, IsWord w) :
    ∀ c ∈ [' '].intercalate words, isPrintable c := by
  induction words with
  | nil =>
    intro c h_c
    cases h_c
  | cons word words ih =>
    have h_word := h word (List.mem_cons_self ..)
    have h_rest := ih (fun w h_w => h w (List.mem_cons_of_mem _ h_w))
    intro c h_c
    cases words with
    | nil =>
      rw [List.intercalate_singleton] at h_c
      exact isPrintable_of_noSpace (h_word.noSpace c h_c)
    | cons next words =>
      -- a word, the blank behind it, and the rest
      rw [List.intercalate_cons_cons, List.append_assoc] at h_c
      rcases List.mem_append.mp h_c with h_c | h_c
      · exact isPrintable_of_noSpace (h_word.noSpace c h_c)
      · rcases List.mem_cons.mp h_c with rfl | h_c
        · rfl
        · exact h_rest c h_c

/-- The lines of a text that is ended by a line feed. -/
def linesOf (text : List Char) : List (List Char) := (text.splitOn '\n').map stripCr

/-- **Lines.** Texts that are ended by line feeds are read one after the other. -/
theorem lines_flatMap (texts : List (List Char)) :
    lines (texts.flatMap (· ++ ['\n'])) = texts.flatMap linesOf := by
  -- the last piece is the empty text behind the last line feed
  have h_pieces : (texts.flatMap (· ++ ['\n'])).splitOn '\n'
      = texts.flatMap (·.splitOn '\n') ++ [[]] := by
    induction texts with
    | nil => rfl
    | cons text texts ih =>
      rw [List.flatMap_cons, List.append_assoc, List.singleton_append,
        List.splitOn_append_cons_self, ih, List.flatMap_cons, List.append_assoc]
  have h_last : (texts.flatMap (List.splitOn '\n') ++ [[]]).getLast?.toList.filter (· ≠ [])
      = [] := by
    rw [List.getLast?_concat]
    rfl
  rw [lines, h_pieces]
  simp only [List.dropLast_concat, List.map_flatMap, h_last, List.append_nil]
  rfl

/-- A line is its only line. -/
theorem linesOf_of_isLine {line : List Char} (h : IsLine line) : linesOf line = [line] := by
  rw [linesOf, List.splitOn_eq_singleton h.noLf, List.map_singleton, stripCr, if_neg h.noCr]

/-- Every line is its only line. -/
theorem flatMap_linesOf {ls : List (List Char)} (h : ∀ l ∈ ls, IsLine l) :
    ls.flatMap linesOf = ls := by
  rw [List.flatMap_congr fun l h_l => linesOf_of_isLine (h l h_l), List.flatMap_singleton']

/-- What is written line by line is read line by line. -/
theorem lines_unlines {ls : List (List Char)} (h : ∀ l ∈ ls, IsLine l) :
    lines (ls.flatMap (· ++ ['\n'])) = ls := by
  rw [lines_flatMap, flatMap_linesOf h]

end Text
