import Cantools.Framework.Worklist
import Cantools.Codec.Path

/-!
# Placeholders left in the repository

`xtask check-placeholders` walks through all directories (`walkdir`) and fails if a file that it
checks has a placeholder in its text. Directories and files are those of a parameter `Tree`.

What counts as a placeholder is the pattern of the source: a marker with a word boundary on both
sides (`isMatch`). A marker that ends with an exclamation mark has a boundary there only if a
word goes on behind it, so a macro that is called with parentheses is no placeholder
(`Marked`, `checkPlaceholders_calls`).
-/

namespace Cantools.Xtask

open Codec Utf8 Worklist

/-! ### The pattern -/

/-- The markers: two macros, and the word. -/
def markers : List (List Char) :=
  ["todo!".toList, "unimplemented!".toList, "TODO".toList]

section

variable (isWord : Char → Bool)

/-- A word boundary between two characters, or at an end of the text. -/
def boundary (before after : Option Char) : Bool :=
  before.elim false isWord != after.elim false isWord

/-- The pattern at a position of the text. -/
def matchesAt (before : Option Char) (rest : List Char) : Bool :=
  markers.any fun marker => boundary isWord before marker.head? && marker.isPrefixOf rest &&
    boundary isWord marker.getLast? (rest.drop marker.length).head?

/-- `Regex::is_match`: the pattern somewhere in the text behind a character. -/
def isMatch : Option Char → List Char → Bool
  | before, [] => matchesAt isWord before []
  | before, c :: rest => matchesAt isWord before (c :: rest) || isMatch (some c) rest

/-- What `\w` is for the characters of the markers. -/
structure WordChars : Prop where
  alphabetic : ∀ c ∈ ['t', 'u', 'T', 'O'], isWord c = true
  mark : isWord '!' = false

/-- A text with a placeholder: one of the macros between what is no word and a word, or the word
between what are none. -/
def Marked (text : List Char) : Prop :=
  ∃ before after, before.getLast?.elim false isWord = false ∧
    ((text = before ++ ("TODO".toList ++ after) ∧ after.head?.elim false isWord = false) ∨
      ∃ call ∈ ["todo!".toList, "unimplemented!".toList],
        text = before ++ (call ++ after) ∧ after.head?.elim false isWord = true)

end

section

variable {isWord : Char → Bool}

/-- The pattern matches somewhere in a text. -/
theorem isMatch_iff_exists (first : Option Char) (text : List Char) :
    isMatch isWord first text ↔ ∃ before after, text = before ++ after ∧
      matchesAt isWord (before.getLast?.or first) after := by
  -- over the text; what stands before it is the first character
  induction text generalizing first with
  | nil =>
    rw [isMatch]
    constructor
    · exact fun h => ⟨[], [], rfl, h⟩
    · rintro ⟨before, after, h_text, h⟩
      obtain ⟨rfl, rfl⟩ := List.append_eq_nil_iff.mp h_text.symm
      exact h
  | cons c rest ih =>
    rw [isMatch, Bool.or_eq_true, ih]
    constructor
    · -- the first character is the last one before the match if nothing else is
      rintro (h | ⟨before, after, rfl, h⟩)
      · exact ⟨[], c :: rest, rfl, h⟩
      · refine ⟨c :: before, after, rfl, ?_⟩
        cases before with
        | nil => exact h
        | cons d before =>
          rw [List.getLast?_cons_cons]
          rw [List.getLast?_eq_some_getLast (List.cons_ne_nil d before)] at h ⊢
          exact h
    · -- without a character in front of it, the match is here
      rintro ⟨before, after, h_text, h⟩
      cases before with
      | nil =>
        obtain rfl : c :: rest = after := h_text
        exact .inl h
      | cons d before =>
        obtain ⟨rfl, rfl⟩ := List.cons.inj h_text
        refine .inr ⟨before, after, rfl, ?_⟩
        cases before with
        | nil => exact h
        | cons e before =>
          rw [List.getLast?_cons_cons] at h
          rw [List.getLast?_eq_some_getLast (List.cons_ne_nil e before)] at h ⊢
          exact h

/-- The pattern matches at a position if a marker with boundaries is there. -/
theorem matchesAt_iff (before : Option Char) (rest : List Char) :
    matchesAt isWord before rest ↔ ∃ marker ∈ markers, ∃ after, rest = marker ++ after ∧
      boundary isWord before marker.head? ∧ boundary isWord marker.getLast? after.head? := by
  rw [matchesAt, List.any_eq_true]
  constructor
  · rintro ⟨marker, h_marker, h⟩
    rw [Bool.and_eq_true, Bool.and_eq_true, List.isPrefixOf_iff_prefix] at h
    obtain ⟨⟨h_before, after, rfl⟩, h_after⟩ := h
    rw [List.drop_left] at h_after
    exact ⟨marker, h_marker, after, rfl, h_before, h_after⟩
  · rintro ⟨marker, h_marker, after, rfl, h_before, h_after⟩
    refine ⟨marker, h_marker, ?_⟩
    rw [Bool.and_eq_true, Bool.and_eq_true, List.isPrefixOf_iff_prefix, List.drop_left]
    exact ⟨⟨h_before, List.prefix_append _ _⟩, h_after⟩

theorem boundary_word {before after : Option Char} (h : after.elim false isWord = true) :
    boundary isWord before after ↔ before.elim false isWord = false := by
  rw [boundary, h]
  cases before.elim false isWord <;> decide

theorem word_boundary {before after : Option Char} (h : before.elim false isWord = true) :
    boundary isWord before after ↔ after.elim false isWord = false := by
  rw [boundary, h]
  cases after.elim false isWord <;> decide

theorem mark_boundary {before after : Option Char} (h : before.elim false isWord = false) :
    boundary isWord before after ↔ after.elim false isWord = true := by
  rw [boundary, h]
  cases after.elim false isWord <;> decide

/-- A marker is a macro or the word. -/
theorem exists_marker_iff {p : List Char → Prop} :
    (∃ marker ∈ markers, p marker) ↔
      p "TODO".toList ∨ ∃ call ∈ ["todo!".toList, "unimplemented!".toList], p call := by
  have h_split : markers = ["todo!".toList, "unimplemented!".toList] ++ ["TODO".toList] := rfl
  rw [h_split]
  simp only [List.mem_append, List.mem_singleton]
  constructor
  · rintro ⟨marker, h_call | rfl, h⟩
    · exact .inr ⟨marker, h_call, h⟩
    · exact .inl h
  · rintro (h | ⟨call, h_call, h⟩)
    · exact ⟨_, .inr rfl, h⟩
    · exact ⟨call, .inl h_call, h⟩

/-- The macros begin with a word and end with a mark. -/
theorem WordChars.call (h : WordChars isWord) {call : List Char}
    (h_call : call ∈ ["todo!".toList, "unimplemented!".toList]) :
    call.head?.elim false isWord = true ∧ call.getLast?.elim false isWord = false := by
  have h_t := h.alphabetic 't' (by decide)
  have h_u := h.alphabetic 'u' (by decide)
  rcases List.mem_pair.mp h_call with rfl | rfl
  · exact ⟨h_t, h.mark⟩
  · exact ⟨h_u, h.mark⟩

theorem WordChars.word (h : WordChars isWord) :
    "TODO".toList.head?.elim false isWord = true ∧
      "TODO".toList.getLast?.elim false isWord = true :=
  ⟨h.alphabetic 'T' (by decide), h.alphabetic 'O' (by decide)⟩

/-- **The pattern** finds the texts with a placeholder. -/
theorem isMatch_iff_marked (h : WordChars isWord) (text : List Char) :
    isMatch isWord none text ↔ Marked isWord text := by
  rw [isMatch_iff_exists]
  constructor
  · -- the two alternatives of the pattern, with a boundary on both sides
    rintro ⟨before, rest, rfl, h_rest⟩
    rw [Option.or_none, matchesAt_iff, exists_marker_iff] at h_rest
    rcases h_rest with ⟨after, rfl, h_before, h_after⟩ |
      ⟨call, h_call, after, rfl, h_before, h_after⟩
    · exact ⟨before, after, (boundary_word h.word.1).mp h_before,
        .inl ⟨rfl, (word_boundary h.word.2).mp h_after⟩⟩
    · exact ⟨before, after, (boundary_word (h.call h_call).1).mp h_before,
        .inr ⟨call, h_call, rfl, (mark_boundary (h.call h_call).2).mp h_after⟩⟩
  · -- the other way, each boundary is one for the pattern too
    rintro ⟨before, after, h_before, ⟨rfl, h_after⟩ | ⟨call, h_call, rfl, h_after⟩⟩
    · refine ⟨before, _, rfl, ?_⟩
      rw [Option.or_none, matchesAt_iff, exists_marker_iff]
      exact .inl ⟨after, rfl, (boundary_word h.word.1).mpr h_before,
        (word_boundary h.word.2).mpr h_after⟩
    · refine ⟨before, _, rfl, ?_⟩
      rw [Option.or_none, matchesAt_iff, exists_marker_iff]
      exact .inr ⟨call, h_call, after, rfl, (boundary_word (h.call h_call).1).mpr h_before,
        (mark_boundary (h.call h_call).2).mpr h_after⟩

end

/-! ### The files -/

/-- The operations on directories and files. -/
structure Tree (ε : Type) where
  /-- The names in a directory. -/
  readDir : List UInt8 → Except ε (List (List UInt8))
  isDir : List UInt8 → Bool
  readToString : List UInt8 → Except ε (List Char)

inductive PlaceholderError (ε : Type) where
  | io (error : ε)
  | message (text : List Char)
  deriving DecidableEq

/-- `DirEntry::path`: a name behind the path of its directory. -/
def entryPath (directory name : List UInt8) : List UInt8 :=
  -- no second slash behind one, and none at the beginning
  if directory.getLast?.elim false (· ≠ 0x2f) then directory ++ 0x2f :: name else directory ++ name

section

variable {ε : Type} (tree : Tree ε)

/-- What is in a directory: directories and files. -/
def entries (directory : List UInt8) : Except ε (List (List UInt8 ⊕ List UInt8)) :=
  (tree.readDir directory).map fun names => names.map fun name =>
    let path := entryPath directory name
    if tree.isDir path then .inl path else .inr path

def walkdir (rounds : ℕ) (root : List UInt8) : Except (Option ε) (List (List UInt8)) :=
  walk (entries tree) rounds [root] []

/-- The files that are checked. -/
def isChecked (path : List UInt8) : Bool :=
  !((path.splitOn 0x2f).any fun component =>
    component = encode "target".toList ∨ component = encode ".git".toList) &&
  fileName path ≠ some (encode "AGENTS.md".toList)

/-- A checked file that can be read, with a match in its text. -/
def isFailure (isWord : Char → Bool) (path : List UInt8) : Bool :=
  isChecked path &&
    match tree.readToString path with
    | .ok content => isMatch isWord none content
    -- what cannot be read, or is no text, is skipped
    | .error _ => false

/-- The message about the failures. -/
def remainMessage (failures : List (List UInt8)) : List Char :=
  "placeholder markers remain in:\n".toList ++ ['\n'].intercalate (failures.map decodeLossy)

/-- The check, with so many rounds for the walk. -/
def checkPlaceholders (isWord : Char → Bool) (rounds : ℕ) (root : List UInt8) :
    Except (Option (PlaceholderError ε)) Unit :=
  match walkdir tree rounds root with
  | .error e => .error (e.map .io)
  | .ok files =>
    -- the loop keeps the paths of the failures in the order of the walk
    let failures := files.filter (isFailure tree isWord)
    if failures = [] then .ok () else .error (some (.message (remainMessage failures)))

/-- What the check says about a tree: a directory in it cannot be read, or the checked files with a
placeholder are reported, if there are any, each as often as it is in the tree. -/
def Judged (isWord : Char → Bool) (depth : ℕ) (root : List UInt8)
    (result : Except (Option (PlaceholderError ε)) Unit) : Prop :=
  (¬ Readable (entries tree) depth root ∧
    ∃ directory e, Under (entries tree) root directory ∧ tree.readDir directory = .error e ∧
      result = .error (some (.io e))) ∨
  (Readable (entries tree) depth root ∧
    ∃ (files : List (List UInt8)) (remains : List UInt8 → Bool),
    files.Perm (below (entries tree) depth root) ∧
    (∀ path, remains path ↔
      isChecked path ∧ ∃ text, tree.readToString path = .ok text ∧ Marked isWord text) ∧
    result = if files.filter remains = [] then .ok ()
      else .error (some (.message (remainMessage (files.filter remains)))))

end

section

variable {ε : Type} {tree : Tree ε} {isWord : Char → Bool}

theorem isFailure_iff (h : WordChars isWord) (path : List UInt8) :
    isFailure tree isWord path ↔
      isChecked path ∧ ∃ text, tree.readToString path = .ok text ∧ Marked isWord text := by
  rw [isFailure, Bool.and_eq_true]
  refine and_congr_right fun _ => ?_
  cases tree.readToString path with
  | error e => simp
  | ok content => simp [isMatch_iff_marked h]

theorem entries_error {directory : List UInt8} {e : ε} (h : entries tree directory = .error e) :
    tree.readDir directory = .error e := by
  rw [entries] at h
  cases h_read : tree.readDir directory with
  | error e' =>
    rw [h_read] at h
    exact congrArg Except.error (Except.error.inj h)
  | ok names =>
    rw [h_read] at h
    exact absurd h (by simp [Except.map])

/-- **Placeholders.** On a finite tree the check has one result from some number of rounds on:
what it says about the tree. -/
theorem checkPlaceholders_judged (h_word : WordChars isWord) {depth : ℕ} {root : List UInt8}
    (h : Bounded (entries tree) depth root) :
    ∃ enough, ∀ more,
      Judged tree isWord depth root (checkPlaceholders tree isWord (enough + more) root) := by
  obtain ⟨enough, ⟨h_readable, h_walk⟩ | ⟨h_readable, directory, e, h_under, h_error, h_walk⟩⟩ :=
    walk_bounded h
  · -- the walk has found all files, so what is reported is what a filter leaves of them
    refine ⟨enough, fun more => .inr ⟨h_readable, order (entries tree) depth root,
      isFailure tree isWord, order_perm depth root, isFailure_iff h_word, ?_⟩⟩
    rw [checkPlaceholders, walkdir, h_walk more]
  · refine ⟨enough, fun more => .inl ⟨h_readable, directory, e, h_under, entries_error h_error, ?_⟩⟩
    rw [checkPlaceholders, walkdir, h_walk more]
    rfl

/-- A directory with two files: one calls a macro, the other is not checked. -/
def callsTree : Tree String where
  readDir path :=
    if path = encode "repo".toList then
      .ok [encode "lib.rs".toList, encode "AGENTS.md".toList]
    else .error "no such directory"
  isDir path := path = encode "repo".toList
  readToString path :=
    if path = encode "repo/lib.rs".toList then .ok "fn f() { todo!() }".toList
    else .ok "TODO".toList

theorem checkPlaceholders_calls :
    checkPlaceholders callsTree Char.isAlphanum 2 (encode "repo".toList) = .ok () ∧
    ∃ enough, ∀ more, Judged callsTree Char.isAlphanum 1 (encode "repo".toList)
      (checkPlaceholders callsTree Char.isAlphanum (enough + more) (encode "repo".toList)) := by
  have h_word : WordChars Char.isAlphanum := by
    refine ⟨fun c h_c => ?_, rfl⟩
    simp only [List.mem_cons, List.not_mem_nil, or_false] at h_c
    rcases h_c with rfl | rfl | rfl | rfl <;> rfl
  have h_entries : entries callsTree (encode "repo".toList)
      = .ok [.inr (encode "repo/lib.rs".toList), .inr (encode "repo/AGENTS.md".toList)] := by
    decide +kernel
  -- there is no directory in the directory
  have h_bounded : Bounded (entries callsTree) 1 (encode "repo".toList) := by
    intro es h_es m h_m
    obtain rfl := Except.ok.inj (h_entries.symm.trans h_es)
    exact absurd h_m (by simp [nodes])
  exact ⟨by decide +kernel, checkPlaceholders_judged h_word h_bounded⟩

end

end Cantools.Xtask
