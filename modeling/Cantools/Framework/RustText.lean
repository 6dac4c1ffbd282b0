import Cantools.Framework.Numeral
import Cantools.Framework.Scanner

/-!
# Tokens of Rust source text

The part of the lexical grammar of Rust that declarations and tables of constants need: words,
lifetimes, integer literals, string literals with their escapes, single marks, and comments up to
the end of the line. What is outside of it does not scan.

A string that was printed with `{:?}` (`debugStr`) is the token of a string literal with that
value, whatever its characters are and whichever of them count as printable
(`scans_debugStr`); a number printed behind `0x` is the token of that number (`shows_hex`).
-/

namespace Rust

open Numeral Scanner

/-- A name of the source text. -/
abbrev Name := List Char

/-- The keywords that declarations and constants begin with. -/
inductive Keyword where
  | pub
  | struct
  | const
  deriving DecidableEq, Repr

/-- The value of a literal. -/
inductive Literal where
  | int (n : ℕ)
  | str (text : List Char)
  deriving DecidableEq, Repr

inductive Token where
  | keyword (k : Keyword)
  | word (name : Name)
  | lifetime (name : Name)
  | lit (value : Literal)
  | mark (c : Char)
  deriving DecidableEq, Repr

/-- What a lexer has begun. -/
inductive Mode where
  /-- Nothing. -/
  | blank
  /-- A word or a number. -/
  | word (read : List Char)
  | lifetime (read : List Char)
  /-- A slash that must be followed by another one. -/
  | slash
  | comment
  /-- The inside of a string literal. -/
  | str (read : List Char)
  /-- The same, behind a backslash. -/
  | escape (read : List Char)
  /-- The same, behind the letter of a Unicode escape. -/
  | unicode (read : List Char)
  /-- The digits of a Unicode escape. -/
  | digits (read : List Char) (digits : List Char)
  deriving DecidableEq, Repr

/-- The Unicode property `Pattern_White_Space`. -/
def isWhitespace (c : Char) : Bool :=
  let n := c.toNat
  (9 ≤ n && n ≤ 13) || n == 0x20 || n == 0x85 || n == 0x200e || n == 0x200f || n == 0x2028 ||
    n == 0x2029

/-- The ASCII characters of identifiers and numbers. -/
def isWordChar (c : Char) : Bool := c.isAlphanum || c == '_'

/-- The single marks. -/
def marks : List Char := "#[]{}(),:;&=".toList

/-- A word that has ended: a number begins with a digit. -/
def wordToken (word : List Char) : Option Token :=
  if word = "pub".toList then some (.keyword .pub)
  else if word = "struct".toList then some (.keyword .struct)
  else if word = "const".toList then some (.keyword .const)
  else match word with
    | '0' :: 'x' :: digits =>
      (fromStrRadix 16 (2 ^ 128) digits).toOption.map fun n => .lit (.int n)
    | c :: digits =>
      if c.isDigit then
        (fromStrRadix 10 (2 ^ 128) (c :: digits)).toOption.map fun n => .lit (.int n)
      else some (.word word)
    | [] => none

/-- The first character of a token. -/
def startToken (c : Char) : Option (List Token × Mode) :=
  if isWhitespace c then some ([], .blank)
  else if c = '"' then some ([], .str [])
  else if c = '\'' then some ([], .lifetime [])
  else if c = '/' then some ([], .slash)
  else if isWordChar c then some ([], .word [c])
  else if c ∈ marks then some ([.mark c], .blank)
  else none

/-- The value of a simple escape. -/
def unescape (c : Char) : Option Char :=
  if c = 'n' then some '\n'
  else if c = 'r' then some '\r'
  else if c = 't' then some '\t'
  else if c = '0' then some '\x00'
  else if c = '\\' then some '\\'
  else if c = '\'' then some '\''
  else if c = '"' then some '"'
  else none

/-- The value of a Unicode escape: up to six digits, and no surrogate. -/
def unicodeEscape (digits : List Char) : Option Char :=
  match fromStrRadix 16 0x110000 digits with
  | .ok n => if digits.length ≤ 6 ∧ n.isValidChar then some (Char.ofNat n) else none
  | .error _ => none

/-- What one character completes. -/
def step : Mode → Char → Option (List Token × Mode)
  | .blank, c => startToken c
  | .word read, c =>
    if isWordChar c then some ([], .word (read ++ [c]))
    else do
      let token ← wordToken read
      let (tokens, next) ← startToken c
      return (token :: tokens, next)
  | .lifetime read, c =>
    if isWordChar c then some ([], .lifetime (read ++ [c]))
    else if c = '\'' then none
    else do
      let (tokens, next) ← startToken c
      return (.lifetime read :: tokens, next)
  | .slash, c => if c = '/' then some ([], .comment) else none
  | .comment, c => if c = '\n' then some ([], .blank) else some ([], .comment)
  | .str read, c =>
    if c = '"' then some ([.lit (.str read)], .blank)
    else if c = '\\' then some ([], .escape read)
    else if c = '\r' then none
    else some ([], .str (read ++ [c]))
  | .escape read, c =>
    if c = 'u' then some ([], .unicode read)
    else (unescape c).map fun value => ([], .str (read ++ [value]))
  | .unicode read, c => if c = '{' then some ([], .digits read []) else none
  | .digits read digits, c =>
    if c = '}' then (unicodeEscape digits).map fun value => ([], .str (read ++ [value]))
    else some ([], .digits read (digits ++ [c]))

/-- The end of the text. -/
def finish : Mode → Option (List Token)
  | .blank => some []
  | .word read => (wordToken read).map ([·])
  | .lifetime read => some [.lifetime read]
  | .comment => some []
  | _ => none

/-- The tokens of a source text. -/
def lex (text : List Char) : Option (List Token) := do
  let (tokens, last) ← scan step .blank text
  let later ← finish last
  return tokens ++ later

example : lex "pub sid: &'static str, // \"x\"\n= 0x2F".toList = some [.keyword .pub,
    .word "sid".toList, .mark ':', .mark '&', .lifetime "static".toList, .word "str".toList,
    .mark ',', .mark '=', .lit (.int 47)] := by decide +kernel

/-- A text that ends with a token ended. -/
theorem lex_of_scans {text : List Char} {tokens : List Token}
    (h : Scans step .blank text tokens .blank) : lex text = some tokens := by
  rw [lex, h]
  show some (tokens ++ []) = some tokens
  rw [List.append_nil]

/-! ### Words and numbers -/

/-- The characters of a word are read into it. -/
theorem scans_word {read word : List Char} (h : ∀ c ∈ word, isWordChar c) :
    Scans step (.word read) word [] (.word (read ++ word)) := by
  induction word generalizing read with
  | nil =>
    rw [List.append_nil]
    exact Scans.nil _
  | cons c word ih =>
    have h_rest := @ih (read ++ [c]) fun d h_d => h d (List.mem_cons_of_mem _ h_d)
    rw [List.append_assoc] at h_rest
    exact Scans.silent (if_pos (h c (List.mem_cons_self ..))) h_rest

/-- **The end of a word** is a character that is none of its. -/
theorem scans_word_end {read later : List Char} {token : Token} {tokens : List Token} {m : Mode}
    (h_token : wordToken read = some token) (h_later : later.head?.map isWordChar = some false)
    (h : Scans step .blank later tokens m) :
    Scans step (.word read) later (token :: tokens) m := by
  obtain ⟨c, h_head, h_c⟩ := Option.map_eq_some_iff.mp h_later
  obtain ⟨later, rfl⟩ := List.head?_eq_some_iff.mp h_head
  obtain ⟨⟨first, next⟩, h_start, h⟩ := Option.bind_eq_some_iff.mp h
  obtain ⟨⟨rest, last⟩, h_rest, h⟩ := Option.bind_eq_some_iff.mp h
  cases h
  have h_step : step (.word read) c = some (token :: first, next) := by
    have h_start : startToken c = some (first, next) := h_start
    rw [step, h_c, if_neg Bool.false_ne_true, h_token, h_start]
    rfl
  exact Scans.cons h_step h_rest

/-- A number behind `0x`. -/
theorem wordToken_hex {width n : ℕ} (h : n < 2 ^ 128) :
    wordToken ('0' :: 'x' :: print 16 width n) = some (.lit (.int n)) := by
  have h_value := @fromStrRadix_print 16 _ _ (by decide) (by decide) width h
  have h_keyword : ∀ keyword : List Char, keyword.head? ≠ some '0' →
      '0' :: 'x' :: print 16 width n ≠ keyword := by
    rintro keyword h_head rfl
    exact h_head rfl
  -- no keyword begins with a digit, so the word is tried as a number
  have h_number : wordToken ('0' :: 'x' :: print 16 width n)
      = (fromStrRadix 16 (2 ^ 128) (print 16 width n)).toOption.map fun n => .lit (.int n) :=
    (if_neg (h_keyword _ (by decide))).trans ((if_neg (h_keyword _ (by decide))).trans
      (if_neg (h_keyword _ (by decide))))
  rw [h_number, h_value]
  rfl

theorem isWordChar_digitChar : ∀ d < 36, isWordChar (digitChar d) := by
  decide

/-- The text is that of a literal, if it is followed by what is no part of a word. -/
def Shows (text : List Char) (value : Literal) : Prop :=
  ∀ (later : List Char) (tokens : List Token) (m : Mode),
    later.head?.map isWordChar = some false → Scans step .blank later tokens m →
    Scans step .blank (text ++ later) (.lit value :: tokens) m

/-- **A hexadecimal number** is printed as a literal. -/
theorem shows_hex {width n : ℕ} (h : n < 2 ^ 128) :
    Shows (['0', 'x'] ++ print 16 width n) (.int n) := by
  intro later tokens m h_later h_tokens
  have h_open : Scans step .blank ['0', 'x'] [] (.word ['0', 'x']) := rfl
  have h_digits := @scans_word ['0', 'x'] (print 16 width n)
    (forall_mem_print (by decide) (by decide) isWordChar_digitChar width n)
  exact (h_open.append h_digits).append (scans_word_end (wordToken_hex h) h_later h_tokens)

/-! ### String literals -/

/-- The digits of `{:x}`. -/
def lowerHex (n : ℕ) : List Char := (print 16 1 n).map Char.toLower

/-- `char::escape_debug_ext`, as `{:?}` of a string asks for it. The characters that are printed
as they are beside those with an escape of their own are a parameter. -/
def escapeDebug (isPrintable : Char → Bool) (c : Char) : List Char :=
  if c = '\x00' then ['\\', '0']
  else if c = '\t' then ['\\', 't']
  else if c = '\r' then ['\\', 'r']
  else if c = '\n' then ['\\', 'n']
  else if c = '\\' then ['\\', '\\']
  else if c = '"' then ['\\', '"']
  else if isPrintable c then [c]
  else ['\\', 'u', '{'] ++ lowerHex c.toNat ++ ['}']

/-- `{:?}` of a string. -/
def debugStr (isPrintable : Char → Bool) (s : List Char) : List Char :=
  ['"'] ++ s.flatMap (escapeDebug isPrintable) ++ ['"']

/-- A lower-case digit has the value of the upper-case one. -/
theorem readDigits_toLower {bound n : ℕ} {cs : List Char}
    (h : ∀ c ∈ cs, digitValue 16 c.toLower = digitValue 16 c) :
    readDigits 16 bound n (cs.map Char.toLower) = readDigits 16 bound n cs := by
  induction cs generalizing n with
  | nil => rfl
  | cons c cs ih =>
    rw [List.map_cons, readDigits, readDigits, h c (List.mem_cons_self ..)]
    cases digitValue 16 c with
    | none => rfl
    | some d =>
      show ite _ _ _ = ite _ _ _
      rw [ih fun d h_d => h d (List.mem_cons_of_mem _ h_d)]

theorem digitValue_toLower : ∀ d < 36,
    digitValue 16 (digitChar d).toLower = digitValue 16 (digitChar d) := by
  decide

theorem toLower_ne_sign : ∀ d < 36, (digitChar d).toLower ≠ '+' ∧ (digitChar d).toLower ≠ '-' := by
  decide

theorem fromStrRadix_lowerHex {bound n : ℕ} (h : n < bound) :
    fromStrRadix 16 bound (lowerHex n) = .ok n := by
  have h_upper := @fromStrRadix_print 16 _ _ (by decide) (by decide) 1 h
  have h_lower : readDigits 16 bound 0 (lowerHex n) = readDigits 16 bound 0 (print 16 1 n) :=
    readDigits_toLower (forall_mem_print (by decide) (by decide) digitValue_toLower 1 n)
  obtain ⟨ds, h_print, h_ne, h_ds, -⟩ := @print_spec 16 (by decide) 1 n
  obtain ⟨d, ds, rfl⟩ := List.exists_cons_of_ne_nil h_ne
  have h_lt := lt_of_lt_of_le (h_ds d (List.mem_cons_self ..)) (by decide : 16 ≤ 36)
  have h_sign := digitChar_ne_sign d h_lt
  have h_sign' := toLower_ne_sign d h_lt
  -- neither text begins with a sign, so both are read as digits
  have h_digits : ∀ c cs, c ≠ '+' ∧ c ≠ '-' →
      fromStrRadix 16 bound (c :: cs) = readDigits 16 bound 0 (c :: cs) := by
    rintro c cs ⟨h_plus, h_minus⟩
    unfold fromStrRadix
    split <;> simp_all
  have h_cons : lowerHex n = (digitChar d).toLower :: (ds.map digitChar).map Char.toLower := by
    rw [lowerHex, h_print, List.map_cons, List.map_cons]
  rw [h_print, List.map_cons, h_digits _ _ h_sign] at h_upper
  rw [h_print, List.map_cons, h_upper] at h_lower
  rw [← h_lower, h_cons, h_digits _ _ h_sign']

/-- The digits of a character are read back. -/
theorem unicodeEscape_lowerHex (c : Char) : unicodeEscape (lowerHex c.toNat) = some c := by
  have h_valid : c.toNat.isValidChar := c.valid
  have h_lt : c.toNat < 0x110000 := by
    rcases h_valid with h_low | h_high
    · exact lt_trans h_low (by decide)
    · exact h_high.2
  -- an escape may have six digits, which is enough for every character
  have h_length : (lowerHex c.toNat).length ≤ 6 := by
    have h_digits := (Nat.digits_length_le_iff (by decide : 1 < 16) c.toNat (k := 6)).mpr
      (lt_trans h_lt (by decide))
    rw [lowerHex, List.length_map, print, List.leftpad, List.length_append,
      List.length_replicate, List.length_map, List.length_reverse]
    omega
  rw [unicodeEscape, fromStrRadix_lowerHex h_lt]
  show ite _ _ _ = _
  rw [if_pos ⟨h_length, h_valid⟩, Char.ofNat_toNat]

theorem toLower_ne_brace : ∀ d < 36, (digitChar d).toLower ≠ '}' := by
  decide

/-- The digits of a Unicode escape up to the brace that closes it. -/
theorem scans_digits {read digits more : List Char} (h : ∀ c ∈ more, c ≠ '}') :
    Scans step (.digits read digits) more [] (.digits read (digits ++ more)) := by
  induction more generalizing digits with
  | nil =>
    rw [List.append_nil]
    exact Scans.nil _
  | cons c more ih =>
    have h_rest := @ih (digits ++ [c]) fun d h_d => h d (List.mem_cons_of_mem _ h_d)
    rw [List.append_assoc] at h_rest
    exact Scans.silent (if_neg (h c (List.mem_cons_self ..))) h_rest

theorem scans_unicode (read : List Char) (c : Char) :
    Scans step (.str read) (['\\', 'u', '{'] ++ lowerHex c.toNat ++ ['}']) []
      (.str (read ++ [c])) := by
  have h_open : Scans step (.str read) ['\\', 'u', '{'] [] (.digits read []) := rfl
  have h_more : ∀ d ∈ lowerHex c.toNat, d ≠ '}' := by
    intro d h_d
    obtain ⟨e, h_e, rfl⟩ := List.mem_map.mp h_d
    exact forall_mem_print (p := fun e => e.toLower ≠ '}') (by decide) (by decide)
      toLower_ne_brace 1 _ e h_e
  have h_close : Scans step (.digits read (lowerHex c.toNat)) ['}'] [] (.str (read ++ [c])) := by
    refine Scans.silent ?_ (Scans.nil _)
    rw [step, if_pos rfl, unicodeEscape_lowerHex]
    rfl
  exact (h_open.append (scans_digits h_more)).append h_close

/-- **A character of a string** is read back, escaped or not. -/
theorem scans_escapeDebug (isPrintable : Char → Bool) (read : List Char) (c : Char) :
    Scans step (.str read) (escapeDebug isPrintable c) [] (.str (read ++ [c])) := by
  -- the escapes in the order in which they are tried
  unfold escapeDebug
  split
  · next h => subst h; rfl
  split
  · next h => subst h; rfl
  split
  · next h => subst h; rfl
  split
  · next h => subst h; rfl
  split
  · next h => subst h; rfl
  split
  · next h => subst h; rfl
  split
  · next h_return _ h_backslash h_quote _ =>
    refine Scans.silent ?_ (Scans.nil _)
    rw [step, if_neg h_quote, if_neg h_backslash, if_neg h_return]
  · exact scans_unicode read c

/-- **Round trip.** A string printed with `{:?}` is a literal with its value. -/
theorem scans_debugStr (isPrintable : Char → Bool) (s : List Char) :
    Scans step .blank (debugStr isPrintable s) [.lit (.str s)] .blank := by
  -- over the characters: each is read back behind those read before
  have h_body : ∀ read, Scans step (.str read) (s.flatMap (escapeDebug isPrintable)) []
      (.str (read ++ s)) := by
    induction s with
    | nil =>
      intro read
      rw [List.append_nil]
      exact Scans.nil _
    | cons c s ih =>
      intro read
      have h_rest := ih (read ++ [c])
      rw [List.append_assoc] at h_rest
      exact (scans_escapeDebug isPrintable read c).append h_rest
  have h_open : Scans step .blank ['"'] [] (.str []) := rfl
  have h_close : Scans step (.str s) ['"'] [.lit (.str s)] .blank := rfl
  exact (h_open.append (h_body [])).append h_close

theorem shows_debugStr (isPrintable : Char → Bool) (s : List Char) :
    Shows (debugStr isPrintable s) (.str s) :=
  fun _ _ _ _ h => (scans_debugStr isPrintable s).append h

end Rust
