import Cantools.Framework.Scanner

/-!
# Words of shell scripts

The part of the token recognition of a POSIX shell that scripts of simple commands need: words
with quoting and parameters, and the operators between commands. A word is a list of fragments:
characters that quoting has taken their meaning from, characters that stand as they are, and
parameters that are still to be expanded. What is outside of this part does not scan.

A text between single quotes, with each single quote in it replaced by a quote that ends the
quoting, a quoted quote and one that goes on with it, is one word of quoted characters
(`scans_singleQuoted`), whatever the text is.
-/

namespace Shell

open Scanner

/-- A part of a word. -/
inductive Fragment where
  | plain (c : Char)
  | quoted (c : Char)
  | param (name : List Char)
  deriving DecidableEq, Repr

inductive Token where
  | word (fragments : List Fragment)
  | operator (text : List Char)
  deriving DecidableEq, Repr

/-- What a shell has begun. -/
inductive Mode where
  /-- Nothing. -/
  | blank
  | word (read : List Fragment)
  /-- A word, behind a backslash. -/
  | escape (read : List Fragment)
  /-- A word, between single quotes. -/
  | single (read : List Fragment)
  /-- A word, between double quotes. -/
  | double (read : List Fragment)
  /-- The same, behind a backslash. -/
  | doubleEscape (read : List Fragment)
  /-- A word, in the name of a parameter, which stands between double quotes or not. -/
  | param (inDouble : Bool) (read : List Fragment) (name : List Char)
  /-- The first character of an operator that may be doubled. -/
  | operator (c : Char)
  deriving DecidableEq, Repr

def isNameChar (c : Char) : Bool := c.isAlphanum || c == '_'

/-- A character between words: blanks, and the operators that end a command. -/
def separator (c : Char) : Option (List Token × Mode) :=
  if c = ' ' ∨ c = '\t' then some ([], .blank)
  else if c = '\n' then some ([.operator ['\n']], .blank)
  else if c = ';' ∨ c = '&' ∨ c = '|' then some ([], .operator c)
  else none

/-- A character of a word outside of quotes. Redirections, groups and substitutions are not
covered. -/
def wordChar (read : List Fragment) (c : Char) : Option Mode :=
  if c = '\'' then some (.single read)
  else if c = '"' then some (.double read)
  else if c = '\\' then some (.escape read)
  else if c = '$' then some (.param false read [])
  else if c ∈ ['<', '>', '(', ')', Char.ofNat 96] then none
  else some (.word (read ++ [.plain c]))

/-- The first character of a token. A comment is not covered. -/
def startToken (c : Char) : Option (List Token × Mode) :=
  match separator c with
  | some next => some next
  | none => if c = '#' then none else (wordChar [] c).map fun m => ([], m)

/-- A character behind the beginning of a word. -/
def wordStep (read : List Fragment) (c : Char) : Option (List Token × Mode) :=
  match separator c with
  | some (tokens, next) => some (.word read :: tokens, next)
  | none => (wordChar read c).map fun m => ([], m)

/-- A character between double quotes. -/
def doubleStep (read : List Fragment) (c : Char) : Option (List Token × Mode) :=
  if c = '"' then some ([], .word read)
  else if c = '\\' then some ([], .doubleEscape read)
  else if c = '$' then some ([], .param true read [])
  else if c = Char.ofNat 96 then none
  else some ([], .double (read ++ [.quoted c]))

/-- What one character completes. -/
def step : Mode → Char → Option (List Token × Mode)
  | .blank, c => startToken c
  | .word read, c => wordStep read c
  | .escape read, c => if c = '\n' then none else some ([], .word (read ++ [.quoted c]))
  | .single read, c =>
    if c = '\'' then some ([], .word read) else some ([], .single (read ++ [.quoted c]))
  | .double read, c => doubleStep read c
  | .doubleEscape read, c =>
    if c ∈ ['$', Char.ofNat 96, '"', '\\'] then some ([], .double (read ++ [.quoted c]))
    else if c = '\n' then some ([], .double read)
    -- before any other character the backslash is itself
    else some ([], .double (read ++ [.quoted '\\', .quoted c]))
  | .param inDouble read name, c =>
    if isNameChar c then some ([], .param inDouble read (name ++ [c]))
    else if name = [] then none
    else if inDouble then doubleStep (read ++ [.param name]) c
    else wordStep (read ++ [.param name]) c
  | .operator first, c =>
    -- `;;`, `&&` and `||` are one operator
    if c = first then some ([.operator [first, c]], .blank)
    else (startToken c).map fun x => (.operator [first] :: x.1, x.2)

/-- The text of a word that the shell hands on as it is: nothing in it is expanded. -/
def text (fragments : List Fragment) : Option (List Char) :=
  fragments.mapM fun
    | .quoted c => some c
    | .plain c => if c ∈ ['*', '?', '[', '~'] then none else some c
    | .param _ => none

/-- A word of these characters, as they stand. -/
def plainWord (name : String) : Token := .word (name.toList.map .plain)

theorem text_quoted (s : List Char) : text (s.map .quoted) = some s := by
  induction s with
  | nil => rfl
  | cons c s ih =>
    rw [text] at ih ⊢
    rw [List.map_cons, List.mapM_cons, ih]
    rfl

/-! ### Single quotes -/

/-- A character inside single quotes: a quote ends the quoting, stands quoted by a backslash, and
begins it again. -/
def singleQuotedChar (c : Char) : List Char :=
  if c = '\'' then ['\'', '\\', '\'', '\''] else [c]

def singleQuoted (s : List Char) : List Char := ['\''] ++ s.flatMap singleQuotedChar ++ ['\'']

theorem scans_singleQuotedChar (read : List Fragment) (c : Char) :
    Scans step (.single read) (singleQuotedChar c) [] (.single (read ++ [.quoted c])) := by
  unfold singleQuotedChar
  split
  · next h =>
    subst h
    rfl
  · next h => exact Scans.silent (if_neg h) (Scans.nil _)

/-- **Quoting.** A quoted text is one word, of its characters. -/
theorem scans_singleQuoted (s : List Char) :
    Scans step .blank (singleQuoted s) [] (.word (s.map .quoted)) := by
  -- between the quotes, whatever has been read before
  have h_body : ∀ read, Scans step (.single read) (s.flatMap singleQuotedChar) []
      (.single (read ++ s.map .quoted)) := by
    induction s with
    | nil =>
      intro read
      rw [List.map_nil, List.append_nil]
      exact Scans.nil _
    | cons c s ih =>
      intro read
      have h_rest := ih (read ++ [.quoted c])
      rw [List.append_assoc] at h_rest
      exact (scans_singleQuotedChar read c).append h_rest
  have h_open : Scans step .blank ['\''] [] (.single []) := rfl
  have h_close : Scans step (.single (s.map .quoted)) ['\''] [] (.word (s.map .quoted)) := rfl
  exact (h_open.append (h_body [])).append h_close

end Shell
