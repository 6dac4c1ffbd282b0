import Cantools.Framework.ShellText
import Cantools.Framework.TextFile

/-!
# Scripts for the virtual machine

`xtask` runs its Linux checks in a virtual machine: `orb` is handed a script, which changes to the
repository and runs a command there (`orbRepoScript`). The path of the repository is quoted
(`shellQuote`), so that it is one word behind `cd` whatever it has in it, and the tokens of a
command are those that it has on its own (`orb_script_words`).
-/

namespace Cantools.Xtask

open Scanner Shell Utf8

/-- `str::replace` of a character. -/
def replaceChar (a : Char) (by_ : List Char) (s : List Char) : List Char :=
  s.flatMap fun c => if c = a then by_ else [c]

/-- A path between single quotes. It is displayed, so what is no text in it is replaced. -/
def shellQuote (path : List UInt8) : List Char :=
  "'".toList ++ replaceChar '\'' "'\\''".toList (decodeLossy path) ++ "'".toList

def orbRepoScript (root : List UInt8) (command : List Char) : List Char :=
  "if [ -f \"$HOME/.cargo/env\" ]; then . \"$HOME/.cargo/env\"; fi; cd ".toList ++
    shellQuote root ++ " && ".toList ++ command

/-! ### What the shell makes of a script -/

/-- The word of the file with the environment of `cargo`. -/
def envWord : Token := .word (.param "HOME".toList :: "/.cargo/env".toList.map .quoted)

/-- The tokens before the path. -/
def scriptStart : List Token :=
  [plainWord "if", plainWord "[", plainWord "-f", envWord, plainWord "]", .operator ";".toList,
    plainWord "then", plainWord ".", envWord, .operator ";".toList, plainWord "fi",
    .operator ";".toList, plainWord "cd"]

theorem scans_scriptStart : Scans step .blank
    "if [ -f \"$HOME/.cargo/env\" ]; then . \"$HOME/.cargo/env\"; fi; cd ".toList scriptStart
    .blank := by
  decide +kernel

theorem shellQuote_eq (path : List UInt8) : shellQuote path = singleQuoted (decodeLossy path) :=
  rfl

/-- The path ends with the blank behind it. -/
theorem scans_path (fragments : List Fragment) :
    Scans step (.word fragments) " && ".toList [.word fragments, .operator "&&".toList] .blank :=
  rfl

/-- The tokens before the command. -/
def scriptOpening (root : List UInt8) : List Token :=
  scriptStart ++ [.word ((decodeLossy root).map .quoted), .operator "&&".toList]

/-- The script up to the command. -/
theorem scans_orbRepoScript (root : List UInt8) :
    Scans step .blank ("if [ -f \"$HOME/.cargo/env\" ]; then . \"$HOME/.cargo/env\"; fi; cd ".toList
      ++ shellQuote root ++ " && ".toList) (scriptOpening root) .blank := by
  have h_text := (scans_scriptStart.append (scans_singleQuoted (decodeLossy root))).append
    (scans_path ((decodeLossy root).map .quoted))
  rw [List.append_nil] at h_text
  rw [shellQuote_eq]
  exact h_text

end Cantools.Xtask
