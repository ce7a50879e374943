import MmlLookup.Text.Basic

/-!
# Reading settings text

A reader takes what it accepts from the front of a text and leaves the rest. Besides
the general readers this module holds what may stand between the parts of a document:
spaces, line ends and comments.
-/

set_option autoImplicit false
set_option linter.unusedVariables false

namespace MmlLookup.Toml

abbrev Reader (α : Type) := StateT Text Option α

namespace Reader

def one (accepts : Char → Bool) : Reader Char
  | [] => none
  | c :: rest => if accepts c then some (c, rest) else none

def symbol (c : Char) : Reader Unit := do let _ ← one (· = c)

def run (accepts : Char → Bool) : Reader Text :=
  fun text => some (text.takeWhile accepts, text.dropWhile accepts)

def properRun (accepts : Char → Bool) : Reader Text := Text.leadingRun accepts

def possibly {α : Type} (reader : Reader α) : Reader (Option α) := fun text =>
  match reader text with
  | some (result, rest) => some (some result, rest)
  | none => some (none, text)

def finish : Reader Unit
  | [] => some ((), [])
  | _ :: _ => none

def literal : Text → Reader Unit
  | [] => pure ()
  | c :: rest => do symbol c; literal rest

end Reader

open Reader

/-! ## Spaces, line ends and comments -/

def isSpace (c : Char) : Bool := c = ' ' || c = '\t'

/-- A character that may stand in a comment or, quotes and backslash apart, in a string:
no control character but the tab. -/
def isPlain (c : Char) : Bool := c = '\t' || (0x20 ≤ c.toNat && c.toNat ≠ 0x7F)

def spaces : Reader Text := run isSpace

def newline : Reader Unit := symbol '\n' <|> (do symbol '\r'; symbol '\n')

def comment : Reader Unit := do symbol '#'; let _ ← run isPlain

def lineEnd : Reader Unit := do
  let _ ← spaces
  let _ ← possibly comment
  newline <|> finish

def skipBreaks : Text → Text
  | [] => []
  | '\n' :: rest => skipBreaks rest
  | '\r' :: '\n' :: rest => skipBreaks rest
  | c :: rest => if isSpace c then skipBreaks rest else c :: rest

theorem skipBreaks_length (text : Text) : (skipBreaks text).length ≤ text.length := by
  fun_induction skipBreaks text <;> simp_all <;> omega

def fillers (text : Text) : Text :=
  match h : skipBreaks text with
  | '#' :: rest => fillers (rest.dropWhile isPlain)
  | rest => rest
termination_by text.length
decreasing_by
  have hs := skipBreaks_length text
  have hd := (List.dropWhile_suffix isPlain (l := rest)).length_le
  rw [h] at hs
  simp only [List.length_cons] at hs
  omega

end MmlLookup.Toml
