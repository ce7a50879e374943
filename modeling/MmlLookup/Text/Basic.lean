/-!
# Text as a list of characters

Documents, names, paths and messages are lists of characters. A position is a
number of characters, and every recogniser is a recursion on the list. A document
is cut into lines at line feeds. One carriage return at the end of a line belongs
to the line ending and is dropped. Empty text is one empty line.
-/

set_option autoImplicit false

namespace MmlLookup

abbrev Text := List Char

namespace Text

/-- The pieces between occurrences of a separator, at least one. -/
def splitOn (separator : Char) : Text → List Text
  | [] => [[]]
  | c :: rest =>
    match splitOn separator rest with
    | [] => [[c]]
    | piece :: pieces =>
      if c = separator then [] :: piece :: pieces else (c :: piece) :: pieces

def joinWith (separator : Char) : List Text → Text
  | [] => []
  | [piece] => piece
  | piece :: next :: pieces => piece ++ separator :: joinWith separator (next :: pieces)

def occursIn (part : Text) : Text → Bool
  | [] => part.isEmpty
  | c :: rest => part.isPrefixOf (c :: rest) || occursIn part rest

/-- What follows a keyword, given in lower case and matched in either ASCII case. -/
def afterKeyword : Text → Text → Option Text
  | [], rest => some rest
  | _ :: _, [] => none
  | k :: keyword, c :: rest => if c.toLower = k then afterKeyword keyword rest else none

/-- The longest run of a class at the start of a text, at least one character, and
what follows it. -/
def leadingRun (accepts : Char → Bool) (text : Text) : Option (Text × Text) :=
  match text.takeWhile accepts with
  | [] => none
  | run => some (run, text.dropWhile accepts)

def decimal (n : Nat) : Text := Nat.toDigits 10 n

theorem splitOn_ne_nil (separator : Char) (text : Text) : splitOn separator text ≠ [] := by
  cases text with
  | nil => simp [splitOn]
  | cons c rest =>
    rw [splitOn]
    split
    · simp
    · split <;> simp

/-! ## Lines -/

def withoutReturn : Text → Text
  | [] => []
  | ['\r'] => []
  | c :: rest => c :: withoutReturn rest

def splitLines (text : Text) : List Text := (splitOn '\n' text).map withoutReturn

theorem splitLines_ne_nil (text : Text) : splitLines text ≠ [] := by
  simp [splitLines, splitOn_ne_nil]

end Text

end MmlLookup
