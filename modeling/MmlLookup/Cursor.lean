import MmlLookup.Fault
import MmlLookup.Numeral

/-!
# References under a cursor

A line holds instrument references, as in `@12` or `@@$05`, and variable
references, as in `!lead` or `!$0C`. References do not overlap and are found from
the left. The cursor is on a reference from its first character up to the place
just behind its last. The first word of a line names a part or a definition and
holds no reference, so a blank has to come before one.
-/

set_option autoImplicit false

namespace MmlLookup.Cursor

def place (line : Text) (column : Nat) : Nat := min column line.length

def covers (line : Text) (cursor start stop : Nat) : Bool :=
  (line.take start).any Text.isBlank && start ≤ cursor && cursor ≤ stop

/-! ## Instruments -/

/-- A run of `at` signs and a numeral, from character `start` of a line. -/
structure InstrumentMark where
  start : Nat
  ats : Nat
  numeral : Text
  deriving DecidableEq

namespace InstrumentMark

def stop (mark : InstrumentMark) : Nat := mark.start + mark.ats + mark.numeral.length

def text (mark : InstrumentMark) : Text := List.replicate mark.ats '@' ++ mark.numeral

/-- Each further `at` sign selects the next bank of this many instruments. -/
def bankSize : Nat := 128

def value (mark : InstrumentMark) : Option Nat :=
  match Numeral.parse mark.numeral with
  | none => none
  | some number =>
    let id := (mark.ats - 1) * bankSize + number
    if id < Numeral.bound then some id else none

end InstrumentMark

def instrumentMarks (start : Nat) (text : Text) : List InstrumentMark :=
  match text with
  | [] => []
  | c :: rest =>
    if c = '@' then
      let ats := rest.takeWhile (· = '@')
      match Numeral.leading (rest.dropWhile (· = '@')) with
      | some (numeral, _) =>
        let mark : InstrumentMark := ⟨start, ats.length + 1, numeral⟩
        mark :: instrumentMarks mark.stop (rest.drop (ats.length + numeral.length))
      | none => instrumentMarks (start + ats.length + 1) (rest.drop ats.length)
    else instrumentMarks (start + 1) rest
termination_by text.length
decreasing_by all_goals simp only [List.length_drop, List.length_cons]; omega

def instrumentAt (line : Text) (column : Nat) : Except Failure (Option Nat) :=
  let cursor := place line column
  match (instrumentMarks 0 line).find? fun mark => covers line cursor mark.start mark.stop with
  | none => .ok none
  | some mark =>
    match mark.value with
    | some id => .ok (some id)
    | none => .error (.malformedToken mark.text)

/-! ## Variables -/

/-- An exclamation mark and the non-blank characters behind it. -/
structure VariableMark where
  start : Nat
  body : Text
  deriving DecidableEq

namespace VariableMark

def stop (mark : VariableMark) : Nat := mark.start + 1 + mark.body.length

def text (mark : VariableMark) : Text := '!' :: mark.body

/-- A bar just before the mark takes its meaning away. -/
def isEscaped (line : Text) (mark : VariableMark) : Bool :=
  (line.take mark.start).getLast? = some '|'

/-- What the reference names: the numeral its body starts with, or else its body. -/
def token (mark : VariableMark) : Except Failure Token :=
  match Numeral.leading mark.body with
  | none => .ok (.named mark.body)
  | some (numeral, _) =>
    match Numeral.parse numeral with
    | some value => .ok (.numeric value)
    | none => .error (.malformedToken mark.text)

end VariableMark

def variableMarks (start : Nat) (text : Text) : List VariableMark :=
  match text with
  | [] => []
  | c :: rest =>
    if c = '!' ∧ Text.word rest ≠ [] then
      let mark : VariableMark := ⟨start, Text.word rest⟩
      mark :: variableMarks mark.stop (rest.drop mark.body.length)
    else variableMarks (start + 1) rest
termination_by text.length
decreasing_by all_goals simp only [List.length_drop, List.length_cons]; omega

def variableAt (line : Text) (column : Nat) : Except Failure (Option Token) :=
  let cursor := place line column
  let found := (variableMarks 0 line).find? fun mark =>
    !mark.isEscaped line && covers line cursor mark.start mark.stop
  match found with
  | none => .ok none
  | some mark => mark.token.map some

end MmlLookup.Cursor
