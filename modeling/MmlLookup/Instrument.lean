import MmlLookup.Numeral
import MmlLookup.Search.Run

/-!
# Instruments

A line `@12 text` defines instrument 12; its number may carry leading zeros. The
search goes upward from the anchor, through banks from their top and through
included documents from their end, and the first definition met is the answer.
-/

set_option autoImplicit false

namespace MmlLookup.Instrument

def definitionParts : Text → Option (Text × Text)
  | '@' :: rest =>
    match Text.leadingRun Text.isDecimalDigit (Text.trimStart rest) with
    | some (digits, rest) => (Text.afterBlanks Text.restOfLine rest).map fun text => (digits, text)
    | none => none
  | _ => none

/-- Digits spell a number if its decimal spelling is what leading zeros leave of them;
zero leaves nothing. -/
def spells (digits : Text) (id : Nat) : Bool :=
  let significant := digits.dropWhile (· = '0')
  if id = 0 then significant.isEmpty else significant == Text.decimal id

def definitionText (line : Text) (id : Nat) : Option Text :=
  match definitionParts line with
  | some (digits, text) => if spells digits id then some text else none
  | none => none

/-- A line defines the instrument or says nothing about it. An included document is
shown by the stem of its path. -/
def goal (id : Nat) : Search.Goal where
  sign line :=
    match definitionText line id with
    | some definition => .hit definition
    | none => .silent
  banks := true
  shown _ path := path.stem.getD []

/-- The definition nearest above the anchor, down from a topmost line. -/
def find (setting : Search.Setting) (doc : Snapshot) (id top : Nat) (walk : Search.Walk) :
    Except Failure (Option Descriptor) × Search.Walk :=
  let (outcome, after) := Search.start setting (goal id) doc (doc.upward top) doc.stem walk
  (outcome.map (·.candidates.head?), after)

def resolve (setting : Search.Setting) (doc : Snapshot) (id : Nat) (store : Store) :
    Except Failure (Option Descriptor) × Store :=
  let (found, after) := find setting doc id 0 ⟨store, []⟩
  (found, after.store)

end MmlLookup.Instrument
