import MmlLookup.Search.Run
import MmlLookup.Numeral

/-!
# Variables

A line `!lead text` or `!12 text` defines a variable. An exact match of the key ends
a search. A definition whose name occurs in the name sought is a candidate. The search
goes upward from the anchor and then downward from the line below it. Without an
exact match, the first candidate with the longest definition is the answer.
-/

set_option autoImplicit false

namespace MmlLookup.Variable

inductive Key where
  | name (text : Text)
  | numeral (text : Text)
  deriving DecidableEq

inductive Match where
  | exactly
  | nearly
  | different
  deriving DecidableEq

def Key.compare : Key → Token → Match
  | .numeral text, .numeric value =>
    if Numeral.parse text = some value then .exactly else .different
  | .name text, .named wanted =>
    if wanted = text then .exactly
    else if Text.occursIn text wanted then .nearly
    else .different
  | _, _ => .different

def definitionText (rest : Text) : Text := (Text.trimStart rest).takeWhile (· ≠ '\n')

def definitionParts : Text → Option (Key × Text)
  | '!' :: rest =>
    match Numeral.leading rest with
    | some (numeral, rest) => some (.numeral numeral, definitionText rest)
    | none =>
      match Text.leadingRun (fun c => !Text.isBlank c) rest with
      | some (name, rest) => some (.name name, definitionText rest)
      | none => none
  | _ => none

/-- Banks hold no variables. An included document is shown by its directive's name. -/
def goal (token : Token) : Search.Goal where
  sign line :=
    match definitionParts line with
    | none => .silent
    | some (key, definition) =>
      match key.compare token with
      | .exactly => .hit definition
      | .nearly => .near definition
      | .different => .other
  banks := false
  shown name _ := name

/-- The part of a document a pass covers, nearest line first. -/
inductive Direction where
  | backward (top : Nat)
  | forward

def Direction.lines (doc : Snapshot) : Direction → List Nat
  | .backward top => doc.upward top
  | .forward => doc.downward

def candidates (setting : Search.Setting) (doc : Snapshot) (token : Token) (shown : Text)
    (direction : Direction) (walk : Search.Walk) : Except Failure Search.Outcome × Search.Walk :=
  Search.start setting (goal token) doc (direction.lines doc) shown walk

def longest : List Descriptor → Option Descriptor
  | [] => none
  | candidate :: rest =>
    match longest rest with
    | none => some candidate
    | some best =>
      if candidate.definition.length < best.definition.length then some best else some candidate

/-- The best definition around the anchor: an exact match above, an exact match below,
or the longest near match. Each pass enters documents afresh. -/
def resolve (setting : Search.Setting) (doc : Snapshot) (token : Token) (shown : Text)
    (store : Store) : Except Failure (Option Descriptor) × Store :=
  match candidates setting doc token shown (.backward 0) ⟨store, []⟩ with
  | (.error failure, walk) => (.error failure, walk.store)
  | (.ok above, walk) =>
    if above.shortCircuited then (.ok above.candidates.getLast?, walk.store)
    else match candidates setting doc token shown .forward ⟨walk.store, []⟩ with
      | (.error failure, walk) => (.error failure, walk.store)
      | (.ok below, walk) =>
        if below.shortCircuited then (.ok below.candidates.getLast?, walk.store)
        else (.ok (longest (above.candidates ++ below.candidates)), walk.store)

end MmlLookup.Variable
