import MmlLookup.Toml.Quoted

/-!
# Keys

A key is one or more names between dots. A name is bare or a string on one line.
-/

set_option autoImplicit false

namespace MmlLookup.Toml

open Reader

def isKeyCharacter (c : Char) : Bool := c.isAlphanum || c = '-' || c = '_'

def simpleKey : Reader Text := shortString <|> properRun isKeyCharacter

/-- What is read by one reader, once or more, with another between. Each round has to
take something. -/
def separated {α : Type} (item : Reader α) (separator : Reader Unit) (text : Text) :
    Option (List α × Text) :=
  match item text with
  | none => none
  | some (first, rest) =>
    match separator rest with
    | none => some ([first], rest)
    | some (_, next) =>
      if next.length < text.length then
        match separated item separator next with
        | some (more, rest) => some (first :: more, rest)
        | none => some ([first], rest)
      else none
termination_by text.length

/-- Deepest nesting of values, and most parts of a key. -/
def depthLimit : Nat := 79

def key : Reader (List Text) := do
  let part := do let _ ← spaces; let part ← simpleKey; let _ ← spaces; pure part
  let parts ← separated part (symbol '.')
  if parts.length ≤ depthLimit then pure parts else failure

end MmlLookup.Toml
