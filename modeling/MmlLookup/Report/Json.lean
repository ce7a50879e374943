import MmlLookup.Lookup

/-!
# JSON

Results are printed as JSON with two spaces of indentation for each level. Strings
escape the quote, the backslash and control characters, and nothing else.
-/

set_option autoImplicit false

namespace MmlLookup.Report

inductive Json where
  | null
  | boolean (value : Bool)
  | number (value : Nat)
  | string (text : Text)
  | object (fields : List (String × Json))

namespace Json

def fourDigits (code : Nat) : Text :=
  let digits := Nat.toDigits 16 code
  List.replicate (4 - digits.length) '0' ++ digits

def escape (c : Char) : Text :=
  if c = '"' then ['\\', '"']
  else if c = '\\' then ['\\', '\\']
  else if c = '\x08' then ['\\', 'b']
  else if c = '\x0c' then ['\\', 'f']
  else if c = '\n' then ['\\', 'n']
  else if c = '\r' then ['\\', 'r']
  else if c = '\t' then ['\\', 't']
  else if c.toNat < 0x20 then '\\' :: 'u' :: fourDigits c.toNat
  else [c]

def quote (text : Text) : Text := ['"'] ++ text.flatMap escape ++ ['"']

def indent (depth : Nat) : Text := List.replicate (2 * depth) ' '

mutual

/-- A value whose enclosing objects number `depth`. -/
def render (depth : Nat) : Json → Text
  | null => "null".toList
  | boolean value => if value then "true".toList else "false".toList
  | number value => Text.decimal value
  | string text => quote text
  | object [] => ['{', '}']
  | object (field :: fields) =>
    ['{', '\n'] ++ renderFields (depth + 1) (field :: fields) ++ ['\n'] ++ indent depth ++ ['}']

def renderFields (depth : Nat) : List (String × Json) → Text
  | [] => []
  | [(name, value)] => indent depth ++ quote name.toList ++ [':', ' '] ++ render depth value
  | (name, value) :: field :: fields =>
    indent depth ++ quote name.toList ++ [':', ' '] ++ render depth value ++ [',', '\n']
      ++ renderFields depth (field :: fields)

end

/-! ## Results -/

def ofLocation (location : Location) : Json :=
  object [("identity", object [("path", string location.path)]), ("line", number location.line)]

def ofDescriptor (descriptor : Descriptor) : Json :=
  object
    [ ("definition", string descriptor.definition),
      ("file_name", string descriptor.fileName),
      ("location", ofLocation descriptor.location),
      ("perfect_match", boolean descriptor.perfect) ]

def ofHover (hover : Hover) : Json :=
  object
    [ ("contents", string hover.contents),
      ("definition", match hover.definition with
        | some descriptor => ofDescriptor descriptor
        | none => null) ]

end Json

end MmlLookup.Report
