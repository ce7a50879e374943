import MmlLookup.Toml.Scalar
import MmlLookup.Toml.Tree

/-!
# Documents

A document is a sequence of lines: a key with its value, the header of a table, the
header of a further table in a list, a comment, or nothing. Values nest to a limited
depth. A document with any fault gives nothing at all.
-/

set_option autoImplicit false

namespace MmlLookup.Toml

open Reader

/-! ## Values -/

def filler : Reader Unit := fun text => some ((), fillers text)

/-- Values between brackets, separated by commas. A comma may follow the last. -/
def array (item : Reader Value) : Reader Value := do
  symbol '['
  let _ ← possibly (do
    let _ ← separated (do filler; let _ ← item; filler) (symbol ',')
    possibly (symbol ','))
  filler
  symbol ']'
  pure .other

def pair (item : Reader Value) : Reader (List Text × Value) := do
  let keys ← key
  symbol '='
  let _ ← spaces
  let value ← item
  pure (keys, value)

/-- Pairs between braces on one line. Together they obey the rules for keys. -/
def inlineTable (item : Reader Value) : Reader Value := do
  symbol '\x7b'
  let entry := do let entry ← pair item; let _ ← spaces; pure entry
  let pairs ← possibly (separated entry (symbol ','))
  let _ ← spaces
  symbol '\x7d'
  let add (tree : Tree) (entry : List Text × Value) := tree.assign [] entry.1 entry.2
  match (pairs.getD []).foldlM add [] with
  | some _ => pure .other
  | none => failure

def leaf : Reader Value :=
  (do let text ← string; pure (.string text)) <|> (do scalarValue; pure .other)

def value : Nat → Reader Value
  | 0 => leaf
  | depth + 1 => leaf <|> array (value depth) <|> inlineTable (value depth)

/-! ## Lines -/

structure Draft where
  tree : Tree
  current : List Text

def header : Reader (List Text) := do
  symbol '['
  let keys ← key
  symbol ']'
  lineEnd
  pure keys

def listHeader : Reader (List Text) := do
  literal ['[', '[']
  let keys ← key
  literal [']', ']']
  lineEnd
  pure keys

def line (draft : Draft) (text : Text) : Option (Draft × Text) :=
  match text with
  | [] => none
  | '#' :: _ => (lineEnd text).map fun (_, rest) => (draft, rest)
  | '\n' :: rest => some (draft, rest)
  | '\r' :: '\n' :: rest => some (draft, rest)
  | '[' :: '[' :: _ =>
    match listHeader text with
    | none => none
    | some (keys, rest) => (draft.tree.openListed keys).map fun tree => (⟨tree, keys⟩, rest)
  | '[' :: _ =>
    match header text with
    | none => none
    | some (keys, rest) => (draft.tree.openTable keys).map fun tree => (⟨tree, keys⟩, rest)
  | _ =>
    match pair (value depthLimit) text with
    | none => none
    | some ((keys, value), rest) =>
      match lineEnd rest with
      | none => none
      | some (_, rest) =>
        (draft.tree.assign draft.current keys value).map fun tree => ({ draft with tree }, rest)

def lines (draft : Draft) (text : Text) : Option Tree :=
  match text.dropWhile isSpace with
  | [] => some draft.tree
  | rest =>
    match line draft rest with
    | none => none
    | some (draft, after) => if after.length < text.length then lines draft after else none
termination_by text.length

def parse (text : Text) : Option Tree :=
  match text with
  | '\uFEFF' :: rest => lines ⟨[], []⟩ rest
  | _ => lines ⟨[], []⟩ text

end MmlLookup.Toml
