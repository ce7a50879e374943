import MmlLookup.Text.Basic

/-!
# Keys that are defined

The keys of a document are listed in full, from the root down. A key holds a finished
value, a table, or a list of tables of which only the last can still be added to. No
key is defined twice. A table that arose on the way to another key is open to a later
header; one that arose from dotted keys is open to further dotted keys only.
-/

set_option autoImplicit false

namespace MmlLookup.Toml

/-- A value. Of all values only strings are kept. -/
inductive Value where
  | string (text : Text)
  | other

inductive Entry where
  | value (value : Value)
  | table (implicit dotted : Bool)
  | tables

abbrev Tree := List (List Text × Entry)

namespace Tree

def entry? (tree : Tree) (path : List Text) : Option Entry :=
  (tree.find? (·.1 = path)).map (·.2)

def put (tree : Tree) (path : List Text) (entry : Entry) : Tree :=
  (path, entry) :: tree.filter (·.1 ≠ path)

def clear (tree : Tree) (path : List Text) : Tree :=
  tree.filter fun entry => !(path.isPrefixOf entry.1 && entry.1 ≠ path)

/-- Go down from a table by further keys, making each table that is missing. Dotted keys
do not lead into a table that has a header or braces of its own. -/
def descend (tree : Tree) (dotted : Bool) (path : List Text) : List Text → Option (Tree × List Text)
  | [] => some (tree, path)
  | key :: keys =>
    let next := path ++ [key]
    match tree.entry? next with
    | none => (tree.put next (.table true dotted)).descend dotted next keys
    | some (.value _) => none
    | some .tables => tree.descend dotted next keys
    | some (.table implicit _) =>
      if dotted && !implicit then none else tree.descend dotted next keys

def isDotted (tree : Tree) (path : List Text) : Bool :=
  match tree.entry? path with
  | some (.table _ dotted) => dotted
  | _ => false

def assign (tree : Tree) (path keys : List Text) (value : Value) : Option Tree :=
  match keys.reverse with
  | [] => none
  | last :: above =>
    match tree.descend true path above.reverse with
    | none => none
    | some (tree, table) =>
      let full := table ++ [last]
      if tree.isDotted table = above.isEmpty then none
      else match tree.entry? full with
        | some _ => none
        | none => some (tree.put full (.value value))

def openTable (tree : Tree) (keys : List Text) : Option Tree :=
  match tree.descend false [] keys.dropLast with
  | none => none
  | some (tree, _) =>
    match tree.entry? keys with
    | none => some (tree.put keys (.table false false))
    | some (.table true false) => some (tree.put keys (.table false false))
    | some _ => none

def openListed (tree : Tree) (keys : List Text) : Option Tree :=
  match tree.descend false [] keys.dropLast with
  | none => none
  | some (tree, _) =>
    match tree.entry? keys with
    | none => some (tree.put keys .tables)
    | some .tables => some (tree.clear keys)
    | some _ => none

end Tree

end MmlLookup.Toml
