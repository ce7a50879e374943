import MmlLookup.Cursor
import MmlLookup.Instrument
import MmlLookup.Table
import MmlLookup.Variable

/-!
# Lookup

A host asks with a document and a cursor, or with a document, an anchor and a name.
The reference under the cursor is an instrument or else a variable. On table parts an
instrument number is answered from the table. Elsewhere the instrument is sought from
the end of the document and the variable around the cursor's line.
-/

set_option autoImplicit false

namespace MmlLookup

structure Hover where
  contents : Text
  definition : Option Descriptor
  deriving DecidableEq

namespace Lookup

open Search (Setting)

def currentDocument : Text := "Current".toList

def contents (reference definition source : Text) : Text :=
  reference ++ " -> **".toList ++ definition ++ "** *from ".toList ++ source ++ ['*']

def found (reference : Text) (descriptor : Descriptor) : Hover where
  contents := contents reference (Text.trim descriptor.definition) descriptor.fileName
  definition := some descriptor

def instrumentReference (id : Nat) : Text := '@' :: Text.decimal id

def variableReference : Token → Text
  | .named name => '!' :: name
  | .numeric value => '!' :: Text.decimal value

def tableHover (table : Table) (id : Nat) : Option Hover :=
  (table.label id).map fun label => ⟨contents (instrumentReference id) label table.source, none⟩

def instrumentFromEnd (setting : Setting) (doc : Snapshot) (id : Nat) (store : Store) :
    Except Failure (Option Descriptor) × Store :=
  Instrument.resolve setting (doc.withAnchor doc.last) id store

def hover (setting : Setting) (store : Store) (path : Path) (line column : Nat) :
    Except Failure (Option Hover) × Store :=
  match store.load setting.disk path (some line) with
  | .error failure => (.error failure, store)
  | .ok (doc, store) =>
    match doc.lines[line]? with
    | none => (.ok none, store)
    | some text =>
      match Cursor.instrumentAt text column with
      | .error failure => (.error failure, store)
      | .ok (some id) =>
        match Table.ofLine text with
        | some table => (.ok (tableHover table id), store)
        | none =>
          let (result, store) := instrumentFromEnd setting doc id store
          (result.map (·.map (found (instrumentReference id))), store)
      | .ok none =>
        match Cursor.variableAt text column with
        | .error failure => (.error failure, store)
        | .ok none => (.ok none, store)
        | .ok (some token) =>
          let (result, store) := Variable.resolve setting doc token currentDocument store
          (result.map (·.map (found (variableReference token))), store)

/-- Where to jump from the cursor: the document of a directive, or the definition of
the reference. Table parts lead nowhere. -/
def definition (setting : Setting) (store : Store) (path : Path) (line column : Nat) :
    Except Failure (Option Location) × Store :=
  match store.load setting.disk path (some line) with
  | .error failure => (.error failure, store)
  | .ok (doc, store) =>
    match doc.lines[line]? with
    | none => (.ok none, store)
    | some text =>
      match Table.ofLine text with
      | some _ => (.ok none, store)
      | none =>
        match Directive.parse text with
        | some directive =>
          match setting.environment with
          | none => (.error .configurationMissing, store)
          | some environment => (.ok (some ⟨directive.target environment, 0⟩), store)
        | none =>
          match Cursor.instrumentAt text column with
          | .error failure => (.error failure, store)
          | .ok (some id) =>
            let (result, store) := instrumentFromEnd setting doc id store
            (result.map (·.map (·.location)), store)
          | .ok none =>
            match Cursor.variableAt text column with
            | .error failure => (.error failure, store)
            | .ok none => (.ok none, store)
            | .ok (some token) =>
              let (result, store) := Variable.resolve setting doc token currentDocument store
              (result.map (·.map (·.location)), store)

/-- The instrument definition nearest above an anchor. A document that cannot be read
has none. -/
def instrumentAbove (setting : Setting) (store : Store) (path : Path) (anchor id : Nat) :
    Except Failure (Option Descriptor) × Store :=
  match store.load setting.disk path (some anchor) with
  | .error _ => (.ok none, store)
  | .ok (doc, store) => Instrument.resolve setting doc id store

def variableAround (setting : Setting) (store : Store) (path : Path) (anchor : Nat)
    (token : Token) : Except Failure (Option Descriptor) × Store :=
  match store.load setting.disk path (some anchor) with
  | .error _ => (.ok none, store)
  | .ok (doc, store) => Variable.resolve setting doc token currentDocument store

end Lookup

end MmlLookup
