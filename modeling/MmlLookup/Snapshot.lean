import MmlLookup.Path

/-!
# Snapshots

A snapshot is the lines of one document as they were when it was loaded, with an
anchor: the line a search starts from. A definition found in a snapshot is
described by its text, its place and the name shown for its file.
-/

set_option autoImplicit false

namespace MmlLookup

structure Snapshot where
  path : Path
  lines : List Text
  anchor : Nat

namespace Snapshot

/-- The lines under an anchor, which is held at the last line; without one the
anchor is the last line. -/
def make (path : Path) (lines : List Text) (anchor : Option Nat) : Snapshot :=
  let last := lines.length - 1
  { path, lines, anchor := match anchor with
      | none => last
      | some line => min line last }

def last (doc : Snapshot) : Nat := doc.lines.length - 1

/-- The text of a line; a line that is not there is empty. -/
def lineAt (doc : Snapshot) (line : Nat) : Text := doc.lines.getD line []

def withAnchor (doc : Snapshot) (anchor : Nat) : Snapshot :=
  make doc.path doc.lines (some anchor)

def stem (doc : Snapshot) : Text := doc.path.stem.getD []

def upward (doc : Snapshot) (top : Nat) : List Nat :=
  (List.range' top (doc.anchor + 1 - top)).reverse

def downward (doc : Snapshot) : List Nat :=
  List.range' (doc.anchor + 1) (doc.lines.length - (doc.anchor + 1))

end Snapshot

/-- A line of a document, counted from zero. -/
structure Location where
  path : Path
  line : Nat
  deriving DecidableEq

structure Descriptor where
  definition : Text
  fileName : Text
  location : Location
  perfect : Bool
  deriving DecidableEq

end MmlLookup
