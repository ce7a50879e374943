import MmlLookup.Fault

/-!
# The disk

A finite tree of files and directories with a working directory. Every place in
the tree is listed under its trail. A path resolves piece by piece, and each piece
is looked up in a directory that exists. A file has bytes. Files and directories have
modification times, which are only ever compared for equality. A directory that is
made here, or whose entries change, has a time of the system's clock. No other time
equals that one, so none stands for it, until the directory is given a time.
-/

set_option autoImplicit false

namespace MmlLookup

structure File where
  bytes : ByteArray
  modified : Nat

inductive Node where
  | file (file : File)
  | directory (modified : Option Nat)

namespace Node

def modified? : Node → Option Nat
  | .file f => some f.modified
  | .directory modified => modified

def touch (modified : Nat) : Node → Node
  | .file f => .file { f with modified }
  | .directory _ => .directory (some modified)

end Node

structure Disk where
  home : Trail
  nodes : List (Trail × Node)

namespace Disk

/-- Longest name and longest path the system accepts, in bytes. -/
def nameLimit : Nat := 255
def pathLimit : Nat := 4095

def byteSize : Text → Nat
  | [] => 0
  | c :: rest => c.utf8Size + byteSize rest

def node? (disk : Disk) (trail : Trail) : Option Node :=
  (disk.nodes.find? (·.1 = trail)).map (·.2)

def empty (home : Trail) : Disk := { home, nodes := enclosing home }
where
  enclosing : Trail → List (Trail × Node)
    | [] => [([], .directory none)]
    | name :: outer => (name :: outer, .directory none) :: enclosing outer

def DirectoryAt (disk : Disk) (trail : Trail) : Prop :=
  ∃ modified, disk.node? trail = some (.directory modified)

def descend (disk : Disk) : Trail → List Text → Except Fault Trail
  | trail, [] => .ok trail
  | trail, piece :: pieces =>
    match disk.node? trail with
    | none => .error .noEntry
    | some (.file _) => .error .notDirectory
    | some (.directory _) =>
      if nameLimit < byteSize piece then .error .nameTooLong
      else disk.descend (trail.step piece) pieces

/-- The place a path leads to; it may be vacant. -/
def locate (disk : Disk) (path : Path) : Except Fault Trail :=
  if '\x00' ∈ path then .error .nulInName
  else if path = [] then .error .noEntry
  else if pathLimit < byteSize path then .error .nameTooLong
  else disk.descend (Trail.start disk.home path) path.pieces

def file (disk : Disk) (path : Path) : Except Fault File :=
  match disk.locate path with
  | .error fault => .error fault
  | .ok trail =>
    match disk.node? trail with
    | none => .error .noEntry
    | some (.directory _) => .error .isDirectory
    | some (.file file) => .ok file

def modified? (disk : Disk) (path : Path) : Option Nat :=
  match disk.locate path with
  | .error _ => none
  | .ok trail => (disk.node? trail).bind Node.modified?

def decode (bytes : ByteArray) : Except Fault Text :=
  match String.fromUTF8? bytes with
  | none => .error .notUtf8
  | some text => .ok text.toList

def read (disk : Disk) (path : Path) : Except Fault (Text × Nat) :=
  match disk.file path with
  | .error fault => .error fault
  | .ok file =>
    match decode file.bytes with
    | .error fault => .error fault
    | .ok text => .ok (text, file.modified)

/-! ## Changes -/

def put (disk : Disk) (trail : Trail) (node : Node) : Disk :=
  { disk with nodes := (trail, node) :: disk.nodes.filter (·.1 ≠ trail) }

/-- Something in a directory has come or gone: its time is the clock's. -/
def stir (disk : Disk) (trail : Trail) : Disk :=
  match disk.node? trail with
  | some (.directory (some _)) => disk.put trail (.directory none)
  | _ => disk

/-- The disk once something is to lie at a place: a new entry stirs the directory. -/
def makeRoom (disk : Disk) (trail : Trail) : Disk :=
  if (disk.node? trail).isNone then disk.stir trail.tail else disk

/-- Follow pieces, making each missing directory. A file in the way stops it. -/
def makeWay (disk : Disk) (trail : Trail) : List Text → Option (Disk × Trail)
  | [] => some (disk, trail)
  | piece :: pieces =>
    let next := trail.step piece
    match disk.node? next with
    | some (.file _) => none
    | some (.directory _) => disk.makeWay next pieces
    | none => ((disk.makeRoom next).put next (.directory none)).makeWay next pieces

def makeDirectory (disk : Disk) (path : Path) : Disk :=
  match disk.makeWay (Trail.start disk.home path) path.pieces with
  | some (disk, _) => disk
  | none => disk

def write (disk : Disk) (path : Path) (file : File) : Disk :=
  match path.pieces.reverse with
  | [] => disk
  | name :: above =>
    match disk.makeWay (Trail.start disk.home path) above.reverse with
    | none => disk
    | some (disk, trail) =>
      match disk.node? (trail.step name) with
      | some (.directory _) => disk
      | _ => (disk.makeRoom (trail.step name)).put (trail.step name) (.file file)

def touch (disk : Disk) (path : Path) (modified : Nat) : Disk :=
  match disk.locate path with
  | .error _ => disk
  | .ok trail =>
    match disk.node? trail with
    | none => disk
    | some node => disk.put trail (node.touch modified)

/-- Remove what is at a path, a directory with all below it. -/
def remove (disk : Disk) (path : Path) : Disk :=
  match disk.locate path with
  | .error _ => disk
  | .ok trail =>
    let rest := { disk with nodes := disk.nodes.filter fun entry => !trail.isSuffixOf entry.1 }
    if (disk.node? trail).isNone then disk else rest.stir trail.tail

end Disk

end MmlLookup
