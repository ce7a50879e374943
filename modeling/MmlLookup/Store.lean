import MmlLookup.Disk
import MmlLookup.Snapshot

/-!
# The document store

The store keeps the lines of every document it has read under the document's key,
with the modification time they were read at. A document is read again when the
file at its path reports another time or none. The open buffer takes the place of
its document and is never kept. A load that fails changes nothing.
-/

set_option autoImplicit false

namespace MmlLookup

structure Buffer where
  path : Path
  text : Text

structure Cached where
  lines : List Text
  modified : Nat

structure Store where
  active : Option Buffer
  cache : List (Text × Cached)

namespace Store

def empty : Store := { active := none, cache := [] }

def cached? (store : Store) (key : Text) : Option Cached :=
  (store.cache.find? (·.1 = key)).map (·.2)

def erase (store : Store) (key : Text) : Store :=
  { store with cache := store.cache.filter (·.1 ≠ key) }

def insert (store : Store) (key : Text) (entry : Cached) : Store :=
  { store with cache := (key, entry) :: store.cache.filter (·.1 ≠ key) }

def setActive (store : Store) (buffer : Buffer) : Store := { store with active := some buffer }

def clearActive (store : Store) : Store := { store with active := none }

def invalidate (store : Store) (home : Trail) (path : Path) : Store := store.erase (path.key home)

def buffer? (store : Store) (home : Trail) (path : Path) : Option Buffer :=
  store.active.filter fun buffer => buffer.path.sameDocument home path

def fresh? (store : Store) (disk : Disk) (path : Path) : Option (List Text) :=
  match store.cached? (path.key disk.home), disk.modified? path with
  | some entry, some modified => if modified = entry.modified then some entry.lines else none
  | _, _ => none

def lines (store : Store) (disk : Disk) (path : Path) : Except Failure (List Text × Store) :=
  match store.buffer? disk.home path with
  | some buffer => .ok (Text.splitLines buffer.text, store)
  | none =>
    match store.fresh? disk path with
    | some lines => .ok (lines, store)
    | none =>
      match disk.read path with
      | .error fault => .error (.unreadable path fault)
      | .ok (text, modified) =>
        let lines := Text.splitLines text
        -- an older entry of the key goes only now that the file could be read
        .ok (lines, store.insert (path.key disk.home) { lines, modified })

def load (store : Store) (disk : Disk) (path : Path) (anchor : Option Nat) :
    Except Failure (Snapshot × Store) :=
  match store.lines disk path with
  | .error failure => .error failure
  | .ok (lines, store) => .ok (Snapshot.make path lines anchor, store)

end Store

end MmlLookup
