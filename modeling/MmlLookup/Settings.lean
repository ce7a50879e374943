import MmlLookup.Disk
import MmlLookup.Toml.Document

/-!
# Settings

The settings file of a directory names the environment directory, or the batch file
that lies in it. A directory without the file has empty settings. A file that is
there and cannot be read or is malformed is a failure.
-/

set_option autoImplicit false

namespace MmlLookup

structure Settings where
  batchPath : Option Path
  environmentPath : Option Path

namespace Settings

def empty : Settings := ⟨none, none⟩

/-- The environment directory: the one named, or else the one that holds the batch
file, unless that is the empty path. -/
def environment (settings : Settings) : Option Path :=
  match settings.environmentPath with
  | some path => some path
  | none => (settings.batchPath.bind Path.parent).filter fun path => !path.isEmpty

def withEnvironment (settings : Settings) (path : Option Path) : Settings :=
  match path with
  | some path => { settings with environmentPath := some path }
  | none => settings

/-- A top-level key, which is a string if it is there. -/
def pathAt (tree : Toml.Tree) (key : String) : Option (Option Path) :=
  match tree.entry? [key.toList] with
  | none => some none
  | some (.value (.string text)) => some (some text)
  | some _ => none

def parse (text : Text) : Option Settings := do
  let tree ← Toml.parse text
  let batchPath ← pathAt tree "batch_path"
  let environmentPath ← pathAt tree "env_dir"
  pure { batchPath, environmentPath }

def fileName : Path := ".pmdref.toml".toList

def load (disk : Disk) (root : Path) : Except Failure Settings :=
  match disk.read (root.join fileName) with
  | .error fault => if fault = .noEntry then .ok empty else .error (.io fault)
  | .ok (text, _) =>
    match parse text with
    | some settings => .ok settings
    | none => .error .invalidSettings

end Settings

end MmlLookup
