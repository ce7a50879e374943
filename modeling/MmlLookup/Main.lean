import MmlLookup.Command.Reach

/-!
# The program

The command line runs against the part of the file system that it may read. That
part is collected path by path until it holds all it leads to.
-/

set_option autoImplicit false

namespace MmlLookup.Program

def look (trail : Trail) : IO (Option Node) := do
  let path := String.ofList trail.toPath
  let .ok info ← ((← IO.currentDir) / path).metadata.toBaseIO | return none
  let modified := info.modified.sec.toNat * 1000000000 + info.modified.nsec.toNat
  if info.type == .dir then return some (.directory (some modified))
  let .ok bytes ← (IO.FS.readBinFile path).toBaseIO | return none
  return some (.file { bytes, modified })

/-- Add what lies along a path, and the times of directories that are known without. -/
def survey (disk : Disk) (path : Path) : IO Disk :=
  (Trail.along disk.home path).foldlM (fun disk trail => do
    match (disk.node? trail).bind Node.modified?, ← look trail with
    | none, some node => return disk.put trail node
    | _, _ => return disk) disk

/-- Add what an invocation may read, beyond the paths surveyed already. -/
partial def collect (invocation : Command.Invocation) (input : ByteArray) (disk : Disk)
    (surveyed : List Path) : IO Disk := do
  match (Command.reach disk input invocation).find? (· ∉ surveyed) with
  | none => return disk
  | some path => collect invocation input (← survey disk path) (path :: surveyed)

partial def readAll (stream : IO.FS.Stream) (bytes : ByteArray) : IO ByteArray := do
  let more ← stream.read 65536
  if more.isEmpty then return bytes
  readAll stream (bytes ++ more)

def input (invocation : Command.Invocation) : IO ByteArray := do
  if invocation.request.readsInput then readAll (← IO.getStdin) .empty else return .empty

def respond (arguments : List Text) : IO Command.Response := do
  let disk := Disk.empty (Trail.ofPath [] (← IO.currentDir).toString.toList)
  match Command.parse arguments with
  | none => return Command.run disk .empty arguments
  | some invocation =>
    let input ← input invocation
    return Command.run (← collect invocation input disk []) input arguments

def run (arguments : List Text) : IO UInt32 := do
  let response ← respond arguments
  (← IO.getStdout).putStr (String.ofList response.output)
  (← IO.getStderr).putStr (String.ofList response.complaint.text)
  return response.exit.toUInt32

end MmlLookup.Program

def main (arguments : List String) : IO UInt32 :=
  MmlLookup.Program.run (arguments.map String.toList)
