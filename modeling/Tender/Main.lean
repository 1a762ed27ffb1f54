/-
The program: reads its command line, gathers the files of the command, and writes what comes out.
-/
import Std.Time.DateTime.Timestamp
import Tender.Command.Run

namespace Tender.Program

/-- Adds a file to a disk, if there is one that can be read. -/
def loadFile (disk : Disk) (path : Text) : IO Disk := do
  try
    let bytes ← IO.FS.readBinFile (String.ofList path)
    return disk.putBytes path bytes.toList
  catch _ => return disk

/-- Whether there is a directory at a path. -/
def isDirectory (path : Text) : IO Bool := do
  try
    (← IO.FS.realPath (String.ofList path)).isDir
  catch _ => return false

/-- The files that a command needs, the settings among them. -/
def loadDisk (c : Command) : IO Disk := do
  let paths := match c.writes? with
    | some path => [path, Text.parentPath path]
    | none => []
  let directories ← paths.filterM isDirectory
  (Command.settingsFile :: c.reads).foldlM loadFile (Disk.ofFolder ⟨[], directories⟩)

/-- The settings that the environment gives, under their names in capital or small letters. -/
def loadEnvironment : IO (Entries Text) := do
  let names := Entries.keys ({} : Settings).toEntries
  (names ++ names.map Text.toUpper).filterMapM fun name => do
    return (← IO.getEnv (String.ofList name)).map fun s => (name, s.toList)

/-- Shows what a command puts out, and writes its file. -/
def deliver (c : Command) (ending : Command.Ending) : IO UInt32 := do
  IO.print (String.ofList ending.output)
  if ending.code = 0 then
    if let some path := c.writes? then
      if let some s := Entries.get? path ending.folder.files then
        IO.FS.writeFile (String.ofList path) (String.ofList s)
  return ending.code.toUInt32

end Tender.Program

open Tender

/-- Carries out the command of a command line. -/
def main (arguments : List String) : IO UInt32 := do
  match Command.ofWords (arguments.map String.toList) with
  | .error .help => return 0
  | .error .misuse => return 2
  | .ok c =>
    let now ← Std.Time.Timestamp.now
    let today := Date.ofSeconds now.toSecondsSinceUnixEpoch.val
    match c.run (← Program.loadDisk c) (← Program.loadEnvironment) today with
    | .ok ending => Program.deliver c ending
    | .error f =>
      IO.eprintln (String.ofList f.message)
      return 1
