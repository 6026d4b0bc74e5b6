/-
The program on the command line. It reads the settings file and the environment variables that the
file refers to, and appends to the telemetry file. It launches no process and opens no connection
by itself: servers that the settings name are refused, as by a system that does not have them.
-/
import LspClient.Program
import Std.Time.DateTime.Timestamp

namespace LspClient

/-- A server that cannot be launched and refuses connections. -/
def absentPeer : Peer where
  frameLimit := Message.maxSize
  spawnError := some [.int 2, .str "No such file or directory"]
  connectError := some [.int 111, .str "Connection refused"]

/-- What a path leads to on the disk. -/
def entryAt (path : Path) : IO (Option FileEntry) := do
  try
    return some (.file (← IO.FS.readBinFile path.text).toList)
  catch
    | .noFileOrDirectory .. => return none
    | _ => return some .directory

/-- The settings file that the words name, if there is one. -/
def settingsFile (words : List String) : IO Directory := do
  match CommandLine.parse words with
  | .ok { config := some path, .. } =>
    match ← entryAt path with
    | some entry => return ⟨[(path, entry)]⟩
    | none => return {}
  | _ => return {}

/-- The names of variables that files refer to. -/
def namesIn (d : Directory) : List String :=
  d.entries.flatMap fun (_, entry) =>
    match entry with
    | .file octets => Settings.referencedNames (Text.decodeLossy octets).toList
    | .directory => []

/-- The variables with some names. -/
def bindingsOf (names : List String) : IO (List (String × String)) := do
  let found ← names.mapM fun name => do
    return (← IO.getEnv name).map fun value => (name, value)
  return found.filterMap id

/-- Appends text to a file. -/
def appendTo (name text : String) : IO Unit := do
  IO.FS.createDirAll (Path.ofText name).parent.text
  let handle ← IO.FS.Handle.mk name .append
  handle.putStr text

end LspClient

open LspClient in
def main (words : List String) : IO UInt32 := do
  let directory ← settingsFile words
  let now ← Std.Time.Timestamp.now
  let world : Program.World := {
    directory
    environment := ⟨← bindingsOf (namesIn directory), (← IO.getEnv "HOME").getD "/"⟩
    origin := now.toNanosecondsSinceUnixEpoch.val / 1000
    processId := 1
    peer := absentPeer
    peers := [absentPeer] }
  match Program.run world words with
  | .ok result =>
    IO.print result.output
    IO.eprint result.errors
    for (name, text) in Program.appended result do
      appendTo name text
    return result.code.toUInt32
  | .error f =>
    IO.eprintln (Log.faultLine f)
    return 1
