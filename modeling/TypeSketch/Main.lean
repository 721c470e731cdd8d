import Std.Time.DateTime.Timestamp
import TypeSketch.CommandLine
import TypeSketch.CommandLine.Help

/-! The program. It looks up the files that a command names, lets the command work on them, and writes
back what has changed. -/

namespace TypeSketch.CommandLine

/-- What stands at a path. What cannot be read counts as a folder, which cannot be read either. -/
def entryAt (path : String) : IO (Option Directory.Entry) := do
  try
    let bytes ← IO.FS.readBinFile path
    return some ((String.fromUTF8? bytes).elim .bytes .text)
  catch
    | .noFileOrDirectory .. => return none
    | _ => return some .folder

def parentText (path : String) : String :=
  String.ofList ((path.toList.reverse.dropWhile (· != '/')).tail.reverse)

def directoryOf (paths : List String) : IO Directory := do
  let mut directory : Directory := {}
  for path in paths do
    for text in [parentText path, path] do
      if text ≠ "" then
        if let some entry ← entryAt text then
          directory := directory.put (Directory.names text) entry
  return directory

def readInput : IO (Option String) := do
  let bytes ← (← IO.getStdin).readBinToEnd
  return String.fromUTF8? bytes

def now : IO Instant := do
  let t ← Std.Time.Timestamp.now
  return ⟨t.toNanosecondsSinceUnixEpoch.val.toNat⟩

def writeChanges (paths : List String) (before after : Directory) : IO Unit := do
  for path in paths do
    if let .ok text := after.read path then
      if (before.read path).toOption ≠ some text then
        IO.FS.writeFile path text

def runArguments (a : Arguments) : IO UInt32 := do
  let directory ← directoryOf a.paths
  let input ← if World.inputName ∈ a.paths then readInput else pure none
  let outcome := { directory, input, now := ← now : World }.run a
  writeChanges a.paths directory outcome.directory
  IO.print outcome.output
  if let some e := outcome.dropped then
    IO.eprintln ("Edit dropped: " ++ e.text)
  if let some (port, _) := outcome.serves then
    IO.eprintln ("Error: Failed to bind to port " ++ toString port)
    return 1
  match outcome.failure with
  | some e =>
    IO.eprintln ("Error: " ++ e.text)
    return 1
  | none => return 0

end TypeSketch.CommandLine

open TypeSketch.CommandLine

def main (words : List String) : IO UInt32 := do
  match Arguments.ofWords words with
  | .ok a => runArguments a
  | .error usage =>
    if usage.exitCode = 0 then IO.println usage.text else IO.eprintln usage.text
    return usage.exitCode.toUInt32
