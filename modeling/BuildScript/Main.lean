import BuildScript.Command.Run

/-!
# The command

Runs the command on the files of the machine.  What the paths of the arguments lead to is looked up
first, the run is then made on that part of the file system, and what it changed is written back.
-/

open BuildScript

/-- The path of a place from the root. -/
def placePath (place : Place) : String := "/" ++ "/".intercalate place

/-- Add what stands at a place. -/
def observe (files : FileSystem) (place : Place) : IO FileSystem := do
  let path := (← IO.currentDir) / placePath place
  if (files.node? place).isSome || !(← path.pathExists) then return files
  if ← path.isDir then return files.make place .directory
  return files.make place (.file (← IO.FS.readBinFile path).data.toList)

/-- Add what stands on the way of a path and at its end, which is returned as well. -/
def observePath (files : FileSystem) (path : String) : IO (FileSystem × Place) := do
  let mut files := files
  let mut place := if path.toList.head? = some '/' then [] else files.workingDirectory
  for name in FileName.components path do
    if name = ".." then place := place.dropLast
    else if name ≠ "" && name ≠ "." then place := place ++ [name]
    files ← observe files place
  return (files, place)

/-- The part of the file system that a run with the settings can come to. -/
def observeFor (settings : Command.Settings) : IO FileSystem := do
  let here := (FileName.components (← IO.currentDir).toString).filter (· ≠ "")
  let mut files : FileSystem := FileSystem.make here .directory ⟨here, []⟩
  let mut paths := settings.output.toList
  if settings.path ≠ "-" then
    let (seen, place) ← observePath files settings.path
    files := seen
    paths := paths ++ [FileName.withExtension settings.path settings.format.extension]
    if files.node? place = some .directory then
      for entry in ← ((← IO.currentDir) / placePath place).readDir do
        if FileName.hasExtension "gradle" entry.fileName then
          let script := FileName.inDirectory settings.path entry.fileName
          paths := paths ++ [script, FileName.withExtension script settings.format.extension]
  for path in paths do
    files := (← observePath files path).1
  return files

/-- Write the files that are new or changed. -/
def writeChanges (before after : FileSystem) : IO Unit := do
  for (place, node) in after.nodes do
    if let .file content := node then
      if before.node? place ≠ some node then
        IO.FS.writeBinFile (placePath place) ⟨content.toArray⟩

partial def readAll (input : IO.FS.Stream) (bytes : ByteArray) : IO ByteArray := do
  let more ← input.read 65536
  if more.isEmpty then return bytes else readAll input (bytes ++ more)

def main (arguments : List String) : IO UInt32 := do
  let maxDepth ← IO.getEnv "GRADLE2JSON_MAX_DEPTH"
  let maxBytes ← IO.getEnv "GRADLE2JSON_MAX_BYTES"
  let environment := fun name =>
    if name = "GRADLE2JSON_MAX_DEPTH" then maxDepth
    else if name = "GRADLE2JSON_MAX_BYTES" then maxBytes
    else none
  let (files, stdin) ← match Command.settings arguments environment with
    | .error _ => pure (⟨[], []⟩, ByteArray.empty)
    | .ok settings => do
      let files ← observeFor settings
      let readsInput := settings.path = "-" && !settings.write
      pure (files, ← if readsInput then readAll (← IO.getStdin) .empty else pure .empty)
  let result := Command.run ⟨arguments, environment, stdin.data.toList, files⟩
  writeChanges files result.files
  (← IO.getStdout).write ⟨result.stdout.toArray⟩
  (← IO.getStderr).putStr result.stderr
  return UInt32.ofNat result.code
