import FieldLint.Command.Run

/-!
# The command line

`main` shows a run what there is on disk and prints what the run leaves behind. Only the files that
the arguments mean are read; all other files are known by their paths alone. A file that cannot be
read is shown as such, with what the system says.
-/

namespace FieldLint

namespace Command

/-- What stands at a path on disk and below it. The contents of the files are not read. -/
def survey (root : Path) : IO FileSystem := do
  let here ← IO.currentDir
  let top := here / String.ofList root.text
  let mut entries := #[]
  if ← top.pathExists then
    let below ← if ← top.isDir then top.walkDir else pure #[]
    for found in #[top] ++ below do
      let .ok data ← found.metadata.toBaseIO | continue
      let path := root.resolve found.toString.toList
      match data.type with
      | .dir => entries := entries.push (path, FileEntry.directory)
      | .file => entries := entries.push (path, FileEntry.file [])
      | _ => pure ()
  return ⟨entries.toList⟩

/-- What the system says when it does not let a file be read. -/
def refusal (file : Path) : IO.Error → Text
  | .permissionDenied .. =>
    "EACCES: permission denied, open '".toList ++ file.text ++ ['\'']
  | e => e.toString.toList

/-- A file on disk with its contents, or with the reason why it cannot be read. -/
def readEntry (file : Path) : IO FileEntry := do
  match ← (IO.FS.readBinFile (String.ofList file.text)).toBaseIO with
  | .ok bytes => return .file bytes.toList
  | .error e => return .lockedFile (refusal file e)

/-- What stands on disk at the path arguments and below them, with the contents of the files that a
filter lets through. -/
def load (directory : Path) (filter : Filter) (written : List Text) : IO FileSystem := do
  let mut contents := #[]
  let mut surveyed := FileSystem.empty
  for argument in written do
    let root := directory.resolve argument
    let fs ← survey root
    surveyed := ⟨surveyed.entries ++ fs.entries⟩
    if let .ok files := fs.resolve filter root then
      for file in files do
        contents := contents.push (file, ← readEntry file)
  return ⟨contents.toList ++ surveyed.entries⟩

/-- The environment asks for colours. -/
def wantsColor : IO Bool := do
  match ← IO.getEnv "FORCE_COLOR" with
  | none => return false
  | some level => return level != "0" && level != "false"

end Command

end FieldLint

open FieldLint in
/-- Lint the paths on the command line. -/
def main (arguments : List String) : IO UInt32 := do
  let written := arguments.map String.toList
  let directory := Path.resolve ⟨[], []⟩ (← IO.currentDir).toString.toList
  let fileSystem ←
    match Command.Request.ofArguments written with
    | .lint given operands =>
      Command.load directory (Command.Options.ofGiven given).filter (Command.pathsOf operands)
    | _ => pure .empty
  let outcome := Command.run ⟨fileSystem, directory, ← Command.wantsColor⟩ written
  for line in outcome.output do
    IO.println (String.ofList line)
  for line in outcome.errorOutput do
    IO.eprintln (String.ofList line)
  return outcome.exitCode.toUInt32
