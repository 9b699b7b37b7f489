import FieldLint.Files.Path
import FieldLint.Files.Utf8

/-!
# File systems

A file system is a list of files and directories by their paths; the first entry with a path counts.
Reading a file gives its bytes as text, or the reason why it cannot be read: there is no such file,
or it is there and the system refuses, in whatever words.
-/

namespace FieldLint

/-- What stands at a path. -/
inductive FileEntry where
  /-- a file with its contents -/
  | file (bytes : List UInt8)
  /-- a file that cannot be read, and what the system says when it is tried -/
  | lockedFile (refusal : Text)
  | directory
  deriving DecidableEq, Repr

/-- Files and directories. -/
structure FileSystem where
  /-- what stands at each path -/
  entries : List (Path × FileEntry)
  deriving DecidableEq, Repr

/-- Why a file cannot be read. -/
inductive ReadError where
  /-- there is nothing at the path -/
  | notFound (path : Path)
  /-- the path goes through a file -/
  | notDirectory (path : Path)
  /-- a directory stands at the path -/
  | isDirectory
  /-- a file stands at the path, and the system does not let it be read -/
  | refused (refusal : Text)
  deriving DecidableEq, Repr

/-- The reason in words. -/
def ReadError.message : ReadError → Text
  | notFound path =>
    "ENOENT: no such file or directory, open '".toList ++ path.text ++ ['\'']
  | notDirectory path => "ENOTDIR: not a directory, open '".toList ++ path.text ++ ['\'']
  | isDirectory => "EISDIR: illegal operation on a directory, read".toList
  | refused refusal => refusal

/-- A file stands here. -/
def FileEntry.isFile : FileEntry → Bool
  | file _ => true
  | lockedFile _ => true
  | directory => false

namespace FileSystem

/-- Nothing at all. -/
def empty : FileSystem := ⟨[]⟩

/-- What stands at a path. -/
def entry? (fs : FileSystem) (p : Path) : Option FileEntry :=
  fs.entries.lookup p

/-- A file stands at the path. -/
def isFile (fs : FileSystem) (p : Path) : Bool :=
  (fs.entry? p).any FileEntry.isFile

/-- The paths of all files, each once. -/
def files (fs : FileSystem) : List Path :=
  ((fs.entries.map (·.1)).filter fs.isFile).eraseDups

/-- The directories above a path. -/
def parents (p : Path) : List Path :=
  (List.range p.segments.length).map fun n => { p with segments := p.segments.take n }

/-- Put something at a path, and the directories above it. -/
def addEntry (fs : FileSystem) (p : Path) (entry : FileEntry) : FileSystem :=
  ⟨(p, entry) :: (parents p).map (·, .directory) ++ fs.entries⟩

/-- Put a directory and the ones above it. -/
def addDirectory (fs : FileSystem) (p : Path) : FileSystem :=
  fs.addEntry p .directory

/-- Put a file and the directories above it. -/
def addFile (fs : FileSystem) (p : Path) (bytes : List UInt8) : FileSystem :=
  fs.addEntry p (.file bytes)

/-- The path goes through a file. -/
def throughFile (fs : FileSystem) (p : Path) : Bool :=
  (parents p).any fs.isFile

/-- Read the file at a path. -/
def read (fs : FileSystem) (p : Path) : Except ReadError Text :=
  match fs.entry? p.withoutSlash with
  | some .directory => .error .isDirectory
  | some (.file bytes) =>
    if p.hasSlash then .error (.notDirectory p) else .ok (Utf8.decode bytes)
  | some (.lockedFile refusal) =>
    if p.hasSlash then .error (.notDirectory p) else .error (.refused refusal)
  | none => if fs.throughFile p then .error (.notDirectory p) else .error (.notFound p)

end FileSystem

end FieldLint
