import Backtester.Text.ByteSize

/-!
# Files

A file tree holds the files that a command reads and writes, below one working folder.  A file has
a text, or bytes that are none, or is closed to the command.

* `FileTree.resolve` — a path walked through a tree, with `.` and `..` as usual.
* `FileTree.read?`, `FileTree.write?` — the text at a path.
* `FileTree.createFolder` — makes a folder and those around it; `FileTree.folderPath` names the
  folder of a path.
* `FileProblem` — why one of these is not possible.
-/

namespace Backtester

/-- Why a path cannot be read or written. -/
inductive FileProblem where
  /-- Nothing is there. -/
  | missing
  /-- A part of the path that should be a folder is a file. -/
  | notFolder
  /-- A folder is there and not a file. -/
  | folder
  /-- The path or a name in it is too long. -/
  | longName
  /-- The path holds the null character. -/
  | nullInName
  /-- Access is not allowed. -/
  | denied
  /-- The bytes of a file are no text. -/
  | notText
  /-- Any other reason, in words. -/
  | other (reason : String)
deriving DecidableEq

/-- The problem in words. -/
def FileProblem.message : FileProblem → String
  | missing => "No such file or directory (os error 2)"
  | notFolder => "Not a directory (os error 20)"
  | folder => "Is a directory (os error 21)"
  | longName => "File name too long (os error 36)"
  | nullInName => "file name contained an unexpected NUL byte"
  | denied => "Permission denied (os error 13)"
  | notText => "stream did not contain valid UTF-8"
  | other reason => reason

/-- What stands at a place of a file tree. -/
inductive FileNode where
  /-- A file with its text. -/
  | file (text : String)
  /-- A file whose bytes are no text. -/
  | bytes
  /-- A file that can be neither read nor written, and why. -/
  | closed (problem : FileProblem)
  /-- A folder. -/
  | folder
deriving DecidableEq

/-- A place seen from the working folder: the names on the way to it, the last one first.  Outside
the working folder the way starts with `..` or, from the top, with `/`. -/
structure Location where
  /-- The names, the last one first. -/
  names : List String
deriving DecidableEq

namespace Location

/-- The working folder. -/
def here : Location := ⟨[]⟩

/-- The folder at the top of all. -/
def top : Location := ⟨["/"]⟩

/-- The place of a name in a folder. -/
def child (l : Location) (name : String) : Location := ⟨name :: l.names⟩

/-- The folder around a place. -/
def parent (l : Location) : Location :=
  match l.names with
  | [] => ⟨[".."]⟩
  | name :: rest =>
      if name = ".." then ⟨".." :: name :: rest⟩ else if name = "/" then l else ⟨rest⟩

/-- The working folder and the folders around it are always there. -/
def isPermanent (l : Location) : Bool := l.names.all fun name => name == ".." || name == "/"

end Location

/-- Files and folders at their places. -/
structure FileTree where
  /-- What has been put where, last first. -/
  nodes : List (Location × FileNode)
deriving DecidableEq

namespace FileTree

/-- The tree with nothing in the working folder. -/
def empty : FileTree := ⟨[]⟩

/-- What stands at a place. -/
def node? (t : FileTree) (l : Location) : Option FileNode :=
  if l.isPermanent then some .folder else t.nodes.lookup l

/-- Puts a file or folder at a place. -/
def put (t : FileTree) (l : Location) (node : FileNode) : FileTree :=
  ⟨(l, node) :: t.nodes.filter fun entry => decide (entry.1 ≠ l)⟩

/-- The largest size of a name in bytes. -/
def maxNameSize : Nat := 255

/-- The largest size of a path in bytes. -/
def maxPathSize : Nat := 4095

/-- The parts of a text between slashes. -/
def splitPath : List Char → List (List Char)
  | [] => [[]]
  | c :: rest =>
      match splitPath rest with
      | [] => [[c]]
      | part :: parts => if c = '/' then [] :: part :: parts else (c :: part) :: parts

/-- The parts of a path, the empty ones included. -/
def pathParts (path : String) : List String := (splitPath path.toList).map String.ofList

/-- Where a path starts. -/
def startOf (path : String) : Location :=
  if path.toList.head? = some '/' then Location.top else Location.here

/-- A text that can be a path at all. -/
def checkPath (path : String) : Except FileProblem Unit :=
  if path.isEmpty then .error .missing
  else if path.toList.contains '\x00' then .error .nullInName
  else if maxPathSize < byteSize path.toList then .error .longName
  else .ok ()

/-- Goes on from a folder to one of its names; an empty name and `.` stay there. -/
def enter (l : Location) (name : String) : Except FileProblem Location :=
  if name = "" ∨ name = "." then .ok l
  else if name = ".." then .ok l.parent
  else if maxNameSize < byteSize name.toList then .error .longName
  else .ok (l.child name)

/-- Goes on from a place through the names that follow, each in a folder. -/
def walk (t : FileTree) : Location → List String → Except FileProblem Location
  | l, [] => .ok l
  | l, name :: rest =>
      -- Even `.` and `..` can only be looked up in a folder.
      match t.node? l with
      | none => .error .missing
      | some .folder =>
          match enter l name with
          | .error problem => .error problem
          | .ok next => walk t next rest
      | some _ => .error .notFolder

/-- The place of a path.  Nothing need be there yet. -/
def resolve (t : FileTree) (path : String) : Except FileProblem Location := do
  checkPath path
  t.walk (startOf path) (pathParts path)

/-- The text at a path. -/
def read? (t : FileTree) (path : String) : Except FileProblem String := do
  let l ← t.resolve path
  match t.node? l with
  | none => throw .missing
  | some .folder => throw .folder
  | some .bytes => throw .notText
  | some (.closed problem) => throw problem
  | some (.file text) => return text

/-- Puts a text at a path, in place of the text or the bytes that were there. -/
def write? (t : FileTree) (path text : String) : Except FileProblem FileTree := do
  let l ← t.resolve path
  match t.node? l with
  | some .folder => throw .folder
  | some (.closed problem) => throw problem
  | _ => return t.put l (.file text)

/-- Goes on from a place through the names that follow and makes the folders that are missing.
Those made before a problem stay. -/
def makeFolders (t : FileTree) : Location → List String → FileTree × Except FileProblem Unit
  | _, [] => (t, .ok ())
  | l, name :: rest =>
      match enter l name with
      | .error problem => (t, .error problem)
      | .ok next =>
          match t.node? next with
          | some .folder => makeFolders t next rest
          | some _ => (t, .error .notFolder)
          | none => makeFolders (t.put next .folder) next rest

/-- Makes a folder and the folders around it, where they are missing. -/
def createFolder (t : FileTree) (path : String) : FileTree × Except FileProblem Unit :=
  match checkPath path with
  | .error problem => (t, .error problem)
  | .ok () => t.makeFolders (startOf path) (pathParts path)

/-- The path of the folder around a path; empty for a name in the working folder. -/
def folderPath (path : String) : String :=
  let names := (pathParts path).filter fun name => decide (name ≠ "" ∧ name ≠ ".")
  let folder := "/".intercalate names.dropLast
  if startOf path = Location.top then "/" ++ folder else folder

end FileTree

end Backtester
