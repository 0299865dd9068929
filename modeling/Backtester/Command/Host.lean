import Backtester.Files

/-!
# Hosts

A host is what a command acts on: files, the output and the console.

* `Host` — the actions.
* `Session` — a host that is a value: a file tree, the text that has been put out and the lines that
  have been shown.
-/

namespace Backtester

/-- The actions of a command. -/
class Host (m : Type → Type) where
  /-- The text of a file. -/
  readText : (path : String) → m (Except FileProblem String)
  /-- Makes a folder and the folders around it, where they are missing. -/
  createFolder : (path : String) → m (Except FileProblem Unit)
  /-- Puts a text into a file. -/
  writeText : (path text : String) → m (Except FileProblem Unit)
  /-- Puts a text out. -/
  putOut : (text : String) → m Unit
  /-- Shows a line on the console. -/
  showLine : (line : String) → m Unit

/-- What a command has to do with, as a value. -/
structure Session where
  /-- The files. -/
  files : FileTree
  /-- The text that has been put out. -/
  output : String
  /-- The lines that have been shown. -/
  shown : List String

namespace Session

/-- A session with some files, in which nothing has happened. -/
def start (files : FileTree) : Session := ⟨files, "", []⟩

/-- Writes a file, if that is possible. -/
def write (s : Session) (path text : String) : Except FileProblem Unit × Session :=
  match s.files.write? path text with
  | .ok files => (.ok (), { s with files := files })
  | .error problem => (.error problem, s)

/-- Makes a folder, as far as that is possible. -/
def makeFolder (s : Session) (path : String) : Except FileProblem Unit × Session :=
  let (files, outcome) := s.files.createFolder path
  (outcome, { s with files := files })

/-- Adds a text to the output. -/
def putOut (s : Session) (text : String) : Session := { s with output := s.output ++ text }

/-- Adds a line to the lines that have been shown. -/
def showLine (s : Session) (line : String) : Session := { s with shown := s.shown ++ [line] }

end Session

instance : Host (StateM Session) where
  readText := fun path s => (s.files.read? path, s)
  createFolder := fun path s => s.makeFolder path
  writeText := fun path text s => s.write path text
  putOut := fun text s => ((), s.putOut text)
  showLine := fun line s => ((), s.showLine line)

end Backtester
