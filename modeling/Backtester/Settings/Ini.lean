import Backtester.Number.Notation
import Backtester.Settings
import Backtester.Text.LowerCase

/-!
# Settings files

A settings file is read line by line.  Blanks around a line do not count, and a semicolon or a
number sign starts a comment.  A line in brackets starts a section; any other line has a key and,
after the first equals sign or colon, a value.  Names do not distinguish letter case.  Keys before
the first section belong to the section `default`, and a later value of a key takes the place of an
earlier one.

* `IniFile.ofText?` — the entries of a file.
* `IniFile.settings` — the settings they make.
-/

namespace Backtester

/-- Why a settings file cannot be read; lines are counted from one. -/
inductive IniProblem where
  /-- A section name is not closed. -/
  | unclosedSection (line : Nat)
  /-- Nothing stands before the equals sign or colon. -/
  | emptyKey (line : Nat)
deriving DecidableEq

/-- The problem in words. -/
def IniProblem.message : IniProblem → String
  | unclosedSection line =>
      "line " ++ natText line ++ ": Found opening bracket for section name but no closing bracket"
  | emptyKey line => "line " ++ natText line ++ ":0: Key cannot be empty"

/-- A key with its section and its value, if it has one. -/
structure IniEntry where
  /-- The section, in lower case. -/
  sectionName : String
  /-- The key, in lower case. -/
  key : String
  /-- The value; `none` for a key without an equals sign or colon. -/
  value : Option String
deriving DecidableEq

/-- The entries of a settings file, last first. -/
structure IniFile where
  /-- The entries. -/
  entries : List IniEntry

/-- What a line says. -/
inductive IniLine where
  /-- Nothing. -/
  | empty
  /-- A section begins. -/
  | header (name : String)
  /-- A key and its value. -/
  | entry (key : String) (value : Option String)
  /-- An opening bracket without a closing one. -/
  | unclosed
  /-- A value without a key. -/
  | keyless

/-- A character that starts a comment. -/
def startsComment (c : Char) : Bool := c == ';' || c == '#'

/-- A character between key and value. -/
def isDelimiter (c : Char) : Bool := c == '=' || c == ':'

/-- A name as it is looked up: without blanks around it, in lower case. -/
def settingName (text : List Char) : String := String.ofList (lowerText (trim text))

/-- The text before the last closing bracket, if there is one. -/
def beforeLastBracket (text : List Char) : Option (List Char) :=
  match text.reverse.dropWhile (· != ']') with
  | [] => none
  | _ :: before => some before.reverse

/-- Reads a line without comment and without blanks around it. -/
def readContent : List Char → IniLine
  | [] => .empty
  | '[' :: rest =>
      match beforeLastBracket rest with
      | some name => .header (settingName name)
      | none => .unclosed
  | content =>
      let key := settingName (content.takeWhile fun c => !isDelimiter c)
      match content.dropWhile fun c => !isDelimiter c with
      | [] => .entry key none
      | _ :: value => if key.isEmpty then .keyless else .entry key (some (String.ofList (trim value)))

/-- Reads a line. -/
def readLine (line : List Char) : IniLine :=
  readContent (trim ((trim line).takeWhile fun c => !startsComment c))

/-- The lines of a text. -/
def splitLines : List Char → List (List Char)
  | [] => [[]]
  | c :: rest =>
      match splitLines rest with
      | [] => [[c]]
      | line :: lines => if c = '\n' then [] :: line :: lines else (c :: line) :: lines

/-- Adds the entries of lines numbered from `number` on, in a section, to those collected so far. -/
def collectEntries : (number : Nat) → (sectionName : String) → (collected : List IniEntry) →
    List (List Char) → Except IniProblem (List IniEntry)
  | _, _, collected, [] => .ok collected
  | number, sectionName, collected, line :: rest =>
      match readLine line with
      | .empty => collectEntries (number + 1) sectionName collected rest
      | .header name => collectEntries (number + 1) name collected rest
      | .entry key value =>
          collectEntries (number + 1) sectionName (⟨sectionName, key, value⟩ :: collected) rest
      | .unclosed => .error (.unclosedSection number)
      | .keyless => .error (.emptyKey number)

namespace IniFile

/-- The entries of a text. -/
def ofText? (text : String) : Except IniProblem IniFile :=
  (collectEntries 1 "default" [] (splitLines text.toList)).map IniFile.mk

/-- The settings of a file.  A key without a value reads as missing. -/
def settings (f : IniFile) : Settings where
  find? := fun sectionName key =>
    match f.entries.find? fun e => e.sectionName == lowered sectionName && e.key == lowered key with
    | some e => e.value
    | none => none

end IniFile

end Backtester
