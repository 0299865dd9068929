import Backtester.Number.Binary64
import Backtester.Number.Reading
import Backtester.Text.Blank

/-!
# Settings

Settings are texts under a section and a key.

* `Settings` — a look-up; `Settings.ofEntries` looks names up exactly, the last entry of a name
  counting.
* `Settings.textOr`, `Settings.integerOr`, `Settings.numberOr` — a value with a default for a
  missing one and for a text that is not of the kind.
-/

namespace Backtester

/-- Texts under a section and a key. -/
structure Settings where
  /-- The text under a section and a key. -/
  find? : (sectionName key : String) → Option String

namespace Settings

/-- Settings listed as section, key and text. -/
def ofEntries (entries : List (String × String × String)) : Settings where
  find? := fun sectionName key =>
    (entries.reverse.find? fun e => e.1 == sectionName && e.2.1 == key).map fun e => e.2.2

/-- The text under a name without the blanks around it, unless nothing is left. -/
def text? (s : Settings) (sectionName key : String) : Option String :=
  match s.find? sectionName key with
  | some text => if (trimmed text).isEmpty then none else some (trimmed text)
  | none => none

/-- The text under a name without the blanks around it, else a default. -/
def textOr (s : Settings) (sectionName key default : String) : String :=
  (s.text? sectionName key).getD default

/-- The integer under a name, else a default. -/
def integerOr (s : Settings) (sectionName key : String) (default : Int) : Int :=
  ((s.find? sectionName key).bind fun text => readInteger text.toList).getD default

/-- The number under a name, else a default. -/
def numberOr (s : Settings) (sectionName key : String) (default : Float) : Float :=
  ((s.find? sectionName key).bind readScalar).getD default

end Settings

end Backtester
