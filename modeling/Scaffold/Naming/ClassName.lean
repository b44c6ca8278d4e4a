import Scaffold.Text.Blank
import Scaffold.Text.Upper

/-! Class names: segments set apart by backslashes, with slashes read as such, and the
spelling of a phrase as one capitalised name. -/

namespace Scaffold.Naming
open Text

def isSeparator (c : Char) : Bool :=
  c == '\\'

def backslashed (name : Text) : Text :=
  name.map fun c => if c = '/' then '\\' else c

def slashed (name : Text) : Text :=
  name.map fun c => if c = '\\' then '/' else c

/-- What follows the last separator. -/
def lastSegment (name : Text) : Text :=
  match cutLast? '\\' name with
  | some (_, segment) => segment
  | none => name

/-- What precedes the last separator. -/
def namespaceOf (name : Text) : Text :=
  match cutLast? '\\' name with
  | some (space, _) => space
  | none => []

def basename (name : Text) : Text :=
  lastSegment (trimEnd isSeparator (backslashed name))

def segments (name : Text) : List Text :=
  (name.splitOn '\\').filter (· ≠ [])

def isWordBreak (c : Char) : Bool :=
  c == '-' || c == '_' || isBlank c

def capitalised : Text → Text
  | [] => []
  | c :: t => upperChar c ++ t

/-- Every word capitalised and joined; hyphens, underscores and white space divide words. -/
def studly (phrase : Text) : Text :=
  ((strip phrase).splitOnP isWordBreak).flatMap capitalised

end Scaffold.Naming
