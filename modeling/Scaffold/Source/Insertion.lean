import Scaffold.Fault
import Scaffold.Source.Declaration
import Scaffold.Text.Line

/-! Insertion of blocks above or below the first line that holds an anchor. All but the new
lines is kept as it stands, line endings included. -/

namespace Scaffold.Source
open Text

/-- A pattern as it is written, with the lines that a search for it succeeds in. -/
structure LinePattern where
  source : Text
  holds : Text → Bool

def LinePattern.classDeclaration : LinePattern where
  source := "^\\s*(?:(?:abstract|final|readonly)\\s+)*class\\b".toList
  holds := declares

inductive Needle where
  | literal (t : Text)
  | pattern (p : LinePattern)

namespace Needle

def source : Needle → Text
  | literal t => t
  | pattern p => p.source

def holds : Needle → Text → Bool
  | literal t, line => occurs t line
  | pattern p, line => p.holds line

def find (needle : Needle) (t : Text) : Except Fault LineCut :=
  match LineCut.first? needle.holds (lines t) with
  | some cut => .ok cut
  | none => .error (.anchorNotFound needle.source)

end Needle

inductive Placement where
  | before
  | after
  deriving DecidableEq, Repr

namespace Placement

def ofText (given : Text) : Except Fault Placement :=
  if given = "before".toList then .ok before
  else if given = "after".toList then .ok after
  else .error (.badPlacement given)

/-- The anchor line together with the inserted text. -/
def around (placement : Placement) (line inserted : Text) : Text :=
  match placement with
  | before => inserted ++ '\n' :: line
  | after => line ++ '\n' :: '\n' :: inserted

end Placement

def insertInto (cut : LineCut) (blocks : List Text) (placement : Placement) : Text :=
  cut.before ++ placement.around cut.line (joinLines blocks) ++ cut.after

def insert (needle : Needle) (blocks : List Text) (placement : Placement) (t : Text) :
    Except Fault Text := do
  return insertInto (← needle.find t) blocks placement

/-- As `insert`, with the placement given by name and looked at after the anchor. -/
def insertNamed (needle : Needle) (blocks : List Text) (placement : Text) (t : Text) :
    Except Fault Text := do
  let cut ← needle.find t
  return insertInto cut blocks (← Placement.ofText placement)

end Scaffold.Source
