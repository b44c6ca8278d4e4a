import Scaffold.Text.Basic

/-! Slash-separated paths, kept as their origin and their parts. Empty and `.` parts vanish on
reading, `..` stays; joining a path with an origin of its own discards what stood in front of it. -/

namespace Scaffold

/-- Exactly two leading slashes are an origin of their own. -/
inductive Origin where
  | relative
  | root
  | double
  deriving DecidableEq, Repr

structure Path where
  origin : Origin
  parts : List Text
  deriving DecidableEq, Repr

namespace Origin

def text : Origin → Text
  | relative => []
  | root => ['/']
  | double => ['/', '/']

def ofText : Text → Origin
  | '/' :: '/' :: '/' :: _ => root
  | '/' :: '/' :: _ => double
  | '/' :: _ => root
  | _ => relative

end Origin

namespace Path

def isPart (part : Text) : Bool :=
  part ≠ [] && part ≠ ['.']

def ofText (t : Text) : Path :=
  ⟨Origin.ofText t, (t.splitOn '/').filter isPart⟩

def text (p : Path) : Text :=
  match p.origin, p.parts with
  | .relative, [] => ['.']
  | origin, parts => origin.text ++ ['/'].intercalate parts

def join (p q : Path) : Path :=
  if q.origin = .relative then ⟨p.origin, p.parts ++ q.parts⟩ else q

instance : Append Path := ⟨join⟩

@[simp] theorem append_relative (p : Path) (parts : List Text) :
    p ++ (⟨.relative, parts⟩ : Path) = ⟨p.origin, p.parts ++ parts⟩ := rfl

def here : Path := ⟨.relative, []⟩

def parent (p : Path) : Path :=
  ⟨p.origin, p.parts.dropLast⟩

/-- Some part holds a null character, which no file name can. -/
def hasNull (p : Path) : Bool :=
  p.parts.any (·.contains '\x00')

end Path
end Scaffold
