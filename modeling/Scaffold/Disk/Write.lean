import Scaffold.Disk.Basic

/-! Writing a file in one step: the text goes to a fresh file in the same directory, which
then replaces the target. A hazard says at which stages the file system refuses; where a
refusal strikes decides what is left behind. One that strikes on the way to the directory leaves
the directories made till then. A name with a null character is refused where it is first put to
use. -/

namespace Scaffold

/-- The stages of a write. The first ones are on the way to the directory of the target, behind
so many of the names that lead there. -/
inductive Stage where
  | parent (passed : Nat)
  | create
  | write
  | flush
  | sync
  | readMode
  | setMode
  | replace
  deriving DecidableEq, Repr

abbrev Hazard := Stage → Bool

namespace Hazard

def calm : Hazard := fun _ => false

/-- How many names of a way are passed where the file system first refuses the next one. -/
def stopsAfter? (hazard : Hazard) (names : List Text) : Option Nat :=
  (List.range names.length).find? fun passed => hazard (.parent passed)

@[simp] theorem stopsAfter?_calm (names : List Text) : calm.stopsAfter? names = none := by
  simp [stopsAfter?, calm]

end Hazard

namespace Disk

/-- A name longer than every name on the disk and than the one to stay clear of. -/
def freshName (d : Disk) (avoided : Text) : Text :=
  let longest := (avoided :: d.entries.flatMap (·.1)).foldr (fun name n => max name.length n) 0
  List.replicate (longest + 1) '~'

def temporary (d : Disk) (directory : Place) (p : Path) : Place :=
  directory ++ [d.freshName (p.parts.getLast?.getD [])]

/-- The stages from the fresh file on, in an existing directory. -/
def replaceIn (d : Disk) (hazard : Hazard) (directory : Place) (p : Path) (t : Text) :
    Disk × Except Fault Unit :=
  let fresh := d.temporary directory p
  let opened := d.set fresh (.file (.text []))
  let filled := d.set fresh (.file (.text t))
  if hazard .create then (d, .error .system)
  else if hazard .write || hazard .flush then (opened, .error .system)
  else if hazard .sync then (filled, .error .system)
  else if hazard .readMode || hazard .setMode then (filled.erase fresh, .error .system)
  else if p.hasNull then (filled.erase fresh, .error .nullInName)
  else if hazard .replace then (filled.erase fresh, .error .system)
  else
    match filled.locate? p with
    | none => (filled.erase fresh, .error .system)
    | some target =>
      if filled.isDirectoryAt target then (filled.erase fresh, .error .system)
      else ((filled.erase fresh).set target (.file (.text t)), .ok ())

def write (d : Disk) (hazard : Hazard) (p : Path) (t : Text) : Disk × Except Fault Unit :=
  if p.parent.hasNull then (d, .error .nullInName)
  else
    match hazard.stopsAfter? p.parent.parts with
    | some passed =>
      ((d.makeFrom (d.start p) (p.parent.parts.take passed)).1, .error .system)
    | none =>
      match d.makeDirectories p.parent with
      | (made, none) => (made, .error .system)
      | (made, some directory) => made.replaceIn hazard directory p t

end Disk
end Scaffold
