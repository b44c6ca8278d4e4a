import Scaffold.Disk.Basic

/-! What sets one state of a disk apart from an earlier one: the files with another content,
the files that are gone, and the directories that were not there. -/

namespace Scaffold.Disk

def fileAt? (d : Disk) (place : Place) : Option Content :=
  match d.node? place with
  | some (.file content) => some content
  | _ => none

/-- The changed files with their new content, or with none where the file is gone. -/
def changes (earlier later : Disk) : List (Place × Option Content) :=
  let written := later.entries.filterMap fun (place, _) =>
    match later.fileAt? place with
    | some content =>
      if earlier.fileAt? place = some content then none else some (place, some content)
    | none => none
  let gone := earlier.entries.filterMap fun (place, _) =>
    if (earlier.fileAt? place).isSome && (later.fileAt? place).isNone then some (place, none)
    else none
  written ++ gone

def newDirectories (earlier later : Disk) : List Place :=
  (later.entries.map Prod.fst).filter fun place =>
    later.isDirectoryAt place && !earlier.isDirectoryAt place

end Scaffold.Disk
