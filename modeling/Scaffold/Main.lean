import Scaffold.Command.Help
import Scaffold.Command.Session
import Scaffold.Disk.Difference
import Scaffold.Yaml.Document

/-! The program. It takes in the part of the file system that a command looks at, runs the
command on it, and carries out what has changed. -/

namespace Scaffold

def placeName (place : Place) : String :=
  "/" ++ "/".intercalate (place.map String.ofList)

def placeOf (name : String) : Place :=
  ((name.toList.splitOn '/').filter Path.isPart).foldl Disk.step []

def taken (d : Disk) (place : Place) (node : Node) : Disk :=
  { d with entries := (place, node) :: d.entries }

/-- Takes in the node at a place and, if asked to, all below it. -/
partial def takeIn (deep : Bool) (d : Disk) (place : Place) : IO Disk := do
  let path := (← IO.currentDir) / placeName place
  if ← path.isDir then
    let mut d := taken d place .directory
    if deep then
      for entry in ← path.readDir do
        d ← takeIn deep d (place ++ [entry.fileName.toList])
    return d
  else if ← path.pathExists then
    return taken d place (.file (.ofBytes (← IO.FS.readBinFile path)))
  else
    return d

/-- Takes in the nodes that a path passes and, if asked to, all below its end. -/
def takePath (deep : Bool) (d : Disk) (p : Path) : IO Disk := do
  let mut place := d.start p
  let mut d := d
  for name in p.parts do
    place := Disk.step place name
    d ← takeIn false d place
  if deep then takeIn true d place else return d

/-- The home that a line of the user list gives to a name. -/
def homeIn (user : Text) (line : String) : Option Path :=
  match line.toList.splitOn ':' with
  | [name, _, _, _, _, home, _] => if name = user then some (Path.ofText home) else none
  | _ => none

def surroundings : IO (Surroundings × Disk) := do
  let here := placeOf (← IO.currentDir).toString
  let base ← IO.getEnv "ELOQUENT_COMPOSITION_BASE"
  let own := Path.ofText ((← IO.getEnv "HOME").getD "/").toList
  let users ← try IO.FS.lines "/etc/passwd" catch _ => pure #[]
  let home? := fun user => if user = [] then some own else users.toList.findSome? (homeIn user)
  return (⟨base.map String.toList, home?⟩, Disk.empty here)

/-- The part of the file system that an invocation depends on. -/
def takeFor (i : Command.Invocation) (s : Surroundings) (d : Disk) : IO Disk := do
  let .ok base := i.basePath s d | return d
  let d ← takePath false d base
  let d ← takePath false d (Layout.configPath base i.configPath)
  let .ok layout := i.layout Yaml.document s d | return d
  let d ← takePath true d layout.appRoot
  let d ← takePath true d layout.stubsRoot
  let planned := (i.run Yaml.document s d).disk
  (Disk.changes d planned).foldlM (fun d (place, _) => takeIn false d place) d

def carryOut (earlier later : Disk) : IO Unit := do
  for place in Disk.newDirectories earlier later do
    IO.FS.createDirAll (placeName place)
  for (place, content) in Disk.changes earlier later do
    match content with
    | some (.text t) =>
      let fresh := placeName place ++ "~"
      IO.FS.writeFile fresh (String.ofList t)
      IO.FS.rename fresh (placeName place)
    | _ => pure ()

def respond : Command.Response → IO UInt32
  | .help => do
    IO.print (String.ofList Command.helpText)
    return 0
  | .usage => do
    IO.eprint (String.ofList Command.helpText)
    return 2
  | .done status out err => do
    IO.print (String.ofList out)
    IO.eprint (String.ofList err)
    return status.toUInt32
  | .stopped fault => do
    IO.eprintln (if fault = .system then "The file system refuses." else String.ofList fault.message)
    return 1

end Scaffold

open Scaffold in
def main (arguments : List String) : IO UInt32 := do
  let arguments := arguments.map String.toList
  match Command.read arguments with
  | .error .help => respond .help
  | .error .usage => respond .usage
  | .ok invocation =>
    let (s, bare) ← surroundings
    let d ← takeFor invocation s bare
    let session := invocation.run Yaml.document s d
    carryOut d session.disk
    respond session.response
