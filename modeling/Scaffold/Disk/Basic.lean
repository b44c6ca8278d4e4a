import Scaffold.Content

/-! A directory tree as a finite map from places to nodes. A place is the list of names from
the root, which is always a directory. Paths are walked name by name, each step out of an
existing directory, with `..` leading to the parent. A look-up never fails: names and paths may
be of any length, every directory may be searched and every file read, and no node is a link. -/

namespace Scaffold

abbrev Place := List Text

inductive Node where
  | directory
  | file (content : Content)
  deriving DecidableEq, Repr

structure Disk where
  entries : List (Place × Node)
  /-- The current directory, from which relative paths start. -/
  here : Place
  deriving DecidableEq, Repr

namespace Disk

def node? (d : Disk) (place : Place) : Option Node :=
  if place = [] then some .directory else d.entries.lookup place

def set (d : Disk) (place : Place) (node : Node) : Disk :=
  { d with entries := (place, node) :: d.entries.filter (·.1 ≠ place) }

/-- Removes a node and all below it. -/
def erase (d : Disk) (place : Place) : Disk :=
  { d with entries := d.entries.filter fun entry => !place.isPrefixOf entry.1 }

@[simp] theorem node?_nil (d : Disk) : d.node? [] = some .directory := rfl

theorem lookup_filter_ne {entries : List (Place × Node)} {place other : Place}
    (h : place ≠ other) :
    (entries.filter (·.1 ≠ other)).lookup place = entries.lookup place := by
  induction entries with
  | nil => rfl
  | cons entry rest ih =>
    obtain ⟨key, node⟩ := entry
    by_cases eq : key = other
    · subst eq
      simpa [List.lookup_cons, beq_false_of_ne h] using ih
    · by_cases same : place == key <;> simp_all [List.lookup_cons]

theorem node?_set {d : Disk} {place other : Place} {node : Node} (ne : place ≠ []) :
    (d.set place node).node? other = if other = place then some node else d.node? other := by
  by_cases nil : other = []
  · subst nil
    simp [Ne.symm ne]
  · by_cases eq : other = place
    · subst eq
      simp [node?, set, nil]
    · simp [node?, set, nil, eq, ← lookup_filter_ne eq]

def isDirectoryAt (d : Disk) (place : Place) : Bool :=
  d.node? place == some .directory

def parentName : Text := "..".toList

def step (place : Place) (name : Text) : Place :=
  if name = parentName then place.dropLast else place ++ [name]

def start (d : Disk) (p : Path) : Place :=
  if p.origin = .relative then d.here else []

/-- The place a path leads to, where every directory on the way exists. -/
def locate? (d : Disk) (p : Path) : Option Place :=
  p.parts.foldlM
    (fun place name => if d.isDirectoryAt place then some (step place name) else none)
    (d.start p)

def at? (d : Disk) (p : Path) : Option Node :=
  (d.locate? p).bind d.node?

def holds (d : Disk) (p : Path) : Bool :=
  (d.at? p).isSome

def isDirectory (d : Disk) (p : Path) : Bool :=
  d.at? p == some .directory

def file? (d : Disk) (p : Path) : Option Content :=
  match d.at? p with
  | some (.file content) => some content
  | _ => none

def isFile (d : Disk) (p : Path) : Bool :=
  (d.file? p).isSome

/-- The text of a source file, line endings untouched. -/
def readSource (d : Disk) (p : Path) (what : Text) : Except Fault Text :=
  match d.file? p with
  | some content => content.decode
  | none => .error (.missingFile p.text what)

/-- Makes the missing directories along the names; no place if a file is in the way. -/
def makeFrom (d : Disk) (place : Place) : List Text → Disk × Option Place
  | [] => (d, some place)
  | name :: rest =>
    let next := step place name
    match d.node? next with
    | some .directory => d.makeFrom next rest
    | some (.file _) => (d, none)
    | none => (d.set next .directory).makeFrom next rest

def makeDirectories (d : Disk) (p : Path) : Disk × Option Place :=
  d.makeFrom (d.start p) p.parts

/-- An empty tree with an existing current directory. -/
def empty (here : Place) : Disk :=
  ((⟨[], here⟩ : Disk).makeFrom [] here).1

end Disk
end Scaffold
