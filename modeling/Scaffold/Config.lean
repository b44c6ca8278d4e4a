import Scaffold.Disk.Basic
import Scaffold.Layout

/-! The layout of a project as its configuration file sets it. Keys that are missing or null
keep their defaults, and so does everything without such a file. How a text is read as a
configuration is up to a reader that the program is given; nothing is assumed of it here. -/

namespace Scaffold
open Text

namespace Config

/-- What a configuration comes to: nothing at all, a mapping, or a value of another kind. Of a
mapping the texts of its values are looked up by key; null counts as missing, and a value may
have no text. -/
inductive Document where
  | nothing
  | mapping (setting? : Text → Except Fault (Option Text))
  | other

/-- What becomes of the text of a configuration file. -/
abbrev Reader := Text → Except Fault Document

def fileName : Text := "composition.yaml".toList

/-- The texts that a document sets, by key. -/
def settings (path : Path) : Document → Except Fault (Text → Except Fault (Option Text))
  | .nothing => .ok fun _ => .ok none
  | .mapping setting? => .ok setting?
  | .other => .error (.notAMapping path.text)

def read (reader : Reader) (d : Disk) (path : Path) :
    Except Fault (Text → Except Fault (Option Text)) :=
  match d.file? path with
  | none => settings path .nothing
  | some content => do settings path (← reader (← content.decodeLines))

end Config

namespace Layout

def ofSettings (base : Path) (setting? : Text → Except Fault (Option Text)) :
    Except Fault Layout := do
  let root ← setting? "root_namespace".toList
  let appDir ← setting? "app_dir".toList
  let stubsDir ← setting? "stubs_dir".toList
  let extension ← setting? "extension".toList
  of base (root.getD defaultRoot) (appDir.getD defaultAppDir) (stubsDir.getD defaultStubsDir)
    (extension.getD defaultExtension)

/-- The file that configures a base directory, unless another is given. -/
def configPath (base : Path) (config : Option Path) : Path :=
  config.getD (base ++ Path.ofText Config.fileName)

def load (reader : Config.Reader) (d : Disk) (base : Path) (config : Option Path) :
    Except Fault Layout := do
  ofSettings base (← Config.read reader d (configPath base config))

end Layout

/-- What a session finds around it: the base directory that the environment names, and the homes
of the users by their names, with no name for the user at hand. -/
structure Surroundings where
  base : Option Text
  home? : Text → Option Path

namespace Surroundings

def currentPath (d : Disk) : Path :=
  ⟨.root, d.here⟩

/-- The base directory where none is given. -/
def basePath (s : Surroundings) (d : Disk) : Path :=
  match s.base with
  | some t => Path.ofText t
  | none => currentPath d

/-- As `Layout.load`, for names that count only when not empty. -/
def loadLayout (s : Surroundings) (reader : Config.Reader) (d : Disk) (base config : Option Text) :
    Except Fault Layout :=
  let named (t : Option Text) : Option Path := (t.filter (· ≠ [])).map Path.ofText
  Layout.load reader d ((named base).getD (s.basePath d)) (named config)

/-- A home mark in front, with the name of a user or without, is replaced by the home. -/
def expanded (s : Surroundings) (p : Path) : Except Fault Path :=
  match p.origin, p.parts with
  | .relative, ('~' :: user) :: rest =>
    if user.contains '\x00' then .error .nullInName
    else
      match s.home? user with
      | some home => .ok (home ++ ⟨.relative, rest⟩)
      | none => .error .noHome
  | _, _ => .ok p

/-- The absolute path with every `..` carried out, whether or not anything is there. -/
def absolute (d : Disk) (p : Path) : Except Fault Path :=
  if p.hasNull then .error .nullInName
  else .ok ⟨.root, p.parts.foldl Disk.step (d.start p)⟩

end Surroundings
end Scaffold
