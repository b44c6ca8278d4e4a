import Scaffold.Naming.Qualifier

/-! Where the classes of a project live: its base directory, the root namespace, and the
directories and file extension that namespaces and names turn into. -/

namespace Scaffold
open Text Naming

structure Layout where
  base : Path
  /-- The root namespace without its closing separator. -/
  space : Text
  appDir : Text
  stubsDir : Text
  extension : Text
  space_trimmed : trim isSeparator space = space
  space_ne_nil : space ≠ []
  extension_dotted : extension.head? = some '.'

namespace Layout

def dotted : Text → Text
  | '.' :: t => '.' :: t
  | t => '.' :: t

theorem head?_dotted (t : Text) : (dotted t).head? = some '.' := by
  unfold dotted
  split <;> rfl

def defaultRoot : Text := "App\\".toList
def defaultAppDir : Text := "app".toList
def defaultStubsDir : Text := "stubs".toList
def defaultExtension : Text := ".php".toList

def of (base : Path) (root appDir stubsDir extension : Text) : Except Fault Layout :=
  if h : trim isSeparator root = [] then .error .emptyRoot
  else .ok ⟨base, trim isSeparator root, appDir, stubsDir, dotted extension,
    trim_trim _ _, h, head?_dotted _⟩

def standard (base : Path) : Layout :=
  ⟨base, "App".toList, defaultAppDir, defaultStubsDir, defaultExtension,
    by decide, by decide, by decide⟩

/-- The root namespace with its closing separator. -/
def root (layout : Layout) : Text :=
  layout.space ++ ['\\']

def appRoot (layout : Layout) : Path :=
  layout.base ++ Path.ofText layout.appDir

def stubsRoot (layout : Layout) : Path :=
  layout.base ++ Path.ofText layout.stubsDir

def stubPath (layout : Layout) (stub : Text) : Path :=
  layout.stubsRoot ++ Path.ofText (stub ++ ".stub".toList)

/-- The directory that makes a namespace segment occupied. -/
def segmentPath (layout : Layout) (segment : Text) : Path :=
  layout.appRoot ++ Path.ofText (slashed segment)

def unrooted (layout : Layout) (name : Text) : Text :=
  (after? layout.root name).getD name

/-- The file of a class below the application directory. -/
def relativePath (layout : Layout) (name : Text) : Text :=
  let parts := (segments (layout.unrooted name)).map Path.ofText
  (parts.foldl Path.join Path.here).text ++ layout.extension

def pathOf (layout : Layout) (name : Text) : Path :=
  layout.appRoot ++ Path.ofText (layout.relativePath name)

def qualifier (layout : Layout) (occupied : Text → Bool) : Qualifier :=
  ⟨layout.space, occupied⟩

end Layout
end Scaffold
