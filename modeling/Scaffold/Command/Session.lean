import Scaffold.Command.Arguments
import Scaffold.Command.Log
import Scaffold.Config
import Scaffold.Plan.Commit

/-! A run of the program: what it prints, its exit status, and the disk it leaves. A reported
fault is one line of error output; any other, a refusal of the file system above all, ends the
run as it is. -/

namespace Scaffold.Command
open Text

inductive Response where
  | help
  | usage
  | done (status : Nat) (out err : Text)
  | stopped (fault : Fault)
  deriving DecidableEq, Repr

structure Session where
  disk : Disk
  response : Response

def ended (lines : List Text) : Text :=
  lines.flatMap fun line => line ++ ['\n']

namespace Invocation

/-- A value with its blanks trimmed; what is blank altogether counts as not given. -/
def trimmed (value : Option Text) : Option Text :=
  (value.map strip).filter (· ≠ [])

/-- The base directory that was given, or else the one of the surroundings. -/
def basePath (i : Invocation) (s : Surroundings) (d : Disk) : Except Fault Path :=
  match i.settings.basePath.filter (· ≠ []) with
  | some t => do Surroundings.absolute d (← s.expanded (Path.ofText t))
  | none => .ok (s.basePath d)

def configPath (i : Invocation) : Option Path :=
  (i.settings.config.filter (· ≠ [])).map Path.ofText

def layout (i : Invocation) (reader : Config.Reader) (s : Surroundings) (d : Disk) :
    Except Fault Layout := do
  Layout.load reader d (← i.basePath s d) i.configPath

def request? (i : Invocation) : Option Request :=
  match i.verb with
  | .makeModel => some (.model (strip i.name) i.settings.withoutComposition)
  | .makeCollection => some (.collection (strip i.name) (trimmed i.settings.model))
  | .makeQueryBuilder =>
    some (.queryBuilder (strip i.name) (trimmed i.settings.model)
      (trimmed i.settings.collection))
  | .resolve => none

def logText (i : Invocation) (notes : List Note) : Text :=
  if i.settings.verbose then ended (notes.map Note.line) else []

def failed (i : Invocation) (notes : List Note) (fault : Fault) : Response :=
  if fault.isReported then
    .done 1 [] (i.logText notes ++ ended ["ERROR: ".toList ++ fault.message])
  else .stopped fault

def writeLine (w : Write) : Text :=
  "  ".toList ++ w.action.label ++ ": ".toList ++ w.path.text

def reportText (r : Report) : Text :=
  ended (r.writes.map writeLine ++
    if r.dryRun then [[], "[DRY RUN] No files were modified.".toList] else [])

def make (i : Invocation) (layout : Layout) (d : Disk) (request : Request) : Session :=
  let run := Site.make ⟨layout, d, i.settings.force⟩ i.settings.dryRun [] request
  match run.outcome with
  | .error fault => ⟨run.disk, i.failed run.notes fault⟩
  | .ok report => ⟨run.disk, .done 0 (reportText report) (i.logText run.notes)⟩

def resolve (i : Invocation) (layout : Layout) (d : Disk) : Response :=
  let site : Site := ⟨layout, d, false⟩
  match site.qualifier.qualify i.settings.kind i.name with
  | .error fault => i.failed [] fault
  | .ok name =>
    let path := layout.pathOf name
    let present := if d.isFile path then "yes".toList else "no".toList
    .done 0 (ended ["  Class: ".toList ++ name, "  Path:  ".toList ++ path.text,
      "  Exists: ".toList ++ present]) []

def run (i : Invocation) (reader : Config.Reader) (s : Surroundings) (d : Disk) : Session :=
  match i.layout reader s d with
  | .error fault => ⟨d, i.failed [] fault⟩
  | .ok layout =>
    match i.request? with
    | some request => i.make layout d request
    | none => ⟨d, i.resolve layout d⟩

end Invocation

/-- A run with the reader that its configuration is to be read by. -/
def run (reader : Config.Reader) (s : Surroundings) (d : Disk) (arguments : List Text) :
    Session :=
  match read arguments with
  | .error .help => ⟨d, .help⟩
  | .error .usage => ⟨d, .usage⟩
  | .ok invocation => invocation.run reader s d

end Scaffold.Command
