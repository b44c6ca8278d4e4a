import Scaffold.Naming.Kind
import Scaffold.Plan.Basic
import Scaffold.Text.Digit

/-! The command line. Options may be shortened to a prefix that fits no other, may carry their
value attached, and may stand before or after the name; those for all commands come before the
command. Arguments are acted on from left to right, so the first request for help or the first
mistake decides. -/

namespace Scaffold.Command
open Text

inductive Switch where
  | help
  | basePath
  | config
  | verbose
  | withoutComposition
  | force
  | dryRun
  | model
  | collection
  | kind
  deriving DecidableEq, Repr

namespace Switch

def takesValue : Switch → Bool
  | basePath | config | model | collection | kind => true
  | _ => false

end Switch

inductive Verb where
  | makeModel
  | makeCollection
  | makeQueryBuilder
  | resolve
  deriving DecidableEq, Repr

abbrev Spellings := List (Text × Switch)

def spelled (rows : List (String × Switch)) : Spellings :=
  rows.map fun (spelling, switch) => (spelling.toList, switch)

def commonSpellings : Spellings :=
  spelled [("-h", .help), ("--help", .help), ("--base-path", .basePath), ("--config", .config),
    ("-v", .verbose), ("--verbose", .verbose)]

namespace Verb

def ofText? (t : Text) : Option Verb :=
  [("make:model", makeModel), ("make:collection", makeCollection),
    ("make:query-builder", makeQueryBuilder), ("resolve", resolve)].findSome? fun (name, verb) =>
    if t = name.toList then some verb else none

def spellings : Verb → Spellings
  | makeModel => spelled [("-h", .help), ("--help", .help),
      ("--without-composition", .withoutComposition), ("--force", .force),
      ("--dry-run", .dryRun)]
  | makeCollection => spelled [("-h", .help), ("--help", .help), ("-m", .model),
      ("--model", .model), ("--force", .force), ("--dry-run", .dryRun)]
  | makeQueryBuilder => spelled [("-h", .help), ("--help", .help), ("-m", .model),
      ("--model", .model), ("-c", .collection), ("--collection", .collection),
      ("--force", .force), ("--dry-run", .dryRun)]
  | resolve => spelled [("-h", .help), ("--help", .help), ("--kind", .kind)]

end Verb

structure Settings where
  basePath : Option Text := none
  config : Option Text := none
  verbose : Bool := false
  withoutComposition : Bool := false
  force : Bool := false
  dryRun : Bool := false
  model : Option Text := none
  collection : Option Text := none
  kind : Kind := .model
  deriving DecidableEq, Repr

/-- Why the reading of the arguments ends early. -/
inductive Halt where
  | help
  | usage
  deriving DecidableEq, Repr

namespace Settings

def act (s : Settings) (switch : Switch) (value : Text) : Except Halt Settings :=
  match switch with
  | .help => .error .help
  | .basePath => .ok { s with basePath := some value }
  | .config => .ok { s with config := some value }
  | .verbose => .ok { s with verbose := true }
  | .withoutComposition => .ok { s with withoutComposition := true }
  | .force => .ok { s with force := true }
  | .dryRun => .ok { s with dryRun := true }
  | .model => .ok { s with model := some value }
  | .collection => .ok { s with collection := some value }
  | .kind =>
    match Kind.ofLabel? value with
    | some kind => .ok { s with kind := kind }
    | none => .error .usage

def actAll (s : Settings) : List (Switch × Text) → Except Halt Settings
  | [] => .ok s
  | (switch, value) :: rest => do (← s.act switch value).actAll rest

end Settings

/-- A value attached to an option, behind an equals sign or directly. -/
inductive Attached where
  | equated (value : Text)
  | adjoined (value : Text)
  deriving DecidableEq, Repr

def Attached.value : Attached → Text
  | equated value | adjoined value => value

/-- An argument by its shape: an operand, an option with its spelling and what is attached to
it, something that looks like an option but is none, or the mark that only operands follow. -/
inductive Piece where
  | operand (t : Text)
  | option (switch : Switch) (spelling : Text) (attached : Option Attached)
  | stray
  | ending
  deriving DecidableEq, Repr

def endMark : Text := ['-', '-']

/-- A minus sign with a whole number or a fraction behind it, and maybe a line feed. -/
def isNegativeNumber : Text → Bool
  | '-' :: rest =>
    let number := (before? ['\n'] rest).getD rest
    let fraction := (number.dropWhile isDecimalDigit).drop 1
    (number ≠ [] && number.all isDecimalDigit) ||
      ((number.dropWhile isDecimalDigit).head? == some '.' && fraction ≠ [] &&
        fraction.all isDecimalDigit)
  | _ => false

/-- Cuts at the first equals sign. -/
def equated (t : Text) : Text × Option Attached :=
  match cut? ['='] t with
  | some (spelling, value) => (spelling, some (.equated value))
  | none => (t, none)

/-- The options that an argument may abbreviate. -/
def candidates (spellings : Spellings) (t : Text) : List Piece :=
  match t with
  | '-' :: '-' :: _ =>
    let (front, value) := equated t
    spellings.filterMap fun (spelling, switch) =>
      if front.isPrefixOf spelling then some (.option switch spelling value) else none
  | _ =>
    spellings.filterMap fun (spelling, switch) =>
      if spelling = t.take 2 then some (.option switch spelling (some (.adjoined (t.drop 2))))
      else if t.isPrefixOf spelling then some (.option switch spelling none)
      else none

def classify (spellings : Spellings) (t : Text) : Except Halt Piece :=
  match t with
  | [] | ['-'] => .ok (.operand t)
  | c :: _ =>
    let (front, value) := equated t
    if c ≠ '-' then .ok (.operand t)
    else
      match spellings.lookup t, value, spellings.lookup front with
      | some switch, _, _ => .ok (.option switch t none)
      | none, some value, some switch => .ok (.option switch front (some value))
      | none, _, _ =>
        match candidates spellings t with
        | [piece] => .ok piece
        | [] =>
          if isNegativeNumber t || t.contains ' ' then .ok (.operand t) else .ok .stray
        | _ => .error .usage

def classifyAll (spellings : Spellings) : List Text → Except Halt (List Piece)
  | [] => .ok []
  | t :: rest =>
    if t = endMark then .ok (.ending :: rest.map .operand)
    else do return (← classify spellings t) :: (← classifyAll spellings rest)

/-- What one argument calls for: switches with their values, a last one that has to find its
value in the next argument, and whether some character of it had no place. -/
structure Calls where
  acts : List (Switch × Text)
  waiting : Option Switch
  spare : Bool

def Calls.single (switch : Switch) (value : Text) : Calls :=
  ⟨[(switch, value)], none, false⟩

def Calls.after (calls : Calls) (switch : Switch) : Calls :=
  { calls with acts := (switch, []) :: calls.acts }

/-- The call of a switch with nothing attached. -/
def bare (switch : Switch) : Calls :=
  if switch.takesValue then ⟨[], some switch, false⟩ else .single switch []

/-- Short switches behind a shared dash; the first to take a value takes what is left. -/
def cluster (spellings : Spellings) : Text → Except Halt Calls
  | [] => .error .usage
  | c :: rest =>
    match spellings.lookup ['-', c] with
    | none => if c = '-' then .error .usage else .ok ⟨[], none, true⟩
    | some switch =>
      if rest = [] then .ok (bare switch)
      else if switch.takesValue then
        .ok (.single switch (if rest.head? = some '=' then rest.drop 1 else rest))
      else if rest.head? = some '=' then .error .usage
      else (cluster spellings rest).map (·.after switch)

def calls (spellings : Spellings) (switch : Switch) (short : Bool) :
    Option Attached → Except Halt Calls
  | none => .ok (bare switch)
  | some given =>
    if switch.takesValue then .ok (.single switch given.value)
    else
      match short, given with
      | true, .adjoined t => (cluster spellings t).map (·.after switch)
      | _, _ => .error .usage

def isShort (spelling : Text) : Bool :=
  spelling.length = 2

/-- What has been read so far; `spare` tells that some argument had no place. -/
structure Reading where
  settings : Settings
  name : Option Text
  spare : Bool

/-- The reading after an option, with the pieces behind it and its value. -/
def consume (spellings : Spellings) (r : Reading) (switch : Switch) (spelling : Text)
    (value : Option Attached) (rest : List Piece) : Except Halt (Reading × List Piece) := do
  let calls ← calls spellings switch (isShort spelling) value
  let spare := r.spare || calls.spare
  match calls.waiting, rest with
  | none, _ => return ({ r with settings := ← r.settings.actAll calls.acts, spare }, rest)
  | some last, .operand t :: rest =>
    return ({ r with settings := ← r.settings.actAll (calls.acts ++ [(last, t)]), spare }, rest)
  | some _, _ => .error .usage

/-- The arguments of a command. A fuel of their number is enough, as each step takes one. -/
def readCommand (spellings : Spellings) : Nat → Reading → List Piece → Except Halt Reading
  | 0, r, _ => .ok r
  | _ + 1, r, [] => .ok r
  | fuel + 1, r, .stray :: rest => readCommand spellings fuel { r with spare := true } rest
  | fuel + 1, r, .option switch spelling value :: rest => do
    let (r, rest) ← consume spellings r switch spelling value rest
    readCommand spellings fuel r rest
  | fuel + 1, r, .operand t :: rest =>
    match r.name, rest with
    | some _, _ => readCommand spellings fuel { r with spare := true } rest
    | none, .ending :: rest => readCommand spellings fuel { r with name := some t } rest
    | none, rest => readCommand spellings fuel { r with name := some t } rest
  | fuel + 1, r, .ending :: rest =>
    match r.name, rest with
    | none, .operand t :: rest => readCommand spellings fuel { r with name := some t } rest
    | _, rest => readCommand spellings fuel { r with spare := true } rest

structure Invocation where
  settings : Settings
  verb : Verb
  name : Text
  deriving DecidableEq, Repr

/-- The arguments in front of the command, with their pieces beside them. -/
def readFront : Nat → Reading → List (Text × Piece) → Except Halt Invocation
  | 0, _, _ => .error .usage
  | _ + 1, r, [] => if r.spare then .error .usage else .error .help
  | fuel + 1, r, (_, .stray) :: rest => readFront fuel { r with spare := true } rest
  | _ + 1, _, (_, .ending) :: _ => .error .usage
  | fuel + 1, r, (_, .option switch spelling value) :: rest => do
    let (r, left) ← consume commonSpellings r switch spelling value (rest.map Prod.snd)
    readFront fuel r (rest.drop (rest.length - left.length))
  | _ + 1, r, (t, .operand _) :: rest => do
    match Verb.ofText? t with
    | none => .error .usage
    | some verb =>
      let pieces ← classifyAll verb.spellings (rest.map Prod.fst)
      let r ← readCommand verb.spellings (pieces.length + 1) r pieces
      match r.name, r.spare with
      | some name, false => return ⟨r.settings, verb, name⟩
      | _, _ => .error .usage

def read (arguments : List Text) : Except Halt Invocation := do
  let pieces ← classifyAll commonSpellings arguments
  readFront (arguments.length + 1) ⟨{}, none, false⟩ (arguments.zip pieces)

end Scaffold.Command
