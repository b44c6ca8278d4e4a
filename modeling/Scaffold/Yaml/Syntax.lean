import Scaffold.Text.Line
import Scaffold.Yaml.Value

/-! Reading a document: block mappings and lists, told apart by columns, flow collections, and
plain or quoted scalars. No reading means a malformed document; anchors, aliases, tags and
block scalars count as such. -/

namespace Scaffold.Yaml
open Text

namespace Syntax

/-- The characters that a document may hold at all. -/
def isAllowed (c : Char) : Bool :=
  within [(0x09, 0x0A), (0x0D, 0x0D), (0x20, 0x7E), (0x85, 0x85), (0xA0, 0xD7FF),
    (0xE000, 0xFFFD), (0x10000, 0x10FFFF)] c

def isBreak (c : Char) : Bool :=
  c == '\n'

def isSpace (c : Char) : Bool :=
  c == ' ' || c == '\t' || c == '\n'

def endsToken : Text → Bool
  | [] => true
  | c :: _ => isSpace c

/-- Where reading goes on: the column, whether a line has ended on the way, and the rest. -/
structure Position where
  column : Nat
  fresh : Bool
  rest : Text

/-- Passes over spaces, comments and line ends. -/
def settle (column : Nat) (fresh comment : Bool) : Text → Position
  | [] => ⟨column, fresh, []⟩
  | c :: rest =>
    if isBreak c then settle 0 true false rest
    else if comment then settle column fresh true rest
    else if c = ' ' then settle (column + 1) fresh false rest
    else if c = '#' then settle column fresh true rest
    else ⟨column, fresh, c :: rest⟩

def settled (t : Text) : Position := settle 0 false false t

/-- The rest of a line holds nothing more, and reading goes on below it. -/
def lineDone? (t : Text) : Option Position :=
  let position := settled t
  if position.fresh || position.rest.isEmpty then some position else none

def flowMarks : Text := [',', '?', '[', ']', '\x7b', '\x7d']

/-- A run of plain characters: up to white space, a colon that ends a key, and in a flow
collection its marks. -/
def run (flow : Bool) : Text → Text × Text
  | [] => ([], [])
  | c :: rest =>
    if isSpace c || flow && flowMarks.contains c ||
        c == ':' && (endsToken rest || flow && (rest.take 1).all flowMarks.contains) then
      ([], c :: rest)
    else
      let (more, left) := run flow rest
      (c :: more, left)

/-- Line ends between two runs of a scalar: the first is a space unless more follow. -/
def folded (breaks : Nat) : Text :=
  if breaks = 1 then [' '] else List.replicate (breaks - 1) '\n'

/-- Spaces and line ends in front of the next run: spaces, line ends, column and rest. -/
def gap (spaces breaks column : Nat) : Text → Nat × Nat × Nat × Text
  | [] => (spaces, breaks, column, [])
  | c :: rest =>
    if c = ' ' then gap (spaces + 1) breaks (column + 1) rest
    else if isBreak c then gap 0 (breaks + 1) 0 rest
    else (spaces, breaks, column, c :: rest)

/-- A plain scalar, which goes on over lines that stand at the least column or further in. -/
def plainFrom (flow : Bool) (least : Nat) : Nat → Text → Text × Text
  | 0, t => ([], t)
  | fuel + 1, t =>
    match run flow t with
    | ([], _) => ([], t)
    | (words, left) =>
      let (spaces, breaks, column, next) := gap 0 0 0 left
      let stops := (spaces = 0 ∧ breaks = 0) ∨ next.head? = some '#' ∨
        (breaks ≠ 0 ∧ !flow ∧ column < least) ∨ (run flow next).1 = []
      if stops then (words, left)
      else
        let (more, rest) := plainFrom flow least fuel next
        let between := if breaks = 0 then List.replicate spaces ' ' else folded breaks
        (words ++ between ++ more, rest)

def plain (flow : Bool) (least : Nat) (t : Text) : Text × Text :=
  plainFrom flow least t.length t

def startsPlain (flow : Bool) : Text → Bool
  | [] => false
  | '-' :: rest => !endsToken rest
  | '?' :: rest | ':' :: rest => !flow && !endsToken rest
  | c :: _ => !isSpace c && !",[]\x7b\x7d#&*!|>'\"%@`".toList.contains c

/-- Line ends and the white space around them, within quotes. -/
def quotedGap (blanks : Text) (breaks : Nat) : Text → Text × Text
  | [] => (if breaks = 0 then blanks else folded breaks, [])
  | c :: rest =>
    if isBreak c then quotedGap [] (breaks + 1) rest
    else if c = ' ' ∨ c = '\t' then
      quotedGap (if breaks = 0 then blanks ++ [c] else blanks) breaks rest
    else (if breaks = 0 then blanks else folded breaks, c :: rest)

def singleFrom : Nat → Text → Option (Text × Text)
  | 0, _ => none
  | _ + 1, [] => none
  | fuel + 1, '\'' :: '\'' :: rest => (singleFrom fuel rest).map fun (t, left) => ('\'' :: t, left)
  | fuel + 1, c :: rest =>
    if c = '\'' then some ([], rest)
    else if isSpace c then
      let (between, next) := quotedGap [] 0 (c :: rest)
      (singleFrom fuel next).map fun (t, left) => (between ++ t, left)
    else (singleFrom fuel rest).map fun (t, left) => (c :: t, left)

def escapes : List (Char × Nat) :=
  [('0', 0), ('a', 7), ('b', 8), ('t', 9), ('\t', 9), ('n', 10), ('v', 11), ('f', 12), ('r', 13),
   ('e', 27), (' ', 32), ('"', 34), ('/', 47), ('\\', 92), ('N', 0x85), ('_', 0xA0),
   ('L', 0x2028), ('P', 0x2029)]

def codeLengths : List (Char × Nat) :=
  [('x', 2), ('u', 4), ('U', 8)]

def codePoint? (digits : Text) (length : Nat) : Option Char :=
  let n := Scalar.number 16 digits
  if digits.length = length ∧ digits.all Scalar.isHexDigit ∧ n.isValidChar then
    some (Char.ofNat n)
  else none

def doubleFrom : Nat → Text → Option (Text × Text)
  | 0, _ => none
  | _ + 1, [] => none
  | fuel + 1, '\\' :: c :: rest =>
    match escapes.lookup c, codeLengths.lookup c with
    | some n, _ => (doubleFrom fuel rest).map fun (t, left) => (Char.ofNat n :: t, left)
    | none, some length => do
      let escaped ← codePoint? (rest.take length) length
      let (t, left) ← doubleFrom fuel (rest.drop length)
      return (escaped :: t, left)
    | none, none =>
      if isBreak c then
        let (between, next) := quotedGap [] 1 rest
        (doubleFrom fuel next).map fun (t, left) => (between.drop 1 ++ t, left)
      else none
  | fuel + 1, c :: rest =>
    if c = '"' then some ([], rest)
    else if c = '\\' then none
    else if isSpace c then
      let (between, next) := quotedGap [] 0 (c :: rest)
      (doubleFrom fuel next).map fun (t, left) => (between ++ t, left)
    else (doubleFrom fuel rest).map fun (t, left) => (c :: t, left)

/-- A quoted scalar, if the text begins with one. -/
def quoted? : Text → Option (Text × Text)
  | '\'' :: rest => singleFrom (rest.length + 1) rest
  | '"' :: rest => doubleFrom (rest.length + 1) rest
  | _ => none

def isQuote (c : Char) : Bool :=
  c == '\'' || c == '"'

def scalar? (flow : Bool) (least : Nat) (t : Text) : Option (Tree × Text) :=
  if (t.take 1).any isQuote then (quoted? t).map fun (s, rest) => (.quoted s, rest)
  else if startsPlain flow t then
    let (s, rest) := plain flow least t
    some (.plain s, rest)
  else none

/-- What follows the colon behind a key of a flow collection, on the same line. -/
def flowColon? (t : Text) : Option Text :=
  match t.dropWhile (· == ' ') with
  | ':' :: rest => some rest
  | _ => none

def nothing : Tree := .plain []

mutual

def flow? : Nat → Text → Option (Tree × Text)
  | 0, _ => none
  | fuel + 1, t =>
    match t with
    | '[' :: rest => flowItems? fuel [] (settled rest).rest
    | '\x7b' :: rest => flowEntries? fuel [] (settled rest).rest
    | _ => scalar? true 0 t

def flowValue? (fuel : Nat) (close : Char) (t : Text) : Option (Tree × Text) :=
  match fuel with
  | 0 => none
  | fuel + 1 =>
    match (settled t).rest with
    | [] => none
    | c :: rest => if c = ',' ∨ c = close then some (nothing, c :: rest) else flow? fuel (c :: rest)

def flowItems? (fuel : Nat) (sofar : List Tree) (t : Text) : Option (Tree × Text) :=
  match fuel, t with
  | 0, _ => none
  | _ + 1, ']' :: rest => some (.list sofar.reverse, rest)
  | fuel + 1, t => do
    let (item, left) ← flow? fuel t
    let (item, left) ←
      match flowColon? left with
      | none => some (item, left)
      | some rest => do
        let (value, left) ← flowValue? fuel ']' rest
        some (.mapping [(item, value)], left)
    match (settled left).rest with
    | ',' :: rest => flowItems? fuel (item :: sofar) (settled rest).rest
    | ']' :: rest => some (.list (item :: sofar).reverse, rest)
    | _ => none

def flowEntries? (fuel : Nat) (sofar : List (Tree × Tree)) (t : Text) : Option (Tree × Text) :=
  match fuel, t with
  | 0, _ => none
  | _ + 1, '\x7d' :: rest => some (.mapping sofar.reverse, rest)
  | fuel + 1, t => do
    let (key, left) ← flow? fuel t
    let (value, left) ←
      match flowColon? left with
      | none => some (nothing, left)
      | some rest => flowValue? fuel '\x7d' rest
    match (settled left).rest with
    | ',' :: rest => flowEntries? fuel ((key, value) :: sofar) (settled rest).rest
    | '\x7d' :: rest => some (.mapping ((key, value) :: sofar).reverse, rest)
    | _ => none

end

/-- A flow collection or a scalar; a plain one goes on from the least column. -/
def inline? (fuel least : Nat) (t : Text) : Option (Tree × Text) :=
  match t with
  | '[' :: _ | '\x7b' :: _ => flow? fuel t
  | _ => scalar? false least t

/-- A key on one line, with what follows its colon. -/
def key? (t : Text) : Option (Tree × Text) := do
  let line := t.takeWhile (!isBreak ·)
  let (key, rest) ← inline? (line.length + 1) 0 line
  let rest ← flowColon? rest
  if endsToken rest then some (key, rest ++ t.dropWhile (!isBreak ·)) else none

/-- What follows the dash of a list item. -/
def dash? : Text → Option Text
  | '-' :: rest => if endsToken rest then some rest else none
  | _ => none

mutual

/-- A node in block style, at a column that is fit for keys and dashes. -/
def block? (fuel least column : Nat) (t : Text) : Option (Tree × Text) :=
  match fuel with
  | 0 => none
  | fuel + 1 =>
    if (dash? t).isSome then blockItems? fuel column [] t
    else if (key? t).isSome then blockEntries? fuel column [] t
    else inline? fuel least t

def blockItems? (fuel column : Nat) (sofar : List Tree) (t : Text) : Option (Tree × Text) :=
  match fuel with
  | 0 => none
  | fuel + 1 => do
    let rest ← dash? t
    let next := settle (column + 1) false false rest
    let (item, left) ←
      if next.rest = [] ∨ (next.fresh ∧ next.column ≤ column) then some (nothing, rest)
      else block? fuel (column + 1) next.column next.rest
    let after ← lineDone? left
    if after.rest = [] ∨ after.column < column then some (.list (item :: sofar).reverse, left)
    else if after.column = column then
      if (dash? after.rest).isSome then blockItems? fuel column (item :: sofar) after.rest
      else some (.list (item :: sofar).reverse, left)
    else none

def blockEntries? (fuel column : Nat) (sofar : List (Tree × Tree)) (t : Text) :
    Option (Tree × Text) :=
  match fuel with
  | 0 => none
  | fuel + 1 => do
    let (key, rest) ← key? t
    let next := settled rest
    let (value, left) ←
      if next.rest = [] then some (nothing, rest)
      else if !next.fresh then inline? fuel (column + 1) next.rest
      else if column < next.column then block? fuel (column + 1) next.column next.rest
      else if column = next.column ∧ (dash? next.rest).isSome then
        blockItems? fuel column [] next.rest
      else some (nothing, rest)
    let after ← lineDone? left
    if after.rest = [] ∨ after.column < column then
      some (.mapping ((key, value) :: sofar).reverse, left)
    else if after.column = column then blockEntries? fuel column ((key, value) :: sofar) after.rest
    else none

end

def isMarker (mark : Text) (line : Text) : Bool :=
  match after? mark line with
  | some rest => endsToken rest
  | none => false

def startMark : Text := ['-', '-', '-']
def endMark : Text := ['.', '.', '.']

/-- A line with nothing but spaces or a comment. -/
def isIdle (line : Text) : Bool :=
  (settled line).rest = []

def isNameChar (c : Char) : Bool :=
  c.isAlphanum || c == '-' || c == '_'

/-- A version number whose major part is one. -/
def isFirstVersion (t : Text) : Bool :=
  match t.dropWhile Char.isDigit with
  | '.' :: rest =>
    let left := rest.dropWhile Char.isDigit
    Scalar.number 10 (t.takeWhile Char.isDigit) = 1 && Scalar.startsWithDigit rest &&
      endsToken left && isIdle left
  | _ => false

/-- A directive has a name, and one that states a version states the first. -/
def isDirective : Text → Bool
  | '%' :: line =>
    let name := line.takeWhile isNameChar
    let value := line.dropWhile isNameChar
    name ≠ [] && endsToken value &&
      (name ≠ "YAML".toList || isFirstVersion (value.dropWhile (· == ' ')))
  | _ => false

/-- The lines of the one document and whether it begins behind a marker: directives need the
marker, and nothing may follow an end. -/
def body? (lines : List Text) : Option (List Text × Bool) :=
  let content := lines.dropWhile isIdle
  let beyond := content.dropWhile fun line => isDirective line || isIdle line
  let marked :=
    match beyond with
    | line :: rest => if isMarker startMark line then some (line.drop 3 :: rest) else none
    | [] => none
  let isMark (line : Text) : Bool := isMarker startMark line || isMarker endMark line
  let whole (lines : List Text) : Bool :=
    match lines.dropWhile (!isMark ·) with
    | [] => true
    | line :: rest => isMarker endMark line && isIdle (line.drop 3) && rest.all isIdle
  match marked with
  | some document =>
    if whole (document.drop 1) then some (document.take 1 ++ (document.drop 1).takeWhile (!isMark ·), true)
    else none
  | none =>
    if beyond.length = content.length ∧ whole content then some (content.takeWhile (!isMark ·), false)
    else none

end Syntax

open Syntax in
/-- The tree of the one document in a text. -/
def Tree.read? (t : Text) : Option Tree := do
  guard (t.all isAllowed)
  let t := (after? ['\uFEFF'] t).getD t
  let (lines, marked) ← body? (t.splitOn '\n')
  let position := settle 0 (!marked) false (joinLines lines)
  if position.rest = [] then return nothing
  let fuel := 2 * t.length + 2
  let (tree, left) ←
    if position.fresh then block? fuel 0 position.column position.rest
    else inline? fuel 0 position.rest
  let after ← lineDone? left
  if after.rest = [] then some tree else none

/-- The value of the one document in a text. -/
def Value.read (t : Text) : Except Fault Value :=
  match Tree.read? t with
  | some tree => ofTree tree
  | none => .error .malformedConfig

end Scaffold.Yaml
