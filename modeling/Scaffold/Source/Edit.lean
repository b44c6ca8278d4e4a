import Scaffold.Source.DocBlock
import Scaffold.Source.Import
import Scaffold.Source.Insertion

/-! The edits made to a class source: new imports below its namespace line, entries merged into
its doc block, and a block put in front of its last closing brace. -/

namespace Scaffold.Source
open Text

def namespaceWord : Text := "namespace".toList

def addImports (names : List Text) (t : Text) : Except Fault Text :=
  if !occurs namespaceWord t then .error .noNamespace
  else
    match missingImports t names with
    | [] => .ok t
    | missing => insert (.literal namespaceWord) (missing.map Import.statement) .after t

/-- Above the class declaration line or, without one, above the first line with the word. -/
def insertBeforeClass (blocks : List Text) (t : Text) : Except Fault Text :=
  match insert (.pattern .classDeclaration) blocks .before t with
  | .ok edited => .ok edited
  | .error _ => insert (.literal keyword) blocks .before t

def mergedEntries (block : Text) (entries : List Text) : List Text :=
  (DocBlock.entries block ++ entries).eraseDups

/-- The class doc block with further entries. -/
def extendedBlock (entries : List Text) (t : Text) : Except Fault Text :=
  match DocBlock.find? t with
  | some cut => .ok (DocBlock.render (mergedEntries cut.block entries))
  | none => .error .noDocBlock

def annotate (entries : List Text) (t : Text) : Except Fault Text :=
  match DocBlock.find? t with
  | some cut => .ok (cut.before ++ DocBlock.render (mergedEntries cut.block entries) ++ cut.after)
  | none => insertBeforeClass [DocBlock.render entries.eraseDups] t

def appendToBody (block t : Text) : Except Fault Text :=
  match cutLast? '\x7d' t with
  | some (head, tail) => .ok (head ++ block ++ tail ++ ['\x7d', '\n'])
  | none => .error .noClosingBrace

end Scaffold.Source
