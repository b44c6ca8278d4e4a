import Scaffold.Naming.ClassName
import Scaffold.Source.Edit

/-! The generic recipes on a class source. A composition adds imports and a block to the class
body, and refuses a source that carries the marker of an earlier one. -/

namespace Scaffold.Recipe
open Text Naming Source

def collectionMarker : Text := "function newCollection".toList
def queryBuilderMarker : Text := "function newEloquentBuilder".toList

def isComposed (marker t : Text) : Bool :=
  occurs marker t

def ensureNotComposed (marker : Text) (subject : Option Text) (t : Text) : Except Fault Unit :=
  if isComposed marker t then .error (.alreadyComposed marker subject) else .ok ()

/-- An empty marker checks nothing. -/
def inject (imports : List Text) (block : Text) (marker : Option Text) (subject : Option Text)
    (t : Text) : Except Fault Text := do
  match marker with
  | some (c :: rest) => ensureNotComposed (c :: rest) subject t
  | _ => pure ()
  appendToBody block (← addImports imports t)

/-- A name that was given and is not empty. -/
def given (name : Option Text) : Option Text :=
  name.filter (· ≠ [])

def firstEntry (model : Text) : Text :=
  "@method null|".toList ++ basename model ++ " first()".toList

def getEntry (collection : Text) : Text :=
  "@method ".toList ++ basename collection ++ " get()".toList

def queryEntry (queryBuilder : Text) : Text :=
  "@method static ".toList ++ basename queryBuilder ++ " query()".toList

def collectionEntries (model : Text) : List Text :=
  [firstEntry model]

def queryBuilderEntries (model : Text) (collection : Option Text) : List Text :=
  firstEntry model :: (given collection).toList.map getEntry

def modelEntries (queryBuilder : Text) : List Text :=
  [queryEntry queryBuilder]

def subjectOf (model : Option Text) : Option Text :=
  (given model).map ("Model ".toList ++ ·)

end Scaffold.Recipe
