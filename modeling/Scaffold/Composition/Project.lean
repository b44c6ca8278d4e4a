import Scaffold.Composition.Recipe
import Scaffold.Content
import Scaffold.Layout
import Scaffold.Noted
import Scaffold.Stub.Builtin

/-! Composing and building classes within a project. A project's own stubs come before the
built-in ones, and every name that goes into a source is qualified first. -/

namespace Scaffold
open Text Naming Source Recipe

structure Project where
  layout : Layout
  /-- The namespace segments that have a directory. -/
  occupied : Text → Bool
  /-- The project's own stubs, by name. -/
  stubFile : Text → Option Content

namespace Project

def qualifier (p : Project) : Qualifier :=
  p.layout.qualifier p.occupied

def stub (p : Project) (name : Text) : Noted Text :=
  match p.stubFile name with
  | some content => do
    Noted.note (.projectStub (p.layout.stubPath name))
    content.decodeLines
  | none =>
    match Stub.builtin? name with
    | some t => pure t
    | none => Noted.raise (.missingFile (p.layout.stubPath name).text "Stub".toList)

def rendered (p : Project) (stub name : Text) : Noted Text := do
  return Stub.fillAll name p.layout.root (← p.stub stub)

def isLineEnd (c : Char) : Bool :=
  c == '\r' || c == '\n'

/-- A composition stub filled in for a class, below a blank line. -/
def compositionBlock (p : Project) (stub name : Text) : Noted Text := do
  return '\n' :: trim isLineEnd (Stub.fillClass name (← p.stub stub))

def composeCollection (p : Project) (collection : Text) (model : Option Text) (t : Text) :
    Noted Text := do
  let name ← p.qualifier.qualify .collection collection
  Noted.note (.composingCollection name)
  let block ← p.compositionBlock Stub.collectionCompositionName name
  inject [name] block (some collectionMarker) (subjectOf model) t

def composeQueryBuilder (p : Project) (queryBuilder : Text) (model : Option Text) (t : Text) :
    Noted Text := do
  let name ← p.qualifier.qualify .queryBuilder queryBuilder
  Noted.note (.composingQueryBuilder name)
  let block ← p.compositionBlock Stub.queryBuilderCompositionName name
  let composed ← inject [name] block (some queryBuilderMarker) (subjectOf model) t
  annotate (modelEntries name) composed

def buildModel (p : Project) (name : Text) : Noted Text := do
  p.rendered Stub.modelName (← p.qualifier.qualify .model name)

def buildCollection (p : Project) (name : Text) (model : Option Text) : Noted Text := do
  let t ← p.rendered Stub.collectionName (← p.qualifier.qualify .collection name)
  match given model with
  | none => return t
  | some model =>
    let qualified ← p.qualifier.qualify .model model
    let t ← addImports [qualified] t
    insertBeforeClass [DocBlock.render (collectionEntries qualified)] t

/-- The classes that a query builder refers to. -/
def referred (p : Project) (model : Text) (collection : Option Text) :
    Except Fault (List Text) := do
  let model ← p.qualifier.qualify .model model
  match given collection with
  | none => return [model]
  | some collection => return [model, ← p.qualifier.qualify .collection collection]

def buildQueryBuilder (p : Project) (name : Text) (model collection : Option Text) :
    Noted Text := do
  let t ← p.rendered Stub.queryBuilderName (← p.qualifier.qualify .queryBuilder name)
  match given model with
  | none => return t
  | some model =>
    let t ← addImports (← p.referred model collection) t
    insertBeforeClass [DocBlock.render (queryBuilderEntries model collection)] t

end Project
end Scaffold
