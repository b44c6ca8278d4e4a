import Scaffold.Composition.Project
import Scaffold.Disk.Basic

/-! What a request for new classes will write. Every check is made and every text composed
before anything is written; the model comes last, after the classes that it names. -/

namespace Scaffold
open Text Naming Recipe

structure Write where
  path : Path
  action : Action
  content : Text
  deriving DecidableEq, Repr

inductive Request where
  | model (name : Text) (plain : Bool)
  | collection (name : Text) (model : Option Text)
  | queryBuilder (name : Text) (model collection : Option Text)
  deriving DecidableEq, Repr

/-- A project on a disk; with `force`, existing classes are overwritten. -/
structure Site where
  layout : Layout
  disk : Disk
  force : Bool

namespace Site

def project (s : Site) : Project where
  layout := s.layout
  occupied segment := s.disk.isDirectory (s.layout.segmentPath segment)
  stubFile name := s.disk.file? (s.layout.stubPath name)

def qualifier (s : Site) : Qualifier :=
  s.project.qualifier

def actionFor (s : Site) (path : Path) : Except Fault Action :=
  if s.disk.holds path then
    if s.force then .ok .updated else .error (.classExists path.text)
  else .ok .created

/-- The file and the text of a model that is there and not composed yet. -/
def modelSource (s : Site) (model marker : Text) : Except Fault (Path × Text) := do
  let name ← s.qualifier.qualify .model model
  let path := s.layout.pathOf name
  let subject := "Model ".toList ++ name
  let t ← s.disk.readSource path subject
  ensureNotComposed marker (some subject) t
  return (path, t)

def newClass (s : Site) (name : Text) (built : Noted Text) : Noted Write := do
  let path := s.layout.pathOf name
  let action ← s.actionFor path
  return ⟨path, action, ← built⟩

/-- A collection is there when it has a file or is planned itself. -/
def ensureCollection (s : Site) (collection : Option Text) (planned : List Path) :
    Except Fault Unit := do
  match given collection with
  | none => return
  | some collection =>
    let name ← s.qualifier.qualify .collection collection
    let path := s.layout.pathOf name
    if s.disk.isFile path || planned.contains path then return
    else throw (.missingFile path.text ("Collection ".toList ++ name))

/-- A new collection and the update of the model that it is composed into. -/
def composedCollection (s : Site) (name model : Text) (source : Except Fault (Path × Text)) :
    Noted (Write × Write) := do
  let qualified ← s.qualifier.qualify .collection name
  let (path, t) ← source
  let composed ← s.project.composeCollection qualified (some model) t
  let fresh ← s.newClass qualified (s.project.buildCollection qualified (some model))
  return (fresh, ⟨path, .updated, composed⟩)

/-- A new query builder and the update of the model that it is composed into. -/
def composedQueryBuilder (s : Site) (name model : Text) (collection : Option Text)
    (planned : List Path) (source : Except Fault (Path × Text)) : Noted (Write × Write) := do
  let qualified ← s.qualifier.qualify .queryBuilder name
  s.ensureCollection collection planned
  let (path, t) ← source
  let composed ← s.project.composeQueryBuilder qualified (some model) t
  let fresh ← s.newClass qualified
    (s.project.buildQueryBuilder qualified (some model) collection)
  return (fresh, ⟨path, .updated, composed⟩)

def planCollection (s : Site) (name : Text) (model : Option Text) : Noted (List Write) := do
  match given model with
  | none =>
    let qualified ← s.qualifier.qualify .collection name
    return [← s.newClass qualified (s.project.buildCollection qualified none)]
  | some model =>
    let (fresh, update) ← s.composedCollection name model (s.modelSource model collectionMarker)
    return [fresh, update]

def planQueryBuilder (s : Site) (name : Text) (model collection : Option Text) :
    Noted (List Write) := do
  match given model with
  | none =>
    let qualified ← s.qualifier.qualify .queryBuilder name
    s.ensureCollection collection []
    return [← s.newClass qualified (s.project.buildQueryBuilder qualified none collection)]
  | some model =>
    let (fresh, update) ← s.composedQueryBuilder name model collection []
      (s.modelSource model queryBuilderMarker)
    return [fresh, update]

def collectionNameFor (base : Text) : Text := base ++ "Collection".toList
def queryBuilderNameFor (base : Text) : Text := base ++ "QueryBuilder".toList

/-- A model, and unless it is to be plain, its collection and query builder. -/
def planModel (s : Site) (name : Text) (plain : Bool) : Noted (List Write) := do
  let qualified ← s.qualifier.qualify .model name
  let model ← s.newClass qualified (s.project.buildModel qualified)
  if plain then return [model]
  let base := studly (basename name)
  let (collection, once) ←
    s.composedCollection (collectionNameFor base) qualified (.ok (model.path, model.content))
  let (queryBuilder, twice) ←
    s.composedQueryBuilder (queryBuilderNameFor base) qualified (some (collectionNameFor base))
      [collection.path] (.ok (model.path, once.content))
  return [collection, queryBuilder, { model with content := twice.content }]

def plan (s : Site) : Request → Noted (List Write)
  | .model name plain => s.planModel name plain
  | .collection name model => s.planCollection name model
  | .queryBuilder name model collection => s.planQueryBuilder name model collection

end Site
end Scaffold
