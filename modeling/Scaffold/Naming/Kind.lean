import Scaffold.Fault

/-! The kinds of classes and the namespace segment that is customary for each. -/

namespace Scaffold

inductive Kind where
  | model
  | collection
  | queryBuilder
  deriving DecidableEq, Repr

namespace Kind

def label : Kind → Text
  | model => "model".toList
  | collection => "collection".toList
  | queryBuilder => "query-builder".toList

def segment : Kind → Text
  | model => "Models".toList
  | collection => "Collections".toList
  | queryBuilder => "QueryBuilders".toList

def all : List Kind := [model, collection, queryBuilder]

def ofLabel? (given : Text) : Option Kind :=
  all.find? (·.label == given)

def ofLabel (given : Text) : Except Fault Kind :=
  match ofLabel? given with
  | some kind => .ok kind
  | none => .error (.unknownKind given)

@[simp] theorem ofLabel_label (kind : Kind) : ofLabel kind.label = .ok kind := by
  cases kind <;> rfl

end Kind
end Scaffold
