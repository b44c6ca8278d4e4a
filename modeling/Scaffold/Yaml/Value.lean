import Scaffold.Yaml.Scalar

/-! Values of a configuration document, and how a document's syntax determines them. The keys
of a mapping are scalars; a repeated key keeps its last value. -/

namespace Scaffold.Yaml
open Text

/-- The syntax of a document. -/
inductive Tree where
  | plain (t : Text)
  | quoted (t : Text)
  | list (items : List Tree)
  | mapping (entries : List (Tree × Tree))

inductive Value where
  | scalar (s : Scalar)
  | list (items : List Value)
  | mapping (entries : List (Scalar × Value))

namespace Value

def put (key : Scalar) (value : Value) : List (Scalar × Value) → List (Scalar × Value)
  | [] => [(key, value)]
  | (other, kept) :: rest =>
    if other = key then (other, value) :: rest else (other, kept) :: put key value rest

def asKey : Value → Except Fault Scalar
  | scalar s => .ok s
  | _ => .error .malformedConfig

mutual

def ofTree : Tree → Except Fault Value
  | .plain t => (Scalar.ofPlain t).map scalar
  | .quoted t => .ok (.scalar (.text t))
  | .list items => (ofItems items).map list
  | .mapping entries => (ofEntries [] entries).map mapping

def ofItems : List Tree → Except Fault (List Value)
  | [] => .ok []
  | item :: rest => do
    let value ← ofTree item
    return value :: (← ofItems rest)

def ofEntries (sofar : List (Scalar × Value)) :
    List (Tree × Tree) → Except Fault (List (Scalar × Value))
  | [] => .ok sofar
  | (key, value) :: rest => do
    let key ← asKey (← ofTree key)
    ofEntries (put key (← ofTree value) sofar) rest

end

mutual

/-- The text of a value within a list or a mapping. -/
def shownInside : Value → Text
  | scalar s => s.shownInside
  | list items => '[' :: ", ".toList.intercalate (shownItems items) ++ [']']
  | mapping entries => '\x7b' :: ", ".toList.intercalate (shownEntries entries) ++ ['\x7d']

def shownItems : List Value → List Text
  | [] => []
  | item :: rest => shownInside item :: shownItems rest

def shownEntries : List (Scalar × Value) → List Text
  | [] => []
  | (key, value) :: rest =>
    (key.shownInside ++ ": ".toList ++ shownInside value) :: shownEntries rest

end

def shown : Value → Text
  | scalar s => s.shown
  | value => value.shownInside

end Value
end Scaffold.Yaml
