import Scaffold.Naming.ClassName

/-! Placeholders of a stub. Each slot has three spellings, and the slots are filled one
spelling after the other. -/

namespace Scaffold.Stub
open Text Naming

inductive Slot where
  | space
  | rootSpace
  | className
  deriving DecidableEq, Repr

def braced (word : Text) : Text :=
  ['\x7b', '\x7b'] ++ word ++ ['\x7d', '\x7d']

namespace Slot

def word : Slot → Text
  | space => "namespace".toList
  | rootSpace => "rootNamespace".toList
  | className => "class".toList

def dummy : Slot → Text
  | space => "DummyNamespace".toList
  | rootSpace => "DummyRootNamespace".toList
  | className => "DummyClass".toList

def spellings (slot : Slot) : List Text :=
  [slot.dummy, braced (' ' :: slot.word ++ [' ']), braced slot.word]

def fill (slot : Slot) (value stub : Text) : Text :=
  slot.spellings.foldl (fun t spelling => replaceAll spelling value t) stub

end Slot

def fillNamespaces (name root stub : Text) : Text :=
  Slot.rootSpace.fill root (Slot.space.fill (namespaceOf name) stub)

def fillClass (name stub : Text) : Text :=
  Slot.className.fill (lastSegment name) stub

/-- The stub of a class of the given qualified name. -/
def fillAll (name root stub : Text) : Text :=
  fillClass name (fillNamespaces name root stub)

end Scaffold.Stub
