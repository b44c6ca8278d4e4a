import Scaffold.Path
import Scaffold.Text.Quoted

/-! Everything that can go wrong, by cause, and the one place that words it. Composition faults
concern the sources to be edited, value faults what was asked for; the rest comes from outside:
an unreadable configuration, undecodable bytes, a refusal of the file system. -/

namespace Scaffold

inductive Fault where
  | composition (reason : Text)
  | anchorNotFound (needle : Text)
  | malformedSource (reason : Text)
  | alreadyComposed (marker : Text) (subject : Option Text)
  | missingFile (path : Text) (what : Text)
  | classExists (path : Text)
  | invalidName (given : Text)
  | outsideRoot (space root : Text)
  | emptyRoot
  | notAMapping (path : Text)
  | badPlacement (given : Text)
  | unknownKind (given : Text)
  | badValue (reason : Text)
  | nullInName
  | noHome
  | malformedConfig
  | undecodable
  | system
  deriving DecidableEq, Repr

namespace Fault

def noNamespace : Fault :=
  .malformedSource "Source has no namespace declaration".toList

def noClosingBrace : Fault :=
  .malformedSource "Source has no closing brace".toList

def noDocBlock : Fault :=
  .malformedSource "Class has no annotation block to extend".toList

/-- A fault of the sources to be edited. -/
def isComposition : Fault → Bool
  | composition _ | anchorNotFound _ | malformedSource _ | alreadyComposed .. | missingFile ..
  | classExists _ => true
  | _ => false

/-- Reported as an error line rather than passed on. -/
def isReported : Fault → Bool
  | unknownKind _ | noHome | system => false
  | _ => true

def message : Fault → Text
  | composition reason => reason
  | anchorNotFound needle => "Anchor not found: ".toList ++ needle.quoted
  | malformedSource reason => reason
  | alreadyComposed marker (some (c :: subject)) =>
    c :: subject ++ " already has composition (".toList ++ marker.quoted ++ " found)".toList
  | alreadyComposed marker _ => "Already composed: ".toList ++ marker.quoted ++ " found".toList
  | missingFile path what => what ++ " not found: ".toList ++ path
  | classExists path => "Class already exists: ".toList ++ path
  | invalidName given => "Invalid class name: ".toList ++ given.quoted
  | outsideRoot space root =>
    "Namespace ".toList ++ space.quoted ++ " is not under root namespace ".toList ++ root.quoted
  | emptyRoot => "root_namespace must not be empty".toList
  | notAMapping path => path ++ " is not a YAML mapping".toList
  | badPlacement given => given.quoted ++ " is not a valid Placement".toList
  | unknownKind given => given.quoted
  | badValue reason => reason
  | nullInName => "embedded null byte".toList
  | noHome => "Could not determine home directory.".toList
  | malformedConfig => "<YAMLError>".toList
  | undecodable => "<UnicodeDecodeError>".toList
  | system => []

end Fault
end Scaffold
