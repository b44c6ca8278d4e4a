import Scaffold.Noted

/-! The notes of a run as the lines of its log. -/

namespace Scaffold

namespace Action

def label : Action → Text
  | created => "Created".toList
  | updated => "Updated".toList

end Action

namespace Note

def line : Note → Text
  | projectStub path =>
    "DEBUG eloquent_composition.stubs.loader: Using project stub ".toList ++ path.text
  | composingCollection name =>
    "DEBUG eloquent_composition.engine: Composing collection ".toList ++ name
  | composingQueryBuilder name =>
    "DEBUG eloquent_composition.engine: Composing query builder ".toList ++ name
  | withheld path =>
    "INFO eloquent_composition.generator: [dry run] would write ".toList ++ path.text
  | written action path =>
    "INFO eloquent_composition.generator: ".toList ++ action.label ++ ' ' :: path.text

end Note
end Scaffold
