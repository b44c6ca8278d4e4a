import Scaffold.Config
import Scaffold.Yaml.Syntax

/-! Configurations written as documents with a block mapping or a flow collection in them. -/

namespace Scaffold.Yaml

def Value.setting? (entries : List (Scalar × Value)) (key : Text) : Option Text :=
  match entries.lookup (.text key) with
  | none | some (.scalar .null) => none
  | some value => some value.shown

def Value.document : Value → Config.Document
  | .scalar .null => .nothing
  | .mapping entries => .mapping fun key => .ok (setting? entries key)
  | _ => .other

/-- Anchors, aliases, tags and block scalars are beyond this reader, which refuses them. -/
def document : Config.Reader := fun t =>
  (Value.read t).map Value.document

end Scaffold.Yaml
