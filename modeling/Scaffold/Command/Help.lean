import Scaffold.Text.Basic

/-! What the program says about its own use. -/

namespace Scaffold.Command

def helpText : Text := "\n".toList.intercalate <| List.map String.toList
  ["Generate Eloquent models with composed collections and query builders.",
   "",
   "usage: eloquent-compose [--base-path DIR] [--config FILE] [-v] COMMAND",
   "",
   "  make:model NAME [--without-composition] [--force] [--dry-run]",
   "  make:collection NAME [-m MODEL] [--force] [--dry-run]",
   "  make:query-builder NAME [-m MODEL] [-c COLLECTION] [--force] [--dry-run]",
   "  resolve NAME [--kind collection|model|query-builder]",
   ""]

end Scaffold.Command
