import Stencil.Settings.Yaml.Document
import Stencil.Settings.Yaml.Layout

/-!
# Stencil — YAML settings

The settings in a YAML text: its layout gives the tokens, the tokens the documents, and the one
document that there may be has to be a table.

* `Yaml.read?` — the table of the one document in a text. No document at all is an empty table.
-/

namespace Stencil.Yaml

/-- The table of the one document in a text. -/
def read? (text : String) : Option Settings := do
  match ← Source.documents? (← Layout.tokens? text) with
  | [] => return []
  | [node] => (← node.datum?).entries?
  | _ => none

end Stencil.Yaml
