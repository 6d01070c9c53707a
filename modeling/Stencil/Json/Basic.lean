import Stencil.Number

/-!
# Stencil — JSON documents

A document as it is written: the members of an object keep their order, and a name may come twice.
Values of templates are made from documents and turned into documents (`Value/Json.lean`).
-/

namespace Stencil

/-- A JSON document. -/
inductive Json where
  | null
  | bool (b : Bool)
  | number (n : Number)
  | string (s : String)
  | array (items : List Json)
  | object (members : List (String × Json))

namespace Json

instance : Inhabited Json := ⟨null⟩

/-- The member of an object with the given name; the last one counts. -/
def member? (j : Json) (name : String) : Option Json :=
  match j with
  | object members => (members.reverse.find? fun member => member.1 == name).map Prod.snd
  | _ => none

end Json

end Stencil
