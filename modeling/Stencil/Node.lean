import Stencil.Position

/-!
# Stencil — syntax trees

A parsed template is a list of nodes. There are four kinds and no others; each keeps the place of
its first token.
-/

namespace Stencil

/-- A parsed element of a template. -/
inductive Node where
  /-- Text that goes to the output as it is. -/
  | text (text : String) (position : Position)
  /-- A value to look up by its dotted path. -/
  | placeholder (path : String) (position : Position)
  /-- A body to repeat for each item of the list at `collection`. -/
  | loop (item collection : String) (body : List Node) (position : Position)
  /-- Another template to render in place. -/
  | inclusion (name : String) (position : Position)
  deriving Repr, Inhabited

/-- Where the node starts. -/
def Node.position : Node → Position
  | .text _ p => p
  | .placeholder _ p => p
  | .loop _ _ _ p => p
  | .inclusion _ p => p

end Stencil
