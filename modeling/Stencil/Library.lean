import Stencil.Error

/-!
# Stencil — libraries

A library keeps templates in memory under their names. Any name will do; whether a name may be asked
for is not for the library to decide.
-/

namespace Stencil

/-- Templates by name, each name once. -/
structure Library where
  templates : List (String × String) := []
  deriving DecidableEq, Repr, Inhabited

namespace Library

/-- The text of the template with the given name. -/
def get? (l : Library) (name : String) : Option String :=
  l.templates.lookup name

/-- Whether there is a template with the given name. -/
def contains (l : Library) (name : String) : Bool := (l.get? name).isSome

/-- The library with one more template, or with a new text for one of them. -/
def insert (l : Library) (name text : String) : Library where
  templates :=
    if l.contains name then
      l.templates.map fun entry => if entry.1 == name then (name, text) else entry
    else l.templates ++ [(name, text)]

/-- The library of the given templates; of two with one name, the later counts. -/
def ofList (templates : List (String × String)) : Library :=
  templates.foldl (fun l entry => l.insert entry.1 entry.2) {}

/-- How many templates there are. -/
def size (l : Library) : Nat := l.templates.length

/-- The library as a source: a template that is not there is not found. -/
def content (l : Library) (name : String) : Except Error String :=
  match l.get? name with
  | some text => .ok text
  | none => .error (.notFound name)

end Library

end Stencil
