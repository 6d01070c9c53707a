import Stencil.Text.Split
import Stencil.Value.Json

/-!
# Stencil — contexts

A context is what names mean while a template is rendered: a layer of bindings over other contexts.
A name is looked for in the layer itself, then in each context below it, in order and to the bottom.
Contexts are never changed; a loop puts a layer over the context it stands in, and the layer is gone
with the loop.

A path takes its first name from the context and every further name from the record reached so far.
Once the first name is found nothing else is tried.
-/

namespace Stencil

open Text

/-- A layer of bindings and the contexts below it. -/
inductive Context where
  | layer (bindings : Record) (below : List Context)

namespace Context

/-- A context that binds nothing. -/
def empty : Context := layer .empty []

instance : Inhabited Context := ⟨empty⟩

/-- A context of the given bindings; of two for one name, the later counts. -/
def ofBindings (bindings : List (String × Value)) : Context :=
  layer (Record.ofList bindings) []

/-- The members of an object as bindings. Any other document binds nothing. -/
def ofJson (j : Json) : Context :=
  match Value.ofJson j with
  | .record fields => layer fields []
  | _ => empty

/-- A context without bindings of its own over others. -/
def layered (below : List Context) : Context :=
  layer .empty below

/-- `c` with a layer of bindings over it. -/
def withBindings (c : Context) (bindings : List (String × Value)) : Context :=
  layer (Record.ofList bindings) [c]

/-- `c` with one binding over it. -/
def withBinding (c : Context) (name : String) (value : Value) : Context :=
  c.withBindings [(name, value)]

/-- `c`, and after it the contexts of `more`. -/
def withParents (c : Context) (more : List Context) : Context :=
  layered (c :: more)

mutual

/-- The value bound to a name. -/
def resolve? (name : String) : Context → Option Value
  | layer bindings below =>
    match bindings.get? name with
    | some v => some v
    | none => resolveFirst? name below
termination_by structural c => c

/-- The value bound to a name in the first of several contexts that binds it. -/
def resolveFirst? (name : String) : List Context → Option Value
  | [] => none
  | c :: cs =>
    match resolve? name c with
    | some v => some v
    | none => resolveFirst? name cs
termination_by structural cs => cs

end

/-- The value at a dotted path. -/
def lookup? (c : Context) (path : String) : Option Value :=
  let (first, others) := segments (· == '.') path.toList
  (c.resolve? (String.ofList first)).bind fun root =>
    others.foldlM (fun v name => v.field? (String.ofList name)) root

/-- Whether there is a value at a path, null included. -/
def isAccessible (c : Context) (path : String) : Bool := (c.lookup? path).isSome

/-- Whether a name is bound. -/
def contains (c : Context) (name : String) : Bool := (c.resolve? name).isSome

/-- `c` as the body of a loop sees it for one item: the item under its name, and before it every
list field of a record item under the name of the field. The item wins over a field of its name. -/
def forItem (c : Context) (name : String) (item : Value) : Context :=
  let lists := match item with
    | .record fields => fields.listFields
    | _ => []
  -- the later of two bindings counts, so the item comes last
  c.withBindings (lists ++ [(name, item)])

end Context

end Stencil
