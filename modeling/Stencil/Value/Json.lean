import Stencil.Json.Writer
import Stencil.Value.Basic

/-!
# Stencil — values and JSON

Documents become values and values become documents. Objects become records, where of two members
with one name the later counts; nothing else is lost. A value that is substituted into output shows
its text, except that lists and records show as compact JSON.

* `Value.ofJson`, `Value.toJson` — the two directions.
* `Value.render`                 — the text of a value in output.
-/

namespace Stencil

mutual

/-- The value of a document. -/
def Value.ofJson : Json → Value
  | .null => .null
  | .bool b => .bool b
  | .number n => .number n
  | .string s => .string s
  | .array items => .list (Value.ofItems items)
  | .object members => .record (Record.ofMembers .empty members)
termination_by structural j => j

/-- The values of the items of an array. -/
def Value.ofItems : List Json → List Value
  | [] => []
  | j :: js => Value.ofJson j :: Value.ofItems js
termination_by structural js => js

/-- `r` with the members of an object written over it, in their order. -/
def Record.ofMembers (r : Record) : List (String × Json) → Record
  | [] => r
  | (name, j) :: ms => Record.ofMembers (r.insert name (Value.ofJson j)) ms
termination_by structural ms => ms

end

mutual

/-- The document of a value. -/
def Value.toJson : Value → Json
  | .null => .null
  | .bool b => .bool b
  | .number n => .number n
  | .string s => .string s
  | .list items => .array (Value.toItems items)
  | .record fields => .object fields.toMembers
termination_by structural v => v

/-- The documents of the items of a list. -/
def Value.toItems : List Value → List Json
  | [] => []
  | v :: vs => v.toJson :: Value.toItems vs
termination_by structural vs => vs

/-- The members of an object, in the order of the fields. -/
def Fields.toMembers {low : Option String} : Fields low → List (String × Json)
  | .nil => []
  | .cons name _ value rest => (name, value.toJson) :: rest.toMembers
termination_by structural fields => fields

end

/-- The text of a value in output: nothing for null, the text of a scalar, and compact JSON for a
list or a record. -/
def Value.render : Value → String
  | .null => ""
  | .bool b => if b then "true" else "false"
  | .number n => n.text
  | .string s => s
  | .list items => (Value.list items).toJson.compact
  | .record fields => (Value.record fields).toJson.compact

end Stencil
