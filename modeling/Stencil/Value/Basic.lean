import Stencil.Decimal.Reading
import Stencil.Number

/-!
# Stencil — template values

What a name can be bound to. Scalars are substituted, lists are gone through by loops, and records
have named fields. The fields of a record stand in strictly increasing order of their names, by
construction: `Fields low` is a run of fields whose names are all above `low`. So a record is the
same whatever order its fields were written in, and a name is there once at most.

* `Fields.insert` — adds a field or replaces its value.
* `Fields.get?`   — the value of a field.
* `Value.same`    — equality up to the sign of a float zero.
-/

namespace Stencil

mutual

/-- A value of a template. -/
inductive Value where
  | null
  | bool (b : Bool)
  | number (n : Number)
  | string (s : String)
  | list (items : List Value)
  | record (fields : Fields none)

/-- Fields in strictly increasing order of their names, all of them above `low`. -/
inductive Fields : Option String → Type where
  | nil {low : Option String} : Fields low
  | cons {low : Option String} (name : String) (above : ∀ l ∈ low, l < name) (value : Value)
      (rest : Fields (some name)) : Fields low

end

/-- Named fields of a structured item. -/
abbrev Record := Fields none

/-- The kinds of value. -/
inductive ValueKind where
  | null | bool | number | string | list | record
  deriving DecidableEq, Repr

/-- The name of a kind. -/
def ValueKind.name : ValueKind → String
  | null   => "null"
  | bool   => "bool"
  | number => "number"
  | string => "string"
  | list   => "list"
  | record => "record"

/-- Of two different names, one comes first. -/
theorem lt_of_not_lt_of_ne {a b : String} (h : ¬ a < b) (hne : a ≠ b) : b < a := by
  rcases Decidable.em (b < a) with hlt | hlt
  · exact hlt
  · exact absurd (String.le_antisymm (String.not_lt.mp hlt) (String.not_lt.mp h)) hne

namespace Fields

variable {low : Option String}

instance : Inhabited (Fields low) := ⟨nil⟩

/-- The fields in order, as pairs of name and value. -/
def toList {low : Option String} : Fields low → List (String × Value)
  | nil => []
  | cons name _ value rest => (name, value) :: rest.toList

/-- How many fields there are. -/
def size (fields : Fields low) : Nat := fields.toList.length

/-- The names in order. -/
def names (fields : Fields low) : List String := fields.toList.map Prod.fst

/-- Whether there are no fields. -/
def isEmpty (fields : Fields low) : Bool := fields.toList.isEmpty

/-- The value of the field with the given name. -/
def get? {low : Option String} (fields : Fields low) (name : String) : Option Value :=
  match fields with
  | nil => none
  | cons n _ value rest => if name = n then some value else rest.get? name

/-- The fields with one more, or with a new value for one of them. -/
def insert {low : Option String} (fields : Fields low) (name : String) (value : Value)
    (above : ∀ l ∈ low, l < name) : Fields low :=
  match fields with
  | nil => cons name above value nil
  | cons n h v rest =>
    if lt : name < n then
      cons name above value (cons n (by rintro _ ⟨⟩; exact lt) v rest)
    else if eq : name = n then cons n h value rest
    else
      cons n h v (rest.insert name value (by rintro _ ⟨⟩; exact lt_of_not_lt_of_ne lt eq))

end Fields

namespace Record

/-- A record without fields. -/
def empty : Record := Fields.nil

/-- The record with one more field, or with a new value for one of its fields. -/
def insert (r : Record) (name : String) (value : Value) : Record :=
  Fields.insert r name value (by simp)

/-- The record of the given fields; of two with one name, the later counts. -/
def ofList (fields : List (String × Value)) : Record :=
  fields.foldl (fun r field => r.insert field.1 field.2) empty

end Record

namespace Value

instance : Inhabited Value := ⟨null⟩

/-- The kind of a value. -/
def kind : Value → ValueKind
  | null     => .null
  | bool _   => .bool
  | number _ => .number
  | string _ => .string
  | list _   => .list
  | record _ => .record

/-- Whether the value is null. -/
def isNull : Value → Bool
  | null => true
  | _    => false

/-- The text of a string. -/
def text? : Value → Option String
  | string s => some s
  | _        => none

/-- The items of a list. -/
def items? : Value → Option (List Value)
  | list items => some items
  | _          => none

/-- The fields of a record. -/
def record? : Value → Option Record
  | record fields => some fields
  | _             => none

/-- Whether the value is a list. -/
def isList : Value → Bool
  | list _ => true
  | _      => false

/-- The value of a field; only records have fields. -/
def field? (v : Value) (name : String) : Option Value :=
  match v with
  | record fields => fields.get? name
  | _             => none

/-- An integer value. -/
def ofInt (n : Int) : Value := number (.integer n)

/-- A float value. Infinities and the value that is no number are null. -/
def ofFloat : Extended → Value
  | .finite x => number (.float x)
  | _         => null

/-- An optional value, null when it is missing. -/
def ofOption : Option Value → Value
  | some v => v
  | none   => null

end Value

/-- The fields whose values are lists, in order of their names. -/
def Fields.listFields {low : Option String} (fields : Fields low) : List (String × Value) :=
  fields.toList.filter fun field => field.2.isList

mutual

/-- Equality of values: the zeros of both signs are equal, an integer and a float never are. -/
def Value.same : Value → Value → Bool
  | .null, .null => true
  | .bool a, .bool b => a == b
  | .number a, .number b => a.same b
  | .string a, .string b => a == b
  | .list as, .list bs => Value.sameItems as bs
  | .record as, .record bs => as.same bs
  | _, _ => false
termination_by structural v => v

/-- Equality of lists, item by item. -/
def Value.sameItems : List Value → List Value → Bool
  | [], [] => true
  | a :: as, b :: bs => a.same b && Value.sameItems as bs
  | _, _ => false
termination_by structural vs => vs

/-- Equality of fields, name by name. -/
def Fields.same {low low' : Option String} : Fields low → Fields low' → Bool
  | .nil, .nil => true
  | .cons a _ v rest, .cons b _ w rest' => a == b && v.same w && rest.same rest'
  | _, _ => false
termination_by structural fields => fields

end

end Stencil
