import Stencil.Error
import Stencil.Value.Basic

/-!
# Stencil — values from other data

Not all data is a document to begin with. Whole numbers may be wider than 64 bits, and mappings may
have keys that are no texts. A key that has one obvious text gives a field its name; any other key,
and a number that neither range of 64 bits holds, cannot become a value.

* `Value.ofWide`    — the value of a whole number of any size.
* `Value.ofMapping` — the record of a mapping.
-/

namespace Stencil

/-- A key of a mapping. -/
inductive MappingKey where
  | text (s : String)
  | integer (n : Int)
  | bool (b : Bool)
  /-- A key made of parts, such as a list. -/
  | composite
  deriving DecidableEq, Repr

/-- The name of the field under a key. -/
def MappingKey.fieldName : MappingKey → Except Error String
  | text s    => .ok s
  | integer n => .ok (toString n)
  | bool b    => .ok (if b then "true" else "false")
  | composite => .error (.data .keyNotText)

namespace Value

/-- The value of a whole number, when the signed or the unsigned range of 64 bits holds it. -/
def ofWide (n : Int) : Except Error Value :=
  if -Int.pow 2 63 ≤ n ∧ n < Int.pow 2 64 then .ok (ofInt n) else .error (.data .integerRange)

/-- The record of a mapping; of two entries for one field, the later counts. -/
def ofMapping (entries : List (MappingKey × Value)) : Except Error Value := do
  let fields ← entries.mapM fun (key, value) => do return (← key.fieldName, value)
  return record (Record.ofList fields)

end Value

end Stencil
