import Stencil.Decimal.Reading
import Stencil.Json.Basic

/-!
# Stencil — data of settings files

What a settings file holds, in whichever format it is written, and how a datum is read as a count:
whole numbers as they are, floats to the nearest whole number, truth values as one and zero, and
texts that spell a truth value or an unsigned number.
-/

namespace Stencil

open Decimal

/-- A value in a settings file or in the environment. -/
inductive Datum where
  | null
  | bool (b : Bool)
  | integer (n : Int)
  | float (x : Extended)
  | text (s : String)
  | list (items : List Datum)
  | table (entries : List (String × Datum))

instance : Inhabited Datum := ⟨.null⟩

/-- A table of settings. -/
abbrev Settings := List (String × Datum)

namespace Datum

/-- Whether the signed range of 64 bits holds `n`. -/
def fitsSigned (n : Int) : Bool := decide (-Int.pow 2 63 ≤ n) && decide (n < Int.pow 2 63)

/-- Reads a whole number within the signed range of 64 bits. -/
def readSigned? (cs : List Char) : Option Int :=
  (readInteger? cs).filter fitsSigned

/-- Reads an unsigned number within 64 bits; a plus may stand before it. -/
def readUnsigned? (cs : List Char) : Option Nat :=
  let digits := match cs with
    | '+' :: cs => cs
    | cs => cs
  (readNat? digits).filter fun n => decide (n ≤ Extended.greatestCount)

/-- The count that a text spells. -/
def countOfText? (s : String) : Option Nat :=
  match String.ofList (s.toList.map Char.toLower) with
  | "true" | "on" | "yes" => some 1
  | "false" | "off" | "no" => some 0
  | _ => readUnsigned? s.toList

/-- The count that a datum states. -/
def count? : Datum → Option Nat
  | integer n => if 0 ≤ n then some n.toNat else none
  | float x   => some x.toCount
  | bool b    => some (if b then 1 else 0)
  | text s    => countOfText? s
  | null | list _ | table _ => none

mutual

/-- The datum of a document. An integer above the signed range of 64 bits is a float. -/
def ofJson : Json → Datum
  | .null => null
  | .bool b => bool b
  | .number (.integer n) =>
    if fitsSigned n then integer n else float (Binary64.ofNat (decide (n < 0)) n.natAbs)
  | .number (.float x) => float (.finite x)
  | .string s => text s
  | .array items => list (ofItems items)
  | .object members => table (ofMembers members)
termination_by structural j => j

/-- The data of the items of an array. -/
def ofItems : List Json → List Datum
  | [] => []
  | j :: js => ofJson j :: ofItems js
termination_by structural js => js

/-- The data of the members of an object. -/
def ofMembers : List (String × Json) → List (String × Datum)
  | [] => []
  | (name, j) :: ms => (name, ofJson j) :: ofMembers ms
termination_by structural ms => ms

end

/-- The entries of a table. -/
def entries? : Datum → Option Settings
  | table entries => some entries
  | _ => none

end Datum

end Stencil
