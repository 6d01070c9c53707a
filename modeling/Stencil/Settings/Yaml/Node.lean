import Stencil.Settings.Datum
import Stencil.Text.Hexadecimal

/-!
# Stencil — YAML nodes

What a YAML document is made of. A plain scalar without a tag is null, a truth value, a whole number
in one of three bases, a float or else a text; one with a standard tag has to be what the tag says,
and any other scalar is a text. A scalar that is not what its tag says, like a reference to a node
that is not complete yet, is bad: it counts as null among values and is passed over among keys.

* `Node.ofScalar` — the node of a scalar.
* `Node.ofTable?` — the node of a table, whose keys must differ.
* `Node.datum?`   — a node as a datum of settings.
-/

namespace Stencil.Yaml

/-- A node of a document. -/
inductive Node where
  | null
  | bad
  | bool (b : Bool)
  | integer (n : Int)
  /-- A float, as it is written. -/
  | float (literal : String)
  | text (s : String)
  | list (items : List Node)
  | table (entries : List (Node × Node))

instance : Inhabited Node := ⟨.null⟩

/-- A tag, as its handle stands for a target. -/
structure Tag where
  target : String
  suffix : String
  deriving DecidableEq, Repr

/-- The target of the standard tags. -/
def standardTarget : String := "tag:yaml.org,2002:"

namespace Node

/-! ## Scalars -/

/-- Reads a whole number in a base within the signed range of 64 bits. -/
def readBase? (base : Nat) (cs : List Char) : Option Int := do
  let (negative, digits) := Decimal.readSign cs
  if digits.isEmpty then none
  else
    let values ← digits.mapM fun c => (Text.hexValue? c).filter fun d => decide (d < base)
    let magnitude := values.foldl (fun n d => base * n + d) 0
    let n : Int := if negative then -(magnitude : Int) else magnitude
    if Datum.fitsSigned n then some n else none

/-- The whole number that a plain scalar writes. -/
def integer? (cs : List Char) : Option Int :=
  match cs with
  | '0' :: 'x' :: digits => readBase? 16 digits
  | '0' :: 'o' :: digits => readBase? 8 digits
  | '+' :: digits => Datum.readSigned? digits
  | digits => Datum.readSigned? digits

/-- The words with a dot for infinity and for no number. Settings do not understand them. -/
def dottedWords : List String :=
  [".inf", ".Inf", ".INF", "+.inf", "+.Inf", "+.INF", "-.inf", "-.Inf", "-.INF", ".nan", ".NAN"]

/-- Whether a plain scalar writes a float. -/
def isFloat (s : String) : Bool :=
  dottedWords.contains s || (Decimal.readFloat? s.toList).isSome

/-- The node of a plain scalar without a tag. -/
def ofPlain (s : String) : Node :=
  match integer? s.toList with
  | some n => integer n
  | none =>
    match s with
    | "" | "~" | "null" => null
    | "true"  => bool true
    | "false" => bool false
    | _ => if isFloat s then float s else text s

/-- The node of a plain scalar with the standard tag of the given suffix. -/
def ofTagged (suffix s : String) : Node :=
  match suffix with
  | "bool" =>
    match s with
    | "true"  => bool true
    | "false" => bool false
    | _ => bad
  | "int" =>
    match Datum.readSigned? s.toList with
    | some n => integer n
    | none => bad
  | "float" => if isFloat s then float s else bad
  | "null" => if s == "~" || s == "null" then null else bad
  | _ => text s

/-- The node of a scalar. -/
def ofScalar (plain : Bool) (tag? : Option Tag) (s : String) : Node :=
  if plain then
    match tag? with
    | none => ofPlain s
    | some tag => if tag.target == standardTarget then ofTagged tag.suffix s else text s
  else text s

/-! ## Tables -/

mutual

/-- Equality of nodes. Floats are equal when they are written the same way. -/
def same : Node → Node → Bool
  | null, null => true
  | bad, bad => true
  | bool a, bool b => a == b
  | integer a, integer b => a == b
  | float a, float b => a == b
  | text a, text b => a == b
  | list as, list bs => sameItems as bs
  | table as, table bs => sameEntries as bs
  | _, _ => false
termination_by structural node => node

/-- Equality of lists, item by item. -/
def sameItems : List Node → List Node → Bool
  | [], [] => true
  | a :: as, b :: bs => a.same b && sameItems as bs
  | _, _ => false
termination_by structural nodes => nodes

/-- Equality of tables, entry by entry. -/
def sameEntries : List (Node × Node) → List (Node × Node) → Bool
  | [], [] => true
  | (k, v) :: as, (k', v') :: bs => k.same k' && v.same v' && sameEntries as bs
  | _, _ => false
termination_by structural entries => entries

end

/-- Whether the node is bad. -/
def isBad : Node → Bool
  | bad => true
  | _   => false

/-- Nodes as keys and values in turn. A bad node where a key is due is passed over, so that the one
after it is taken for the key; a last key without a value is dropped. -/
def pairUp : List Node → List (Node × Node)
  | [] => []
  | [_] => []
  | key :: value :: nodes =>
    if key.isBad then pairUp (value :: nodes) else (key, value) :: pairUp nodes

/-- Whether no key stands twice. -/
def distinctKeys : List (Node × Node) → Bool
  | [] => true
  | (key, _) :: entries => !entries.any (fun e => e.1.same key) && distinctKeys entries

/-- The table of the given keys and values. -/
def ofTable? (entries : List (Node × Node)) : Option Node :=
  let entries := pairUp (entries.flatMap fun (key, value) => [key, value])
  if distinctKeys entries then some (table entries) else none

/-! ## Data -/

/-- The name that a key gives: a text, or the digits of a whole number. -/
def keyName? : Node → Option String
  | text s => some s
  | integer n => some (toString n)
  | _ => none

mutual

/-- The node as a datum of settings. There is none for a table with other keys than texts and whole
numbers. -/
def datum? : Node → Option Datum
  | null => some .null
  | bad => some .null
  | bool b => some (.bool b)
  | integer n => some (.integer n)
  | float literal => (Decimal.readFloat? literal.toList).map .float
  | text s => some (.text s)
  | list items => (itemData? items).map .list
  | table entries => (entryData? entries).map .table
termination_by structural node => node

/-- The items of a list as data. -/
def itemData? : List Node → Option (List Datum)
  | [] => some []
  | node :: nodes => do return (← node.datum?) :: (← itemData? nodes)
termination_by structural nodes => nodes

/-- The entries of a table as data. -/
def entryData? : List (Node × Node) → Option (List (String × Datum))
  | [] => some []
  | (key, value) :: entries => do
    return (← key.keyName?, ← value.datum?) :: (← entryData? entries)
termination_by structural entries => entries

end

end Node

end Stencil.Yaml
