import Stencil.Settings.Datum

/-!
# Stencil — settings in the environment

A variable whose name starts with the prefix is a setting; the rest of the name is its key. Case
does not count in names. The text of a variable is a truth value, a whole number, a float or else
text, whichever it can be first.
-/

namespace Stencil.Environment

/-- What the names of settings start with. -/
def namePrefix : String := "rice_template_"

/-- `s` in lower case. -/
def lower (s : String) : String := String.ofList (s.toList.map Char.toLower)

/-- What the text of a variable stands for. -/
def datum (text : String) : Datum :=
  match lower text with
  | "true"  => .bool true
  | "false" => .bool false
  | _ =>
    match Datum.readSigned? text.toList with
    | some n => .integer n
    | none =>
      match Decimal.readFloat? text.toList with
      | some x => .float x
      | none => .text text

/-- The setting that a variable makes, if it makes one. -/
def setting? (name text : String) : Option (String × Datum) :=
  let cs := (lower name).toList
  if namePrefix.toList.isPrefixOf cs then
    some (String.ofList (cs.drop namePrefix.length), datum text)
  else none

/-- The settings among variables. -/
def settings (environment : List (String × String)) : Settings :=
  environment.filterMap fun (name, text) => setting? name text

end Stencil.Environment
