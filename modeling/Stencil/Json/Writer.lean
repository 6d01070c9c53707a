import Stencil.Json.Basic

/-!
# Stencil — compact JSON text

A document in one line without spaces, members in the order they have. In a string the quote, the
backslash and the characters below the space are escaped, the five with a letter of their own by
that letter and the others by four hexadecimal digits in lower case. All else is written as it is.
-/

namespace Stencil.Json

/-- The hexadecimal digit of a number below sixteen. -/
def hexDigit (n : Nat) : Char := Nat.digitChar n

/-- A character inside a quoted string. -/
def escape (c : Char) : List Char :=
  match c with
  | '"'    => ['\\', '"']
  | '\\'   => ['\\', '\\']
  | '\x08' => ['\\', 'b']
  | '\t'   => ['\\', 't']
  | '\n'   => ['\\', 'n']
  | '\x0c' => ['\\', 'f']
  | '\r'   => ['\\', 'r']
  | c =>
    if c < ' ' then ['\\', 'u', '0', '0', hexDigit (c.toNat / 16), hexDigit (c.toNat % 16)]
    else [c]

/-- A string between quotes. -/
def quoted (s : String) : List Char :=
  '"' :: (s.toList.flatMap escape ++ ['"'])

mutual

/-- The characters of a document. -/
def write : Json → List Char
  | .null => "null".toList
  | .bool true => "true".toList
  | .bool false => "false".toList
  | .number n => n.text.toList
  | .string s => quoted s
  | .array [] => ['[', ']']
  | .array (j :: js) => '[' :: (j.write ++ writeItems js)
  | .object [] => ['{', '}']
  | .object ((name, j) :: ms) => '{' :: (quoted name ++ ':' :: (j.write ++ writeMembers ms))
termination_by structural j => j

/-- The items of an array after the first one, and the closing bracket. -/
def writeItems : List Json → List Char
  | [] => [']']
  | j :: js => ',' :: (j.write ++ writeItems js)
termination_by structural js => js

/-- The members of an object after the first one, and the closing brace. -/
def writeMembers : List (String × Json) → List Char
  | [] => ['}']
  | (name, j) :: ms => ',' :: (quoted name ++ ':' :: (j.write ++ writeMembers ms))
termination_by structural ms => ms

end

/-- The compact text of a document. -/
def compact (j : Json) : String := String.ofList j.write

end Stencil.Json
