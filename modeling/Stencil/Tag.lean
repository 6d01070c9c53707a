import Stencil.TemplateName
import Stencil.Text.Word

/-!
# Stencil — the grammar of tags

Three forms of tag have a meaning, and each has its recogniser here:

* a dotted path, `a.b.c` — names of word characters between single dots (`isPath`);
* a loop, `for item in a.b` — the four parts apart by blanks, nothing before or after
  (`LoopHeader.read?`);
* an include, `include: name` — the mark, then a template name (`includeTarget`).

Blanks and word characters have nothing in common, so each form can be read in one way only.
-/

namespace Stencil

open Text

/-- The word that every loop tag starts with. -/
def loopWord : List Char := ['f', 'o', 'r']

/-- The content of the tag that closes a loop. -/
def loopEnd : String := "/for"

/-- The mark that every include tag starts with. -/
def includeMark : List Char := ['i', 'n', 'c', 'l', 'u', 'd', 'e', ':']

/-- A dotted path: names between single dots. -/
def isPath (cs : List Char) : Bool :=
  (segmentList (· == '.') cs).all isName

/-- What the opening tag of a loop says. -/
structure LoopHeader where
  /-- The name bound to each item. -/
  item       : String
  /-- The path of the list to go through. -/
  collection : String
  deriving DecidableEq, Repr

namespace LoopHeader

/-- Reads `in`, blanks and a path, to the end. -/
def readCollection? : List Char → Option (List Char)
  | 'i' :: 'n' :: rest =>
    let path := trimStart rest
    -- shorter means that a blank was there
    if path.length < rest.length ∧ isPath path then some path else none
  | _ => none

/-- Reads a loop header: the loop word, blanks, a name, blanks, `in`, blanks and a path. -/
def readChars? (cs : List Char) : Option (List Char × List Char) :=
  if loopWord.isPrefixOf cs then
    let afterWord := cs.drop loopWord.length
    let fromName := trimStart afterWord
    let name := fromName.takeWhile isWord
    let afterName := fromName.dropWhile isWord
    let fromIn := trimStart afterName
    if fromName.length < afterWord.length ∧ !name.isEmpty ∧ fromIn.length < afterName.length then
      (readCollection? fromIn).map fun path => (name, path)
    else none
  else none

/-- The header that the content of a loop tag states, when it is one. -/
def read? (content : String) : Option LoopHeader :=
  (readChars? content.toList).map fun (name, path) => ⟨String.ofList name, String.ofList path⟩

end LoopHeader

/-- The template name in an include tag: what follows the mark, trimmed and checked. -/
def includeTarget (content : String) : Except Error String :=
  if includeMark.isPrefixOf content.toList then
    let name := String.ofList (trim (content.toList.drop includeMark.length))
    match TemplateName.check name with
    | .ok () => .ok name
    | .error e => .error e
  else .error (.validation (.unmarkedInclude content))

end Stencil
