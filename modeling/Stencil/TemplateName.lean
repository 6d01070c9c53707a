import Stencil.Error
import Stencil.Text.Blank
import Stencil.Text.Split

/-!
# Stencil — template names

A template is asked for by name. A name is refused before anything is fetched when it is blank or
when one of its segments is two dots; a slash and a backslash both end a segment, so the rule does
not depend on the system that files live on. Everything else about a name is up to its source.
-/

namespace Stencil

open Text

namespace TemplateName

/-- The characters that end a segment of a name. -/
def isSeparator (c : Char) : Bool :=
  c == '/' || c == '\\'

/-- Nothing but blanks. -/
def isBlankName (name : String) : Bool :=
  (trim name.toList).isEmpty

/-- Some segment is two dots. -/
def climbs (name : String) : Bool :=
  (segmentList isSeparator name.toList).contains ['.', '.']

/-- Refuses a blank name, and a name with a segment that leads upwards. -/
def check (name : String) : Except Error Unit :=
  if isBlankName name then .error (.validation .blankName)
  else if climbs name then .error (.validation (.parentSegment name))
  else .ok ()

end TemplateName

end Stencil
