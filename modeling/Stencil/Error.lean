import Stencil.Limits
import Stencil.Position

/-!
# Stencil — errors

Every failure is a cause, and `Error.message` is the one place where causes become text. Guards
(refused names, include cycles, include depth, loop budget) stop a render whatever the template
asks for; `Error.isGuard` tells them from ordinary failures. Missing data is not an error.
-/

namespace Stencil

/-- Why a name or a tag was refused. -/
inductive Refusal where
  /-- The name has nothing but blanks in it. -/
  | blankName
  /-- A segment of the name is two dots. -/
  | parentSegment (name : String)
  /-- The name starts at the root of the file system. -/
  | absoluteName (name : String)
  /-- The file of that name lies outside the template root. -/
  | outsideRoot (name : String)
  /-- The content of an include tag lacks the include mark. -/
  | unmarkedInclude (content : String)
  /-- A reason in a caller's own words. -/
  | stated (text : String)
  deriving DecidableEq, Repr

/-- The refusal in words. -/
def Refusal.message : Refusal → String
  | blankName => "Template name cannot be empty"
  | parentSegment name => s!"Template name '{name}' must not contain '..' segments"
  | absoluteName name => s!"Template name '{name}' must be a relative path"
  | outsideRoot name => s!"Template '{name}' resolves outside the template root"
  | unmarkedInclude content => s!"Include tag '{content}' must start with 'include:'"
  | stated text => text

/-- What is wrong with the grammar of a template. -/
inductive GrammarFault where
  /-- A tag starts like a loop and is none. -/
  | malformedLoop (content : String)
  /-- A loop opens where as many loops as allowed are open. -/
  | nestingLimit (max : Nat)
  /-- A fault in a caller's own words. -/
  | stated (text : String)
  deriving DecidableEq, Repr

/-- The fault in words. -/
def GrammarFault.message : GrammarFault → String
  | malformedLoop content =>
    s!"Malformed loop '{content}', expected 'for <item> in <collection>'"
  | nestingLimit max => s!"Loop nesting exceeds maximum of {max}"
  | stated text => text

/-- What the file system says when it refuses. -/
inductive FileFault where
  | notFound
  | notADirectory
  | isADirectory
  | nameTooLong
  | tooManyLinks
  /-- A path with a NUL character in it. -/
  | nulInPath
  /-- Bytes that are not UTF-8 where text is wanted. -/
  | notText
  /-- Any other fault, in the system's words. -/
  | stated (text : String)
  deriving DecidableEq, Repr

/-- The fault in the words of the system. -/
def FileFault.message : FileFault → String
  | notFound      => "No such file or directory (os error 2)"
  | notADirectory => "Not a directory (os error 20)"
  | isADirectory  => "Is a directory (os error 21)"
  | nameTooLong   => "File name too long (os error 36)"
  | tooManyLinks  => "Too many levels of symbolic links (os error 40)"
  | nulInPath     => "file name contained an unexpected NUL byte"
  | notText       => "stream did not contain valid UTF-8"
  | stated text   => text

/-- Why data cannot become template values. -/
inductive DataFault where
  /-- An integer that neither the signed nor the unsigned 64-bit range holds. -/
  | integerRange
  /-- A mapping with a key that is not text. -/
  | keyNotText
  /-- A reason in a caller's own words. -/
  | stated (text : String)
  deriving DecidableEq, Repr

/-- The fault in words. -/
def DataFault.message : DataFault → String
  | integerRange => "number out of range"
  | keyNotText   => "key must be a string"
  | stated text  => text

/-- Why settings cannot be loaded. -/
inductive SettingsFault where
  /-- A settings file that its format does not accept, or that is no table of settings. -/
  | malformedFile (path : String)
  /-- A setting whose value cannot be read as a limit. -/
  | notALimit (name : LimitName)
  deriving DecidableEq, Repr

/-- The fault in words. -/
def SettingsFault.message : SettingsFault → String
  | malformedFile path => s!"{path} is not a table of settings"
  | notALimit name => name.key ++ " is not a count"

/-- Why limits are not usable. -/
inductive LimitFault where
  | zero (name : LimitName)
  /-- A reason in a caller's own words. -/
  | stated (text : String)
  deriving DecidableEq, Repr

/-- The fault in words. -/
def LimitFault.message : LimitFault → String
  | zero name   => name.key ++ " must be greater than 0"
  | stated text => text

/-- Everything that can go wrong while settings are loaded or a template is read or rendered. -/
inductive Error where
  | validation (reason : Refusal)
  | grammar (position : Position) (fault : GrammarFault)
  | notFound (name : String)
  /-- An include of a name that is already being included; the chain ends with that name. -/
  | circularInclude (chain : List String)
  | depthExceeded (max : Nat)
  | loopLimit (limit : Nat)
  | file (fault : FileFault)
  | data (fault : DataFault)
  | settings (fault : SettingsFault)
  | limits (fault : LimitFault)
  deriving DecidableEq, Repr

namespace Error

/-- The error in words. -/
def message : Error → String
  | validation reason => "Validation error: " ++ reason.message
  | grammar ⟨line, column⟩ fault =>
    s!"Syntax error at line {line}, column {column}: " ++ fault.message
  | notFound name => "Template not found: " ++ name
  | circularInclude chain => "Circular include detected: " ++ " -> ".intercalate chain
  | depthExceeded max => s!"Include depth exceeded maximum of {max}"
  | loopLimit limit => s!"Loop evaluation limit of {limit} exceeded"
  | file fault => "IO error: " ++ fault.message
  | data fault => "Serialization error: " ++ fault.message
  | settings fault => "Configuration error: " ++ fault.message
  | limits fault => "Invalid configuration: " ++ fault.message

/-- Whether the error comes from a guard on safety or on resources. -/
def isGuard : Error → Bool
  | validation _ | circularInclude _ | depthExceeded _ | loopLimit _ => true
  | grammar .. | notFound _ | file _ | data _ | settings _ | limits _ => false

end Error

/-- Refuses limits of which one is zero, naming the first. -/
def Limits.check (limits : Limits) : Except Error Unit :=
  match limits.zeroLimit? with
  | some name => .error (.limits (.zero name))
  | none => .ok ()

end Stencil
