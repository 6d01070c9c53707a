import Stencil.Files.Disk
import Stencil.Json.Reader
import Stencil.Settings.Environment
import Stencil.Settings.Toml
import Stencil.Settings.Yaml

/-!
# Stencil — loading settings

Limits come from a settings file and from the environment, which wins. The format of a file follows
from its extension. When there is no file at the path itself, the extensions are put after the path
in turn, and when there is none either, there are no settings from a file. Keys are compared without
regard to case, and settings that are no limits are passed over.

* `Settings.limits` — the limits that settings state.
* `Settings.load`   — the limits of a file and an environment, all of them above zero.
-/

namespace Stencil

open Text

/-- The formats of settings files. -/
inductive SettingsFormat where
  | toml
  | json
  | yaml
  deriving DecidableEq, Repr

namespace SettingsFormat

/-- The extensions of settings files and their formats, in the order in which they are tried. -/
def extensions : List (String × SettingsFormat) :=
  [("toml", toml), ("json", json), ("yaml", yaml), ("yml", yaml)]

/-- The format that an extension tells. -/
def ofExtension? (extension : String) : Option SettingsFormat := extensions.lookup extension

/-- The table of settings that a text is in a format. -/
def read? (format : SettingsFormat) (text : String) : Option Settings :=
  match format with
  | toml => Toml.read? text
  | json => (Json.read? Json.standardDepth text).bind fun j => (Datum.ofJson j).entries?
  | yaml => Yaml.read? text

end SettingsFormat

namespace Path

/-- What stands after the last dot of the last name of a path. A dot that starts the name does not
count. -/
def extension? (path : String) : Option String :=
  let name := ((parts path).getLastD "").toList
  let backward := name.reverse.span (· != '.')
  match backward.2 with
  | '.' :: _ :: _ => some (String.ofList backward.1.reverse)
  | _ => none

/-- Whether a part names nothing: it is empty or a single dot. -/
def dropTrailing (names : List String) : List String :=
  (names.reverse.dropWhile isHere).reverse

/-- A path without the slashes and single dots at its end, if it then ends in a name. -/
def stem? (path : String) : Option String :=
  let names := dropTrailing (parts path)
  match names.getLast? with
  | none => none
  | some name => if isUp name then none else some ("/".intercalate names)

end Path

namespace Settings

/-! ## Keys -/

/-- A character of a name in a key. -/
def isKeyChar (c : Char) : Bool := c.isAlphanum || c == ' ' || c == '_' || c == '-'

/-- A step into what stands under a name: a dot and a name, or in brackets a whole number of 64
bits. -/
def innerStep : Scan Unit :=
  (do
    Scan.char '.'
    let _ ← Scan.span1 isKeyChar) <|> (do
    Scan.char '['
    let _ ← Scan.span fun c => c == ' ' || c == '\t'
    let sign ← Scan.optional (Scan.one (· == '-'))
    let digits ← Scan.span1 Char.isDigit
    let _ ← Scan.span fun c => c == ' ' || c == '\t'
    Scan.char ']'
    if (Datum.readSigned? (sign.toList ++ digits)).isSome then return () else failure)

/-- What a key says of a limit. -/
inductive KeyMeaning where
  /-- It names the limit. -/
  | limit
  /-- It names something inside the limit, which is then no count. -/
  | inside
  /-- It names something else. -/
  | other
  deriving DecidableEq, Repr

/-- What a key says of the limit of the given name. -/
def keyMeaning (name : LimitName) (key : String) : KeyMeaning :=
  let cs := (Environment.lower key).toList
  let own := name.key.toList
  if cs = own then .limit
  else if own.isPrefixOf cs && (Scan.whole? (Scan.many innerStep) (cs.drop own.length)).isSome then
    .inside
  else .other

/-- What settings say of a limit; of several settings the last one counts. -/
def datum? (settings : Settings) (name : LimitName) : Option Datum :=
  settings.foldl (fun found (key, d) =>
    match keyMeaning name key with
    | .limit => some d
    -- something below a limit makes the limit a table
    | .inside => some (.table [])
    | .other => found) none

/-! ## Limits -/

/-- `limits` with the one of the given name as the settings state it. -/
def apply (settings : Settings) (limits : Limits) (name : LimitName) : Except Error Limits :=
  match settings.datum? name with
  | none => .ok limits
  | some d =>
    match d.count? with
    | some n => .ok (limits.replace name n)
    | none => .error (.settings (.notALimit name))

/-- The limits that settings state; the others are the standard ones. -/
def limits (settings : Settings) : Except Error Limits :=
  LimitName.all.foldlM settings.apply {}

/-! ## Files -/

/-- The first of the given files that is there, and its format. -/
def firstFile {m : Type → Type} [Monad m] (disk : Disk m) :
    List (String × SettingsFormat) → m (Option (String × SettingsFormat))
  | [] => return none
  | (path, format) :: others => do
    if ← disk.isFile path then return some (path, format) else firstFile disk others

/-- The settings file that a path stands for, and its format. -/
def locate {m : Type → Type} [Monad m] (disk : Disk m) (path : String) :
    m (Option (String × SettingsFormat)) := do
  if ← disk.isFile path then
    let format? := (Path.extension? path).bind SettingsFormat.ofExtension?
    return format?.map fun format => (path, format)
  else
    match Path.stem? path with
    | none => return none
    | some stem =>
      firstFile disk (SettingsFormat.extensions.map fun (extension, format) =>
        (stem ++ "." ++ extension, format))

/-- The settings in the file that a path stands for. -/
def ofFile {m : Type → Type} [Monad m] (disk : Disk m) (path : String) :
    m (Except Error Settings) := do
  match ← locate disk path with
  | none => return .ok []
  | some (file, format) =>
    -- a file that cannot be read as text is passed over like one that is not there
    match (← disk.read file).bind textOfBytes with
    | .error _ => return .ok []
    | .ok text =>
      match format.read? text with
      | some settings => return .ok settings
      | none => return .error (.settings (.malformedFile file))

/-- The limits of the settings file at a path, if one is given, and of the environment. -/
def load {m : Type → Type} [Monad m] (disk : Disk m) (environment : List (String × String))
    (path? : Option String) : m (Except Error Limits) := do
  let fromFile ← match path? with
    | none => pure (.ok [])
    | some path => ofFile disk path
  return do
    -- the environment comes last and so it wins
    let limits ← Settings.limits ((← fromFile) ++ Environment.settings environment)
    limits.check
    return limits

end Settings

end Stencil
