import Stencil.Error

/-!
# Stencil — failures of the command

When a run fails, the command says what it could not do and, below that, why. An error of the file
system below an error of the library is a cause of its own.

* `Failure.report` — what is written about a failure.
-/

namespace Stencil.Command

/-- What a run could not do. -/
inductive Failure where
  /-- Loading the limits. -/
  | settings (cause : Error)
  /-- Opening the template root. -/
  | root (path : String) (cause : Error)
  /-- Setting up the engine. -/
  | engine (cause : Error)
  /-- Parsing the template. -/
  | invalid (template : String) (cause : Error)
  /-- Reading the data. -/
  | unreadable (path : String) (cause : FileFault)
  /-- Understanding the data. -/
  | notJson (path : String)
  /-- Taking names from the data, which is no object. -/
  | notAnObject (path : String)
  /-- Rendering the template. -/
  | unrendered (template : String) (cause : Error)
  /-- Writing the output. -/
  | unwritten (path : String) (cause : FileFault)
  deriving DecidableEq, Repr

namespace Failure

/-- The messages of an error and of what lies below it. -/
def causesOf (e : Error) : List String :=
  match e with
  | .file fault => [e.message, fault.message]
  | _ => [e.message]

/-- What could not be done. -/
def headline : Failure → String
  | settings _ => "Failed to load engine configuration"
  | root path _ => s!"Template root {path} is not accessible"
  | engine cause => cause.message
  | invalid template _ => s!"Template {template} is invalid"
  | unreadable path _ => s!"Failed to read {path}"
  | notJson path => s!"{path} is not valid JSON"
  | notAnObject path => s!"{path} must contain a JSON object"
  | unrendered template _ => s!"Failed to render {template}"
  | unwritten path _ => s!"Failed to write {path}"

/-- Why it could not be done, from the top down. -/
def causes : Failure → List String
  | settings cause | root _ cause | invalid _ cause | unrendered _ cause => causesOf cause
  | engine cause => (causesOf cause).drop 1
  | unreadable _ cause | unwritten _ cause => [cause.message]
  | notJson _ | notAnObject _ => []

/-- Text with its first line behind `label` and its other lines behind as many blanks. -/
def indented (label : String) (text : String) : String :=
  let blanks := String.ofList (label.toList.map fun _ => ' ')
  label ++ ("\n" ++ blanks).intercalate (text.splitOn "\n")

/-- The lines below the headline: a single cause is not numbered, several are. -/
def explanation : List String → String
  | [] => ""
  | [cause] => "\n\nCaused by:\n" ++ indented "    " cause
  | causes =>
    "\n\nCaused by:\n" ++
      "\n".intercalate (causes.zipIdx.map fun (cause, i) => indented s!"    {i}: " cause)

/-- What is written about a failure. -/
def report (failure : Failure) : String :=
  "Error: " ++ failure.headline ++ explanation failure.causes ++ "\n"

end Failure

end Stencil.Command
