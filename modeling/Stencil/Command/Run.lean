import Stencil.Command.Failure
import Stencil.Command.Options
import Stencil.Engine
import Stencil.Files.Gather
import Stencil.Json.Reader
import Stencil.Settings.Load

/-!
# Stencil — running the command

A run loads the limits, opens the template root, reads the data and renders the template. What it
asks of the files around it goes through a `Disk`; it writes nothing itself, but says what is to be
printed or saved.

* `Command.produce` — the output of a run, or why there is none.
* `Command.run`     — what a command line comes to.
-/

namespace Stencil.Command

variable {m : Type → Type} [Monad m]

/-- The output of a run that went well. -/
inductive Output where
  /-- Text for the standard output. -/
  | print (text : String)
  /-- Text for a file. -/
  | save (path text : String)
  deriving DecidableEq, Repr

/-- An answer whose error becomes a failure of the run. -/
def orElse {α : Type} (failure : Error → Failure) (answer : m (Except Error α)) :
    ExceptT Failure m α :=
  ExceptT.mk ((Except.mapError failure) <$> answer)

/-- The context that a data file gives. -/
def readData (disk : Disk m) (path : String) : ExceptT Failure m Context := do
  match (← ExceptT.lift (disk.read path)).bind textOfBytes with
  | .error fault => throw (.unreadable path fault)
  | .ok text =>
    match Json.read? Json.standardDepth text with
    | none => throw (.notJson path)
    | some (.object members) => return .ofJson (.object members)
    | some _ => throw (.notAnObject path)

/-- An engine for a template of a directory, whose answers are gathered with `levels` levels of
includes. -/
def openEngine (disk : Disk m) (directory : Directory) (limits : Limits) (template : String)
    (levels : Nat) : ExceptT Failure m Engine := do
  let parser := ({} : Parser).withLimits limits
  let answers ← ExceptT.lift (directory.gather disk parser levels [] [template])
  match Engine.withLimits answers.source limits with
  | .ok engine => return engine
  | .error e => throw (.engine e)

/-- The output of a run. -/
def produce (disk : Disk m) (environment : List (String × String)) (options : Options) :
    ExceptT Failure m Output := do
  let limits ← orElse .settings (Settings.load disk environment options.config?)
  let directory ← orElse (.root options.root) (Directory.openAt disk options.root)
  let template := options.template
  if options.check then
    -- parsing follows no include
    let engine ← openEngine disk directory limits template 1
    let _ ← orElse (.invalid template) (pure (engine.parse template).1)
    return .print ""
  else
    let context ← match options.data? with
      | some path => readData disk path
      | none => pure .empty
    -- the template itself is one level above its includes
    let engine ← openEngine disk directory limits template (limits.maxIncludeDepth + 1)
    let text ← orElse (.unrendered template) (pure (engine.render template context).result)
    match options.output? with
    | some path => return .save path text
    | none => return .print text

/-- What a command line comes to. -/
inductive Ending where
  /-- Output. -/
  | done (output : Output)
  | failed (failure : Failure)
  /-- The command line was not understood. -/
  | misused
  deriving DecidableEq, Repr

/-- The name and version of the command. -/
def versionText : String := "rice-render 0.1.72\n"

/-- How the command is used. -/
def helpText : String :=
  "Usage: rice-render [OPTIONS] <TEMPLATE>\n\n" ++
  "  -r, --root <DIR>       template root directory, by default .\n" ++
  "  -d, --data <FILE>      JSON file whose top-level object becomes the context\n" ++
  "  -c, --config <FILE>    limits, in TOML, YAML or JSON\n" ++
  "  -o, --output <FILE>    write output to this file\n" ++
  "      --check            only check that the template parses\n" ++
  "      --log-level <L>    accepted and ignored\n" ++
  "  -h, --help             this text\n" ++
  "  -V, --version          the version\n"

/-- What a command line comes to, given the disk and the environment. -/
def run (disk : Disk m) (environment : List (String × String)) (arguments : List String) :
    m Ending := do
  match Invocation.read arguments with
  | .misuse => return .misused
  | .version => return .done (.print versionText)
  | .help => return .done (.print helpText)
  | .run options =>
    match ← (produce disk environment options).run with
    | .ok output => return .done output
    | .error failure => return .failed failure

namespace Ending

/-- The ending after output was written to a file, or not. -/
def afterSaving (path : String) : Except FileFault Unit → Ending
  | .ok () => .done (.print "")
  | .error fault => .failed (.unwritten path fault)

/-- The exit code. -/
def exitCode : Ending → UInt32
  | done _ => 0
  | failed _ => 1
  | misused => 2

/-- The text for the standard output. -/
def printed : Ending → String
  | done (.print text) => text
  | _ => ""

/-- The text for the standard error. -/
def reported : Ending → String
  | failed failure => failure.report
  | _ => ""

end Ending

end Stencil.Command
