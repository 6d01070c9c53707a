/-!
# Stencil — command line options

The command takes the name of one template and options in any order. A value stands after its
option, or in the same argument, with or without an equals sign; as an argument of its own it must
not look like an option. After two dashes everything is a name. Nothing may be given twice.

* `Invocation.read` — what a command line asks for.
-/

namespace Stencil.Command

/-- What one run of the command is to do. -/
structure Options where
  /-- The name of the template. -/
  template : String
  /-- The template root. -/
  root     : String := "."
  /-- The file with the data. -/
  data?    : Option String := none
  /-- The settings file. -/
  config?  : Option String := none
  /-- The file to write to. -/
  output?  : Option String := none
  /-- Whether to parse only. -/
  check    : Bool := false
  deriving DecidableEq, Repr

/-- The options that take a value. -/
inductive ValueOption where
  | root
  | data
  | config
  | output
  | logLevel
  deriving DecidableEq, Repr

namespace ValueOption

/-- The option behind two dashes and a name. -/
def ofName? : String → Option ValueOption
  | "root"      => some root
  | "data"      => some data
  | "config"    => some config
  | "output"    => some output
  | "log-level" => some logLevel
  | _           => none

/-- The option behind a dash and a letter. -/
def ofLetter? : Char → Option ValueOption
  | 'r' => some root
  | 'd' => some data
  | 'c' => some config
  | 'o' => some output
  | _   => none

/-- Whether the option takes this value. A path is not empty. -/
def accepts (option : ValueOption) (value : String) : Bool :=
  option == logLevel || !value.isEmpty

end ValueOption

/-- An argument, by its looks. -/
inductive Argument where
  /-- Two dashes. -/
  | divider
  /-- Two dashes, a name, and what stands after an equals sign. -/
  | named (name : String) (value? : Option String)
  /-- A dash, a letter, and what stands after it. -/
  | lettered (letter : Char) (rest : List Char)
  /-- Anything else, also a dash alone. -/
  | plain (text : String)
  deriving DecidableEq, Repr

namespace Argument

/-- The argument that a text is, as long as nothing divides it from the options. -/
def ofText (text : String) : Argument :=
  match text.toList with
  | ['-', '-'] => divider
  | '-' :: '-' :: cs =>
    named (String.ofList (cs.takeWhile (· != '=')))
      (match cs.dropWhile (· != '=') with
        | [] => none
        | _ :: value => some (String.ofList value))
  | '-' :: letter :: rest => lettered letter rest
  | _ => plain text

/-- The arguments that texts are; after the divider all of them are plain. -/
def ofTexts : List String → List Argument
  | [] => []
  | text :: texts =>
    match ofText text with
    | divider => divider :: texts.map plain
    | argument => argument :: ofTexts texts

end Argument

/-- The value in the same argument as the letter of its option. -/
def attachedValue? : List Char → Option String
  | [] => none
  | '=' :: cs => some (String.ofList cs)
  | cs => some (String.ofList cs)

/-- What was read of a command line so far. -/
structure Given where
  template? : Option String := none
  values    : List (ValueOption × String) := []
  check     : Bool := false

/-- What a command line asks for. -/
inductive Invocation where
  /-- A run. -/
  | run (options : Options)
  /-- The version of the command. -/
  | version
  /-- An explanation of the command. -/
  | help
  /-- Something that the command does not understand. -/
  | misuse
  deriving DecidableEq, Repr

namespace Given

/-- With the name of the template. -/
def addTemplate? (given : Given) (name : String) : Option Given :=
  if given.template?.isSome then none else some { given with template? := some name }

/-- With the value of an option. -/
def addValue? (given : Given) (option : ValueOption) (value : String) : Option Given :=
  if (given.values.lookup option).isSome || !option.accepts value then none
  else some { given with values := given.values ++ [(option, value)] }

/-- With the wish to parse only. -/
def addCheck? (given : Given) : Option Given :=
  if given.check then none else some { given with check := true }

/-- The run that was asked for, once everything is read. -/
def invocation (given : Given) : Invocation :=
  match given.template? with
  | none => .misuse
  | some template =>
    .run { template
           root := (given.values.lookup .root).getD "."
           data? := given.values.lookup .data
           config? := given.values.lookup .config
           output? := given.values.lookup .output
           check := given.check }

end Given

namespace Invocation

/-- Goes on with what could be given, if it could. -/
def andThen (given? : Option Given) (next : Given → Invocation) : Invocation :=
  match given? with
  | some given => next given
  | none => misuse

/-- Reads the arguments from left to right. -/
def readFrom (given : Given) : List Argument → Invocation
  | [] => given.invocation
  | .divider :: args => readFrom given args
  | .plain name :: args => andThen (given.addTemplate? name) fun given => readFrom given args
  | .named name value? :: args =>
    match name, value? with
    -- a flag takes no value, so one with a value is an unknown option
    | "check", none => andThen given.addCheck? fun given => readFrom given args
    | "version", none => version
    | "help", none => help
    | name, some value =>
      andThen ((ValueOption.ofName? name).bind (given.addValue? · value)) fun given =>
        readFrom given args
    | name, none => readValue given (ValueOption.ofName? name) args
  -- a wish to be told something ends the reading; what follows is not looked at
  | .lettered 'V' _ :: _ => version
  | .lettered 'h' _ :: _ => help
  | .lettered letter rest :: args =>
    match attachedValue? rest with
    | some value =>
      andThen ((ValueOption.ofLetter? letter).bind (given.addValue? · value)) fun given =>
        readFrom given args
    | none => readValue given (ValueOption.ofLetter? letter) args
where
  /-- Reads the value of an option, and the arguments after it. -/
  readValue (given : Given) (option? : Option ValueOption) : List Argument → Invocation
    | .plain value :: args =>
      andThen (option?.bind (given.addValue? · value)) fun given => readFrom given args
    | _ => misuse

/-- What a command line asks for. -/
def read (arguments : List String) : Invocation := readFrom {} (Argument.ofTexts arguments)

end Invocation

end Stencil.Command
