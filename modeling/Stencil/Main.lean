import Stencil.Command.Run
import Stencil.Text.Utf8

/-!
# Stencil — the program

The command on a real disk: this module asks the file system and the environment, and hands out what
`Command.run` decides.
-/

namespace Stencil.Program

/-- The number and the words of an error of the system. -/
def codeOf? : IO.Error → Option (UInt32 × String)
  | .noFileOrDirectory _ code details | .inappropriateType _ code details
  | .invalidArgument _ code details | .permissionDenied _ code details
  | .resourceExhausted _ code details | .alreadyExists _ code details
  | .noSuchThing _ code details | .otherError code details | .resourceBusy code details
  | .hardwareFault code details => some (code, details)
  | _ => none

/-- The fault behind an error of the system. Some actions count the numbers of errors down from
zero. -/
def faultOf (e : IO.Error) : FileFault :=
  match codeOf? e with
  | none => .stated (toString e)
  | some (code, details) =>
    match code.toInt32.toInt.natAbs with
    | 2  => .notFound
    | 20 => .notADirectory
    | 21 => .isADirectory
    | 36 => .nameTooLong
    | 40 => .tooManyLinks
    | n  => .stated s!"{details} (os error {n})"

/-- An action of the system, its error as a fault. -/
def guarded {α : Type} (path : String) (action : IO α) : IO (Except FileFault α) :=
  if path.toList.contains '\x00' then return .error .nulInPath
  else
    try return .ok (← action)
    catch e => return .error (faultOf e)

/-- The bytes behind a path. -/
def read (path : String) : IO (Except FileFault ByteArray) := guarded path (IO.FS.readBinFile path)

/-- The place of a path. Resolving tells only that it failed; opening the path tells why. -/
def canonicalize (path : String) : IO (Except FileFault Place) := do
  match ← guarded path (IO.FS.realPath path) with
  | .ok resolved => return .ok ((Path.parts (toString resolved)).filter (· != ""))
  | .error fault =>
    match ← read path with
    | .ok _ => return .error fault
    | .error fault => return .error fault

/-- The disk of the machine. -/
def disk : Disk IO where
  canonicalize := canonicalize
  canonicalizeBelow := fun place path => canonicalize (Path.ofPlace place ++ "/" ++ path)
  readAt := fun place => read (Path.ofPlace place)
  read := read
  isFile := fun path => do return (← read path).toBool

/-- The variables of the environment. -/
def environment : IO (List (String × String)) := do
  match ← read "/proc/self/environ" with
  | .error _ => return []
  | .ok bytes =>
    let entries := Text.segmentList (· == '\x00') (Text.Utf8.decode bytes.toList)
    return entries.map fun entry =>
      (String.ofList (entry.takeWhile (· != '=')),
        String.ofList ((entry.dropWhile (· != '=')).drop 1))

/-- What a run comes to once its output is saved, if it is to be. -/
def settle (ending : Command.Ending) : IO Command.Ending := do
  match ending with
  | .done (.save path text) =>
    return .afterSaving path (← guarded path (IO.FS.writeFile path text))
  | ending => return ending

end Stencil.Program

/-- Runs the command. -/
def main (arguments : List String) : IO UInt32 := do
  let environment ← Stencil.Program.environment
  let ending ← Stencil.Program.settle
    (← Stencil.Command.run Stencil.Program.disk environment arguments)
  IO.print ending.printed
  IO.eprint ending.reported
  return ending.exitCode
