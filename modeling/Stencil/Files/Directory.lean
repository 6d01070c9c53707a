import Stencil.Files.Disk
import Stencil.TemplateName

/-!
# Stencil — template directories

Templates in the files below one directory, the root. A name is a relative path. It is refused when
it fails the check of names, when it is absolute, and when it leads out of the root, be it through
links; places are compared name by name, so a neighbour of the root whose name only begins like the
root's lies outside.

* `Directory.openAt`  — a template directory, whose root has to exist.
* `Directory.content` — the text of a template.
-/

namespace Stencil

/-- A template directory, by the place of its root. -/
structure Directory where
  root : Place
  deriving DecidableEq, Repr

namespace Directory

/-- The error of a file fault met under a template's name. -/
def faultFor (name : String) : FileFault → Error
  | .notFound => .notFound name
  | fault => .file fault

/-- The template directory at a path. -/
def openAt {m : Type → Type} [Monad m] (disk : Disk m) (path : String) :
    m (Except Error Directory) := do
  match ← disk.canonicalize path with
  | .error fault => return .error (.file fault)
  | .ok root => return .ok ⟨root⟩

/-- The text of the template of the given name. -/
def content {m : Type → Type} [Monad m] (disk : Disk m) (d : Directory) (name : String) :
    m (Except Error String) := do
  match TemplateName.check name with
  | .error e => return .error e
  | .ok () =>
    if Path.isAbsolute name then return .error (.validation (.absoluteName name))
    else
      match ← disk.canonicalizeBelow d.root name with
      | .error fault => return .error (faultFor name fault)
      | .ok place =>
        -- only now are all links resolved, so only now is the place known
        if !d.root.isPrefixOf place then return .error (.validation (.outsideRoot name))
        else
          match ← disk.readAt place with
          | .error fault => return .error (faultFor name fault)
          | .ok bytes => return (textOfBytes bytes).mapError Error.file

end Directory

end Stencil
