import Stencil.Files.Tree

/-!
# Stencil — disks

What a program may ask of the files around it, whatever holds them. A disk answers in a monad of its
own: a file tree answers at once, a real disk by looking.
-/

namespace Stencil

/-- The questions that a disk answers. -/
structure Disk (m : Type → Type) where
  /-- The place of a path. -/
  canonicalize      : String → m (Except FileFault Place)
  /-- The place that a path leads to from another place. -/
  canonicalizeBelow : Place → String → m (Except FileFault Place)
  /-- The bytes at a place. -/
  readAt            : Place → m (Except FileFault ByteArray)
  /-- The bytes behind a path. -/
  read              : String → m (Except FileFault ByteArray)
  /-- Whether there is a file behind a path. -/
  isFile            : String → m Bool

/-- A file tree as a disk. -/
def FileTree.disk (t : FileTree) : Disk Id where
  canonicalize      := t.canonicalize
  canonicalizeBelow := t.canonicalizeFrom
  readAt            := t.readAt
  read              := t.read
  isFile            := t.isFile

/-- The text of bytes that are to be UTF-8. -/
def textOfBytes (bytes : ByteArray) : Except FileFault String :=
  match String.fromUTF8? bytes with
  | some text => .ok text
  | none => .error .notText

end Stencil
