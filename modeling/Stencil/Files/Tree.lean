import Stencil.Error
import Stencil.Text.Split

/-!
# Stencil — file trees

A tree of directories, files and symbolic links, and the rules by which a path leads through it. A
path is followed part by part. An empty part and a single dot stay where they are, two dots go up,
a name goes down; each of them needs a directory to start from. A link is replaced by the parts of
its target, read from the root when the target is absolute and from the directory of the link
otherwise. At most forty links are followed on one way.

* `Entry.follow`            — the place that parts lead to.
* `FileTree.canonicalize`   — the place of a path: no links, no dots, and something is there.
* `FileTree.read`, `FileTree.write` — the bytes behind a path.
-/

namespace Stencil

open Text

/-- What a name in a directory stands for. -/
inductive Entry where
  | file (bytes : ByteArray)
  | directory (children : List (String × Entry))
  | link (target : String)

instance : Inhabited Entry := ⟨.directory []⟩

/-- A place in a file tree: the names that lead to it from the root. -/
abbrev Place := List String

namespace Path

/-- The parts of a path between slashes. -/
def parts (path : String) : List String :=
  (segmentList (· == '/') path.toList).map String.ofList

/-- Whether a path starts at the root. -/
def isAbsolute (path : String) : Bool := path.toList.head? == some '/'

/-- The path of a place. -/
def ofPlace (place : Place) : String := "/" ++ "/".intercalate place

/-- The bytes of the longest name that a directory can hold. -/
def longestName : Nat := 255

/-- The bytes that no path can have when it is opened. -/
def pathBytes : Nat := 4096

/-- How many links may be followed on one way. -/
def mostLinks : Nat := 40

/-- A part that leads nowhere else: nothing or a single dot. -/
def isHere (part : String) : Bool := part == "" || part == "."

/-- The part that leads up. -/
def isUp (part : String) : Bool := part == ".."

/-- The parts of a path before its last name, and that name. After a slash at its end a path names
nothing more, and the name is empty. -/
def splitLast (path : String) : List String × String :=
  let parts := parts path
  let named := (parts.reverse.dropWhile (· == "")).reverse
  (named.dropLast, if named.length < parts.length then "" else named.getLastD "")

end Path

namespace Entry

/-- The entries of a directory. -/
def children? : Entry → Option (List (String × Entry))
  | directory children => some children
  | _ => none

/-- The entry at a place below this one; links are not followed. -/
def at? (e : Entry) : Place → Option Entry
  | [] => some e
  | name :: names =>
    match e with
    | directory children => (children.lookup name).bind fun child => child.at? names
    | _ => none

/-- The place that `parts` lead to from `here`, in the tree below `root`, over at most `links`
links. -/
def follow (root : Entry) (links : Nat) (here : Place) (parts : List String) :
    Except FileFault Place :=
  match parts with
  | [] => .ok here
  | part :: parts =>
    match (root.at? here).bind children? with
    -- even a dot needs a directory to start from
    | none => .error .notADirectory
    | some children =>
      if Path.isHere part then root.follow links here parts
      else if Path.isUp part then root.follow links here.dropLast parts
      else if Path.longestName < part.utf8ByteSize then .error .nameTooLong
      else
        match children.lookup part with
        | none => .error .notFound
        | some (.link target) =>
          match links with
          | 0 => .error .tooManyLinks
          | links + 1 =>
            -- the target takes the place of the name
            root.follow links (if Path.isAbsolute target then [] else here)
              (Path.parts target ++ parts)
        | some _ => root.follow links (here ++ [part]) parts
termination_by (links, parts.length)

/-- The tree with a new entry at a place. Directories on the way are made when they are missing. -/
def put (e : Entry) (entry : Entry) : Place → Entry
  | [] => entry
  | name :: names =>
    let children := e.children?.getD []
    let child := ((children.lookup name).getD (.directory [])).put entry names
    if (children.lookup name).isSome then
      .directory (children.map fun c => if c.1 == name then (name, child) else c)
    else .directory (children ++ [(name, child)])

/-- The bytes of a file. -/
def bytes : Entry → Except FileFault ByteArray
  | file bytes  => .ok bytes
  | directory _ => .error .isADirectory
  | link _      => .error .tooManyLinks

end Entry

/-- A file tree and the place that relative paths start from. -/
structure FileTree where
  root : Entry
  here : Place := []

namespace FileTree

/-- The place where a path starts. -/
def base (t : FileTree) (path : String) : Place :=
  if Path.isAbsolute path then [] else t.here

/-- The place that `path` leads to from `base`. -/
def canonicalizeFrom (t : FileTree) (base : Place) (path : String) : Except FileFault Place :=
  if path.toList.contains '\x00' then .error .nulInPath
  else if path.isEmpty then .error .notFound
  else t.root.follow Path.mostLinks base (Path.parts path)

/-- The place of a path. -/
def canonicalize (t : FileTree) (path : String) : Except FileFault Place :=
  t.canonicalizeFrom (t.base path) path

/-- The bytes of the file at a place. -/
def readAt (t : FileTree) (place : Place) : Except FileFault ByteArray :=
  match t.root.at? place with
  | some e => e.bytes
  | none => .error .notFound

/-- The place of a path that is opened, which bounds its length. -/
def locate (t : FileTree) (path : String) : Except FileFault Place :=
  if Path.pathBytes ≤ path.utf8ByteSize then .error .nameTooLong else t.canonicalize path

/-- The bytes of the file behind a path. -/
def read (t : FileTree) (path : String) : Except FileFault ByteArray :=
  (t.locate path).bind t.readAt

/-- Whether there is a file behind a path. -/
def isFile (t : FileTree) (path : String) : Bool :=
  match t.read path with
  | .ok _ => true
  | .error _ => false

/-- The place that a file is written to: the path without its last name has to lead to a directory,
and a link in last position is followed, also to where nothing is yet. -/
def target (root : Entry) (links : Nat) (here : Place) (directory : List String) (name : String) :
    Except FileFault Place :=
  match root.follow Path.mostLinks here directory with
  | .error fault => .error fault
  | .ok place =>
    match (root.at? place).bind Entry.children? with
    | none => .error .notADirectory
    | some children =>
      if Path.isHere name || Path.isUp name then .error .isADirectory
      else if Path.longestName < name.utf8ByteSize then .error .nameTooLong
      else
        match children.lookup name with
        | some (.directory _) => .error .isADirectory
        | some (.link path) =>
          match links with
          | 0 => .error .tooManyLinks
          | links + 1 =>
            let (directory, name) := Path.splitLast path
            target root links (if Path.isAbsolute path then [] else place) directory name
        | _ => .ok (place ++ [name])

/-- The tree after bytes are written to the file behind a path; the file is made when it is not
there. -/
def write (t : FileTree) (path : String) (bytes : ByteArray) : Except FileFault FileTree :=
  if path.toList.contains '\x00' then .error .nulInPath
  else if path.isEmpty then .error .notFound
  else if Path.pathBytes ≤ path.utf8ByteSize then .error .nameTooLong
  else
    let (directory, name) := Path.splitLast path
    match target t.root Path.mostLinks (t.base path) directory name with
    | .error fault => .error fault
    | .ok place => .ok { t with root := t.root.put (.file bytes) place }

/-- The tree after an entry is put at a path. Missing directories are made, links on the way are
followed. -/
def lay (t : FileTree) (path : String) (entry : Entry) : FileTree :=
  let parts := Path.parts path
  let step (state : FileTree × Place) (part : String) : FileTree × Place :=
    let (t, here) := state
    match t.root.follow Path.mostLinks here [part] with
    | .ok place => (t, place)
    | .error _ => ({ t with root := t.root.put (.directory []) (here ++ [part]) }, here ++ [part])
  let (t, here) := parts.dropLast.foldl step (t, t.base path)
  { t with root := t.root.put entry (here ++ [parts.getLastD ""]) }

/-- The tree after a directory is made at a path, with those above it. -/
def makeDirectory (t : FileTree) (path : String) : FileTree :=
  match t.canonicalize path with
  | .ok _ => t
  | .error _ => t.lay path (.directory [])

end FileTree

end Stencil
