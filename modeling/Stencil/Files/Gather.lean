import Stencil.Files.Directory
import Stencil.Parser

/-!
# Stencil — gathering templates

Rendering asks a source for one template after the other, and a source answers at once. Templates
behind a disk are therefore gathered first: the template wanted, the templates that it includes, and
so on, as many levels as includes may nest. An answer may be an error; it comes up only if rendering
asks for that name.

* `Directory.gather` — the answers for a template and all that it may include.
-/

namespace Stencil

mutual

/-- The names that a node includes, itself or in the body of a loop. -/
def Node.includedNames : Node → List String
  | .inclusion name _ => [name]
  | .loop _ _ body _ => includedNames body
  | .text .. | .placeholder .. => []
termination_by structural node => node

/-- The names that nodes include. -/
def includedNames : List Node → List String
  | [] => []
  | node :: nodes => node.includedNames ++ includedNames nodes
termination_by structural nodes => nodes

end

/-- Answers of a source, by name. -/
abbrev Answers := List (String × Except Error String)

/-- Answers as a source. What was not asked is not found. -/
def Answers.source (answers : Answers) (name : String) : Except Error String :=
  (answers.lookup name).getD (.error (.notFound name))

/-- The names that the templates among answers include. -/
def Answers.includes (parser : Parser) (answers : Answers) : List String :=
  answers.flatMap fun (_, answer) =>
    match answer.bind parser.parseText with
    | .ok nodes => includedNames nodes
    | .error _ => []

namespace Directory

/-- The answers known already and those for the names wanted, with `levels` levels of what they
include. -/
def gather {m : Type → Type} [Monad m] (disk : Disk m) (d : Directory) (parser : Parser) :
    (levels : Nat) → (known : Answers) → (wanted : List String) → m Answers
  | 0, known, _ => return known
  | levels + 1, known, wanted => do
    -- nobody is asked twice, so cycles of includes end here
    match (wanted.filter fun name => (known.lookup name).isNone).eraseDups with
    | [] => return known
    | names =>
      let answers ← names.mapM fun name => do return (name, ← d.content disk name)
      d.gather disk parser levels (known ++ answers) (Answers.includes parser answers)

end Directory

end Stencil
