import Stencil.Piece
import Stencil.Position
import Stencil.Text.Blank

/-!
# Stencil — tokens

A token is a piece of a template with the place where it starts. The content of a tag is trimmed;
its raw text is kept beside it, so that a template can always be written back as it was.

* `Token.scan`   — the tokens of a template. It never fails.
* `Token.source` — a token as it was written.
* `tagSource`    — a tag around a given content, as kept in output that nothing replaced.
-/

namespace Stencil

open Text

/-- A lexical unit of a template. -/
inductive Token where
  /-- Literal text, kept exactly. -/
  | text (content : String) (position : Position)
  /-- A tag: its trimmed content, and the tag as written with its braces. -/
  | tag (content raw : String) (position : Position)
  deriving DecidableEq, Repr

/-- `content` between tag braces. -/
def tagSource (content : String) : String :=
  "\x7b\x7b" ++ content ++ "\x7d\x7d"

namespace Token

/-- Where the token starts. -/
def position : Token → Position
  | text _ p  => p
  | tag _ _ p => p

/-- The token as it was written. -/
def source : Token → String
  | text content _ => content
  | tag _ raw _    => raw

/-- The token of a piece that starts at `p`. -/
def ofPiece (p : Position) : Piece → Token
  | .text chars => text (String.ofList chars) p
  | .tag inner  => tag (String.ofList (trim inner)) (String.ofList (Piece.tag inner).source) p

/-- The tokens of pieces that follow each other from `p` on. -/
def locate (p : Position) : List Piece → List Token
  | []          => []
  | piece :: ps => ofPiece p piece :: locate (p.advance piece.source) ps

/-- The tokens of a template, in source order. -/
def scan (template : String) : List Token :=
  locate .start (pieces template.toList)

end Token

/-- The text that a run of tokens was read from. -/
def sourceOf (tokens : List Token) : String :=
  String.join (tokens.map Token.source)

end Stencil
