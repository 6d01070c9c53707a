import Stencil.Token

/-!
# Stencil — token streams

A stream is a cursor in a list of tokens: the tokens already read, those still to come, and the
number of loops whose bodies are being read. Reading moves one token over and changes nothing else,
so the tokens of a stream stay the same for its whole life (`tokens_of_next?`).
-/

namespace Stencil

/-- A cursor over tokens. -/
structure TokenStream where
  /-- The tokens read so far, latest first. -/
  consumed  : List Token
  /-- The tokens to come. -/
  rest      : List Token
  /-- How many loops are being read. -/
  loopDepth : Nat
  deriving DecidableEq, Repr

namespace TokenStream

/-- A stream at the first of `tokens`. -/
def ofTokens (tokens : List Token) : TokenStream := ⟨[], tokens, 0⟩

/-- All tokens of the stream, read or not, in source order. -/
def tokens (s : TokenStream) : List Token := s.consumed.reverse ++ s.rest

/-- How many tokens have been read. -/
def offset (s : TokenStream) : Nat := s.consumed.length

/-- Whether no token is left. -/
def exhausted (s : TokenStream) : Bool := s.rest.isEmpty

/-- The next token, left in place. -/
def peek? (s : TokenStream) : Option Token := s.rest.head?

/-- The next token and the stream after it. -/
def next? (s : TokenStream) : Option (Token × TokenStream) :=
  match s.rest with
  | [] => none
  | t :: ts => some (t, { s with consumed := t :: s.consumed, rest := ts })

/-- The text of the tokens read since `start` tokens had been read. -/
def sourceSince (s : TokenStream) (start : Nat) : String :=
  sourceOf (s.consumed.reverse.drop start)

/-- The stream as the body of a loop starts. -/
def enterLoop (s : TokenStream) : TokenStream := { s with loopDepth := s.loopDepth + 1 }

/-- The stream as the body of a loop ends. -/
def exitLoop (s : TokenStream) : TokenStream := { s with loopDepth := s.loopDepth - 1 }

/-- Nothing comes next exactly when no token is left. -/
theorem next?_eq_none_iff (s : TokenStream) : s.next? = none ↔ s.rest = [] := by
  cases h : s.rest <;> simp [next?, h]

/-- Reading a token leaves one fewer. -/
theorem length_rest_of_next? {s s' : TokenStream} {t : Token} (h : s.next? = some (t, s')) :
    s.rest.length = s'.rest.length + 1 := by
  cases hr : s.rest with
  | nil => simp [next?, hr] at h
  | cons t' ts =>
    simp only [next?, hr, Option.some.injEq, Prod.mk.injEq] at h
    obtain ⟨-, rfl⟩ := h
    rfl

/-- Reading a token keeps the tokens of the stream. -/
theorem tokens_of_next? {s s' : TokenStream} {t : Token} (h : s.next? = some (t, s')) :
    s'.tokens = s.tokens := by
  cases hr : s.rest with
  | nil => simp [next?, hr] at h
  | cons t' ts =>
    simp only [next?, hr, Option.some.injEq, Prod.mk.injEq] at h
    obtain ⟨-, rfl⟩ := h
    simp [tokens, hr]

@[simp] theorem rest_enterLoop (s : TokenStream) : s.enterLoop.rest = s.rest := rfl

@[simp] theorem rest_exitLoop (s : TokenStream) : s.exitLoop.rest = s.rest := rfl

end TokenStream

end Stencil
