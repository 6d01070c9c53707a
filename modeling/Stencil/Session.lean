import Stencil.Error

/-!
# Stencil — render sessions

A session is the state of one render: the chain of includes that are active, outermost first, and
the number of loops evaluated so far. Both are kept within limits.

* `Session.recordLoop`   — charges one loop to the budget.
* `Session.enterInclude` — puts a name on the chain. A name that is there already is a cycle, also
  when the chain is full; a full chain takes no name at all.
* `Session.leaveInclude` — takes the innermost name off again.

A step that fails changes nothing.
-/

namespace Stencil

/-- Limits, include chain and loop count of one render. -/
structure Session where
  limits : Limits
  /-- The includes that are active, outermost first. -/
  chain  : List String := []
  /-- The loops evaluated so far. -/
  loops  : Nat := 0
  deriving DecidableEq, Repr

namespace Session

/-- A session in which nothing has happened. -/
def start (limits : Limits) : Session := { limits }

/-- How many more includes may become active. -/
def room (s : Session) : Nat := s.limits.maxIncludeDepth - s.chain.length

/-- Charges one loop to the budget, unless it is used up. -/
def recordLoop (s : Session) : Except Error Session :=
  if s.limits.maxLoopEvaluations ≤ s.loops then .error (.loopLimit s.limits.maxLoopEvaluations)
  else .ok { s with loops := s.loops + 1 }

/-- Puts `name` on the include chain. -/
def enterInclude (s : Session) (name : String) : Except Error Session :=
  if s.chain.contains name then .error (.circularInclude (s.chain ++ [name]))
  else if s.room = 0 then .error (.depthExceeded s.limits.maxIncludeDepth)
  else .ok { s with chain := s.chain ++ [name] }

/-- Takes the innermost include off the chain. -/
def leaveInclude (s : Session) : Session :=
  { s with chain := s.chain.dropLast }

end Session

end Stencil
