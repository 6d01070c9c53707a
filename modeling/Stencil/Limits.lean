/-!
# Stencil — limits

Three limits keep every render finite and shallow: how many includes may be active at once, how many
loops one render may evaluate, and how deep loops may nest in one template. A limit of zero would
make some construct useless, so an engine refuses it.
-/

namespace Stencil

/-- The limits that an engine enforces. -/
structure Limits where
  maxIncludeDepth    : Nat := 10
  maxLoopEvaluations : Nat := 1000
  maxLoopNesting     : Nat := 64
  deriving DecidableEq, Repr, Inhabited

/-- The names of the three limits. -/
inductive LimitName where
  | includeDepth
  | loopEvaluations
  | loopNesting
  deriving DecidableEq, Repr

/-- The name of a limit in a settings file, in the environment and in messages. -/
def LimitName.key : LimitName → String
  | includeDepth    => "max_include_depth"
  | loopEvaluations => "max_loop_evaluations"
  | loopNesting     => "max_loop_nesting"

/-- The three names, in the order in which limits are checked. -/
def LimitName.all : List LimitName := [.includeDepth, .loopEvaluations, .loopNesting]

namespace Limits

/-- The limit of the given name. -/
def value (limits : Limits) : LimitName → Nat
  | .includeDepth    => limits.maxIncludeDepth
  | .loopEvaluations => limits.maxLoopEvaluations
  | .loopNesting     => limits.maxLoopNesting

/-- `limits` with one of them replaced. -/
def replace (limits : Limits) (name : LimitName) (n : Nat) : Limits :=
  match name with
  | .includeDepth    => { limits with maxIncludeDepth := n }
  | .loopEvaluations => { limits with maxLoopEvaluations := n }
  | .loopNesting     => { limits with maxLoopNesting := n }

/-- The first limit that is zero. -/
def zeroLimit? (limits : Limits) : Option LimitName :=
  LimitName.all.find? fun name => limits.value name == 0

/-- Limits are usable when none of them is zero. -/
def Positive (limits : Limits) : Prop :=
  0 < limits.maxIncludeDepth ∧ 0 < limits.maxLoopEvaluations ∧ 0 < limits.maxLoopNesting

/-- No zero limit is found exactly when the limits are usable. -/
theorem zeroLimit?_eq_none_iff (limits : Limits) : limits.zeroLimit? = none ↔ limits.Positive := by
  simp [zeroLimit?, LimitName.all, value, Positive, Nat.pos_iff_ne_zero]

end Limits

end Stencil
