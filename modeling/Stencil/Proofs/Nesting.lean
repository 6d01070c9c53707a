import Stencil.Proofs.OnePass

/-!
# Stencil — limits in lock-step, and the nesting of loops

Two runs that differ in their limits alone do the same, step by step, until one of them is stopped
by a limit of its own. This module says what that means and shows it for parsing.

* `Limits.Hit` — the error that reports one of the three limits.
* `Limits.LockStep` — how the results of two such runs compare, given what the first one needs. From
  it follow the two things one wants to know: which limits a run that succeeded would have been
  stopped by (`LockStep.of_ok`), and that wider limits change nothing (`LockStep.of_le`).
* `Parser.nesting` — the largest number of loops that are open at once, counted along the tokens.
* `lockStep_parseText` — parsing under two limits, which needs as much as loops nest.
-/

namespace Stencil

/-! ## Limits -/

namespace Limits

/-- No limit of `limits` is above its counterpart. -/
instance : LE Limits := ⟨fun limits limits' => ∀ name, limits.value name ≤ limits'.value name⟩

theorem le_iff {limits limits' : Limits} :
    limits ≤ limits' ↔
      limits.maxIncludeDepth ≤ limits'.maxIncludeDepth ∧
      limits.maxLoopEvaluations ≤ limits'.maxLoopEvaluations ∧
      limits.maxLoopNesting ≤ limits'.maxLoopNesting := by
  constructor
  · intro hLe
    exact ⟨hLe .includeDepth, hLe .loopEvaluations, hLe .loopNesting⟩
  · rintro ⟨hDepth, hLoops, hNesting⟩ (_ | _ | _)
    · exact hDepth
    · exact hLoops
    · exact hNesting

instance (limits limits' : Limits) : Decidable (limits ≤ limits') :=
  decidable_of_iff' _ le_iff

/-- The error reports that this limit of `limits` was reached. -/
inductive Hit (limits : Limits) : LimitName → Error → Prop
  | includeDepth    : limits.Hit .includeDepth (.depthExceeded limits.maxIncludeDepth)
  | loopEvaluations : limits.Hit .loopEvaluations (.loopLimit limits.maxLoopEvaluations)
  | loopNesting (position : Position) :
      limits.Hit .loopNesting (.grammar position (.nestingLimit limits.maxLoopNesting))

/--
**Two runs in lock-step**, one under `limits` with result `r` and one under `limits'` with result
`r'`, where `need` is what the first takes when it succeeds and `same` says that the second did the
same. Unless the first is stopped by a limit of its own, the second does the same, or is stopped by
a limit of its own that is narrower than that of the first and too narrow for the need.
-/
inductive LockStep {α : Type} (limits limits' need : Limits) (same : Prop)
    (r r' : Except Error α) : Prop
  | stopped (name : LimitName) (e : Error) (hResult : r = .error e) (hHit : limits.Hit name e)
  | same (hSame : same) (hNeed : ∀ a, r = .ok a → need ≤ limits')
  | exceeded (name : LimitName) (e : Error) (hResult : r' = .error e) (hHit : limits'.Hit name e)
      (hNarrow : limits'.value name < limits.value name)
      (hNeed : ∀ a, r = .ok a → limits'.value name < need.value name)

namespace LockStep

variable {α : Type} {limits limits' need need' : Limits} {same same' : Prop}
  {r r' : Except Error α}

theorem imp (h : LockStep limits limits' need same r r') (hSame : same → same') :
    LockStep limits limits' need same' r r' := by
  cases h with
  | stopped name e hResult hHit => exact .stopped name e hResult hHit
  | same hDone hNeed => exact .same (hSame hDone) hNeed
  | exceeded name e hResult hHit hNarrow hNeed =>
    exact .exceeded name e hResult hHit hNarrow hNeed

/-- A failure that has nothing to do with limits takes nothing. -/
theorem failed {e : Error} (hSame : same) (hResult : r = .error e) :
    LockStep limits limits' need same r r' := by
  refine .same hSame fun a hOk => ?_
  rw [hResult] at hOk
  cases hOk

/-- The need may be taken larger by what `limits'` has room for. -/
theorem widen (h : LockStep limits limits' need same r r') (hMore : need ≤ need')
    (hFits : need ≤ limits' → need' ≤ limits') : LockStep limits limits' need' same r r' := by
  cases h with
  | stopped name e hResult hHit => exact .stopped name e hResult hHit
  | same hSame hNeed => exact .same hSame fun a hOk => hFits (hNeed a hOk)
  | exceeded name e hResult hHit hNarrow hNeed =>
    exact .exceeded name e hResult hHit hNarrow fun a hOk =>
      Nat.lt_of_lt_of_le (hNeed a hOk) (hMore name)

/-- **Thresholds.** If the first run succeeds, the second does the same when its limits have room
for the need, and otherwise is stopped by one that has not. -/
theorem of_ok {a : α} (h : LockStep limits limits' need same r r') (hOk : r = .ok a) :
    (need ≤ limits' → same) ∧
    (¬ need ≤ limits' →
      ∃ name e, r' = .error e ∧ limits'.Hit name e ∧ limits'.value name < need.value name) := by
  cases h with
  | stopped name e hResult hHit => simp [hResult] at hOk
  | same hSame hNeed => exact ⟨fun _ => hSame, fun hShort => absurd (hNeed a hOk) hShort⟩
  | exceeded name e hResult hHit hNarrow hNeed =>
    refine ⟨fun hRoom => ?_, fun _ => ⟨name, e, hResult, hHit, hNeed a hOk⟩⟩
    exact absurd (hRoom name) (Nat.not_le.mpr (hNeed a hOk))

/-- **Wider limits change nothing** for a run that is not stopped by a limit of its own. -/
theorem of_le (h : LockStep limits limits' need same r r') (hWider : limits ≤ limits')
    (hFree : ∀ name e, r = .error e → ¬ limits.Hit name e) : same := by
  cases h with
  | stopped name e hResult hHit => exact absurd hHit (hFree name e hResult)
  | same hSame hNeed => exact hSame
  | exceeded name e hResult hHit hNarrow hNeed =>
    exact absurd (hWider name) (Nat.not_le.mpr hNarrow)

end LockStep

end Limits

/-! ## The nesting of loops -/

namespace Parser

/-- The token is a tag that the loop construct claims before any other. -/
def opensLoop (p : Parser) : Token → Bool
  | .text ..         => false
  | .tag content _ _ => p.constructs.find? (·.claims content) == some .loop

/-- The largest number of loops open at once as one of the tokens opens one more, where `depth`
loops are open before them; zero if none does. Loops that are never closed stay open. -/
def nesting (p : Parser) : (depth : Nat) → List Token → Nat
  | _, [] => 0
  | depth, t :: ts =>
    if t.isTag loopEnd ∧ depth ≠ 0 then p.nesting (depth - 1) ts
    else if p.opensLoop t then max (depth + 1) (p.nesting (depth + 1) ts)
    else p.nesting depth ts

/-- The largest number of loops open at once in a template. -/
def textNesting (p : Parser) (template : String) : Nat :=
  p.nesting 0 (Token.scan template)

variable (p : Parser) (limits limits' : Limits)

/-- How deep loops nest is up to the constructs, not to the limits. -/
theorem nesting_withLimits (depth : Nat) (tokens : List Token) :
    (p.withLimits limits).nesting depth tokens = p.nesting depth tokens := by
  induction tokens generalizing depth with
  | nil => rfl
  | cons t ts ih =>
    have hOpens : (p.withLimits limits).opensLoop t = p.opensLoop t := by cases t <;> rfl
    rw [nesting, nesting, ih, ih, ih, hOpens]

/-- A token that does not open a loop means a node or an error, whatever the limits. -/
theorem meaning_of_not_opensLoop {t : Token} (hOpens : ¬ p.opensLoop t = true) (depth : Nat) :
    ∃ r : Except Error Node,
      ∀ limits : Limits, (p.withLimits limits).meaning depth t = r.map .node := by
  cases t with
  | text content position => exact ⟨.ok (.text content position), fun _ => rfl⟩
  | tag content raw position =>
    cases hFind : p.constructs.find? (·.claims content) with
    | none =>
      refine ⟨.ok (.text (tagSource content) position), fun limits => ?_⟩
      simp [meaning, withLimits, hFind, Except.map]
    | some construct =>
      cases construct with
      | loop => exact absurd (by simp [opensLoop, hFind]) hOpens
      | inclusion =>
        refine ⟨(includeTarget content).map fun name => .inclusion name position, fun limits => ?_⟩
        simp only [meaning, withLimits, hFind]
        cases includeTarget content <;> rfl
      | placeholder =>
        refine ⟨.ok (.placeholder content position), fun limits => ?_⟩
        simp [meaning, withLimits, hFind, Except.map]

/-- A token that opens a loop means a header, unless it is malformed, whatever the limits, or as
many loops as allowed are open. -/
theorem meaning_of_opensLoop {t : Token} (hOpens : p.opensLoop t = true) (depth : Nat) :
    (∃ e, ∀ limits : Limits, (p.withLimits limits).meaning depth t = .error e) ∨
    (∃ header position, ∀ limits : Limits, (p.withLimits limits).meaning depth t =
      if limits.maxLoopNesting ≤ depth then
        .error (.grammar position (.nestingLimit limits.maxLoopNesting))
      else .ok (.loop header)) := by
  cases t with
  | text content position => simp [opensLoop] at hOpens
  | tag content raw position =>
    have hFind : p.constructs.find? (·.claims content) = some .loop := by
      simpa [opensLoop] using hOpens
    cases hRead : LoopHeader.read? content with
    | none =>
      refine .inl ⟨.grammar position (.malformedLoop content), fun limits => ?_⟩
      simp [meaning, withLimits, hFind, openLoop, hRead, Except.map]
    | some header =>
      refine .inr ⟨header, position, fun limits => ?_⟩
      have hOpen : (p.withLimits limits).openLoop content position depth =
          if limits.maxLoopNesting ≤ depth then
            .error (.grammar position (.nestingLimit limits.maxLoopNesting))
          else .ok header := by
        rw [openLoop, hRead]
        rfl
      have hMap : (p.withLimits limits).meaning depth (.tag content raw position) =
          ((p.withLimits limits).openLoop content position depth).map .loop := by
        rw [meaning, withLimits, hFind]
      rw [hMap, hOpen]
      by_cases hFull : limits.maxLoopNesting ≤ depth
      · rw [if_pos hFull, if_pos hFull]
        rfl
      · rw [if_neg hFull, if_neg hFull]
        rfl

open Pass Limits

/-- What a parse needs in which `n` loops are open at once. -/
def nestingNeed (n : Nat) : Limits :=
  { maxIncludeDepth := 0, maxLoopEvaluations := 0, maxLoopNesting := n }

theorem nestingNeed_le_iff {n : Nat} : nestingNeed n ≤ limits ↔ n ≤ limits.maxLoopNesting := by
  simp [Limits.le_iff, nestingNeed]

theorem nestingNeed_mono {m n : Nat} (hLe : m ≤ n) : nestingNeed m ≤ nestingNeed n :=
  (nestingNeed_le_iff _).mpr hLe

/-- A token means the same under two limits, unless it opens a loop that one of them has no room
for. -/
theorem lockStep_meaning (depth : Nat) (t : Token) :
    LockStep limits limits' (nestingNeed (if p.opensLoop t then depth + 1 else 0))
      ((p.withLimits limits').meaning depth t = (p.withLimits limits).meaning depth t)
      ((p.withLimits limits).meaning depth t) ((p.withLimits limits').meaning depth t) := by
  by_cases hOpens : p.opensLoop t = true
  · rw [if_pos hOpens]
    rcases p.meaning_of_opensLoop hOpens depth with ⟨e, hMeaning⟩ | ⟨header, position, hMeaning⟩
    · -- malformed under any limits
      rw [hMeaning, hMeaning]
      exact .failed rfl rfl
    · rw [hMeaning, hMeaning]
      by_cases hFull : limits.maxLoopNesting ≤ depth
      · rw [if_pos hFull]
        exact .stopped .loopNesting _ rfl (.loopNesting position)
      · rw [if_neg hFull]
        by_cases hFull' : limits'.maxLoopNesting ≤ depth
        · rw [if_pos hFull']
          refine .exceeded .loopNesting _ rfl (.loopNesting position) ?_ fun _ _ => ?_
          · exact Nat.lt_of_le_of_lt hFull' (Nat.not_le.mp hFull)
          · exact Nat.lt_succ_of_le hFull'
        · rw [if_neg hFull']
          exact .same rfl fun _ _ => (nestingNeed_le_iff _).mpr (Nat.not_le.mp hFull')
  · obtain ⟨r, hMeaning⟩ := p.meaning_of_not_opensLoop hOpens depth
    rw [if_neg hOpens, hMeaning, hMeaning]
    exact .same rfl fun _ _ => (nestingNeed_le_iff _).mpr (Nat.zero_le _)

/-- A token means a loop only if it opens one, and a node only if it does not. -/
theorem opensLoop_of_meaning {depth : Nat} {t : Token} {m : Meaning}
    (hMeaning : (p.withLimits limits).meaning depth t = .ok m) :
    p.opensLoop t = true ↔ ∃ header, m = .loop header := by
  constructor
  · intro hOpens
    rcases p.meaning_of_opensLoop hOpens depth with ⟨e, hAll⟩ | ⟨header, position, hAll⟩
    · rw [hAll] at hMeaning
      cases hMeaning
    · rw [hAll] at hMeaning
      split at hMeaning
      · cases hMeaning
      · exact ⟨header, (Except.ok.inj hMeaning).symm⟩
  · rintro ⟨header, rfl⟩
    refine Decidable.by_contra fun hOpens => ?_
    obtain ⟨_ | node, hAll⟩ := p.meaning_of_not_opensLoop hOpens depth
    · rw [hAll] at hMeaning
      cases hMeaning
    · rw [hAll] at hMeaning
      cases hMeaning

/--
**Walks in lock-step.** From the same place in the same tokens, walks under two limits do the same
until a loop opens that one of them has no room for.
-/
theorem lockStep_run (tokens : List Token) (pass : Pass) :
    LockStep limits limits' (nestingNeed (p.nesting pass.loops.length tokens))
      (run (p.withLimits limits').meaning tokens pass =
        run (p.withLimits limits).meaning tokens pass)
      (run (p.withLimits limits).meaning tokens pass)
      (run (p.withLimits limits').meaning tokens pass) := by
  induction tokens generalizing pass with
  | nil => exact .same rfl fun _ _ => (nestingNeed_le_iff _).mpr (Nat.zero_le _)
  | cons t ts ih =>
    simp only [run, step]
    by_cases hClose : t.isTag loopEnd ∧ pass.loops ≠ []
    · -- both close the innermost loop
      have hNesting : p.nesting pass.loops.length (t :: ts) =
          p.nesting pass.close.loops.length ts := by
        obtain ⟨hTag, hOpen⟩ := hClose
        obtain ⟨nodes, _ | ⟨l, ls⟩⟩ := pass
        · exact absurd rfl hOpen
        · simp [nesting, hTag, Pass.close]
      simp only [if_pos hClose, hNesting]
      exact ih pass.close
    · have hStay : ¬ (t.isTag loopEnd ∧ pass.loops.length ≠ 0) := by
        simpa [List.length_eq_zero_iff] using hClose
      rw [nesting, if_neg hStay]
      simp only [if_neg hClose]
      cases p.lockStep_meaning limits limits' pass.loops.length t with
      | stopped name e hResult hHit =>
        rw [hResult]
        exact .stopped name e rfl hHit
      | exceeded name e hResult hHit hNarrow hNeed =>
        rw [hResult]
        refine .exceeded name e rfl hHit hNarrow fun _ hOk => ?_
        -- a walk that succeeds has given the token a meaning
        cases hMeaning : (p.withLimits limits).meaning pass.loops.length t with
        | error e =>
          rw [hMeaning] at hOk
          cases hOk
        | ok m =>
          refine Nat.lt_of_lt_of_le (hNeed m hMeaning) (nestingNeed_mono ?_ name)
          split
          · exact Nat.le_max_left _ _
          · exact Nat.zero_le _
      | same hSame hNeed =>
        -- both take the same step, and stand at the same place after it
        rw [hSame]
        cases hMeaning : (p.withLimits limits).meaning pass.loops.length t with
        | error e => exact .failed rfl rfl
        | ok m =>
          have hOpens := p.opensLoop_of_meaning limits hMeaning
          cases m with
          | node node =>
            rw [if_neg (by simp [hOpens])]
            exact ih (pass.add node)
          | loop header =>
            have hOpen : p.opensLoop t = true := hOpens.mpr ⟨header, rfl⟩
            -- the loop just opened has to fit, and those inside it
            have hRoom := (nestingNeed_le_iff _).mp (hNeed _ hMeaning)
            rw [if_pos hOpen] at hRoom ⊢
            refine (ih (pass.enter header t.position (t :: ts))).widen
              (nestingNeed_mono (Nat.le_max_right _ _)) fun hRest => ?_
            rw [nestingNeed_le_iff] at hRest ⊢
            exact Nat.max_le.mpr ⟨hRoom, hRest⟩

/-- **Parsing in lock-step.** A template is parsed alike under two limits, up to the first loop that
one of them has no room for. -/
theorem lockStep_parseText (template : String) :
    LockStep limits limits' (nestingNeed (p.textNesting template))
      ((p.withLimits limits').parseText template = (p.withLimits limits).parseText template)
      ((p.withLimits limits).parseText template) ((p.withLimits limits').parseText template) := by
  simp only [parseText, parse_eq_run]
  exact p.lockStep_run limits limits' (Token.scan template) {}

end Parser

end Stencil
