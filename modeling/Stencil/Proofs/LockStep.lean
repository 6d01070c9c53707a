import Stencil.Proofs.Kept
import Stencil.Proofs.Nesting

/-!
# Stencil — rendering in lock-step

Take one render twice, from sessions that differ in their limits alone. Everything that happens in
the first happens in the second too, in the same order, until one of the two is stopped by a limit
of its own: a loop that cannot be charged, a chain that takes no more names, or a template whose
loops nest too deep.

* `Parser.need` — what a render took: the longest chain of includes in its questions, the loops
  charged, and the deepest nesting in any template that it asked for.
* `Outcome.LockStep` — the comparison of `Limits.LockStep`, for this need; doing the same means the
  same result and the same questions, and sessions that again differ in their limits alone.
* `IncludeRule.LockStep` — two ways to render includes that go in lock-step for chains of one
  length. Rendering with them goes in lock-step (`lockStep_renderNodes`), and the rules of the two
  renderers do, for any length (`lockStep_renderInclude`).
* `lockStep_evaluate` — rendering goes in lock-step.
-/

namespace Stencil

/-! ## One render under two sets of limits -/

/-- The session under other limits. -/
def Session.relimit (s : Session) (limits : Limits) : Session := { s with limits }

/-- The outcome as it is for a session under other limits. -/
def Outcome.relimit (o : Outcome) (limits : Limits) : Outcome :=
  { o with session := o.session.relimit limits }

/-- The largest value of `f` on a list; zero if it is empty. -/
def maxOf {α : Type} (f : α → Nat) (as : List α) : Nat :=
  as.foldr (fun a n => max (f a) n) 0

theorem maxOf_cons {α : Type} (f : α → Nat) (a : α) (as : List α) :
    maxOf f (a :: as) = max (f a) (maxOf f as) := rfl

theorem maxOf_append {α : Type} (f : α → Nat) (as bs : List α) :
    maxOf f (as ++ bs) = max (maxOf f as) (maxOf f bs) := by
  induction as with
  | nil => simp [maxOf]
  | cons a as ih => rw [List.cons_append, maxOf_cons, maxOf_cons, ih, Nat.max_assoc]

/-- The largest number of loops open at once in the template of the given name, if there is one. -/
def Parser.nestingOf (p : Parser) (source : TemplateSource) (name : String) : Nat :=
  match source name with
  | .error _ => 0
  | .ok template => p.textNesting template

/-- What a render took that ended in `o`. -/
def Parser.need (p : Parser) (source : TemplateSource) (o : Outcome) : Limits where
  maxIncludeDepth    := maxOf (·.chain.length) o.requests
  maxLoopEvaluations := o.session.loops
  maxLoopNesting     := maxOf (fun request => p.nestingOf source request.name) o.requests

open Limits

/-- Two outcomes of one render, under `limits` and under `limits'`, that go in lock-step. -/
def Outcome.LockStep (p : Parser) (source : TemplateSource) (limits limits' : Limits)
    (o o' : Outcome) : Prop :=
  Limits.LockStep limits limits' (p.need source o) (o' = o.relimit limits') o.result o'.result

/-- Where a render under `limits` stands that one under `limits'` can be at too, with `depth`
includes active. -/
structure Session.Shared (limits limits' : Limits) (depth : Nat) (s : Session) : Prop where
  limits : s.limits = limits
  depth  : s.chain.length = depth
  loops  : s.loops ≤ limits'.maxLoopEvaluations

theorem Session.Shared.kept {limits limits' : Limits} {depth : Nat} {s s' : Session}
    (h : s.Shared limits limits' depth) (hKept : s.Kept s')
    (hLoops : s'.loops ≤ limits'.maxLoopEvaluations) : s'.Shared limits limits' depth :=
  ⟨hKept.limits.trans h.limits, (congrArg List.length hKept.chain).trans h.depth, hLoops⟩

/-- Two ways to render includes that go in lock-step where `depth` includes are active. -/
def IncludeRule.LockStep (p : Parser) (source : TemplateSource) (limits limits' : Limits)
    (depth : Nat) (onInclude onInclude' : IncludeRule) : Prop :=
  ∀ name c (s : Session), s.Shared limits limits' depth →
    Outcome.LockStep p source limits limits' (onInclude name c s)
      (onInclude' name c (s.relimit limits'))

variable {p : Parser} {source : TemplateSource} {limits limits' : Limits} {depth : Nat}

/-! ## Outcomes -/

namespace Outcome

variable {o o' : Outcome} {next next' : Session → Outcome}

theorem lockStep_done {s : Session} (hShared : s.Shared limits limits' depth) (text : String) :
    LockStep p source limits limits' (done text s) (done text (s.relimit limits')) :=
  .same rfl fun _ _ => le_iff.mpr ⟨Nat.zero_le _, hShared.loops, Nat.zero_le _⟩

theorem lockStep_fail (e : Error) (s : Session) :
    LockStep p source limits limits' (fail e s) (fail e (s.relimit limits')) :=
  .failed rfl rfl

theorem need_andThen {text : String} (hResult : o.result = .ok text) :
    p.need source (o.andThen next) =
      { maxIncludeDepth :=
          max (p.need source o).maxIncludeDepth (p.need source (next o.session)).maxIncludeDepth
        maxLoopEvaluations := (p.need source (next o.session)).maxLoopEvaluations
        maxLoopNesting := max (p.need source o).maxLoopNesting
          (p.need source (next o.session)).maxLoopNesting } := by
  rw [andThen_of_ok hResult]
  simp [Parser.need, maxOf_append]

/-- What comes first takes no more than everything. -/
theorem need_first_le_andThen {text : String} (hResult : o.result = .ok text)
    (hKept : o.session.Kept (next o.session).session) :
    p.need source o ≤ p.need source (o.andThen next) := by
  rw [need_andThen hResult]
  exact le_iff.mpr ⟨Nat.le_max_left _ _, hKept.loops, Nat.le_max_left _ _⟩

/-- What follows takes no more than everything. -/
theorem need_next_le_andThen {text : String} (hResult : o.result = .ok text) :
    p.need source (next o.session) ≤ p.need source (o.andThen next) := by
  rw [need_andThen hResult]
  exact le_iff.mpr ⟨Nat.le_max_right _ _, Nat.le_refl _, Nat.le_max_right _ _⟩

theorem need_andThen_le {text : String} (hResult : o.result = .ok text)
    (hFirst : p.need source o ≤ limits) (hNext : p.need source (next o.session) ≤ limits) :
    p.need source (o.andThen next) ≤ limits := by
  rw [need_andThen hResult]
  exact le_iff.mpr ⟨Nat.max_le.mpr ⟨hFirst .includeDepth, hNext .includeDepth⟩,
    hNext .loopEvaluations, Nat.max_le.mpr ⟨hFirst .loopNesting, hNext .loopNesting⟩⟩

/-- The whole succeeds only if what follows does. -/
theorem ok_of_andThen {text all : String} (hResult : o.result = .ok text)
    (hOk : (o.andThen next).result = .ok all) : ∃ text', (next o.session).result = .ok text' := by
  rw [andThen_of_ok hResult] at hOk
  cases hRest : (next o.session).result with
  | error e => simp [hRest, Except.map] at hOk
  | ok text' => exact ⟨text', rfl⟩

theorem result_andThen_eq_error {text : String} {e : Error} (hResult : o.result = .ok text)
    (hNext : (next o.session).result = .error e) : (o.andThen next).result = .error e := by
  rw [andThen_of_ok hResult]
  simp [hNext, Except.map]

theorem relimit_andThen {text : String} (hResult : o.result = .ok text)
    (hNext : next' (o.session.relimit limits') = (next o.session).relimit limits') :
    (o.relimit limits').andThen next' = (o.andThen next).relimit limits' := by
  have hResult' : (o.relimit limits').result = .ok text := hResult
  have hNext' : next' (o.relimit limits').session = (next o.session).relimit limits' := hNext
  rw [andThen_of_ok hResult, andThen_of_ok hResult', hNext']
  rfl

/-- One thing after another goes in lock-step if each does: what follows is only looked at when the
two stand at the same place, which the second has room for. -/
theorem LockStep.andThen (hFirst : LockStep p source limits limits' o o')
    (hKept : o.session.Kept (next o.session).session)
    (hNext : o.session.loops ≤ limits'.maxLoopEvaluations →
      LockStep p source limits limits' (next o.session) (next' (o.session.relimit limits'))) :
    LockStep p source limits limits' (o.andThen next) (o'.andThen next') := by
  cases hResult : o.result with
  | error e =>
    -- nothing follows an error, so the first step decides
    rw [andThen_of_error hResult]
    cases hFirst with
    | stopped name e hStop hHit => exact .stopped name e hStop hHit
    | same hSame _ =>
      obtain rfl := hSame
      have hResult' : (o.relimit limits').result = .error e := hResult
      rw [andThen_of_error hResult']
      exact .failed rfl hResult
    | exceeded name e hStop hHit hNarrow hNeed =>
      rw [andThen_of_error hStop]
      exact .exceeded name e hStop hHit hNarrow hNeed
  | ok text =>
    cases hFirst with
    | stopped name e hStop hHit => exact nomatch hStop.symm.trans hResult
    | exceeded name e hStop hHit hNarrow hNeed =>
      -- the second is stopped before the rest, and the first goes on to need no less
      rw [andThen_of_error hStop]
      exact .exceeded name e hStop hHit hNarrow fun _ _ =>
        Nat.lt_of_lt_of_le (hNeed text hResult) (need_first_le_andThen hResult hKept name)
    | same hSame hNeed =>
      obtain rfl := hSame
      -- the second has done the same so far, so both take the rest from the same place
      have hRoom := hNeed text hResult
      cases hNext (hRoom .loopEvaluations) with
      | stopped name e hStop hHit =>
        exact .stopped name e (result_andThen_eq_error hResult hStop) hHit
      | same hSame hRest =>
        refine .same (relimit_andThen hResult hSame) fun all hOk => ?_
        obtain ⟨text', hOk'⟩ := ok_of_andThen hResult hOk
        exact need_andThen_le hResult hRoom (hRest text' hOk')
      | exceeded name e hStop hHit hNarrow hRest =>
        have hResult' : (o.relimit limits').result = .ok text := hResult
        refine .exceeded name e (result_andThen_eq_error hResult' hStop) hHit hNarrow
          fun all hOk => ?_
        obtain ⟨text', hOk'⟩ := ok_of_andThen hResult hOk
        exact Nat.lt_of_lt_of_le (hRest text' hOk') (need_next_le_andThen hResult name)

/-- Steps in a row go in lock-step if each of them does. -/
theorem lockStep_sequence {α : Type} {step step' : α → Session → Outcome}
    (hKept : ∀ a (s : Session), s.Kept (step a s).session)
    (hStep : ∀ a (s : Session), s.Shared limits limits' depth →
      LockStep p source limits limits' (step a s) (step' a (s.relimit limits')))
    (as : List α) {s : Session} (hShared : s.Shared limits limits' depth) :
    LockStep p source limits limits' (sequence (as.map step) s)
      (sequence (as.map step') (s.relimit limits')) := by
  induction as generalizing s with
  | nil => exact lockStep_done hShared ""
  | cons a as ih =>
    refine (hStep a s hShared).andThen (kept_sequence hKept as _) fun hLoops => ?_
    exact ih (hShared.kept (hKept a s) hLoops)

end Outcome

/-! ## Trees -/

namespace Renderer

variable {q q' : Renderer} {onInclude onInclude' : IncludeRule}

theorem lockStep_renderItems {body : List Node}
    (hKept : ∀ c (s : Session), s.Kept (q.renderNodes onInclude body c s).session)
    (hBody : ∀ c (s : Session), s.Shared limits limits' depth →
      Outcome.LockStep p source limits limits' (q.renderNodes onInclude body c s)
        (q'.renderNodes onInclude' body c (s.relimit limits')))
    (item collection : String) (c : Context) {s : Session}
    (hShared : s.Shared limits limits' depth) :
    Outcome.LockStep p source limits limits' (q.renderItems onInclude item collection body c s)
      (q'.renderItems onInclude' item collection body c (s.relimit limits')) := by
  unfold renderItems
  cases (c.lookup? collection).bind Value.items? with
  | none => exact Outcome.lockStep_done hShared ""
  | some items =>
    exact Outcome.lockStep_sequence (fun v => hKept (c.forItem item v))
      (fun v => hBody (c.forItem item v)) items hShared

/-- A loop goes in lock-step if its body does in every context: it is charged to both budgets, or
one of them is used up. -/
theorem lockStep_loop {body : List Node}
    (hKept : ∀ c (s : Session), s.Kept (q.renderNodes onInclude body c s).session)
    (hBody : ∀ c (s : Session), s.Shared limits limits' depth →
      Outcome.LockStep p source limits limits' (q.renderNodes onInclude body c s)
        (q'.renderNodes onInclude' body c (s.relimit limits')))
    (item collection : String) (position : Position) (c : Context) {s : Session}
    (hShared : s.Shared limits limits' depth) :
    Outcome.LockStep p source limits limits'
      (q.renderNode onInclude (.loop item collection body position) c s)
      (q'.renderNode onInclude' (.loop item collection body position) c (s.relimit limits')) := by
  obtain rfl := hShared.limits
  rw [renderNode_loop, renderNode_loop]
  -- the budgets are asked in turn: first that of the first run
  by_cases hFull : s.limits.maxLoopEvaluations ≤ s.loops
  · rw [Session.recordLoop_of_full hFull]
    exact .stopped .loopEvaluations _ rfl .loopEvaluations
  · have hRecord := Session.recordLoop_eq_ok_iff.mpr ⟨Nat.not_le.mp hFull, rfl⟩
    rw [hRecord]
    by_cases hFull' : limits'.maxLoopEvaluations ≤ s.loops
    · have hRecord' : (s.relimit limits').recordLoop = .error (.loopLimit _) :=
        Session.recordLoop_of_full hFull'
      rw [hRecord']
      refine .exceeded .loopEvaluations _ rfl .loopEvaluations ?_ fun _ _ => ?_
      · exact Nat.lt_of_le_of_lt hFull' (Nat.not_le.mp hFull)
      · -- the loop that was charged is not taken back
        have hKeptItems := q.kept_renderItems hKept item collection c
          { s with loops := s.loops + 1 }
        exact Nat.lt_of_le_of_lt hFull' hKeptItems.loops
    · have hRecord' : (s.relimit limits').recordLoop = .ok _ :=
        Session.recordLoop_eq_ok_iff.mpr ⟨Nat.not_le.mp hFull', rfl⟩
      rw [hRecord']
      exact lockStep_renderItems hKept hBody item collection c
        ⟨rfl, hShared.depth, Nat.not_le.mp hFull'⟩

/-- Rendering goes in lock-step if its ways to render includes do. -/
theorem lockStep_renderNodes (hKeeps : onInclude.Keeps)
    (hRule : IncludeRule.LockStep p source limits limits' depth onInclude onInclude')
    (nodes : List Node) :
    ∀ c (s : Session), s.Shared limits limits' depth →
      Outcome.LockStep p source limits limits' (q.renderNodes onInclude nodes c s)
        (q'.renderNodes onInclude' nodes c (s.relimit limits')) := by
  induction nodes using Node.forest_induction with
  | nil => exact fun c s hShared => Outcome.lockStep_done hShared ""
  | text content position nodes ih =>
    intro c s hShared
    refine Outcome.LockStep.andThen (Outcome.lockStep_done hShared content)
      (q.kept_renderNodes hKeeps nodes c _) fun hLoops => ?_
    exact ih c s hShared
  | placeholder path position nodes ih =>
    intro c s hShared
    refine Outcome.LockStep.andThen (Outcome.lockStep_done hShared (placeholderText c path))
      (q.kept_renderNodes hKeeps nodes c _) fun hLoops => ?_
    exact ih c s hShared
  | inclusion name position nodes ih =>
    intro c s hShared
    refine (hRule name c s hShared).andThen (q.kept_renderNodes hKeeps nodes c _) fun hLoops => ?_
    exact ih c _ (hShared.kept (hKeeps name c s) hLoops)
  | loop item collection body position nodes hBody ih =>
    intro c s hShared
    have hKept := q.kept_renderNodes hKeeps body
    refine (lockStep_loop hKept hBody item collection position c hShared).andThen
      (q.kept_renderNodes hKeeps nodes c _) fun hLoops => ?_
    exact ih c _ (hShared.kept (q.kept_loop hKept item collection position c s) hLoops)

end Renderer

/-! ## Includes -/

/-- What a render took that parsed `template` and then ended in `o`. -/
def Parser.needAfter (p : Parser) (source : TemplateSource) (template : String) (o : Outcome) :
    Limits :=
  { p.need source o with
    maxLoopNesting := max (p.textNesting template) (p.need source o).maxLoopNesting }

namespace Outcome

variable {o o' : Outcome}

/-- A template is parsed in lock-step, and what follows goes in lock-step for every tree. -/
theorem lockStep_parsed {next next' : List Node → Outcome}
    (hNext : ∀ nodes, LockStep p source limits limits' (next nodes) (next' nodes))
    (template : String) (s : Session) :
    Limits.LockStep limits limits'
      (p.needAfter source template (((p.withLimits limits).over source).parsed template s next))
      (((p.withLimits limits').over source).parsed template (s.relimit limits') next' =
        (((p.withLimits limits).over source).parsed template s next).relimit limits')
      (((p.withLimits limits).over source).parsed template s next).result
      (((p.withLimits limits').over source).parsed template (s.relimit limits') next').result := by
  -- a template that is no tree under `limits` never gets to `next`
  cases hParse : (p.withLimits limits).parseText template with
  | error e =>
    rw [Renderer.parsed_of_error _ hParse]
    cases p.lockStep_parseText limits limits' template with
    | stopped name e' hResult hHit =>
      obtain rfl : e = e' := Except.error.inj (hParse.symm.trans hResult)
      exact .stopped name e rfl hHit
    | same hSame hNeed =>
      have hParse' : (p.withLimits limits').parseText template = .error e :=
        hSame.trans hParse
      rw [Renderer.parsed_of_error _ hParse']
      exact .failed rfl rfl
    | exceeded name e' hResult hHit hNarrow hNeed =>
      rw [Renderer.parsed_of_error _ hResult]
      exact .exceeded name e' rfl hHit hNarrow fun _ hOk => nomatch hOk
  | ok nodes =>
    rw [Renderer.parsed_of_ok _ hParse]
    cases p.lockStep_parseText limits limits' template with
    | stopped name e hResult hHit => exact nomatch hResult.symm.trans hParse
    | same hSame hNeed =>
      have hParse' : (p.withLimits limits').parseText template = .ok nodes :=
        hSame.trans hParse
      have hRoom := (Parser.nestingNeed_le_iff _).mp (hNeed nodes hParse)
      rw [Renderer.parsed_of_ok _ hParse']
      refine Limits.LockStep.widen (hNext nodes) ?_ fun hRest => ?_
      · exact le_iff.mpr ⟨Nat.le_refl _, Nat.le_refl _, Nat.le_max_right _ _⟩
      · exact le_iff.mpr ⟨hRest .includeDepth, hRest .loopEvaluations,
          Nat.max_le.mpr ⟨hRoom, hRest .loopNesting⟩⟩
    | exceeded name e hResult hHit hNarrow hNeed =>
      rw [Renderer.parsed_of_error _ hResult]
      refine .exceeded name e rfl hHit hNarrow fun _ _ =>
        Nat.lt_of_lt_of_le (hNeed nodes hParse) ?_
      exact le_iff.mpr ⟨Nat.zero_le _, Nat.zero_le _, Nat.le_max_left _ _⟩ name

/-- A question in front, for a template that was parsed next, keeps the lock-step if `limits'` has
room for its chain. -/
theorem lockStep_asking {name template : String} {chain : List String}
    (hNesting : p.nestingOf source name = p.textNesting template)
    (hChain : chain.length ≤ limits'.maxIncludeDepth)
    (h : Limits.LockStep limits limits' (p.needAfter source template o) (o' = o.relimit limits')
      o.result o'.result) :
    LockStep p source limits limits' (o.asking ⟨name, chain⟩) (o'.asking ⟨name, chain⟩) := by
  have hNeed : p.need source (o.asking ⟨name, chain⟩) =
      { p.needAfter source template o with
        maxIncludeDepth := max chain.length (p.need source o).maxIncludeDepth } := by
    rw [Parser.needAfter, ← hNesting]
    rfl
  refine Limits.LockStep.imp (h.widen ?_ fun hRoom => ?_) ?_
  · rw [hNeed]
    exact le_iff.mpr ⟨Nat.le_max_right _ _, Nat.le_refl _, Nat.le_refl _⟩
  · rw [hNeed]
    exact le_iff.mpr ⟨Nat.max_le.mpr ⟨hChain, hRoom .includeDepth⟩, hRoom .loopEvaluations,
      hRoom .loopNesting⟩
  · rintro rfl
    rfl

theorem LockStep.leaving (h : LockStep p source limits limits' o o') :
    LockStep p source limits limits' o.leaving o'.leaving := by
  refine Limits.LockStep.imp h ?_
  rintro rfl
  rfl

end Outcome

namespace Renderer

variable {onInclude onInclude' : IncludeRule}

/-- A template that is asked for goes in lock-step: the source says the same, its text is parsed in
lock-step, and what was parsed is rendered in lock-step. -/
theorem lockStep_renderTemplate (hKeeps : onInclude.Keeps)
    (hRule : IncludeRule.LockStep p source limits limits' depth onInclude onInclude')
    (hDepth : depth ≤ limits'.maxIncludeDepth) (name : String) (c : Context) {s : Session}
    (hShared : s.Shared limits limits' depth) :
    Outcome.LockStep p source limits limits'
      ((((p.withLimits limits).over source).renderTemplate onInclude name c s).asking
        ⟨name, s.chain⟩)
      ((((p.withLimits limits').over source).renderTemplate onInclude' name c
        (s.relimit limits')).asking ⟨name, s.chain⟩) := by
  have hSame : ((p.withLimits limits).over source).source name = source name := rfl
  have hSame' : ((p.withLimits limits').over source).source name = source name := rfl
  cases hSource : source name with
  | error e =>
    rw [renderTemplate_of_error _ (hSame.trans hSource),
      renderTemplate_of_error _ (hSame'.trans hSource)]
    exact .failed rfl rfl
  | ok template =>
    rw [renderTemplate_of_ok _ (hSame.trans hSource),
      renderTemplate_of_ok _ (hSame'.trans hSource)]
    have hNesting : p.nestingOf source name = p.textNesting template := by
      rw [Parser.nestingOf, hSource]
    have hChain : s.chain.length ≤ limits'.maxIncludeDepth := by
      rw [hShared.depth]
      exact hDepth
    exact Outcome.lockStep_asking hNesting hChain (Outcome.lockStep_parsed
      (fun nodes => lockStep_renderNodes hKeeps hRule nodes c s hShared) template s)

/-- A cycle is a cycle under any limits. -/
theorem lockStep_cycle {name : String} {s : Session} (hActive : name ∈ s.chain)
    (q q' : Renderer) (levels levels' : Nat) (c : Context) :
    Outcome.LockStep p source limits limits' (q.renderInclude levels name c s)
      (q'.renderInclude levels' name c (s.relimit limits')) := by
  have hCycle := Session.enterInclude_of_mem hActive
  have hCycle' : (s.relimit limits').enterInclude name = .error _ :=
    Session.enterInclude_of_mem hActive
  rw [renderInclude_of_error _ hCycle, renderInclude_of_error _ hCycle']
  exact Outcome.lockStep_fail _ s

/--
**Includes go in lock-step**, whatever they include in turn, each with as many levels as its limits
leave where `depth` includes are active.
-/
theorem lockStep_renderInclude (p : Parser) (source : TemplateSource) (limits limits' : Limits)
    (depth : Nat) :
    IncludeRule.LockStep p source limits limits' depth
      (((p.withLimits limits).over source).renderInclude (limits.maxIncludeDepth - depth))
      (((p.withLimits limits').over source).renderInclude (limits'.maxIncludeDepth - depth)) := by
  -- on the levels that the first limits leave
  generalize hLevels : limits.maxIncludeDepth - depth = levels
  induction levels generalizing depth with
  | zero =>
    intro name c s hShared
    by_cases hActive : name ∈ s.chain
    · exact lockStep_cycle hActive _ _ _ _ c
    · obtain rfl := hShared.limits
      -- no level is left because the first chain is full
      have hFull : s.room = 0 := by rw [Session.room, hShared.depth, hLevels]
      rw [renderInclude_of_error _ (Session.enterInclude_of_full hActive hFull)]
      exact .stopped .includeDepth _ rfl .includeDepth
  | succ levels ih =>
    intro name c s hShared
    by_cases hActive : name ∈ s.chain
    · exact lockStep_cycle hActive _ _ _ _ c
    · obtain rfl := hShared.limits
      have hRoom : s.room ≠ 0 := by
        rw [Session.room, hShared.depth, hLevels]
        exact Nat.succ_ne_zero levels
      have hLength : (s.chain ++ [name]).length = depth + 1 := by
        rw [List.length_append, hShared.depth, List.length_singleton]
      rw [renderInclude_succ_of_ok _ (Session.enterInclude_eq_ok_iff.mpr ⟨hActive, hRoom, rfl⟩)]
      -- the first takes the name; whether the second does is up to its own levels
      cases hLevels' : limits'.maxIncludeDepth - depth with
      | zero =>
        have hFull' : (s.relimit limits').room = 0 := by
          show limits'.maxIncludeDepth - s.chain.length = 0
          rw [hShared.depth, hLevels']
        have hRefused : (s.relimit limits').enterInclude name = .error (.depthExceeded _) :=
          Session.enterInclude_of_full hActive hFull'
        rw [renderInclude_of_error _ hRefused]
        refine .exceeded .includeDepth _ rfl .includeDepth ?_ fun _ _ => ?_
        · show limits'.maxIncludeDepth < s.limits.maxIncludeDepth
          omega
        · -- the chain that the name has just entered is too long
          show limits'.maxIncludeDepth < max (s.chain ++ [name]).length _
          omega
      | succ levels' =>
        have hRoom' : (s.relimit limits').room ≠ 0 := by
          show limits'.maxIncludeDepth - s.chain.length ≠ 0
          rw [hShared.depth, hLevels']
          exact Nat.succ_ne_zero levels'
        have hEntered' : (s.relimit limits').enterInclude name = .ok _ :=
          Session.enterInclude_eq_ok_iff.mpr ⟨hActive, hRoom', rfl⟩
        rw [renderInclude_succ_of_ok _ hEntered']
        have hRule := ih (depth + 1) (by omega)
        rw [show limits'.maxIncludeDepth - (depth + 1) = levels' by omega] at hRule
        have hInside : Session.Shared s.limits limits' (depth + 1)
            { s with chain := s.chain ++ [name] } := ⟨rfl, hLength, hShared.loops⟩
        exact (lockStep_renderTemplate (keeps_renderInclude _ levels) hRule (by omega) name c
          hInside).leaving

end Renderer

/--
**Rendering goes in lock-step.** For every parser and source, every list of trees and context, from
any session that `limits'` has room for.
-/
theorem Session.lockStep_evaluate (p : Parser) (source : TemplateSource) (nodes : List Node)
    (c : Context) (s : Session) (limits' : Limits) (hLoops : s.loops ≤ limits'.maxLoopEvaluations) :
    Outcome.LockStep p source s.limits limits'
      (s.evaluate ((p.withLimits s.limits).over source) nodes c)
      ((s.relimit limits').evaluate ((p.withLimits limits').over source) nodes c) :=
  Renderer.lockStep_renderNodes (Renderer.keeps_renderInclude _ s.room)
    (Renderer.lockStep_renderInclude p source s.limits limits' s.chain.length) nodes c s
    ⟨rfl, rfl, hLoops⟩

end Stencil
