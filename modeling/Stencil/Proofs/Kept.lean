import Stencil.Renderer

/-!
# Stencil — what rendering leaves of its session

A session runs through a whole render: loops are charged to it, includes enter its chain and leave
it again, and a failure may come up at any point in between. This module says what is the same
afterwards.

* `Node.forest_induction` — induction over a list of trees, by its first tree.
* `Session.Kept` — the same includes are active, within the same limits, and the loops that were
  charged did not go past a budget that had been kept.
* `IncludeRule.Keeps` — a way to render includes that keeps every session, whatever came of it.
  Rendering with such a rule keeps every session too (`kept_renderNodes`), and the rule of the
  renderer is one, for any number of levels (`keeps_renderInclude`).
* `Session.evaluate_restores` — rendering keeps its session, on success and on every failure.

Nothing is asked of the source, of what reads it, of the trees or of the session: includes may be
cyclic, and the chain may be longer than its limit to begin with.
-/

namespace Stencil

/-! ## Lists of trees -/

/-- **Induction over a list of trees**, by its first tree: a loop brings its body with it. -/
theorem Node.forest_induction {P : List Node → Prop}
    (nil : P [])
    (text : ∀ content position nodes, P nodes → P (.text content position :: nodes))
    (placeholder : ∀ path position nodes, P nodes → P (.placeholder path position :: nodes))
    (inclusion : ∀ name position nodes, P nodes → P (.inclusion name position :: nodes))
    (loop : ∀ item collection body position nodes, P body → P nodes →
      P (.loop item collection body position :: nodes)) :
    ∀ nodes, P nodes
  | [] => nil
  | .text content position :: nodes =>
    text content position nodes
      (forest_induction nil text placeholder inclusion loop nodes)
  | .placeholder path position :: nodes =>
    placeholder path position nodes
      (forest_induction nil text placeholder inclusion loop nodes)
  | .inclusion name position :: nodes =>
    inclusion name position nodes
      (forest_induction nil text placeholder inclusion loop nodes)
  | .loop item collection body position :: nodes =>
    loop item collection body position nodes
      (forest_induction nil text placeholder inclusion loop body)
      (forest_induction nil text placeholder inclusion loop nodes)

/-! ## Sessions kept -/

namespace Session

/-- `s'` is what some rendering leaves of `s`. A budget that was used up, or overdrawn, to begin
with takes no loop at all. -/
structure Kept (s s' : Session) : Prop where
  chain  : s'.chain = s.chain
  limits : s'.limits = s.limits
  loops  : s.loops ≤ s'.loops
  budget : s'.loops ≤ max s.loops s.limits.maxLoopEvaluations

theorem Kept.refl (s : Session) : s.Kept s := ⟨rfl, rfl, Nat.le_refl _, Nat.le_max_left _ _⟩

theorem Kept.trans {s₁ s₂ s₃ : Session} (h₁ : s₁.Kept s₂) (h₂ : s₂.Kept s₃) : s₁.Kept s₃ := by
  -- the budget of `s₂` is that of `s₁`
  have hBudget₁ := h₁.budget
  have hBudget₂ := h₂.budget
  rw [h₁.limits] at hBudget₂
  exact ⟨h₂.chain.trans h₁.chain, h₂.limits.trans h₁.limits, Nat.le_trans h₁.loops h₂.loops,
    by omega⟩

theorem recordLoop_eq_ok_iff {s s' : Session} :
    s.recordLoop = .ok s' ↔
      s.loops < s.limits.maxLoopEvaluations ∧ s' = { s with loops := s.loops + 1 } := by
  unfold recordLoop
  by_cases hFull : s.limits.maxLoopEvaluations ≤ s.loops
  · simp [if_pos hFull, Nat.not_lt.mpr hFull]
  · simp [if_neg hFull, Nat.not_le.mp hFull, eq_comm]

theorem recordLoop_of_full {s : Session} (hFull : s.limits.maxLoopEvaluations ≤ s.loops) :
    s.recordLoop = .error (.loopLimit s.limits.maxLoopEvaluations) :=
  if_pos hFull

theorem recordLoop_eq_error_iff {s : Session} {e : Error} :
    s.recordLoop = .error e ↔
      s.limits.maxLoopEvaluations ≤ s.loops ∧ e = .loopLimit s.limits.maxLoopEvaluations := by
  unfold recordLoop
  by_cases hFull : s.limits.maxLoopEvaluations ≤ s.loops
  · simp [hFull, eq_comm]
  · simp [hFull]

/-- A name that is active already is a cycle, also when the chain is full. -/
theorem enterInclude_of_mem {s : Session} {name : String} (hActive : name ∈ s.chain) :
    s.enterInclude name = .error (.circularInclude (s.chain ++ [name])) := by
  simp [enterInclude, hActive]

theorem enterInclude_of_full {s : Session} {name : String} (hNew : name ∉ s.chain)
    (hFull : s.room = 0) :
    s.enterInclude name = .error (.depthExceeded s.limits.maxIncludeDepth) := by
  simp [enterInclude, hNew, hFull]

theorem enterInclude_eq_ok_iff {s s' : Session} {name : String} :
    s.enterInclude name = .ok s' ↔
      name ∉ s.chain ∧ s.room ≠ 0 ∧ s' = { s with chain := s.chain ++ [name] } := by
  unfold enterInclude
  by_cases hActive : name ∈ s.chain
  · simp [hActive]
  · by_cases hFull : s.room = 0
    · simp [hActive, hFull]
    · simp [hActive, hFull, eq_comm]

theorem enterInclude_eq_error_iff {s : Session} {name : String} {e : Error} :
    s.enterInclude name = .error e ↔
      (name ∈ s.chain ∧ e = .circularInclude (s.chain ++ [name])) ∨
      (name ∉ s.chain ∧ s.room = 0 ∧ e = .depthExceeded s.limits.maxIncludeDepth) := by
  unfold enterInclude
  by_cases hActive : name ∈ s.chain
  · simp [hActive, eq_comm]
  · by_cases hFull : s.room = 0
    · simp [hActive, hFull, eq_comm]
    · simp [hActive, hFull]

/-- Charging a loop keeps the session: it is refused where it would go past the budget. -/
theorem kept_recordLoop {s s' : Session} (hRecord : s.recordLoop = .ok s') : s.Kept s' := by
  obtain ⟨hRoom, rfl⟩ := recordLoop_eq_ok_iff.mp hRecord
  refine ⟨rfl, rfl, Nat.le_succ _, ?_⟩
  show s.loops + 1 ≤ max s.loops s.limits.maxLoopEvaluations
  omega

/-- What an include leaves of the session that it entered is, once it is left, what is left of the
session around it. -/
theorem kept_leaveInclude {s entered s' : Session} {name : String}
    (hEnter : s.enterInclude name = .ok entered) (hKept : entered.Kept s') :
    s.Kept s'.leaveInclude := by
  obtain ⟨-, -, rfl⟩ := enterInclude_eq_ok_iff.mp hEnter
  refine ⟨?_, hKept.limits, hKept.loops, hKept.budget⟩
  -- the name that is taken off is the one that was put on
  show s'.chain.dropLast = s.chain
  rw [hKept.chain]
  exact List.dropLast_concat

end Session

/-! ## Outcomes -/

namespace Outcome

variable {s : Session} {o : Outcome} {next : Session → Outcome}

theorem andThen_of_error {e : Error} (hResult : o.result = .error e) : o.andThen next = o := by
  unfold andThen
  rw [hResult]

theorem andThen_of_ok {text : String} (hResult : o.result = .ok text) :
    o.andThen next =
      { result   := (next o.session).result.map (text ++ ·)
        session  := (next o.session).session
        requests := o.requests ++ (next o.session).requests } := by
  unfold andThen
  rw [hResult]

theorem kept_andThen (hFirst : s.Kept o.session)
    (hNext : ∀ s : Session, s.Kept (next s).session) : s.Kept (o.andThen next).session := by
  cases hResult : o.result with
  | error e =>
    rw [andThen_of_error hResult]
    exact hFirst
  | ok text =>
    rw [andThen_of_ok hResult]
    exact hFirst.trans (hNext o.session)

theorem kept_sequence {α : Type} {step : α → Session → Outcome}
    (hStep : ∀ a (s : Session), s.Kept (step a s).session) (as : List α) (s : Session) :
    s.Kept (sequence (as.map step) s).session := by
  induction as generalizing s with
  | nil => exact Session.Kept.refl s
  | cons a as ih => exact kept_andThen (hStep a s) ih

end Outcome

/-! ## Rendering -/

/-- The rule leaves every session as it was, up to loops within the budget. -/
def IncludeRule.Keeps (onInclude : IncludeRule) : Prop :=
  ∀ name c (s : Session), s.Kept (onInclude name c s).session

namespace Renderer

variable (r : Renderer) {onInclude : IncludeRule}

/-- What a loop renders once it is charged: its body in the context of each item. -/
def renderItems (onInclude : IncludeRule) (item collection : String) (body : List Node)
    (c : Context) (s : Session) : Outcome :=
  match (c.lookup? collection).bind Value.items? with
  | none => .done "" s
  | some items =>
    Outcome.sequence (items.map fun v => r.renderNodes onInclude body (c.forItem item v)) s

theorem renderNode_loop (onInclude : IncludeRule) (item collection : String) (body : List Node)
    (position : Position) (c : Context) (s : Session) :
    r.renderNode onInclude (.loop item collection body position) c s =
      match s.recordLoop with
      | .error e => .fail e s
      | .ok charged => r.renderItems onInclude item collection body c charged := by
  rw [renderNode]
  rfl

theorem kept_renderItems {body : List Node}
    (hBody : ∀ c (s : Session), s.Kept (r.renderNodes onInclude body c s).session)
    (item collection : String) (c : Context) (s : Session) :
    s.Kept (r.renderItems onInclude item collection body c s).session := by
  unfold renderItems
  cases (c.lookup? collection).bind Value.items? with
  | none => exact Session.Kept.refl s
  | some items => exact Outcome.kept_sequence (fun v => hBody (c.forItem item v)) items s

/-- A loop keeps the session if its body does in every context: it is charged once, and the bodies
follow one another. -/
theorem kept_loop {body : List Node}
    (hBody : ∀ c (s : Session), s.Kept (r.renderNodes onInclude body c s).session)
    (item collection : String) (position : Position) (c : Context) (s : Session) :
    s.Kept (r.renderNode onInclude (.loop item collection body position) c s).session := by
  rw [renderNode_loop]
  cases hRecord : s.recordLoop with
  | error e => exact Session.Kept.refl s
  | ok charged =>
    have hCharged : s.Kept charged := Session.kept_recordLoop hRecord
    exact hCharged.trans (r.kept_renderItems hBody item collection c charged)

/-- Rendering keeps every session if its way to render includes does. -/
theorem kept_renderNodes (hRule : onInclude.Keeps) (nodes : List Node) :
    ∀ c (s : Session), s.Kept (r.renderNodes onInclude nodes c s).session := by
  induction nodes using Node.forest_induction with
  | nil => exact fun _ s => Session.Kept.refl s
  | text content position nodes ih =>
    exact fun c s => Outcome.kept_andThen (Session.Kept.refl s) (ih c)
  | placeholder path position nodes ih =>
    exact fun c s => Outcome.kept_andThen (Session.Kept.refl s) (ih c)
  | inclusion name position nodes ih =>
    exact fun c s => Outcome.kept_andThen (hRule name c s) (ih c)
  | loop item collection body position nodes hBody ih =>
    exact fun c s => Outcome.kept_andThen (r.kept_loop hBody item collection position c s) (ih c)

/-- Parses a template and goes on with its tree. -/
def parsed (r : Renderer) (template : String) (s : Session) (next : List Node → Outcome) :
    Outcome :=
  match r.parser.parseText template with
  | .error e => .fail e s
  | .ok nodes => next nodes

theorem parsed_of_error {template : String} {e : Error}
    (hParse : r.parser.parseText template = .error e) (s : Session) (next : List Node → Outcome) :
    r.parsed template s next = .fail e s := by
  rw [parsed, hParse]

theorem parsed_of_ok {template : String} {nodes : List Node}
    (hParse : r.parser.parseText template = .ok nodes) (s : Session)
    (next : List Node → Outcome) : r.parsed template s next = next nodes := by
  rw [parsed, hParse]

theorem kept_parsed {template : String} {s : Session} {next : List Node → Outcome}
    (hNext : ∀ nodes, s.Kept (next nodes).session) : s.Kept (r.parsed template s next).session := by
  cases hParse : r.parser.parseText template with
  | error e =>
    rw [r.parsed_of_error hParse]
    exact Session.Kept.refl s
  | ok nodes =>
    rw [r.parsed_of_ok hParse]
    exact hNext nodes

theorem renderTemplate_of_error {name : String} {e : Error} (hSource : r.source name = .error e)
    (c : Context) (s : Session) : r.renderTemplate onInclude name c s = .fail e s := by
  rw [renderTemplate, hSource]

theorem renderTemplate_of_ok {name template : String} (hSource : r.source name = .ok template)
    (c : Context) (s : Session) :
    r.renderTemplate onInclude name c s =
      r.parsed template s fun nodes => r.renderNodes onInclude nodes c s := by
  rw [renderTemplate, hSource]
  rfl

/-- Fetching a template, parsing it and rendering it keeps the session, whichever of them fails. -/
theorem keeps_renderTemplate (hRule : onInclude.Keeps) : (r.renderTemplate onInclude).Keeps := by
  intro name c s
  cases hSource : r.source name with
  | error e =>
    rw [r.renderTemplate_of_error hSource]
    exact Session.Kept.refl s
  | ok template =>
    rw [r.renderTemplate_of_ok hSource]
    exact r.kept_parsed fun nodes => r.kept_renderNodes hRule nodes c s

theorem renderInclude_of_error {s : Session} {name : String} {e : Error}
    (hEnter : s.enterInclude name = .error e) (levels : Nat) (c : Context) :
    r.renderInclude levels name c s = .fail e s := by
  cases levels with
  | zero => rw [renderInclude, hEnter]
  | succ levels => rw [renderInclude, hEnter]

theorem renderInclude_succ_of_ok {s entered : Session} {name : String}
    (hEnter : s.enterInclude name = .ok entered) (levels : Nat) (c : Context) :
    r.renderInclude (levels + 1) name c s =
      ((r.renderTemplate (r.renderInclude levels) name c entered).asking
        { name, chain := entered.chain }).leaving := by
  rw [renderInclude, hEnter]

/-- **Includes leave the chain as they found it**, however many levels they have. -/
theorem keeps_renderInclude (levels : Nat) : (r.renderInclude levels).Keeps := by
  induction levels with
  | zero =>
    -- without a level the name is refused, one way or the other
    intro name c s
    unfold renderInclude
    cases s.enterInclude name with
    | error e => exact Session.Kept.refl s
    | ok entered => exact Session.Kept.refl s
  | succ levels ih =>
    intro name c s
    cases hEnter : s.enterInclude name with
    | error e =>
      rw [r.renderInclude_of_error hEnter]
      exact Session.Kept.refl s
    | ok entered =>
      rw [r.renderInclude_succ_of_ok hEnter]
      exact Session.kept_leaveInclude hEnter (r.keeps_renderTemplate ih name c entered)

end Renderer

namespace Session

/-- Rendering keeps its session. -/
theorem kept_evaluate (s : Session) (r : Renderer) (nodes : List Node) (c : Context) :
    s.Kept (s.evaluate r nodes c).session :=
  r.kept_renderNodes (r.keeps_renderInclude s.room) nodes c s

/--
**Rendering restores its session.** For every session, source, way to read templates, list of trees
and context, whatever comes of it: the includes that were active are active again and no others, the
limits are the same, no loop is taken back, and a budget that was kept is kept.
-/
theorem evaluate_restores (s : Session) (r : Renderer) (nodes : List Node) (c : Context) :
    (s.evaluate r nodes c).session.chain = s.chain ∧
    (s.evaluate r nodes c).session.limits = s.limits ∧
    s.loops ≤ (s.evaluate r nodes c).session.loops ∧
    (s.loops ≤ s.limits.maxLoopEvaluations →
      (s.evaluate r nodes c).session.loops ≤ s.limits.maxLoopEvaluations) := by
  have hKept := s.kept_evaluate r nodes c
  refine ⟨hKept.chain, hKept.limits, hKept.loops, fun hWithin => ?_⟩
  have hBudget := hKept.budget
  omega

end Session

end Stencil
