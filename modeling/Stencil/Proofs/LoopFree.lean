import Mathlib
import Stencil.Proofs.CallDepth
import Stencil.Proofs.Causes

/-!
# Stencil — templates without loops

Without loops nothing depends on the values that are rendered: every include that stands in a
template is taken, in order, until one fails. What comes of such a render can then be read off the
graph of includes. It says nothing about order, and nothing about how often a template is included:
diamonds and repeated siblings are as good as any other path.

* `Renderer.LoopFree` — no loop in some trees, nor in any template that they lead to.
* `Session.Passes` — every path of includes can be walked from a session to its end.
  `passes_append` and `passes_include` take it apart the way rendering goes.
* `succeeds_iff_passes` — rendering succeeds exactly then, whatever the context.
* `refused_of_parses` — if every template is there and parses, it fails only with an include that is
  refused.
* `Engine.renders_iff_acyclic` — both for whole renders, in terms of the graph alone.
-/

namespace Stencil

namespace Outcome

def Succeeds (o : Outcome) : Prop := ∃ text, o.result = .ok text

variable {o : Outcome} {next : Session → Outcome}

theorem succeeds_done (text : String) (s : Session) : (done text s).Succeeds := ⟨text, rfl⟩

theorem not_succeeds_of_error {e : Error} (hFail : o.result = .error e) : ¬ o.Succeeds := by
  rintro ⟨text, hOk⟩
  rw [hFail] at hOk
  cases hOk

theorem succeeds_andThen : (o.andThen next).Succeeds ↔ o.Succeeds ∧ (next o.session).Succeeds := by
  cases hResult : o.result with
  | error e =>
    rw [andThen_of_error hResult]
    exact ⟨fun h => absurd h (not_succeeds_of_error hResult), And.left⟩
  | ok text =>
    constructor
    · rintro ⟨all, hOk⟩
      exact ⟨⟨text, hResult⟩, ok_of_andThen hResult hOk⟩
    · rintro ⟨-, text', hNext⟩
      refine ⟨text ++ text', ?_⟩
      rw [andThen_of_ok hResult, hNext]
      rfl

theorem error_of_andThen {e : Error} (hFail : (o.andThen next).result = .error e) :
    o.result = .error e ∨ (next o.session).result = .error e := by
  cases hResult : o.result with
  | error e' =>
    rw [andThen_of_error hResult, hResult] at hFail
    exact .inl hFail
  | ok text =>
    rw [andThen_of_ok hResult] at hFail
    cases hNext : (next o.session).result with
    | ok text' => simp [hNext, Except.map] at hFail
    | error e' =>
      simp only [hNext, Except.map] at hFail
      exact .inr hFail

end Outcome

-- ---------------------------------------------------------------------------
-- Trees and templates without loops
-- ---------------------------------------------------------------------------

theorem loopHeight_loop_ne_zero (item collection : String) (body nodes : List Node)
    (position : Position) : loopHeight (.loop item collection body position :: nodes) ≠ 0 := by
  rw [loopHeight, Node.loopHeight]
  omega

namespace Renderer

variable {r : Renderer}

/-- No loop in the trees, nor in a template that their includes lead to, if it parses. -/
structure LoopFree (r : Renderer) (nodes : List Node) : Prop where
  here   : loopHeight nodes = 0
  behind : ∀ name, r.Reachable (includeNames nodes) name → ∀ template inner,
    r.source name = .ok template → r.parser.parseText template = .ok inner → loopHeight inner = 0

theorem LoopFree.tail {node : Node} {nodes : List Node} (h : r.LoopFree (node :: nodes)) :
    r.LoopFree nodes := by
  have hLess := loopHeight_le_cons node nodes
  rw [h.here] at hLess
  refine ⟨Nat.le_zero.mp hLess, fun name hReach => h.behind name (hReach.mono ?_)⟩
  exact List.subset_append_right _ _

theorem LoopFree.inside {name template : String} {position : Position} {nodes inner : List Node}
    (h : r.LoopFree (.inclusion name position :: nodes)) (hSource : r.source name = .ok template)
    (hParse : r.parser.parseText template = .ok inner) : r.LoopFree inner := by
  have hName : r.Reachable (includeNames (.inclusion name position :: nodes)) name :=
    .of_mem List.mem_cons_self
  refine ⟨h.behind name hName template inner hSource hParse, fun name' hReach => ?_⟩
  rw [← includesOf_eq hSource hParse] at hReach
  exact h.behind name' (hName.trans hReach)

end Renderer

-- ---------------------------------------------------------------------------
-- Paths that can be walked
-- ---------------------------------------------------------------------------

namespace Session

variable {s s' : Session} {r : Renderer} {names names' path : List String} {name : String}

/-- The session can let in one name of the path after the other, and their templates parse. -/
structure Walkable (s : Session) (r : Renderer) (path : List String) : Prop where
  parses   : ∀ name ∈ path, r.Parses name
  distinct : path.Nodup
  new      : ∀ name ∈ path, name ∉ s.chain
  bounded  : path.length ≤ s.room

theorem walkable_nil (s : Session) (r : Renderer) : s.Walkable r [] :=
  ⟨List.forall_mem_nil _, List.nodup_nil, List.forall_mem_nil _, Nat.zero_le _⟩

theorem walkable_iff_of_kept (hKept : s.Kept s') : s'.Walkable r path ↔ s.Walkable r path := by
  have hChain := hKept.chain
  have hRoom := room_eq_of_kept hKept
  constructor
  · rintro ⟨hParses, hDistinct, hNew, hBounded⟩
    exact ⟨hParses, hDistinct, by rwa [← hChain], by rwa [← hRoom]⟩
  · rintro ⟨hParses, hDistinct, hNew, hBounded⟩
    exact ⟨hParses, hDistinct, by rwa [hChain], by rwa [hRoom]⟩

/-- What is walked behind a name is walked in the session that it enters. -/
theorem walkable_cons :
    s.Walkable r (name :: path) ↔
      ∃ entered, s.enterInclude name = .ok entered ∧ r.Parses name ∧ entered.Walkable r path := by
  constructor
  · rintro ⟨hParses, hDistinct, hNew, hBounded⟩
    have hName := hNew name List.mem_cons_self
    rw [List.length_cons] at hBounded
    have hEnter : s.enterInclude name = .ok { s with chain := s.chain ++ [name] } :=
      enterInclude_eq_ok_iff.mpr ⟨hName, by omega, rfl⟩
    have hRoom := room_of_enterInclude hEnter
    obtain ⟨hOnce, hDistinct⟩ := List.nodup_cons.mp hDistinct
    refine ⟨_, hEnter, hParses name List.mem_cons_self,
      ⟨fun inner hMem => hParses inner (List.mem_cons_of_mem _ hMem), hDistinct, ?_, by omega⟩⟩
    -- no other name on the path is the one that was just let in
    intro inner hMem hActive
    rcases List.mem_append.mp hActive with hActive | hSame
    · exact hNew inner (List.mem_cons_of_mem _ hMem) hActive
    · obtain rfl := List.mem_singleton.mp hSame
      exact hOnce hMem
  · rintro ⟨entered, hEnter, hHere, ⟨hParses, hDistinct, hNew, hBounded⟩⟩
    have hRoom := room_of_enterInclude hEnter
    obtain ⟨hName, -, rfl⟩ := enterInclude_eq_ok_iff.mp hEnter
    refine ⟨List.forall_mem_cons.mpr ⟨hHere, hParses⟩, List.nodup_cons.mpr ⟨?_, hDistinct⟩,
      List.forall_mem_cons.mpr ⟨hName, ?_⟩, ?_⟩
    · intro hAgain
      exact hNew name hAgain (List.mem_append_right _ (List.mem_singleton_self name))
    · intro inner hMem hActive
      exact hNew inner hMem (List.mem_append_left _ hActive)
    · rw [List.length_cons]
      omega

/-- Every path of includes can be walked from the session to its end. -/
def Passes (s : Session) (r : Renderer) (names : List String) : Prop :=
  ∀ path, r.IncludePath names path → s.Walkable r path

theorem passes_nil (s : Session) (r : Renderer) : s.Passes r [] :=
  fun _ hPath => absurd hPath Renderer.IncludePath.not_nil

/-- Every path starts on one side or on the other. -/
theorem passes_append : s.Passes r (names ++ names') ↔ s.Passes r names ∧ s.Passes r names' := by
  simp only [Passes, Renderer.IncludePath.append_iff, or_imp, forall_and]

theorem passes_iff_of_kept (hKept : s.Kept s') : s'.Passes r names ↔ s.Passes r names := by
  simp only [Passes, walkable_iff_of_kept hKept]

/-- Paths from one name are walked by letting it in, and then behind it. -/
theorem passes_include :
    s.Passes r [name] ↔
      ∃ entered template inner, s.enterInclude name = .ok entered ∧ r.source name = .ok template ∧
        r.parser.parseText template = .ok inner ∧ entered.Passes r (includeNames inner) := by
  have hName := List.mem_singleton_self name
  constructor
  · intro hAll
    obtain ⟨entered, hEnter, ⟨template, inner, hSource, hParse⟩, -⟩ :=
      walkable_cons.mp (hAll [name] (.last hName))
    refine ⟨entered, template, inner, hEnter, hSource, hParse, fun path hPath => ?_⟩
    obtain ⟨entered', hEnter', -, hWalk⟩ :=
      walkable_cons.mp (hAll (name :: path) (.step hName hSource hParse hPath))
    obtain rfl : entered = entered' := Except.ok.inj (hEnter.symm.trans hEnter')
    exact hWalk
  · rintro ⟨entered, template, inner, hEnter, hSource, hParse, hAll⟩ path hPath
    obtain ⟨first, rest, rfl⟩ := List.exists_cons_of_ne_nil hPath.ne_nil
    obtain ⟨hFirst, hRest⟩ := Renderer.IncludePath.cons_iff.mp hPath
    obtain rfl := List.mem_singleton.mp hFirst
    rw [Renderer.includesOf_eq hSource hParse] at hRest
    refine walkable_cons.mpr ⟨entered, hEnter, ⟨template, inner, hSource, hParse⟩, ?_⟩
    rcases hRest with rfl | hRest
    · exact entered.walkable_nil r
    · exact hAll rest hRest

-- ---------------------------------------------------------------------------
-- What comes of rendering without loops
-- ---------------------------------------------------------------------------

theorem succeeds_include {c : Context}
    (hInside : ∀ entered template inner, s.enterInclude name = .ok entered →
      r.source name = .ok template → r.parser.parseText template = .ok inner →
      ((entered.evaluate r inner c).Succeeds ↔ entered.Passes r (includeNames inner))) :
    (r.renderInclude s.room name c s).Succeeds ↔ s.Passes r [name] := by
  rw [passes_include]
  have hStep := s.includeStep r c name
  generalize r.renderInclude s.room name c s = o at hStep ⊢
  cases hStep with
  | refused hEnter =>
    refine ⟨fun h => absurd h (Outcome.not_succeeds_of_error rfl), ?_⟩
    rintro ⟨entered, _, _, hEnter', -⟩
    rw [hEnter] at hEnter'
    cases hEnter'
  | missing hEnter hSource =>
    refine ⟨fun h => absurd h (Outcome.not_succeeds_of_error rfl), ?_⟩
    rintro ⟨_, template, _, -, hSource', -⟩
    rw [hSource] at hSource'
    cases hSource'
  | malformed hEnter hSource hParse =>
    refine ⟨fun h => absurd h (Outcome.not_succeeds_of_error rfl), ?_⟩
    rintro ⟨_, template, _, -, hSource', hParse', -⟩
    obtain rfl := Except.ok.inj (hSource.symm.trans hSource')
    rw [hParse] at hParse'
    cases hParse'
  | @rendered entered template inner hEnter hSource hParse =>
    -- asking and leaving change nothing about the result
    refine (hInside entered template inner hEnter hSource hParse).trans ⟨?_, ?_⟩
    · exact fun h => ⟨entered, template, inner, hEnter, hSource, hParse, h⟩
    · rintro ⟨entered', template', inner', hEnter', hSource', hParse', h⟩
      obtain rfl := Except.ok.inj (hEnter.symm.trans hEnter')
      obtain rfl := Except.ok.inj (hSource.symm.trans hSource')
      obtain rfl := Except.ok.inj (hParse.symm.trans hParse')
      exact h

/-- **Without loops, rendering succeeds exactly if every path of includes can be walked.** -/
theorem succeeds_iff_passes (r : Renderer) (nodes : List Node) (c : Context) (s : Session)
    (hFlat : r.LoopFree nodes) :
    (s.evaluate r nodes c).Succeeds ↔ s.Passes r (includeNames nodes) := by
  revert hFlat
  refine evaluate_induction r
    (P := fun nodes c s => r.LoopFree nodes →
      ((s.evaluate r nodes c).Succeeds ↔ s.Passes r (includeNames nodes)))
    ?nil ?text ?placeholder ?inclusion ?loop nodes c s
  case nil =>
    intro c s hFlat
    exact iff_of_true (Outcome.succeeds_done "" s) (s.passes_nil r)
  case text =>
    intro content position nodes c s ih hFlat
    rw [evaluate_cons, Outcome.succeeds_andThen]
    exact (and_iff_right (Outcome.succeeds_done content s)).trans (ih hFlat.tail)
  case placeholder =>
    intro path position nodes c s ih hFlat
    rw [evaluate_cons, Outcome.succeeds_andThen]
    exact (and_iff_right (Outcome.succeeds_done _ s)).trans (ih hFlat.tail)
  case inclusion =>
    intro name position nodes c s hInside ih hFlat
    rw [evaluate_cons, Outcome.succeeds_andThen]
    -- what follows is rendered in another session, which lets in the same names
    have hKept := r.keeps_renderInclude s.room name c s
    have hFirst := succeeds_include fun entered template inner hEnter hSource hParse =>
      hInside entered template inner hEnter hSource hParse (hFlat.inside hSource hParse)
    have hRest := (ih _ hKept hFlat.tail).trans (passes_iff_of_kept hKept)
    exact (and_congr hFirst hRest).trans passes_append.symm
  case loop =>
    intro item collection body position nodes c s hBody ih hFlat
    exact absurd hFlat.here (loopHeight_loop_ne_zero _ _ _ _ _)

/-- An include was refused: its name is active already, or too many others are. -/
def Refused (s : Session) (e : Error) : Prop :=
  (∃ chain, e = .circularInclude chain) ∨ e = .depthExceeded s.limits.maxIncludeDepth

theorem refused_include {c : Context} (hName : r.Parses name)
    (hInside : ∀ entered template inner, s.enterInclude name = .ok entered →
      r.source name = .ok template → r.parser.parseText template = .ok inner →
      ∀ e, (entered.evaluate r inner c).result = .error e → entered.Refused e) :
    ∀ e, (r.renderInclude s.room name c s).result = .error e → s.Refused e := by
  intro e hFail
  obtain ⟨template, inner, hSource, hParse⟩ := hName
  have hStep := s.includeStep r c name
  generalize r.renderInclude s.room name c s = o at hStep hFail
  cases hStep with
  | refused hEnter =>
    cases hFail
    rcases enterInclude_eq_error_iff.mp hEnter with ⟨-, rfl⟩ | ⟨-, -, rfl⟩
    · exact .inl ⟨_, rfl⟩
    · exact .inr rfl
  | missing hEnter hSource' =>
    rw [hSource] at hSource'
    cases hSource'
  | malformed hEnter hSource' hParse' =>
    obtain rfl := Except.ok.inj (hSource.symm.trans hSource')
    rw [hParse] at hParse'
    cases hParse'
  | @rendered entered _ _ hEnter hSource' hParse' =>
    have hRefused := hInside entered _ _ hEnter hSource' hParse' e hFail
    have hLimits : entered.limits = s.limits := by rw [(enterInclude_eq_ok_iff.mp hEnter).2.2]
    rwa [Refused, hLimits] at hRefused

/-- **Nothing but a refused include** ends a rendering without loops if all templates parse. -/
theorem refused_of_parses (r : Renderer) (nodes : List Node) (c : Context) (s : Session)
    (hFlat : r.LoopFree nodes)
    (hParses : ∀ name, r.Reachable (includeNames nodes) name → r.Parses name) :
    ∀ e, (s.evaluate r nodes c).result = .error e → s.Refused e := by
  revert hFlat hParses
  refine evaluate_induction r
    (P := fun nodes c s => r.LoopFree nodes →
      (∀ name, r.Reachable (includeNames nodes) name → r.Parses name) →
      ∀ e, (s.evaluate r nodes c).result = .error e → s.Refused e)
    ?nil ?text ?placeholder ?inclusion ?loop nodes c s
  case nil =>
    intro c s hFlat hParses e hFail
    cases hFail
  case text =>
    intro content position nodes c s ih hFlat hParses e hFail
    rw [evaluate_cons] at hFail
    rcases Outcome.error_of_andThen hFail with hFirst | hRest
    · cases hFirst
    · exact ih hFlat.tail hParses e hRest
  case placeholder =>
    intro path position nodes c s ih hFlat hParses e hFail
    rw [evaluate_cons] at hFail
    rcases Outcome.error_of_andThen hFail with hFirst | hRest
    · cases hFirst
    · exact ih hFlat.tail hParses e hRest
  case inclusion =>
    intro name position nodes c s hInside ih hFlat hParses e hFail
    have hHere : r.Reachable (includeNames (.inclusion name position :: nodes)) name :=
      .of_mem List.mem_cons_self
    have hKept := r.keeps_renderInclude s.room name c s
    rw [evaluate_cons] at hFail
    rcases Outcome.error_of_andThen hFail with hFirst | hRest
    · refine refused_include (hParses name hHere) ?_ e hFirst
      intro entered template inner hEnter hSource hParse
      refine hInside entered template inner hEnter hSource hParse (hFlat.inside hSource hParse) ?_
      intro name' hReach
      rw [← Renderer.includesOf_eq hSource hParse] at hReach
      exact hParses name' (hHere.trans hReach)
    · have hRefused := ih _ hKept hFlat.tail
        (fun name' hReach => hParses name' (hReach.mono (List.subset_append_right _ _))) e hRest
      rwa [Refused, hKept.limits] at hRefused
  case loop =>
    intro item collection body position nodes c s hBody ih hFlat
    exact absurd hFlat.here (loopHeight_loop_ne_zero _ _ _ _ _)

end Session

-- ---------------------------------------------------------------------------
-- Whole renders
-- ---------------------------------------------------------------------------

namespace Engine

variable {engine : Engine} {template : String} {nodes : List Node}

theorem passes_start_iff (limits : Limits) (r : Renderer) (names : List String) :
    (Session.start limits).Passes r names ↔
      (∀ name, r.Reachable names name → r.Parses name) ∧ r.Acyclic names ∧
      ∀ path, r.IncludePath names path → path.length ≤ limits.maxIncludeDepth := by
  rw [← Renderer.nodup_path_iff]
  constructor
  · intro hAll
    refine ⟨?_, fun path hPath => (hAll path hPath).distinct, fun path hPath => ?_⟩
    · rintro name ⟨path, hPath, hLast⟩
      exact (hAll path hPath).parses name (List.mem_of_getLast? hLast)
    · exact (hAll path hPath).bounded
  · rintro ⟨hParses, hDistinct, hBounded⟩ path hPath
    refine ⟨fun name hMem => hParses name (hPath.reachable_of_mem name hMem),
      hDistinct path hPath, fun name _ hActive => ?_, hBounded path hPath⟩
    cases hActive

/-- A render without loops: the text parses, and all its includes can be walked. -/
theorem succeeds_renderText_iff
    (hFlat : ∀ nodes, engine.parser.parseText template = .ok nodes →
      engine.renderer.LoopFree nodes) (c : Context) :
    (engine.renderText template c).Succeeds ↔
      ∃ nodes, engine.parser.parseText template = .ok nodes ∧
        (Session.start engine.limits).Passes engine.renderer (includeNames nodes) := by
  cases hParse : engine.parser.parseText template with
  | error e =>
    have hFail : (engine.renderText template c).result = .error e := by
      rw [renderText_of_malformed hParse]
      rfl
    refine ⟨fun h => absurd h (Outcome.not_succeeds_of_error hFail), ?_⟩
    rintro ⟨nodes, hOk, -⟩
    cases hOk
  | ok nodes =>
    rw [renderText_of_parse hParse, Session.succeeds_iff_passes _ nodes c _ (hFlat nodes hParse)]
    constructor
    · exact fun h => ⟨nodes, rfl, h⟩
    · rintro ⟨_, hSame, h⟩
      obtain rfl := Except.ok.inj hSame
      exact h

/--
**Without loops, rendering is a matter of the graph of includes.** Take any engine and the text of a
template such that no loop stands in it, nor in any template that its includes lead to. In every
context, rendering it succeeds if and only if the text parses, every name that can be reached has a
template that parses, no name can be reached from itself, and no path of includes is longer than
includes may be active. If all of them parse but some name that can be reached lies on a cycle, the
render fails with a cycle or for depth.
-/
theorem renders_iff_acyclic (engine : Engine) (template : String)
    (hFlat : ∀ nodes, engine.parser.parseText template = .ok nodes →
      engine.renderer.LoopFree nodes) (c : Context) :
    let o := engine.renderText template c
    let r := engine.renderer
    (o.Succeeds ↔ ∃ nodes, engine.parser.parseText template = .ok nodes ∧
      (∀ name, r.Reachable (includeNames nodes) name → r.Parses name) ∧
      r.Acyclic (includeNames nodes) ∧
      ∀ path, r.IncludePath (includeNames nodes) path →
        path.length ≤ engine.limits.maxIncludeDepth) ∧
    (∀ nodes, engine.parser.parseText template = .ok nodes →
      (∀ name, r.Reachable (includeNames nodes) name → r.Parses name) →
      (∃ name, r.Reachable (includeNames nodes) name ∧ r.Reachable (r.includesOf name) name) →
      (∃ chain, o.result = .error (.circularInclude chain)) ∨
      o.result = .error (.depthExceeded engine.limits.maxIncludeDepth)) := by
  intro o r
  have hIff := succeeds_renderText_iff hFlat c
  simp only [passes_start_iff] at hIff
  refine ⟨hIff, ?_⟩
  rintro nodes hParse hParses ⟨name, hReach, hCycle⟩
  cases hResult : o.result with
  | ok text =>
    -- a text comes of it only if nothing lies on a cycle
    obtain ⟨nodes', hParse', -, hAcyclic, -⟩ := hIff.mp ⟨text, hResult⟩
    obtain rfl := Except.ok.inj (hParse.symm.trans hParse')
    exact absurd hCycle (hAcyclic name hReach)
  | error e =>
    rw [show o = _ from renderText_of_parse hParse] at hResult
    rcases Session.refused_of_parses r nodes c _ (hFlat nodes hParse) hParses e hResult with
      ⟨chain, rfl⟩ | rfl
    · exact .inl ⟨chain, rfl⟩
    · exact .inr rfl

set_option maxRecDepth 4000 in
/-- The theorem at one template that includes another, and at one that includes itself. -/
theorem renders_iff_acyclic_at_plain_and_self :
    let outer := "\x7b\x7binclude:a\x7d\x7d"
    let plain : Engine := .ofSource fun _ => .ok "t"
    let self : Engine := .ofSource fun _ => .ok outer
    (∀ c, (plain.renderText outer c).Succeeds) ∧
    ∀ c, (∃ chain, (self.renderText outer c).result = .error (.circularInclude chain)) ∨
      (self.renderText outer c).result = .error (.depthExceeded 10) := by
  intro outer plain self
  have hInclude : ({} : Parser).parseText outer = .ok [.inclusion "a" ⟨1, 1⟩] := by
    have hScan : Token.scan outer =
        [.tag "include:a" "\x7b\x7binclude:a\x7d\x7d" ⟨1, 1⟩] := by cbv
    rw [Parser.parseText, hScan, Parser.parse_eq_run]
    rfl
  have hText : ({} : Parser).parseText "t" = .ok [.text "t" ⟨1, 1⟩] := by
    have hScan : Token.scan "t" = [.text "t" ⟨1, 1⟩] := by cbv
    rw [Parser.parseText, hScan, Parser.parse_eq_run]
    rfl
  -- each source has one template only
  have hBehindPlain : ∀ name, plain.renderer.includesOf name = [] := fun _ =>
    Renderer.includesOf_eq (r := plain.renderer) rfl hText
  have hBehindSelf : ∀ name, self.renderer.includesOf name = ["a"] := fun _ =>
    Renderer.includesOf_eq (r := self.renderer) rfl hInclude
  have hFlatPlain : ∀ nodes, plain.parser.parseText outer = .ok nodes →
      plain.renderer.LoopFree nodes := by
    rintro nodes hParse
    obtain rfl := Except.ok.inj (hInclude.symm.trans hParse)
    refine ⟨rfl, fun name _ template inner hSource hParse => ?_⟩
    obtain rfl := Except.ok.inj hSource
    obtain rfl := Except.ok.inj (hText.symm.trans hParse)
    rfl
  have hFlatSelf : ∀ nodes, self.parser.parseText outer = .ok nodes →
      self.renderer.LoopFree nodes := by
    rintro nodes hParse
    obtain rfl := Except.ok.inj (hInclude.symm.trans hParse)
    refine ⟨rfl, fun name _ template inner hSource hParse => ?_⟩
    obtain rfl := Except.ok.inj hSource
    obtain rfl := Except.ok.inj (hInclude.symm.trans hParse)
    rfl
  constructor
  · intro c
    obtain ⟨hIff, -⟩ := plain.renders_iff_acyclic outer hFlatPlain c
    have hPath : ∀ path, plain.renderer.IncludePath ["a"] path → path = ["a"] := by
      intro path hPath
      obtain ⟨first, rest, rfl⟩ := List.exists_cons_of_ne_nil hPath.ne_nil
      obtain ⟨hFirst, hRest⟩ := Renderer.IncludePath.cons_iff.mp hPath
      rw [hBehindPlain] at hRest
      obtain rfl := List.mem_singleton.mp hFirst
      rw [hRest.resolve_right Renderer.IncludePath.not_nil]
    refine hIff.mpr ⟨_, hInclude, fun name _ => ⟨"t", _, rfl, hText⟩, ?_, fun path h => ?_⟩
    · rintro name - ⟨path, hBack, -⟩
      rw [hBehindPlain] at hBack
      exact Renderer.IncludePath.not_nil hBack
    · rw [hPath path h]
      decide
  · intro c
    obtain ⟨-, hRefused⟩ := self.renders_iff_acyclic outer hFlatSelf c
    refine hRefused _ hInclude (fun name _ => ⟨outer, _, rfl, hInclude⟩) ⟨"a", ?_, ?_⟩
    · exact .of_mem (List.mem_singleton_self "a")
    · rw [hBehindSelf]
      exact .of_mem (List.mem_singleton_self "a")

end Engine

end Stencil
