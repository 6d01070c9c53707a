import Stencil.Proofs.Rendering

/-!
# Stencil — trees that stand for each other

Two lists of trees may be written differently and render alike, in any place; and one may do
whatever another does, with fewer includes active. This module has both relations, and what they are
kept by: trees put after one another, and a loop put around them.

* `Renderer.Alike` — two lists of trees render to the same outcome, whatever includes do. Where a
  text is cut into several and where nodes are placed makes no difference.
* `Session.Eases` — a session with some of the active includes taken away.
* `Renderer.ImprovedBy` — if trees can be rendered, so can these others, in a session that is eased
  as well, to the same text and with as many loops charged.
* `ImprovedBy.refl` — fewer active includes never do harm.
* `improvedBy_of_source` — an include is improved by the trees of the template it asks for.
-/

namespace Stencil

/-! ## Trees one after the other -/

namespace Outcome

theorem done_andThen (s : Session) (next : Session → Outcome) :
    (done "" s).andThen next = next s := by
  have hEmpty : (done "" s).result = .ok "" := rfl
  rw [andThen_of_ok hEmpty]
  show Outcome.mk ((next s).result.map ("" ++ ·)) (next s).session ([] ++ (next s).requests) = _
  obtain ⟨_ | text, s', requests⟩ := next s <;> simp [Except.map]

theorem andThen_done (o : Outcome) : o.andThen (done "") = o := by
  obtain ⟨_ | text, s, requests⟩ := o <;> simp [andThen, done, Except.map]

theorem andThen_assoc (o : Outcome) (next next' : Session → Outcome) :
    (o.andThen next).andThen next' = o.andThen fun s => (next s).andThen next' := by
  obtain ⟨_ | text, s, requests⟩ := o
  · rfl
  · simp only [andThen]
    obtain ⟨_ | text', s', requests'⟩ := next s
    · rfl
    · simp only [Except.map]
      obtain ⟨_ | text'', s'', requests''⟩ := next' s' <;>
        simp [String.append_assoc]

end Outcome

namespace Renderer

variable (r : Renderer)

theorem renderNodes_append (onInclude : IncludeRule) (nodes nodes' : List Node) (c : Context)
    (s : Session) :
    r.renderNodes onInclude (nodes ++ nodes') c s =
      (r.renderNodes onInclude nodes c s).andThen (r.renderNodes onInclude nodes' c) := by
  induction nodes generalizing s with
  | nil => exact (Outcome.done_andThen s _).symm
  | cons node nodes ih =>
    rw [List.cons_append, renderNodes, renderNodes, Outcome.andThen_assoc]
    exact Outcome.andThen_congr (ih _)

theorem renderNodes_singleton (onInclude : IncludeRule) (node : Node) (c : Context) (s : Session) :
    r.renderNodes onInclude [node] c s = r.renderNode onInclude node c s := by
  rw [renderNodes]
  exact Outcome.andThen_done _

/-! ## Trees that render alike -/

/-- The trees render to the same outcome, whatever includes do. -/
def Alike (nodes nodes' : List Node) : Prop :=
  ∀ onInclude c s, r.renderNodes onInclude nodes c s = r.renderNodes onInclude nodes' c s

variable {r} {nodes nodes' : List Node}

theorem Alike.refl (nodes : List Node) : r.Alike nodes nodes := fun _ _ _ => rfl

theorem Alike.symm (h : r.Alike nodes nodes') : r.Alike nodes' nodes :=
  fun onInclude c s => (h onInclude c s).symm

theorem Alike.append {more more' : List Node} (h : r.Alike nodes nodes')
    (hMore : r.Alike more more') : r.Alike (nodes ++ more) (nodes' ++ more') := by
  intro onInclude c s
  rw [renderNodes_append, renderNodes_append, h onInclude c s]
  exact Outcome.andThen_congr (hMore onInclude c _)

theorem Alike.loop {body body' : List Node} (h : r.Alike body body') (item collection : String)
    (p p' : Position) :
    r.Alike [.loop item collection body p] [.loop item collection body' p'] := by
  intro onInclude c s
  have hBody : ∀ c, r.renderNodes onInclude body c = r.renderNodes onInclude body' c :=
    fun c => funext (h onInclude c)
  simp only [renderNodes_singleton, renderNode_loop, renderItems, hBody]

end Renderer

/-- The node at another place. -/
def Node.moveTo (q : Position) : Node → Node
  | .text content _              => .text content q
  | .placeholder path _          => .placeholder path q
  | .loop item collection body _ => .loop item collection body q
  | .inclusion name _            => .inclusion name q

namespace Renderer

variable (r : Renderer)

theorem alike_moveTo (node : Node) (q : Position) : r.Alike [node] [node.moveTo q] := by
  intro onInclude c s
  cases node <;> rfl

/-- A text may be cut into its characters. -/
theorem alike_characters (content : String) (p q : Position) :
    r.Alike [.text content p]
      (content.toList.map fun c => .text (String.singleton c) q) := by
  intro onInclude c s
  have hAll : ∀ (cs : List Char) (s : Session),
      r.renderNodes onInclude (cs.map fun c => .text (String.singleton c) q) c s =
        .done (String.ofList cs) s := by
    intro cs
    induction cs with
    | nil => exact fun s => rfl
    | cons a cs ih =>
      intro s
      rw [List.map_cons, renderNodes, renderNode, Outcome.andThen_congr (ih _)]
      show Outcome.done (String.singleton a ++ String.ofList cs) s = _
      congr 1
      rw [← String.toList_inj]
      simp
  rw [renderNodes_singleton, hAll, String.ofList_toList]
  rfl

end Renderer

/-! ## Sessions eased -/

namespace Session

/-- `s'` is `s` with some of the active includes taken away. -/
structure Eases (s s' : Session) : Prop where
  chain  : List.Sublist s'.chain s.chain
  limits : s'.limits = s.limits
  loops  : s'.loops = s.loops

theorem Eases.refl (s : Session) : s.Eases s := ⟨List.Sublist.refl _, rfl, rfl⟩

variable {s s' t t' : Session}

theorem Eases.room_le (h : s.Eases s') : s.room ≤ s'.room := by
  have hLength := h.chain.length_le
  rw [room, room, h.limits]
  omega

/-- Only the loops can have changed in sessions that are kept. -/
theorem Eases.of_kept (h : s.Eases s') (hKept : s.Kept t) (hKept' : s'.Kept t')
    (hLoops : t'.loops = t.loops) : t.Eases t' := by
  refine ⟨?_, ?_, hLoops⟩
  · rw [hKept.chain, hKept'.chain]
    exact h.chain
  · rw [hKept.limits, hKept'.limits, h.limits]

theorem Eases.recordLoop (h : s.Eases s') (hRecord : s.recordLoop = .ok t) :
    ∃ t', s'.recordLoop = .ok t' ∧ t.Eases t' := by
  obtain ⟨hRoom, rfl⟩ := recordLoop_eq_ok_iff.mp hRecord
  refine ⟨_, recordLoop_eq_ok_iff.mpr ⟨?_, rfl⟩, h.chain, h.limits, congrArg (· + 1) h.loops⟩
  rwa [h.limits, h.loops]

theorem Eases.enterInclude {name : String} (h : s.Eases s')
    (hEnter : s.enterInclude name = .ok t) :
    ∃ t', s'.enterInclude name = .ok t' ∧ t.Eases t' := by
  obtain ⟨hNew, hRoom, rfl⟩ := enterInclude_eq_ok_iff.mp hEnter
  have hMore := h.room_le
  refine ⟨_, enterInclude_eq_ok_iff.mpr ⟨?_, ?_, rfl⟩, ?_, h.limits, h.loops⟩
  · exact fun hActive => hNew (h.chain.subset hActive)
  · omega
  · exact h.chain.append (List.Sublist.refl [name])

/-- An include that was entered may be one of those that are taken away. -/
theorem Eases.of_enterInclude {name : String} (h : s.Eases s')
    (hEnter : s.enterInclude name = .ok t) : t.Eases s' := by
  obtain ⟨-, -, rfl⟩ := enterInclude_eq_ok_iff.mp hEnter
  exact ⟨h.chain.trans (List.sublist_append_left _ _), h.limits, h.loops⟩

end Session

/-! ## Outcomes improved -/

namespace Outcome

/-- If the first succeeds, so does the second, with the same text and a session that is eased. -/
def ImprovedBy (o o' : Outcome) : Prop :=
  ∀ text, o.result = .ok text → o'.result = .ok text ∧ o.session.Eases o'.session

variable {s s' : Session}

theorem improvedBy_done (text : String) (h : s.Eases s') :
    (done text s).ImprovedBy (done text s') :=
  fun _ hOk => ⟨hOk, h⟩

theorem improvedBy_fail (e : Error) (s : Session) (o' : Outcome) : (fail e s).ImprovedBy o' :=
  fun _ hOk => nomatch hOk

theorem ImprovedBy.andThen {o o' : Outcome} {next next' : Session → Outcome}
    (hFirst : o.ImprovedBy o')
    (hNext : ∀ s s' : Session, s.Eases s' → (next s).ImprovedBy (next' s')) :
    (o.andThen next).ImprovedBy (o'.andThen next') := by
  intro all hOk
  cases hResult : o.result with
  | error e =>
    rw [andThen_of_error hResult] at hOk
    exact nomatch hResult.symm.trans hOk
  | ok text =>
    obtain ⟨hResult', hEased⟩ := hFirst text hResult
    rw [andThen_of_ok hResult] at hOk ⊢
    rw [andThen_of_ok hResult']
    cases hRest : (next o.session).result with
    | error e => simp [hRest, Except.map] at hOk
    | ok text' =>
      obtain ⟨hRest', hEnd⟩ := hNext _ _ hEased text' hRest
      refine ⟨?_, hEnd⟩
      rw [← hOk, hRest, hRest']

theorem improvedBy_sequence {α : Type} {step step' : α → Session → Outcome}
    (hStep : ∀ a (s s' : Session), s.Eases s' → (step a s).ImprovedBy (step' a s')) (as : List α) :
    ∀ s s' : Session, s.Eases s' →
      (sequence (as.map step) s).ImprovedBy (sequence (as.map step') s') := by
  induction as with
  | nil => exact fun s s' h => improvedBy_done "" h
  | cons a as ih => exact fun s s' h => (hStep a s s' h).andThen ih

end Outcome

/-- Whatever the first rule can do, the second can do in a session that is eased. -/
def IncludeRule.ImprovedBy (rule rule' : IncludeRule) : Prop :=
  ∀ name c (s s' : Session), s.Eases s' → (rule name c s).ImprovedBy (rule' name c s')

namespace Renderer

variable (r : Renderer) {rule rule' : IncludeRule}

theorem improvedBy_loop {body body' : List Node}
    (hBody : ∀ c (s s' : Session), s.Eases s' →
      (r.renderNodes rule body c s).ImprovedBy (r.renderNodes rule' body' c s'))
    (item collection : String) (p p' : Position) (c : Context) {s s' : Session}
    (h : s.Eases s') :
    (r.renderNode rule (.loop item collection body p) c s).ImprovedBy
      (r.renderNode rule' (.loop item collection body' p') c s') := by
  rw [renderNode_loop, renderNode_loop]
  cases hRecord : s.recordLoop with
  | error e => exact Outcome.improvedBy_fail e s _
  | ok charged =>
    obtain ⟨charged', hRecord', hCharged⟩ := h.recordLoop hRecord
    rw [hRecord']
    show (r.renderItems _ _ _ _ _ _).ImprovedBy (r.renderItems _ _ _ _ _ _)
    unfold renderItems
    cases (c.lookup? collection).bind Value.items? with
    | none => exact Outcome.improvedBy_done "" hCharged
    | some items => exact Outcome.improvedBy_sequence (fun v => hBody _) items _ _ hCharged

/-- What trees can do, they can do with a rule that is improved. -/
theorem improvedBy_renderNodes (hRule : rule.ImprovedBy rule') (nodes : List Node) :
    ∀ c (s s' : Session), s.Eases s' →
      (r.renderNodes rule nodes c s).ImprovedBy (r.renderNodes rule' nodes c s') := by
  induction nodes using Node.forest_induction with
  | nil => exact fun c s s' h => Outcome.improvedBy_done "" h
  | text content position nodes ih =>
    exact fun c s s' h => (Outcome.improvedBy_done content h).andThen (ih c)
  | placeholder path position nodes ih =>
    exact fun c s s' h => (Outcome.improvedBy_done (placeholderText c path) h).andThen (ih c)
  | inclusion name position nodes ih =>
    exact fun c s s' h => (hRule name c s s' h).andThen (ih c)
  | loop item collection body position nodes hBody ih =>
    exact fun c s s' h =>
      (r.improvedBy_loop hBody item collection position position c h).andThen (ih c)

/-- What an include can do, it can do with more levels. -/
theorem improvedBy_renderInclude {levels levels' : Nat} (hLevels : levels ≤ levels') :
    (r.renderInclude levels).ImprovedBy (r.renderInclude levels') := by
  induction levels generalizing levels' with
  | zero =>
    -- without a level nothing succeeds
    intro name c s s' h text hOk
    obtain ⟨inner, -, -, -, hInner, -⟩ := r.include_succeeds hOk
    omega
  | succ levels ih =>
    obtain ⟨levels', rfl⟩ : ∃ n, levels' = n + 1 := ⟨levels' - 1, by omega⟩
    have hFewer : levels ≤ levels' := by omega
    intro name c s s' h text hOk
    obtain ⟨-, entered, template, nodes, -, hEnter, hSource, hParse⟩ := r.include_succeeds hOk
    obtain ⟨entered', hEnter', hEntered⟩ := h.enterInclude hEnter
    have hKept := r.keeps_renderInclude (levels + 1) name c s
    have hKept' := r.keeps_renderInclude (levels' + 1) name c s'
    rw [r.renderInclude_of_parsed hEnter hSource hParse] at hOk hKept ⊢
    rw [r.renderInclude_of_parsed hEnter' hSource hParse] at hKept' ⊢
    obtain ⟨hOk', hInside⟩ := r.improvedBy_renderNodes (ih hFewer) nodes c _ _ hEntered text hOk
    -- both chains are what they were before the include
    exact ⟨hOk', h.of_kept hKept hKept' hInside.loops⟩

/-! ## Trees improved -/

/-- Whatever the first trees can do, the second can do in a session that is eased. -/
def ImprovedBy (nodes nodes' : List Node) : Prop :=
  ∀ levels levels', levels ≤ levels' → ∀ c (s s' : Session), s.Eases s' →
    (r.renderNodes (r.renderInclude levels) nodes c s).ImprovedBy
      (r.renderNodes (r.renderInclude levels') nodes' c s')

variable {r} {nodes nodes' : List Node}

/-- **Fewer active includes never do harm.** -/
theorem ImprovedBy.refl (nodes : List Node) : r.ImprovedBy nodes nodes :=
  fun _ _ hLevels => r.improvedBy_renderNodes (r.improvedBy_renderInclude hLevels) nodes

theorem ImprovedBy.append {more more' : List Node} (h : r.ImprovedBy nodes nodes')
    (hMore : r.ImprovedBy more more') : r.ImprovedBy (nodes ++ more) (nodes' ++ more') := by
  intro levels levels' hLevels c s s' hEased
  rw [renderNodes_append, renderNodes_append]
  exact (h levels levels' hLevels c s s' hEased).andThen (hMore levels levels' hLevels c)

theorem ImprovedBy.loop {body body' : List Node} (h : r.ImprovedBy body body')
    (item collection : String) (p p' : Position) :
    r.ImprovedBy [.loop item collection body p] [.loop item collection body' p'] := by
  intro levels levels' hLevels c s s' hEased
  rw [renderNodes_singleton, renderNodes_singleton]
  exact r.improvedBy_loop (h levels levels' hLevels) item collection p p' c hEased

/-- Trees that render alike do not matter. -/
theorem ImprovedBy.congr {nodes₁ nodes₁' : List Node} (h : r.ImprovedBy nodes nodes')
    (hFirst : r.Alike nodes₁ nodes) (hSecond : r.Alike nodes₁' nodes') :
    r.ImprovedBy nodes₁ nodes₁' := by
  intro levels levels' hLevels c s s' hEased
  rw [hFirst, hSecond]
  exact h levels levels' hLevels c s s' hEased

/-- **An include is improved by the trees of its template**, which have one include fewer around
them. -/
theorem improvedBy_of_source {name template : String} (hSource : r.source name = .ok template)
    (hParse : r.parser.parseText template = .ok nodes) (position : Position) :
    r.ImprovedBy [.inclusion name position] nodes := by
  intro levels levels' hLevels c s s' h
  rw [renderNodes_singleton]
  show (r.renderInclude levels name c s).ImprovedBy _
  intro text hOk
  obtain ⟨inner, entered, -, -, rfl, hEnter, -, -⟩ := r.include_succeeds hOk
  have hKept := r.keeps_renderInclude (inner + 1) name c s
  have hKept' := r.kept_renderNodes (r.keeps_renderInclude levels') nodes c s'
  rw [r.renderInclude_of_parsed hEnter hSource hParse] at hOk hKept ⊢
  obtain ⟨hOk', hInside⟩ := ImprovedBy.refl nodes inner levels' (by omega) c entered s'
    (h.of_enterInclude hEnter) text hOk
  exact ⟨hOk', h.of_kept hKept hKept' hInside.loops⟩

end Renderer

end Stencil
