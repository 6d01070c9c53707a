import Mathlib
import Stencil.Proofs.OnePass
import Stencil.Proofs.Rendering

/-!
# Stencil — how deep rendering calls itself

Rendering a node calls itself for the nodes of a loop body, and for the nodes of a template that an
include has just fetched. This module counts the calls that are active at once. Two things bound
them: parsing never returns a tree in which loops nest deeper than allowed, whatever became of loops
that were left open; and an include takes one name off the room that the session has.

* `loopHeight` — how deep loops nest in a list of trees; `loopHeight_parse` bounds it by the limit
  of the parser.
* `Renderer.renderNodesWithin` — rendering that is given a number of calls that may be active at
  once, hands one less to each call inside, and gives up at zero. It recurses on that number and on
  nothing else, so it knows no levels and no measure.
* `renderNodesWithin_eq` — given enough, it does what rendering does, session and questions
  included.
* `call_depth_bounded` — enough is (include depth + 1) · (loop nesting + 1).
-/

namespace Stencil

/-! ## How deep loops nest in a tree -/

mutual

def Node.loopHeight : Node → Nat
  | .text .. => 0
  | .placeholder .. => 0
  | .inclusion .. => 0
  | .loop _ _ body _ => loopHeight body + 1
termination_by structural node => node

/-- How deep loops nest in the deepest of several trees. -/
def loopHeight : List Node → Nat
  | [] => 0
  | node :: nodes => max node.loopHeight (loopHeight nodes)
termination_by structural nodes => nodes

end

theorem loopHeight_le_cons (node : Node) (nodes : List Node) :
    loopHeight nodes ≤ loopHeight (node :: nodes) :=
  Nat.le_max_right _ _

theorem Node.loopHeight_le_of_mem {node : Node} {nodes : List Node} (hMem : node ∈ nodes) :
    node.loopHeight ≤ Stencil.loopHeight nodes := by
  induction nodes with
  | nil => cases hMem
  | cons first rest ih =>
    rw [Stencil.loopHeight]
    rcases List.mem_cons.mp hMem with rfl | hRest
    · exact Nat.le_max_left _ _
    · exact Nat.le_trans (ih hRest) (Nat.le_max_right _ _)

/-- Loops never nest deeper than the parser allows. -/
theorem Parser.loopHeight_parse {p : Parser} {tokens : List Token} {nodes : List Node}
    (hParse : p.parse tokens = .ok nodes) : loopHeight nodes ≤ p.maxLoopNesting := by
  -- where `depth` loops are open, there is only so much left
  refine forest_of_parse (P := fun depth nodes => loopHeight nodes ≤ p.maxLoopNesting - depth)
    ?nil ?text ?node ?loop hParse
  case nil =>
    intro depth
    exact Nat.zero_le _
  case text =>
    intro depth content position nodes ih
    rw [loopHeight, Node.loopHeight]
    omega
  case node =>
    intro depth t node nodes hMeaning ih
    have hLeaf : node.loopHeight = 0 := by
      rcases meaning_node_cases hMeaning with ⟨_, rfl⟩ | ⟨_, rfl⟩ | ⟨_, _, -, rfl⟩ <;> rfl
    rw [loopHeight, hLeaf]
    omega
  case loop =>
    intro depth t header body nodes hMeaning hBody ih
    have hRoom := meaning_loop_cases hMeaning
    rw [loopHeight, Node.loopHeight]
    omega

/-! ## Rendering with a bound on active calls -/

namespace Outcome

/-- `o`, then `next`, unless one of them gave up. -/
def andThenWithin (o : Option Outcome) (next : Session → Option Outcome) : Option Outcome :=
  o.bind fun o =>
    match o.result with
    | .error _ => some o
    | .ok _ => (next o.session).map fun o' => o.andThen fun _ => o'

/-- One outcome after the other, until one gives up. -/
def sequenceWithin : List (Session → Option Outcome) → Session → Option Outcome
  | [], s => some (done "" s)
  | step :: steps, s => andThenWithin (step s) (sequenceWithin steps)

theorem andThenWithin_some {o o' : Outcome} {next : Session → Option Outcome}
    {next' : Session → Outcome} (hFirst : o = o')
    (hNext : next o'.session = some (next' o'.session)) :
    andThenWithin (some o) next = some (o'.andThen next') := by
  subst hFirst
  show (match o.result with
    | .error _ => some o
    | .ok _ => (next o.session).map fun o' => o.andThen fun _ => o') = _
  cases hResult : o.result with
  | error e => rw [andThen_of_error hResult]
  | ok text =>
    simp only [hNext, Option.map_some]
    exact congrArg some (andThen_congr rfl)

/-- Steps that never give up are the steps themselves. -/
theorem sequenceWithin_eq {α : Type} {step : α → Session → Option Outcome}
    {step' : α → Session → Outcome} {P : Session → Prop} {as : List α}
    (hStep : ∀ a ∈ as, ∀ s, P s → step a s = some (step' a s))
    (hKept : ∀ a s, P s → P (step' a s).session) {s : Session} (hStart : P s) :
    sequenceWithin (as.map step) s = some (sequence (as.map step') s) := by
  induction as generalizing s with
  | nil => rfl
  | cons a as ih =>
    have hFirst := hStep a List.mem_cons_self s hStart
    have hRest := ih (fun b hb => hStep b (List.mem_cons_of_mem a hb)) (hKept a s hStart)
    show andThenWithin (step a s) _ = some ((step' a s).andThen _)
    rw [hFirst]
    exact andThenWithin_some rfl hRest

end Outcome

namespace Renderer

open Outcome

/-- Renders one node while no more than `depth` calls are active, this one included, and gives up
where one more would be needed. -/
def renderNodeWithin (r : Renderer) : (depth : Nat) → Node → Context → Session → Option Outcome
  | 0, _, _, _ => none
  | _ + 1, .text text _, _, s => some (.done text s)
  | _ + 1, .placeholder path _, c, s => some (.done (placeholderText c path) s)
  | depth + 1, .loop item collection body _, c, s =>
    match s.recordLoop with
    | .error e => some (.fail e s)
    | .ok charged =>
      match (c.lookup? collection).bind Value.items? with
      | none => some (.done "" charged)
      | some items =>
        sequenceWithin
          (items.map fun v =>
            sequenceWithin (body.map fun node => r.renderNodeWithin depth node (c.forItem item v)))
          charged
  | depth + 1, .inclusion name _, c, s =>
    match s.enterInclude name with
    | .error e => some (.fail e s)
    | .ok entered =>
      let rendered : Option Outcome :=
        match r.source name with
        | .error e => some (.fail e entered)
        | .ok template =>
          match r.parser.parseText template with
          | .error e => some (.fail e entered)
          | .ok nodes =>
            sequenceWithin (nodes.map fun node => r.renderNodeWithin depth node c) entered
      rendered.map fun o => (o.asking { name, chain := entered.chain }).leaving

/-- Renders nodes in order while no more than `depth` calls for a node are active at once. -/
def renderNodesWithin (r : Renderer) (depth : Nat) (nodes : List Node) (c : Context)
    (s : Session) : Option Outcome :=
  sequenceWithin (nodes.map fun node => r.renderNodeWithin depth node c) s

end Renderer

/-! ## Enough is enough -/

/-- Rendering nodes is rendering each, with the levels that the session has room for. -/
theorem Session.evaluate_eq_sequence (r : Renderer) (nodes : List Node) (c : Context)
    (s : Session) :
    s.evaluate r nodes c =
      Outcome.sequence
        (nodes.map fun node s => r.renderNode (r.renderInclude s.room) node c s) s := by
  induction nodes generalizing s with
  | nil => rfl
  | cons node nodes ih =>
    rw [s.evaluate_cons]
    exact Outcome.andThen_congr (ih _)

namespace Renderer

/-- Whatever text is read, loops nest no deeper than that in its trees. -/
def NestsWithin (r : Renderer) (nesting : Nat) : Prop :=
  ∀ template nodes, r.parser.parseText template = .ok nodes → loopHeight nodes ≤ nesting

/-- The calls for a node that rendering takes in a session with `room` more includes, where loops
nest `height` deep: those of the trees themselves, and of one template for each include inside. -/
def callsFor (nesting height room : Nat) : Nat :=
  height + 1 + room * (nesting + 1)

/-- With `depth` calls, every node is rendered that takes no more. -/
def Suffices (r : Renderer) (nesting depth : Nat) : Prop :=
  ∀ node c (s : Session), callsFor nesting node.loopHeight s.room ≤ depth →
    r.renderNodeWithin depth node c s = some (r.renderNode (r.renderInclude s.room) node c s)

variable {r : Renderer} {nesting : Nat}

/-- Nodes in a row take as many calls as the one that takes most. -/
theorem Suffices.renderNodes {depth : Nat} (hDepth : r.Suffices nesting depth) {nodes : List Node}
    (c : Context) {s : Session} (hEnough : callsFor nesting (loopHeight nodes) s.room ≤ depth) :
    r.renderNodesWithin depth nodes c s = some (s.evaluate r nodes c) := by
  rw [s.evaluate_eq_sequence]
  -- every node leaves the session with the room that it had
  refine Outcome.sequenceWithin_eq (P := fun s' => s'.room = s.room) ?_ ?_ rfl
  · intro node hNode s' hRoom
    have hHeight := Node.loopHeight_le_of_mem hNode
    refine hDepth node c s' ?_
    rw [hRoom]
    unfold callsFor at hEnough ⊢
    omega
  · intro node s' hRoom
    have hKept := r.kept_renderNode (r.keeps_renderInclude s'.room) node c s'
    exact (Session.room_eq_of_kept hKept).trans hRoom

theorem Suffices.renderLoop {depth : Nat} (hDepth : r.Suffices nesting depth)
    (item collection : String) {body : List Node} (position : Position) (c : Context) {s : Session}
    (hEnough : callsFor nesting (loopHeight body) s.room ≤ depth) :
    r.renderNodeWithin (depth + 1) (.loop item collection body position) c s =
      some (r.renderNode (r.renderInclude s.room) (.loop item collection body position) c s) := by
  rw [renderNodeWithin, s.evaluate_loop]
  cases hRecord : s.recordLoop with
  | error e => rfl
  | ok charged =>
    cases (c.lookup? collection).bind Value.items? with
    | none => rfl
    | some items =>
      refine Outcome.sequenceWithin_eq (P := fun s' => s'.room = s.room) ?_ ?_
        (Session.room_eq_of_kept (Session.kept_recordLoop hRecord))
      · intro v hv s' hRoom
        exact hDepth.renderNodes _ (by rwa [hRoom])
      · intro v s' hRoom
        exact (Session.room_eq_of_kept (s'.kept_evaluate r body _)).trans hRoom

/-- The trees of an included template may be as high as trees get. -/
theorem Suffices.renderInclusion {depth : Nat} (hDepth : r.Suffices nesting depth)
    (hNests : r.NestsWithin nesting) (name : String) (position : Position) (c : Context)
    {s : Session} (hEnough : s.room * (nesting + 1) ≤ depth) :
    r.renderNodeWithin (depth + 1) (.inclusion name position) c s =
      some (r.renderNode (r.renderInclude s.room) (.inclusion name position) c s) := by
  rw [renderNodeWithin, renderNode, s.renderInclude_room]
  cases hEnter : s.enterInclude name with
  | error e => rfl
  | ok entered =>
    cases hSource : r.source name with
    | error e => rfl
    | ok template =>
      simp only [parsed]
      cases hParse : r.parser.parseText template with
      | error e => rfl
      | ok nodes =>
        have hNesting := hNests template nodes hParse
        have hInside : callsFor nesting (loopHeight nodes) entered.room ≤ depth := by
          rw [Session.room_of_enterInclude hEnter, Nat.succ_mul] at hEnough
          unfold callsFor
          omega
        have hAll := hDepth.renderNodes c hInside
        unfold renderNodesWithin at hAll
        simp only [hAll, Option.map_some]

/-- Any number of calls does for the nodes that take no more: what is inside a node takes one call
less, and gets one less. -/
theorem suffices_all (hNests : r.NestsWithin nesting) (depth : Nat) :
    r.Suffices nesting depth := by
  induction depth with
  | zero =>
    intro node c s hEnough
    unfold callsFor at hEnough
    omega
  | succ depth ih =>
    intro node c s hEnough
    cases node with
    | text content position => rfl
    | placeholder path position => rfl
    | loop item collection body position =>
      refine ih.renderLoop item collection position c ?_
      rw [Node.loopHeight] at hEnough
      unfold callsFor at hEnough ⊢
      omega
    | inclusion name position =>
      refine ih.renderInclusion hNests name position c ?_
      rw [Node.loopHeight] at hEnough
      unfold callsFor at hEnough
      omega

/-- **Rendering takes no more calls than that** at once. -/
theorem renderNodesWithin_eq (hNests : r.NestsWithin nesting) {depth : Nat} {nodes : List Node}
    (c : Context) {s : Session} (hEnough : callsFor nesting (loopHeight nodes) s.room ≤ depth) :
    r.renderNodesWithin depth nodes c s = some (s.evaluate r nodes c) :=
  (suffices_all hNests depth).renderNodes c hEnough

/-- What a parser reads nests within its limit. -/
theorem nestsWithin_over (p : Parser) (source : TemplateSource) :
    (p.over source).NestsWithin p.maxLoopNesting := by
  intro template nodes hParse
  have hTree : p.parse (Token.scan template) = .ok nodes := hParse
  exact Parser.loopHeight_parse hTree

/--
**Rendering ends within bounded call depth.** Take any source, cyclic or without end, any chain of
constructs, limits and context. A template that was parsed under the nesting limit is rendered, from
a session without active includes, with no more than (include depth + 1) · (loop nesting + 1) calls
for a node active at once: rendering that gives up where one more would be needed never gives up,
and has the same result, session and questions as rendering without such a bound.
-/
theorem call_depth_bounded (p : Parser) (source : TemplateSource) (limits : Limits) (loops : Nat)
    {tokens : List Token} {nodes : List Node} (hParse : p.parse tokens = .ok nodes) (c : Context) :
    (p.over source).renderNodesWithin ((limits.maxIncludeDepth + 1) * (p.maxLoopNesting + 1))
        nodes c { limits, loops } =
      some (Session.evaluate { limits, loops } (p.over source) nodes c) := by
  have hHeight := Parser.loopHeight_parse hParse
  have hRoom : ({ limits, loops } : Session).room = limits.maxIncludeDepth := rfl
  refine renderNodesWithin_eq (nestsWithin_over p source) c ?_
  rw [hRoom, Nat.succ_mul]
  unfold callsFor
  omega

set_option maxRecDepth 20000 in
/-- The theorem at a loop inside an include inside a loop, under limits of one each: four calls are
needed, and three are not enough. -/
theorem call_depth_bounded_and_reached :
    let included := "\x7b\x7bfor y in xs\x7d\x7d\x7b\x7by\x7d\x7d\x7b\x7b/for\x7d\x7d"
    let p : Parser := { maxLoopNesting := 1 }
    let source : TemplateSource := fun _ => .ok included
    let r : Renderer := p.over source
    let c : Context := .ofBindings [("xs", .list [.string "v"])]
    let s : Session := { limits := ⟨1, 1000, 1⟩, loops := 0 }
    let tokens := Token.scan
      "\x7b\x7bfor x in xs\x7d\x7d\x7b\x7binclude:a\x7d\x7d\x7b\x7b/for\x7d\x7d"
    let nodes : List Node := [.loop "x" "xs" [.inclusion "a" ⟨1, 16⟩] ⟨1, 1⟩]
    p.parse tokens = .ok nodes ∧
    r.renderNodesWithin 4 nodes c s = some (s.evaluate r nodes c) ∧
    (s.evaluate r nodes c).result = .ok "v" ∧
    r.renderNodesWithin 3 nodes c s = none := by
  intro included p source r c s tokens nodes
  have hParse : p.parse tokens = .ok nodes := by
    have hScan : tokens =
        [.tag "for x in xs" "\x7b\x7bfor x in xs\x7d\x7d" ⟨1, 1⟩,
          .tag "include:a" "\x7b\x7binclude:a\x7d\x7d" ⟨1, 16⟩,
          .tag "/for" "\x7b\x7b/for\x7d\x7d" ⟨1, 29⟩] := by
      unfold tokens
      cbv
    rw [hScan, Parser.parse_eq_run]
    rfl
  have hSource : (p.over source).source "a" = .ok included := rfl
  have hIncluded : (p.over source).parser.parseText included =
      .ok [.loop "y" "xs" [.placeholder "y" ⟨1, 16⟩] ⟨1, 1⟩] := by
    have hScan : Token.scan included =
        [.tag "for y in xs" "\x7b\x7bfor y in xs\x7d\x7d" ⟨1, 1⟩,
          .tag "y" "\x7b\x7by\x7d\x7d" ⟨1, 16⟩,
          .tag "/for" "\x7b\x7b/for\x7d\x7d" ⟨1, 21⟩] := by
      unfold included
      cbv
    show p.parse (Token.scan included) = _
    rw [hScan, Parser.parse_eq_run]
    rfl
  have hBounded := call_depth_bounded p source ⟨1, 1000, 1⟩ 0 hParse c
  have hFour : r.renderNodesWithin 4 nodes c s =
      some ⟨.ok "v", ⟨⟨1, 1000, 1⟩, [], 2⟩, [⟨"a", ["a"]⟩]⟩ := by
    simp only [renderNodesWithin, nodes, List.map_cons, List.map_nil, renderNodeWithin, r,
      hSource, hIncluded]
    rfl
  refine ⟨hParse, hBounded, ?_, ?_⟩
  · rw [Option.some.inj (hBounded.symm.trans hFour)]
  · simp only [renderNodesWithin, nodes, List.map_cons, List.map_nil, renderNodeWithin, r,
      hSource, hIncluded]
    rfl

end Renderer

end Stencil
