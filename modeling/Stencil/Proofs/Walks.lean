import Mathlib.Data.List.Forall2
import Stencil.Proofs.OnePass
import Stencil.Proofs.Refine
import Stencil.Proofs.Seams

/-!
# Stencil — walks side by side

Two walks that read the same tokens do the same to the frames that they have on their stacks. So
whatever relation their frames stand in is kept, if it is kept by trees put after one another and by
a loop put around them. One such relation lets a template be read atom by atom.

* `Pass.steps` — the walk over some tokens, with others to follow.
* `Congruence`, `Pass.Beside` — a relation of trees that a walk keeps; two walks of which the frames
  stand in that relation, one by one. Reading the same tokens keeps walks beside each other
  (`beside_steps`).
* `fate_parseText` — a template may be walked over atom by atom instead of token by token.
-/

namespace Stencil

/-! ## Results of the same kind -/

/-- Both succeed, with results that `R` relates, or both fail. -/
inductive SameFate {α β : Type} (R : α → β → Prop) : Except Error α → Except Error β → Prop
  | ok {a : α} {b : β} (h : R a b) : SameFate R (.ok a) (.ok b)
  | error (e e' : Error) : SameFate R (.error e) (.error e')

namespace SameFate

variable {α β : Type} {R : α → β → Prop} {x : Except Error α} {y : Except Error β}

theorem ok_right (h : SameFate R x y) {a : α} (hOk : x = .ok a) : ∃ b, y = .ok b ∧ R a b := by
  cases h with
  | ok h =>
    cases hOk
    exact ⟨_, rfl, h⟩
  | error e e' => cases hOk

theorem ok_left (h : SameFate R x y) {b : β} (hOk : y = .ok b) : ∃ a, x = .ok a ∧ R a b := by
  cases h with
  | ok h =>
    cases hOk
    exact ⟨_, rfl, h⟩
  | error e e' => cases hOk

end SameFate

/-! ## Several steps -/

namespace Pass

variable {meaning : Nat → Token → Except Error Meaning}

/-- The walk over some tokens. What is written after them is left out of the loops they open. -/
def steps (meaning : Nat → Token → Except Error Meaning) : List Token → Pass → Except Error Pass
  | [], pass => .ok pass
  | t :: ts, pass =>
    match pass.step meaning t [] with
    | .error e => .error e
    | .ok pass => steps meaning ts pass

theorem steps_append (ts us : List Token) (pass : Pass) :
    steps meaning (ts ++ us) pass = (steps meaning ts pass).bind (steps meaning us) := by
  induction ts generalizing pass with
  | nil => rfl
  | cons t ts ih =>
    rw [List.cons_append, steps, steps]
    cases pass.step meaning t [] with
    | error e => rfl
    | ok next => exact ih next

theorem steps_append_eq_ok_iff {ts us : List Token} {pass last : Pass} :
    steps meaning (ts ++ us) pass = .ok last ↔
      ∃ between, steps meaning ts pass = .ok between ∧ steps meaning us between = .ok last := by
  rw [steps_append]
  cases steps meaning ts pass <;> simp [Except.bind]

/-- What a walk does with the meaning of a token. -/
def does (pass : Pass) (t : Token) (rest : List Token) : Meaning → Pass
  | .node node   => pass.add node
  | .loop header => pass.enter header t.position (t :: rest)

/-- The token closes the innermost loop. -/
def Closes (pass : Pass) (t : Token) : Prop :=
  t.isTag loopEnd = true ∧ pass.loops ≠ []

theorem step_close {pass : Pass} {t : Token} (hClose : pass.Closes t) (rest : List Token) :
    pass.step meaning t rest = .ok pass.close :=
  if_pos hClose

theorem step_stay {pass : Pass} {t : Token} (hStay : ¬ pass.Closes t) (rest : List Token) :
    pass.step meaning t rest = (meaning pass.loops.length t).map (pass.does t rest) := by
  unfold Closes at hStay
  rw [step, if_neg hStay]
  rcases meaning pass.loops.length t with e | (node | header) <;> rfl

end Pass

/-! ## Walks beside each other -/

/-- A relation of trees that is kept by trees put after one another, and by a loop put around
them. -/
structure Congruence (R : List Node → List Node → Prop) : Prop where
  refl   : ∀ nodes, R nodes nodes
  append : ∀ {nodes nodes' more more'}, R nodes nodes' → R more more' →
    R (nodes ++ more) (nodes' ++ more')
  loop   : ∀ {body body'}, R body body' → ∀ item collection p p',
    R [.loop item collection body p] [.loop item collection body' p']

theorem congruence_alike (r : Renderer) : Congruence r.Alike :=
  ⟨.refl, .append, .loop⟩

theorem congruence_improvedBy (r : Renderer) : Congruence r.ImprovedBy :=
  ⟨.refl, .append, .loop⟩

/-- The same loop is open, and `R` relates what stands in front of it. -/
structure OpenLoop.Beside (R : List Node → List Node → Prop) (l l' : OpenLoop) : Prop where
  header : l'.header = l.header
  before : R l.before.reverse l'.before.reverse

/-- The same loops are open, and `R` relates the nodes of every frame. -/
structure Pass.Beside (R : List Node → List Node → Prop) (pass pass' : Pass) : Prop where
  nodes : R pass.nodes.reverse pass'.nodes.reverse
  loops : List.Forall₂ (OpenLoop.Beside R) pass.loops pass'.loops

namespace Pass

variable {R : List Node → List Node → Prop} {pass pass' : Pass}

theorem Beside.loops_eq_nil_iff (h : pass.Beside R pass') : pass'.loops = [] ↔ pass.loops = [] := by
  rw [← List.length_eq_zero_iff, ← List.length_eq_zero_iff, h.loops.length_eq]

theorem Beside.closes_iff (h : pass.Beside R pass') (t : Token) :
    pass'.Closes t ↔ pass.Closes t :=
  and_congr_right fun _ => not_congr h.loops_eq_nil_iff

theorem Beside.refl (hR : Congruence R) (pass : Pass) : pass.Beside R pass :=
  ⟨hR.refl _, List.forall₂_same.mpr fun _ _ => ⟨rfl, hR.refl _⟩⟩

theorem Beside.addAll (hR : Congruence R) (h : pass.Beside R pass') {nodes nodes' : List Node}
    (hNodes : R nodes nodes') : (pass.addAll nodes).Beside R (pass'.addAll nodes') := by
  refine ⟨?_, h.loops⟩
  simpa [Pass.addAll] using hR.append h.nodes hNodes

theorem Beside.add (hR : Congruence R) (h : pass.Beside R pass') {node node' : Node}
    (hNode : R [node] [node']) : (pass.add node).Beside R (pass'.add node') :=
  h.addAll hR hNode

theorem Beside.enter (hR : Congruence R) (h : pass.Beside R pass') (header : LoopHeader)
    (p p' : Position) (written written' : List Token) :
    (pass.enter header p written).Beside R (pass'.enter header p' written') :=
  ⟨hR.refl [], .cons ⟨rfl, h.nodes⟩ h.loops⟩

theorem Beside.close (hR : Congruence R) (h : pass.Beside R pass') :
    pass.close.Beside R pass'.close := by
  obtain ⟨nodes, loops⟩ := pass
  obtain ⟨nodes', loops'⟩ := pass'
  obtain ⟨hNodes, hLoops⟩ := h
  cases hLoops with
  | nil => exact ⟨hNodes, .nil⟩
  | @cons l l' ls ls' hFirst hRest =>
    -- the body becomes a loop, after what stands in front of it
    have hLoop := hR.loop hNodes l.header.item l.header.collection l.position l'.position
    have hBefore := hR.append hFirst.before hLoop
    refine ⟨?_, hRest⟩
    simpa [Pass.close, hFirst.header] using hBefore

/-- The same token takes walks that stand beside each other one step on, side by side. -/
theorem beside_step (hR : Congruence R) (h : pass.Beside R pass')
    (meaning : Nat → Token → Except Error Meaning) (t : Token) (rest rest' : List Token) :
    SameFate (Beside R) (pass.step meaning t rest) (pass'.step meaning t rest') := by
  by_cases hClose : pass.Closes t
  · rw [step_close hClose, step_close ((h.closes_iff t).mpr hClose)]
    exact .ok (h.close hR)
  · rw [step_stay hClose, step_stay (mt (h.closes_iff t).mp hClose), ← h.loops.length_eq]
    cases meaning pass.loops.length t with
    | error e => exact .error e e
    | ok m =>
      cases m with
      | node node => exact .ok (h.add hR (hR.refl [node]))
      | loop header => exact .ok (h.enter hR header t.position t.position _ _)

/-- **Walks that stand beside each other go on side by side** over the same tokens. -/
theorem beside_steps (hR : Congruence R) (meaning : Nat → Token → Except Error Meaning)
    (tokens : List Token) (h : pass.Beside R pass') :
    SameFate (Beside R) (steps meaning tokens pass) (steps meaning tokens pass') := by
  induction tokens generalizing pass pass' with
  | nil => exact .ok h
  | cons t ts ih =>
    have hStep := beside_step hR h meaning t [] []
    rw [steps, steps]
    generalize pass.step meaning t [] = x at hStep ⊢
    generalize pass'.step meaning t [] = y at hStep ⊢
    cases hStep with
    | ok hNext => exact ih hNext
    | error e e' => exact .error e e'

end Pass

/-! ## Atom by atom -/

/-- The meaning of a token that has been moved. -/
inductive Meaning.Moved (q : Position) : Meaning → Meaning → Prop
  | node (node : Node) : Moved q (.node node) (.node (node.moveTo q))
  | loop (header : LoopHeader) : Moved q (.loop header) (.loop header)

namespace Parser

open Pass

/-- A tag means the same wherever it stands. -/
theorem moved_meaning (p : Parser) (depth : Nat) (content raw : String) (position q : Position) :
    SameFate (Meaning.Moved q) (p.meaning depth (.tag content raw position))
      (p.meaning depth (.tag content raw q)) := by
  simp only [meaning]
  cases p.constructs.find? (·.claims content) with
  | none => exact .ok (.node _)
  | some construct =>
    cases construct with
    | placeholder => exact .ok (.node _)
    | inclusion =>
      cases includeTarget content with
      | error e => exact .error e e
      | ok name => exact .ok (.node _)
    | loop =>
      simp only [openLoop]
      cases LoopHeader.read? content with
      | none => exact .error _ _
      | some header =>
        by_cases hFull : p.maxLoopNesting ≤ depth
        · simp only [if_pos hFull]
          exact .error _ _
        · simp only [if_neg hFull]
          exact .ok (.loop header)

/-- Texts are added one by one. -/
theorem steps_texts (p : Parser) (cs : List Char) (q : Position) (pass : Pass) :
    steps p.meaning (cs.map fun c => .text (String.singleton c) q) pass =
      .ok (pass.addAll (cs.map fun c => .text (String.singleton c) q)) := by
  induction cs generalizing pass with
  | nil => rfl
  | cons c cs ih =>
    rw [List.map_cons, List.map_cons, addAll_cons, ← ih]
    simp [steps, step, Token.isTag, meaning]

/-- A token of a template takes a walk on as its atoms do. -/
theorem beside_atoms (r : Renderer) (p : Parser) {pass pass' : Pass}
    (h : pass.Beside r.Alike pass') (t : Token) (rest : List Token) :
    SameFate (Beside r.Alike) (pass.step p.meaning t rest) (steps p.meaning t.atoms pass') := by
  have hR := congruence_alike r
  cases t with
  | text content position =>
    have hStep : pass.step p.meaning (.text content position) rest =
        .ok (pass.add (.text content position)) := by
      simp [step, Token.isTag, meaning]
    rw [hStep, Token.atoms, p.steps_texts]
    exact .ok (h.addAll hR (r.alike_characters content position .start))
  | tag content raw position =>
    rw [Token.atoms, steps]
    -- where a tag stands is nothing to what it closes
    have hSame := h.closes_iff (.tag content raw .start)
    by_cases hClose : pass.Closes (.tag content raw position)
    · rw [step_close hClose, step_close (hSame.mpr hClose)]
      exact .ok (h.close hR)
    · have hMoved := p.moved_meaning pass.loops.length content raw position .start
      rw [step_stay hClose, step_stay (mt hSame.mp hClose), ← h.loops.length_eq]
      generalize p.meaning pass.loops.length (.tag content raw position) = x at hMoved ⊢
      generalize p.meaning pass.loops.length (.tag content raw .start) = y at hMoved ⊢
      cases hMoved with
      | error e e' => exact .error e e'
      | ok hSame =>
        cases hSame with
        | node node => exact .ok (h.add hR (r.alike_moveTo node .start))
        | loop header => exact .ok (h.enter hR header position .start _ _)

/-- Walking over tokens to their end, and walking over their atoms. -/
theorem fate_run (r : Renderer) (p : Parser) (tokens : List Token) {pass pass' : Pass}
    (h : pass.Beside r.Alike pass') :
    SameFate (fun nodes last => last.loops = [] → r.Alike nodes last.nodes.reverse)
      (run p.meaning tokens pass) (steps p.meaning (tokens.flatMap Token.atoms) pass') := by
  induction tokens generalizing pass pass' with
  | nil =>
    refine .ok fun hClosed => ?_
    have hLoops := h.loops
    rw [hClosed, List.forall₂_nil_right_iff] at hLoops
    rw [finish, hLoops]
    exact h.nodes
  | cons t ts ih =>
    have hStep := p.beside_atoms r h t ts
    rw [run, List.flatMap_cons, steps_append]
    generalize pass.step p.meaning t ts = x at hStep ⊢
    generalize steps p.meaning t.atoms pass' = y at hStep ⊢
    cases hStep with
    | ok hNext => exact ih hNext
    | error e e' => exact .error e e'

/-- **A template may be walked over atom by atom**, if all loops are closed in the end: its tree
renders as the nodes do that are reached. -/
theorem fate_parseText (r : Renderer) (p : Parser) (template : String) :
    SameFate (fun nodes last => last.loops = [] → r.Alike nodes last.nodes.reverse)
      (p.parseText template) (steps p.meaning (atomsOf template) {}) := by
  rw [parseText, parse_eq_run]
  exact p.fate_run r (Token.scan template) (Beside.refl (congruence_alike r) {})

end Parser

end Stencil
