import Stencil.Proofs.FreeNames
import Stencil.Proofs.Later
import Stencil.Proofs.Printing

/-!
# Stencil — loops unrolled

A loop is written as two tags with a body between them. This module says what such a template
renders to in terms of its body as a template of its own: once for each item, in a context that
binds the item, and one after the other. What is within the body does not matter, be it loops over
fields of the item, includes or tags that mean nothing, as long as it closes its own loops and no
others.

* `Context.ItemOver` — what names mean for one item of a loop: the item by its name, then each list
  field of a record item, then what they mean around the loop. `forItem` is such a context.
* `Parser.steps_loopSource` — a walk over the template adds one loop, wherever it stands, with the
  nodes of the body as they are by themselves.
* `Session.evaluate_items` — the items one after the other, with the loops of all of them.
* `Engine.renderText_loopSource` — so the template renders to what the body renders to, item by
  item.
-/

namespace Stencil

open Text

-- ---------------------------------------------------------------------------
-- Contexts of items
-- ---------------------------------------------------------------------------

/-- `inner` is `c` with an item over it: the item has the name `x`, each list field of a record item
has its own, where that is another one, and every other name means what it means in `c`. -/
def Context.ItemOver (c : Context) (x : String) (item : Value) (inner : Context) : Prop :=
  ∀ name, inner.resolve? name =
    if name = x then some item
    else ((item.field? name).filter Value.isList).or (c.resolve? name)

theorem Value.lookup_listFields (v : Value) (n : String) :
    v.listFields.reverse.lookup n = (v.field? n).filter Value.isList := by
  cases v with
  | record fields => exact Fields.lookup_listFields fields n
  | null | bool b | number m | string s | list items => rfl

theorem Context.itemOver_forItem (c : Context) (x : String) (v : Value) :
    c.ItemOver x v (c.forItem x v) := by
  intro name
  rw [resolve?_forItem, v.lookup_listFields]

/-- There is one rendering for an item, whatever its context is made of. -/
theorem Session.evaluate_of_itemOver (s : Session) (r : Renderer) (nodes : List Node) {c : Context}
    {x : String} {v : Value} {inner : Context} (hOver : c.ItemOver x v inner) :
    s.evaluate r nodes inner = s.evaluate r nodes (c.forItem x v) := by
  have hSame : ∀ name, inner.resolve? name = (c.forItem x v).resolve? name := fun name =>
    (hOver name).trans (c.itemOver_forItem x v name).symm
  exact evaluate_congr r nodes inner s Set.univ (c.forItem x v) (fun _ _ => Set.mem_univ _)
    (fun _ _ _ _ _ _ _ => Set.mem_univ _) fun name _ => hSame name

-- ---------------------------------------------------------------------------
-- The template of a loop
-- ---------------------------------------------------------------------------

/-- A loop as it is written: its tag, its body and the tag that closes it. -/
def loopSource (x path body : String) : String :=
  tagSource (LoopHeader.write ⟨x, path⟩) ++ body ++ tagSource loopEnd

namespace Parser

open Pass

variable {p : Parser}

/-- If the tag of a loop means anything, it means that loop. -/
theorem meaning_write (hChain : p.constructs = Construct.standard) (header : LoopHeader)
    (hItem : isName header.item.toList = true)
    (hCollection : isPath header.collection.toList = true)
    {depth : Nat} {raw : String} {position : Position} {m : Meaning}
    (hMeaning : p.meaning depth (.tag header.write raw position) = .ok m) : m = .loop header := by
  obtain ⟨constructs, limit⟩ := p
  obtain rfl : constructs = Construct.standard := hChain
  rw [meaning_standard] at hMeaning
  by_cases hDepth : depth < limit
  · rw [standardMeaning_loop hItem hCollection hDepth] at hMeaning
    exact (Except.ok.inj hMeaning).symm
  · simp [standardMeaning, header.isPrefixOf_write, LoopHeader.read?_write hItem hCollection,
      Nat.not_lt.mp hDepth] at hMeaning

variable {x path body : String}

theorem atomsOf_loopSource (hName : isName x.toList = true) (hPath : isPath path.toList = true)
    (hBody : Seamless body) :
    atomsOf (loopSource x path body) =
      tagToken (LoopHeader.write ⟨x, path⟩) :: (atomsOf body ++ [tagToken loopEnd]) := by
  have hHeader : TagFits (LoopHeader.write ⟨x, path⟩) (tagSource (LoopHeader.write ⟨x, path⟩)) :=
    LoopHeader.tagFits_write hName hPath
  have hEnd : TagFits loopEnd (tagSource loopEnd) := tagFits_of_plain (by decide) (by decide)
  rw [loopSource, atomsOf_between _ hHeader.seamless hBody, hHeader.atomsOf_tagSource,
    hEnd.atomsOf_tagSource]
  rfl

/-- **A walk over the template adds a loop**, wherever it stands, with the nodes that the body has
by itself. -/
theorem steps_loopSource (hChain : p.constructs = Construct.standard)
    (hName : isName x.toList = true) (hPath : isPath path.toList = true)
    (hBody : SelfContained body) {pass last : Pass}
    (hSteps : steps p.meaning (atomsOf (loopSource x path body)) pass = .ok last) :
    ∃ own, steps p.meaning (atomsOf body) {} = .ok own ∧ own.loops = [] ∧
      last = pass.add (.loop x path own.nodes.reverse .start) := by
  let header : LoopHeader := ⟨x, path⟩
  rw [atomsOf_loopSource hName hPath hBody.toSeamless, steps] at hSteps
  have hStay : ¬ pass.Closes (tagToken header.write) := not_closes_write header
  rw [step_stay hStay] at hSteps
  cases hMeaning : p.meaning pass.loops.length (tagToken header.write) with
  | error e => simp [header, hMeaning, Except.map] at hSteps
  | ok m =>
    obtain rfl : m = .loop header := meaning_write hChain header hName hPath hMeaning
    simp only [header, hMeaning, Except.map] at hSteps
    -- the body is read within the loop that was entered
    let entered := pass.enter header .start [tagToken header.write]
    obtain ⟨inside, hInside, hClosing⟩ := steps_append_eq_ok_iff.mp hSteps
    have hEntered : steps p.meaning (atomsOf body) entered = .ok inside := hInside
    obtain ⟨own, hOwn, hOwnClosed, rfl⟩ := hBody.steps hChain hEntered
    refine ⟨own, hOwn, hOwnClosed, ?_⟩
    -- and the loop is what the closing tag closes
    have hClose : (entered.addAll own.nodes.reverse).Closes (tagToken loopEnd) :=
      ⟨rfl, List.cons_ne_nil _ _⟩
    rw [steps, step_close hClose, close_addAll_enter] at hClosing
    exact (Except.ok.inj hClosing).symm

/-- The tree of the template renders as one loop with the tree of the body in it. -/
theorem alike_loopSource (r : Renderer) {p : Parser} (hChain : p.constructs = Construct.standard)
    {x path body : String} (hName : isName x.toList = true) (hPath : isPath path.toList = true)
    (hBody : SelfContained body) {nodes : List Node}
    (hParse : p.parseText (loopSource x path body) = .ok nodes) :
    ∃ tree, p.parseText body = .ok tree ∧ r.Alike nodes [.loop x path tree .start] := by
  obtain ⟨last, hSteps, hNodes⟩ := (p.fate_parseText r _).ok_right hParse
  obtain ⟨own, hOwn, hClosed, rfl⟩ := steps_loopSource hChain hName hPath hBody hSteps
  obtain ⟨tree, hTree, hAlike⟩ := (p.fate_parseText r body).ok_left hOwn
  have hInside := (hAlike hClosed).symm.loop x path .start .start
  refine ⟨tree, hTree, fun onInclude c s => ?_⟩
  rw [hNodes rfl onInclude c s]
  exact hInside onInclude c s

end Parser

-- ---------------------------------------------------------------------------
-- Item by item
-- ---------------------------------------------------------------------------

namespace Session

variable {r : Renderer} {c : Context} {s : Session} {x path : String} {tree : List Node}

/-- **The items one after the other.** What the body renders to for each item, from one session, is
put together, and the loops of all items are charged on top of the loop itself. -/
theorem evaluate_items (position : Position) {items : List Value} {outs : List (String × Nat)}
    (hItems : c.lookup? path = some (.list items))
    (hOuts : List.Forall₂ (fun v out =>
      (s.evaluate r tree (c.forItem x v)).result = .ok out.1 ∧
      (s.evaluate r tree (c.forItem x v)).session.loops = s.loops + out.2) items outs)
    (hBudget : s.loops + 1 + (outs.map Prod.snd).sum ≤ s.limits.maxLoopEvaluations) :
    (s.evaluate r [.loop x path tree position] c).result =
      .ok (String.join (outs.map Prod.fst)) ∧
    (s.evaluate r [.loop x path tree position] c).session =
      s.later (1 + (outs.map Prod.snd).sum) := by
  have hRecord : s.recordLoop = .ok (s.later 1) := recordLoop_eq_ok_iff.mpr ⟨by omega, rfl⟩
  have hKept : ∀ v (s : Session), s.Kept (s.evaluate r tree (c.forItem x v)).session :=
    fun v s => s.kept_evaluate r tree _
  rw [evaluate, r.renderNodes_singleton, evaluate_loop, hRecord, hItems]
  exact Outcome.sequence_later hKept (fun v n => evaluate_later r tree _ s n) hOuts 1 hBudget

/-- Without a list there is nothing to go through, but the loop is charged. -/
theorem evaluate_no_items (position : Position)
    (hNone : (c.lookup? path).bind Value.items? = none)
    (hBudget : s.loops < s.limits.maxLoopEvaluations) :
    s.evaluate r [.loop x path tree position] c = .done "" (s.later 1) := by
  have hRecord : s.recordLoop = .ok (s.later 1) := recordLoop_eq_ok_iff.mpr ⟨hBudget, rfl⟩
  rw [evaluate, r.renderNodes_singleton, evaluate_loop, hRecord]
  simp only [hNone]

end Session

-- ---------------------------------------------------------------------------
-- Whole renders
-- ---------------------------------------------------------------------------

namespace Engine

/--
**A loop renders its body, item by item.** Take any engine with the standard chain, whatever its
source and its limits, and a loop written around any self-contained body, with a name for the item
and a path, such that the whole can be parsed. In any context in which the path leads to a list, if
for each item the body renders as a template of its own, in a context that has the item over this
one, then the loop renders to all these texts one after the other. It takes one loop and those of
all items, as long as the budget has so many. Where the path leads to no list, or to nothing, the
loop renders to the empty text and takes one loop, which every budget but an empty one has.
-/
theorem renderText_loopSource (engine : Engine)
    (hChain : engine.parser.constructs = Construct.standard) {x path body : String}
    (hName : isName x.toList = true) (hPath : isPath path.toList = true)
    (hBody : SelfContained body) {nodes : List Node}
    (hParse : engine.parser.parseText (loopSource x path body) = .ok nodes) (c : Context) :
    (∀ items outs, c.lookup? path = some (.list items) →
      List.Forall₂ (fun item out => ∃ inner, c.ItemOver x item inner ∧
        (engine.renderText body inner).result = .ok out.1 ∧
        (engine.renderText body inner).session.loops = out.2) items outs →
      1 + (outs.map Prod.snd).sum ≤ engine.limits.maxLoopEvaluations →
      (engine.renderText (loopSource x path body) c).result =
        .ok (String.join (outs.map Prod.fst)) ∧
      (engine.renderText (loopSource x path body) c).session.loops =
        1 + (outs.map Prod.snd).sum) ∧
    ((∀ items, c.lookup? path ≠ some (.list items)) → 0 < engine.limits.maxLoopEvaluations →
      (engine.renderText (loopSource x path body) c).result = .ok "" ∧
      (engine.renderText (loopSource x path body) c).session.loops = 1) := by
  obtain ⟨tree, hTree, hAlike⟩ :=
    Parser.alike_loopSource engine.renderer hChain hName hPath hBody hParse
  let start := Session.start engine.limits
  have hWhole : engine.renderText (loopSource x path body) c =
      start.evaluate engine.renderer [.loop x path tree .start] c := by
    rw [renderText_of_parse hParse]
    exact hAlike _ c start
  have hInside : ∀ v inner, c.ItemOver x v inner →
      engine.renderText body inner = start.evaluate engine.renderer tree (c.forItem x v) := by
    intro v inner hOver
    rw [renderText_of_parse hTree]
    exact start.evaluate_of_itemOver engine.renderer tree hOver
  rw [hWhole]
  constructor
  · intro items outs hItems hOuts hBudget
    have hEach : List.Forall₂ (fun v out =>
        (start.evaluate engine.renderer tree (c.forItem x v)).result = .ok out.1 ∧
        (start.evaluate engine.renderer tree (c.forItem x v)).session.loops =
          start.loops + out.2) items outs := by
      refine hOuts.imp fun v out hItem => ?_
      obtain ⟨inner, hOver, hText, hLoops⟩ := hItem
      rw [← hInside v inner hOver]
      exact ⟨hText, hLoops.trans (Nat.zero_add _).symm⟩
    have hRoom : start.loops + 1 + (outs.map Prod.snd).sum ≤ start.limits.maxLoopEvaluations := by
      show 0 + 1 + _ ≤ engine.limits.maxLoopEvaluations
      omega
    obtain ⟨hText, hEnd⟩ := Session.evaluate_items .start hItems hEach hRoom
    refine ⟨hText, ?_⟩
    rw [hEnd]
    exact Nat.zero_add _
  · intro hNoList hBudget
    have hNone : (c.lookup? path).bind Value.items? = none := by
      cases hLookup : c.lookup? path with
      | none => rfl
      | some v =>
        cases v with
        | list items => exact absurd hLookup (hNoList items)
        | null | bool b | number n | string s | record fields => rfl
    rw [Session.evaluate_no_items .start hNone hBudget]
    exact ⟨rfl, rfl⟩

set_option maxRecDepth 20000 in
/-- The theorem at a loop over records, with a loop over a list field in it that one of the two does
not have, and a list field that has the name of the item; and where there is no list. -/
theorem renderText_loopSource_over_records :
    let engine : Engine :=
      { source := fun name => .error (.notFound name), limits := { maxLoopEvaluations := 3 } }
    let body := "\x7b\x7bx.n\x7d\x7d:" ++
      "\x7b\x7bfor y in ys\x7d\x7d\x7b\x7by\x7d\x7d\x7b\x7b/for\x7d\x7d;"
    let whole := loopSource "x" "xs" body
    let a : Value := .record (Record.ofList [("n", .string "a"), ("x", .list []),
      ("ys", .list [.string "1", .string "2"])])
    let b : Value := .record (Record.ofList [("n", .string "b")])
    let c : Context := .ofBindings [("xs", .list [a, b]), ("ys", .list [.string "3"])]
    whole = "\x7b\x7bfor x in xs\x7d\x7d" ++ body ++ "\x7b\x7b/for\x7d\x7d" ∧
    SelfContained body ∧ (∃ nodes, engine.parser.parseText whole = .ok nodes) ∧
    (engine.renderText whole c).result = .ok "a:12;b:3;" ∧
    (engine.renderText whole c).session.loops = 3 ∧
    (engine.renderText whole .empty).result = .ok "" ∧
    (engine.renderText whole .empty).session.loops = 1 := by
  intro engine body whole a b c
  have hScan : Token.scan body = [.tag "x.n" "\x7b\x7bx.n\x7d\x7d" ⟨1, 1⟩, .text ":" ⟨1, 8⟩,
      .tag "for y in ys" "\x7b\x7bfor y in ys\x7d\x7d" ⟨1, 9⟩, .tag "y" "\x7b\x7by\x7d\x7d" ⟨1, 24⟩,
      .tag "/for" "\x7b\x7b/for\x7d\x7d" ⟨1, 29⟩, .text ";" ⟨1, 37⟩] := by
    unfold body
    cbv
  have hBody : SelfContained body := by
    refine ⟨⟨?_, ?_⟩, ?_⟩
    · intro text position hMem
      rw [hScan] at hMem
      obtain ⟨rfl, -⟩ | ⟨rfl, -⟩ : (text = ":" ∧ _) ∨ (text = ";" ∧ _) := by simpa using hMem
      · decide
      · decide
    · rintro ⟨text, position, hLast, hHalf⟩
      obtain ⟨rfl, -⟩ : ";" = text ∧ _ := by simpa [hScan] using hLast
      exact absurd hHalf (by decide)
    · rw [hScan]
      decide
  have hTree : engine.parser.parseText body =
      .ok [.placeholder "x.n" ⟨1, 1⟩, .text ":" ⟨1, 8⟩,
        .loop "y" "ys" [.placeholder "y" ⟨1, 24⟩] ⟨1, 9⟩, .text ";" ⟨1, 37⟩] := by
    rw [Parser.parseText, hScan, Parser.parse_eq_run]
    rfl
  obtain ⟨nodes, hParse⟩ : ∃ nodes, engine.parser.parseText whole = .ok nodes := by
    refine ⟨[.loop "x" "xs" [.placeholder "x.n" ⟨1, 16⟩, .text ":" ⟨1, 23⟩,
      .loop "y" "ys" [.placeholder "y" ⟨1, 39⟩] ⟨1, 24⟩, .text ";" ⟨1, 52⟩] ⟨1, 1⟩], ?_⟩
    unfold engine whole body
    cbv
  have hFirst : (engine.renderText body (c.forItem "x" a)).result = .ok "a:12;" ∧
      (engine.renderText body (c.forItem "x" a)).session.loops = 1 := by
    rw [engine.renderText_of_parse hTree]
    constructor <;> cbv
  have hSecond : (engine.renderText body (c.forItem "x" b)).result = .ok "b:3;" ∧
      (engine.renderText body (c.forItem "x" b)).session.loops = 1 := by
    rw [engine.renderText_of_parse hTree]
    constructor <;> cbv
  obtain ⟨hItems, -⟩ := engine.renderText_loopSource rfl (x := "x") rfl rfl hBody hParse c
  have hList : c.lookup? "xs" = some (.list [a, b]) := by cbv
  have hOverA := c.itemOver_forItem "x" a
  have hOverB := c.itemOver_forItem "x" b
  obtain ⟨hText, hLoops⟩ := hItems [a, b] [("a:12;", 1), ("b:3;", 1)] hList
    (.cons ⟨_, hOverA, hFirst⟩ (.cons ⟨_, hOverB, hSecond⟩ .nil)) (by decide)
  obtain ⟨-, hNone⟩ := engine.renderText_loopSource rfl (x := "x") rfl rfl hBody hParse .empty
  obtain ⟨hNoText, hOneLoop⟩ := hNone (fun items hList => by cases hList) (by decide)
  exact ⟨rfl, hBody, ⟨nodes, hParse⟩, hText, hLoops, hNoText, hOneLoop⟩

end Engine

end Stencil
