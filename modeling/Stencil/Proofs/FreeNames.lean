import Mathlib
import Stencil.Proofs.OnePass
import Stencil.Proofs.Rendering
import Stencil.Proofs.Skeleton

/-!
# Stencil — which names a template reads

A context may bind any number of names; a template reads few of them. They can be told from its
tree: the first name of every path, unless a loop around it binds that name. An include is rendered
in the context of its tag, so the names in the templates of a source count as well, and a loop
around an include may bind them.

* `freeNames` — the names that some trees read.
* `Context.AgreeOn` — two contexts that mean the same by some names. A path starts with one name
  (`AgreeOn.lookup?`); the context of a loop item binds one more (`AgreeOn.forItem`).
* `Session.reads_only_free_names` — contexts that agree on the free names of trees and templates are
  the same to rendering.
-/

namespace Stencil

open Text

/-! ## Free names -/

/-- The name that a path starts with. -/
def firstName (path : String) : String := String.ofList (segments (· == '.') path.toList).1

mutual

def Node.freeNames : Node → List String
  | .text .. => []
  | .placeholder path _ => [firstName path]
  | .inclusion .. => []
  | .loop item collection body _ =>
    -- the collection is looked up outside, where the item is not bound
    firstName collection :: (freeNames body).filter (· ≠ item)
termination_by structural node => node

/-- The names that trees read from their context, those of their includes left aside. -/
def freeNames : List Node → List String
  | [] => []
  | node :: nodes => node.freeNames ++ freeNames nodes
termination_by structural nodes => nodes

end

/-- No template of the source that parses reads a name outside `N`. -/
def Renderer.ReadsWithin (r : Renderer) (N : Set String) : Prop :=
  ∀ name template nodes, r.source name = .ok template → r.parser.parseText template = .ok nodes →
    ∀ n ∈ freeNames nodes, n ∈ N

theorem Renderer.ReadsWithin.mono {r : Renderer} {N M : Set String} (h : r.ReadsWithin N)
    (hNames : N ⊆ M) : r.ReadsWithin M :=
  fun name template nodes hSource hParse n hMem =>
    hNames (h name template nodes hSource hParse n hMem)

/-- What is free in the body of a loop is free around it, or is the item. -/
theorem free_of_loop {item collection : String} {body nodes : List Node} {position : Position}
    {N : Set String}
    (hNodes : ∀ n ∈ freeNames (.loop item collection body position :: nodes), n ∈ N) :
    firstName collection ∈ N ∧ (∀ n ∈ freeNames body, n ∈ insert item N) ∧
      ∀ n ∈ freeNames nodes, n ∈ N := by
  refine ⟨hNodes _ List.mem_cons_self, fun n hMem => ?_, fun n hMem => ?_⟩
  · by_cases hItem : n = item
    · exact .inl hItem
    · refine .inr (hNodes n (List.mem_append_left _ (List.mem_cons_of_mem _ ?_)))
      exact List.mem_filter.mpr ⟨hMem, decide_eq_true hItem⟩
  · exact hNodes n (List.mem_append_right _ hMem)

/-! ## Contexts that agree -/

namespace Context

/-- The names in `N` are bound to the same values in both contexts, or in neither. -/
def AgreeOn (N : Set String) (c c' : Context) : Prop :=
  ∀ n ∈ N, c.resolve? n = c'.resolve? n

variable {N : Set String} {c c' : Context}

theorem AgreeOn.lookup? (h : AgreeOn N c c') {path : String} (hPath : firstName path ∈ N) :
    c.lookup? path = c'.lookup? path := by
  have hFirst := h (firstName path) hPath
  unfold firstName at hFirst
  unfold Context.lookup?
  dsimp only
  rw [hFirst]

/-- In the context of an item its own name agrees too, whatever was bound to it before. -/
theorem AgreeOn.forItem (h : AgreeOn N c c') (item : String) (v : Value) :
    AgreeOn (insert item N) (c.forItem item v) (c'.forItem item v) := by
  intro n hMem
  rw [resolve?_forItem, resolve?_forItem]
  by_cases hItem : n = item
  · rw [if_pos hItem, if_pos hItem]
  · -- the list fields of the item come from the item, and all else from below
    have hBelow := h n (hMem.resolve_left hItem)
    rw [if_neg hItem, if_neg hItem, hBelow]

end Context

/-! ## Rendering -/

namespace Session

variable {r : Renderer} {N : Set String} {c c' : Context}

theorem loop_congr {item collection : String} {body : List Node} (position : Position)
    {s : Session} (hLookup : c.lookup? collection = c'.lookup? collection)
    (hBody : ∀ v s', s.Kept s' →
      s'.evaluate r body (c.forItem item v) = s'.evaluate r body (c'.forItem item v)) :
    r.renderNode (r.renderInclude s.room) (.loop item collection body position) c s =
      r.renderNode (r.renderInclude s.room) (.loop item collection body position) c' s := by
  rw [evaluate_loop, evaluate_loop, hLookup]
  cases hRecord : s.recordLoop with
  | error e => rfl
  | ok charged =>
    cases (c'.lookup? collection).bind Value.items? with
    | none => rfl
    | some items =>
      refine Outcome.sequence_congr (P := s.Kept) (fun v s' hKept => hBody v s' hKept) ?_ items
        (kept_recordLoop hRecord)
      exact fun v s' hKept => hKept.trans (s'.kept_evaluate r body _)

theorem include_congr {name : String} {s : Session}
    (hInside : ∀ entered template inner, s.enterInclude name = .ok entered →
      r.source name = .ok template → r.parser.parseText template = .ok inner →
      entered.evaluate r inner c = entered.evaluate r inner c') :
    r.renderInclude s.room name c s = r.renderInclude s.room name c' s := by
  rw [renderInclude_room, renderInclude_room]
  cases hEnter : s.enterInclude name with
  | error e => rfl
  | ok entered =>
    cases hSource : r.source name with
    | error e => rfl
    | ok template =>
      cases hParse : r.parser.parseText template with
      | error e => simp only [r.parsed_of_error hParse]
      | ok inner =>
        simp only [r.parsed_of_ok hParse, hInside entered template inner hEnter hSource hParse]

theorem evaluate_congr (r : Renderer) (nodes : List Node) (c : Context) (s : Session) :
    ∀ (N : Set String) (c' : Context), (∀ n ∈ freeNames nodes, n ∈ N) → r.ReadsWithin N →
      Context.AgreeOn N c c' → s.evaluate r nodes c = s.evaluate r nodes c' := by
  -- a loop adds a name to `N`, so `N` varies along with the contexts
  refine evaluate_induction r
    (P := fun nodes c s => ∀ (N : Set String) (c' : Context), (∀ n ∈ freeNames nodes, n ∈ N) →
      r.ReadsWithin N → Context.AgreeOn N c c' → s.evaluate r nodes c = s.evaluate r nodes c')
    ?nil ?text ?placeholder ?inclusion ?loop nodes c s
  case nil =>
    intro c s N c' hNodes hTemplates hAgree
    rfl
  case text =>
    intro content position nodes c s ih N c' hNodes hTemplates hAgree
    rw [evaluate_cons, evaluate_cons]
    exact Outcome.andThen_congr (ih N c' hNodes hTemplates hAgree)
  case placeholder =>
    intro path position nodes c s ih N c' hNodes hTemplates hAgree
    obtain ⟨hHere, hRest⟩ := List.forall_mem_cons.mp hNodes
    have hText : placeholderText c path = placeholderText c' path := by
      unfold placeholderText
      rw [hAgree.lookup? hHere]
    rw [evaluate_cons, evaluate_cons]
    show (Outcome.done (placeholderText c path) s).andThen _ = _
    rw [hText]
    exact Outcome.andThen_congr (ih N c' hRest hTemplates hAgree)
  case inclusion =>
    -- no name of the include is free in the trees at hand: `N` has those of all templates
    intro name position nodes c s hInside ih N c' hNodes hTemplates hAgree
    have hKept := r.keeps_renderInclude s.room name c' s
    have hFirst : r.renderInclude s.room name c s = r.renderInclude s.room name c' s :=
      include_congr fun entered template inner hEnter hSource hParse =>
        hInside entered template inner hEnter hSource hParse N c'
          (hTemplates name template inner hSource hParse) hTemplates hAgree
    rw [evaluate_cons, evaluate_cons]
    show (r.renderInclude s.room name c s).andThen _ = _
    rw [hFirst]
    exact Outcome.andThen_congr (ih _ hKept N c' hNodes hTemplates hAgree)
  case loop =>
    intro item collection body position nodes c s hBody ih N c' hNodes hTemplates hAgree
    obtain ⟨hHere, hInBody, hRest⟩ := free_of_loop hNodes
    have hMore : r.ReadsWithin (insert item N) := hTemplates.mono (Set.subset_insert item N)
    have hFirst := loop_congr position (hAgree.lookup? hHere) fun v s' hKept =>
      hBody v s' hKept (insert item N) (c'.forItem item v) hInBody hMore (hAgree.forItem item v)
    have hKept := r.kept_renderNode (r.keeps_renderInclude s.room)
      (.loop item collection body position) c' s
    rw [evaluate_cons, evaluate_cons, hFirst]
    exact Outcome.andThen_congr (ih _ hKept N c' hRest hTemplates hAgree)

/--
**Rendering reads only free names.** Take any trees, any renderer, whatever its source has and
whatever reads it, and any session. Let `N` hold the free names of the trees and of every
template of the source that parses. Two contexts that bind the names in `N` alike lead to the same
outcome: the same text or error, the same session and the same questions. So contexts that bind all
names alike cannot be told apart, however they are layered.
-/
theorem reads_only_free_names (r : Renderer) (nodes : List Node) (s : Session) :
    (∀ N : Set String, (∀ n ∈ freeNames nodes, n ∈ N) → r.ReadsWithin N →
      ∀ c c' : Context, Context.AgreeOn N c c' →
        s.evaluate r nodes c = s.evaluate r nodes c') ∧
    ∀ c c' : Context, (∀ n, c.resolve? n = c'.resolve? n) →
      s.evaluate r nodes c = s.evaluate r nodes c' := by
  constructor
  · intro N hNodes hTemplates c c' hAgree
    exact evaluate_congr r nodes c s N c' hNodes hTemplates hAgree
  · intro c c' hSame
    exact evaluate_congr r nodes c s Set.univ c' (fun _ _ => Set.mem_univ _)
      (fun _ _ _ _ _ _ _ => Set.mem_univ _) fun n _ => hSame n

set_option maxRecDepth 4000 in
/-- The theorem at a loop with an include in it, in contexts that differ in the name of the item. -/
theorem reads_only_free_names_under_loop :
    let r : Renderer := ({} : Parser).over fun _ => .ok "\x7b\x7bxs\x7d\x7d"
    let nodes : List Node :=
      [.loop "x" "xs" [.placeholder "x.y" ⟨1, 1⟩, .inclusion "a" ⟨1, 1⟩] ⟨1, 1⟩]
    let c : Context := .ofBindings [("x", .bool true), ("xs", .list [.null])]
    let c' : Context := Context.empty.withBinding "xs" (.list [.null])
    freeNames nodes = ["xs"] ∧ c.resolve? "x" ≠ c'.resolve? "x" ∧
    ∀ s : Session, s.evaluate r nodes c = s.evaluate r nodes c' := by
  intro r nodes c c'
  have hFree : freeNames nodes = ["xs"] := by decide
  have hParse : r.parser.parseText "\x7b\x7bxs\x7d\x7d" = .ok [.placeholder "xs" ⟨1, 1⟩] := by
    have hScan : Token.scan "\x7b\x7bxs\x7d\x7d" =
        [.tag "xs" "\x7b\x7bxs\x7d\x7d" ⟨1, 1⟩] := by cbv
    show ({} : Parser).parse (Token.scan "\x7b\x7bxs\x7d\x7d") = _
    rw [hScan, Parser.parse_eq_run]
    rfl
  have hBound : c.resolve? "x" = some (.bool true) := by cbv
  have hUnbound : c'.resolve? "x" = none := by cbv
  have hDiffer : c.resolve? "x" ≠ c'.resolve? "x" := by
    rw [hBound, hUnbound]
    exact Option.some_ne_none _
  have hTemplates : r.ReadsWithin {"xs"} := by
    intro name template inner hSource hInner n hMem
    obtain rfl := Except.ok.inj hSource
    obtain rfl := Except.ok.inj (hParse.symm.trans hInner)
    exact List.mem_singleton.mp hMem
  have hAgree : Context.AgreeOn {"xs"} c c' := by
    rintro n rfl
    have hHere : c.resolve? "xs" = some (.list [.null]) := by cbv
    have hThere : c'.resolve? "xs" = some (.list [.null]) := by cbv
    rw [hHere, hThere]
  refine ⟨hFree, hDiffer, fun s => ?_⟩
  refine (reads_only_free_names r nodes s).1 {"xs"} ?_ hTemplates c c' hAgree
  rw [hFree]
  exact fun n hMem => List.mem_singleton.mp hMem

end Session

end Stencil
