import Mathlib
import Stencil.Proofs.Kept
import Stencil.Proofs.Records

/-!
# Stencil — what data can steer

Rendering reads its context in two ways: a placeholder shows a value, and a loop goes through a
list. Only the second decides what is done. So what a render does depends on lists and on the
records that they are found in, and on no null, truth value, number or string anywhere in its data.

* `Skeleton` — a value without its scalars; `Value.skeleton`, and `skeletonOf` where there may be no
  value at all, which counts as a scalar.
* `Context.SameSkeletons` — two contexts in which every name has the same skeleton. Paths have then
  too (`skeletonOf_lookup?`), and so have the names in the contexts of loop items
  (`SameSkeletons.forItem`).
* `Outcome.SameCourse` — two outcomes that differ in their text at most.
* `Session.scalars_never_steer` — rendering takes the same course in two such contexts.
-/

namespace Stencil

open Text

/-! ## Skeletons -/

/-- A value with every scalar in it made anonymous. -/
inductive Skeleton where
  | leaf
  | list (items : List Skeleton)
  /-- The fields that hold lists or records, in the order of their names. -/
  | record (fields : List (String × Skeleton))

namespace Skeleton

def isLeaf : Skeleton → Bool
  | leaf => true
  | list _ | record _ => false

def isList : Skeleton → Bool
  | list _ => true
  | leaf | record _ => false

def items? : Skeleton → Option (List Skeleton)
  | list items => some items
  | leaf | record _ => none

/-- The skeleton of a field; a field that is missing has that of a scalar. -/
def field : Skeleton → String → Skeleton
  | record fields, name => (fields.lookup name).getD leaf
  | leaf, _ | list _, _ => leaf

def listFields : Skeleton → List (String × Skeleton)
  | record fields => fields.filter fun field => field.2.isList
  | leaf | list _ => []

end Skeleton

mutual

/-- What is left of a value without its scalars. -/
def Value.skeleton : Value → Skeleton
  | .null => .leaf
  | .bool _ => .leaf
  | .number _ => .leaf
  | .string _ => .leaf
  | .list items => .list (Value.skeletons items)
  | .record fields => .record fields.skeletons
termination_by structural v => v

def Value.skeletons : List Value → List Skeleton
  | [] => []
  | v :: vs => v.skeleton :: Value.skeletons vs
termination_by structural vs => vs

def Fields.skeletons {low : Option String} : Fields low → List (String × Skeleton)
  | .nil => []
  | .cons name _ value rest =>
    if value.skeleton.isLeaf then rest.skeletons else (name, value.skeleton) :: rest.skeletons
termination_by structural fields => fields

end

/-- The skeleton of a value that may be missing. -/
def skeletonOf : Option Value → Skeleton
  | none => .leaf
  | some v => v.skeleton

theorem Value.skeletons_eq_map (items : List Value) :
    Value.skeletons items = items.map Value.skeleton := by
  induction items with
  | nil => rfl
  | cons v vs ih => rw [Value.skeletons, ih, List.map_cons]

theorem Value.isList_skeleton (v : Value) : v.skeleton.isList = v.isList := by
  cases v <;> rfl

theorem Skeleton.eq_leaf_of_isLeaf {k : Skeleton} (h : k.isLeaf = true) : k = .leaf := by
  cases k with
  | leaf => rfl
  | list items => cases h
  | record fields => cases h

/-! ## Fields -/

/-- Names that are not above all of the fields are not among them. -/
theorem Fields.lookup_skeletons_of_not_lt {name : String} :
    ∀ {low : Option String} (fields : Fields low), (∃ l ∈ low, ¬ l < name) →
      fields.skeletons.lookup name = none
  | _, .nil, _ => rfl
  | _, .cons n above value rest, hLow => by
    obtain ⟨l, hl, hNot⟩ := hLow
    have hFirst : l < n := above l hl
    have hNe : name ≠ n := fun h => hNot (h ▸ hFirst)
    have hRest : rest.skeletons.lookup name = none :=
      lookup_skeletons_of_not_lt rest ⟨n, rfl, fun h => hNot (String.lt_trans hFirst h)⟩
    rw [Fields.skeletons]
    split
    · exact hRest
    · rw [List.lookup_cons, beq_eq_false_iff_ne.mpr hNe]
      exact hRest

/-- The skeleton of a field is that of the value in it, or of nothing. -/
theorem Fields.skeletonOf_get? {name : String} :
    ∀ {low : Option String} (fields : Fields low),
      skeletonOf (fields.get? name) = (fields.skeletons.lookup name).getD .leaf
  | _, .nil => rfl
  | _, .cons n above value rest => by
    rw [Fields.get?, Fields.skeletons]
    by_cases hName : name = n
    · subst hName
      rw [if_pos rfl]
      by_cases hLeaf : value.skeleton.isLeaf = true
      · -- a scalar is left out, and the name does not come again
        rw [if_pos hLeaf, rest.lookup_skeletons_of_not_lt ⟨name, rfl, String.lt_irrefl name⟩]
        exact Skeleton.eq_leaf_of_isLeaf hLeaf
      · rw [if_neg hLeaf, List.lookup_cons, beq_self_eq_true]
        rfl
    · rw [if_neg hName, skeletonOf_get? rest]
      split
      · rfl
      · rw [List.lookup_cons, beq_eq_false_iff_ne.mpr hName]

theorem Fields.listFields_skeletons :
    ∀ {low : Option String} (fields : Fields low),
      fields.skeletons.filter (fun field => field.2.isList) =
        fields.listFields.map fun field => (field.1, field.2.skeleton)
  | _, .nil => rfl
  | _, .cons n above value rest => by
    have hRest := listFields_skeletons rest
    unfold Fields.listFields at hRest ⊢
    rw [Fields.skeletons, Fields.toList, List.filter_cons]
    by_cases hLeaf : value.skeleton.isLeaf = true
    · have hNoList : ¬ value.isList = true := by
        rw [← Value.isList_skeleton, Skeleton.eq_leaf_of_isLeaf hLeaf]
        exact Bool.false_ne_true
      rw [if_pos hLeaf, if_neg hNoList]
      exact hRest
    · rw [if_neg hLeaf, List.filter_cons]
      simp only [Value.isList_skeleton, hRest]
      split <;> rfl

theorem Value.skeletonOf_field? (v : Value) (name : String) :
    skeletonOf (v.field? name) = v.skeleton.field name := by
  cases v with
  | record fields => exact fields.skeletonOf_get?
  | null | bool _ | number _ | string _ | list _ => rfl

theorem Value.items?_skeleton (o : Option Value) :
    (skeletonOf o).items? = (o.bind Value.items?).map fun items => items.map Value.skeleton := by
  cases o with
  | none => rfl
  | some v =>
    cases v with
    | list items =>
      show some (Value.skeletons items) = some (items.map Value.skeleton)
      rw [Value.skeletons_eq_map]
    | null | bool _ | number _ | string _ | record _ => rfl

/-- The list fields of a record, which a loop binds beside the item. -/
def Value.listFields : Value → List (String × Value)
  | .record fields => fields.listFields
  | .null | .bool _ | .number _ | .string _ | .list _ => []

theorem Value.listFields_skeleton (v : Value) :
    v.listFields.map (fun field => (field.1, field.2.skeleton)) = v.skeleton.listFields := by
  cases v with
  | record fields => exact fields.listFields_skeletons.symm
  | null | bool _ | number _ | string _ | list _ => rfl

/-! ## Contexts -/

namespace Context

/-- Every name has the same skeleton in both contexts: lists and records that differ in scalars
alone, or a scalar or nothing in each. -/
def SameSkeletons (c c' : Context) : Prop :=
  ∀ name, skeletonOf (c.resolve? name) = skeletonOf (c'.resolve? name)

/-- A path leads through skeletons as through values. -/
theorem skeletonOf_descend (names : List (List Char)) (o : Option Value) :
    skeletonOf (o.bind fun root =>
        names.foldlM (fun v name => v.field? (String.ofList name)) root) =
      names.foldl (fun k name => k.field (String.ofList name)) (skeletonOf o) := by
  induction names generalizing o with
  | nil => cases o <;> rfl
  | cons name rest ih =>
    rw [List.foldl_cons]
    cases o with
    | none =>
      have hNone := ih none
      simpa [skeletonOf, Skeleton.field] using hNone
    | some v =>
      have hNext := ih (v.field? (String.ofList name))
      rw [Value.skeletonOf_field?] at hNext
      exact hNext

theorem skeletonOf_lookup? {c c' : Context} (h : c.SameSkeletons c') (path : String) :
    skeletonOf (c.lookup? path) = skeletonOf (c'.lookup? path) := by
  have hFirst := h (String.ofList (segments (· == '.') path.toList).1)
  simp only [lookup?, skeletonOf_descend, hFirst]

/-- The names in the context of a loop item: the item, then its list fields, then the rest. -/
theorem resolve?_forItem (c : Context) (x : String) (v : Value) (n : String) :
    (c.forItem x v).resolve? n =
      if n = x then some v else (v.listFields.reverse.lookup n).or (c.resolve? n) := by
  have hLayer : c.forItem x v = c.withBindings (v.listFields ++ [(x, v)]) := by cases v <;> rfl
  rw [hLayer, withBindings, resolve?, Record.get?_ofList, List.reverse_append,
    List.reverse_singleton, List.singleton_append, List.lookup_cons]
  by_cases hn : n = x
  · rw [if_pos hn, beq_iff_eq.mpr hn]
  · rw [if_neg hn, beq_eq_false_iff_ne.mpr hn]
    cases v.listFields.reverse.lookup n with
    | some w => rfl
    | none =>
      simp only [resolveFirst?, Option.none_or]
      cases c.resolve? n <;> rfl

theorem skeletonOf_resolve?_forItem (c : Context) (x : String) (v : Value) (n : String) :
    skeletonOf ((c.forItem x v).resolve? n) =
      if n = x then v.skeleton
      else (v.skeleton.listFields.reverse.lookup n).getD (skeletonOf (c.resolve? n)) := by
  rw [resolve?_forItem, ← v.listFields_skeleton, ← List.map_reverse, lookup_map_snd]
  split
  · rfl
  · cases v.listFields.reverse.lookup n <;> rfl

/-- Items with one skeleton leave contexts with the same skeletons. -/
theorem SameSkeletons.forItem {c c' : Context} (h : c.SameSkeletons c') (x : String) {v v' : Value}
    (hItem : v.skeleton = v'.skeleton) : (c.forItem x v).SameSkeletons (c'.forItem x v') := by
  intro n
  rw [skeletonOf_resolve?_forItem, skeletonOf_resolve?_forItem, hItem, h n]

end Context

/-! ## Outcomes -/

/-- Two ends of a render that differ in the text at most. -/
inductive SameEnd : Except Error String → Except Error String → Prop
  | text (out out' : String) : SameEnd (.ok out) (.ok out')
  | error (e : Error) : SameEnd (.error e) (.error e)

namespace SameEnd

variable {r r' : Except Error String}

theorem refl (r : Except Error String) : SameEnd r r := by
  cases r with
  | error e => exact .error e
  | ok out => exact .text out out

theorem eq_error {e : Error} (h : SameEnd (.error e) r) : r = .error e := by
  cases h
  rfl

theorem eq_ok {out : String} (h : SameEnd (.ok out) r) : ∃ out', r = .ok out' := by
  cases h
  exact ⟨_, rfl⟩

theorem map (h : SameEnd r r') (f f' : String → String) : SameEnd (r.map f) (r'.map f') := by
  cases h with
  | text out out' => exact .text _ _
  | error e => exact .error e

end SameEnd

/-- Two outcomes that differ in the text at most: both succeed or both fail with one error, the
questions are the same, and so is the session by then. -/
structure Outcome.SameCourse (o o' : Outcome) : Prop where
  ending   : SameEnd o.result o'.result
  session  : o'.session = o.session
  requests : o'.requests = o.requests

namespace Outcome

variable {o o' : Outcome} {next next' : Session → Outcome}

theorem SameCourse.refl (o : Outcome) : SameCourse o o := ⟨.refl o.result, rfl, rfl⟩

theorem sameCourse_done (out out' : String) (s : Session) :
    SameCourse (done out s) (done out' s) :=
  ⟨.text out out', rfl, rfl⟩

theorem SameCourse.andThen (hFirst : SameCourse o o')
    (hNext : ∀ s, SameCourse (next s) (next' s)) :
    SameCourse (o.andThen next) (o'.andThen next') := by
  have hEnding := hFirst.ending
  cases hResult : o.result with
  | error e =>
    rw [hResult] at hEnding
    rw [andThen_of_error hResult, andThen_of_error hEnding.eq_error]
    exact hFirst
  | ok out =>
    rw [hResult] at hEnding
    obtain ⟨out', hResult'⟩ := hEnding.eq_ok
    have hRest := hNext o.session
    rw [andThen_of_ok hResult, andThen_of_ok hResult', hFirst.session]
    refine ⟨hRest.ending.map _ _, hRest.session, ?_⟩
    show o'.requests ++ _ = o.requests ++ _
    rw [hFirst.requests, hRest.requests]

/-- Steps in a row take the same course for items with the same skeletons. -/
theorem sameCourse_sequence {step step' : Value → Session → Outcome}
    (hStep : ∀ v v', v.skeleton = v'.skeleton → ∀ s, SameCourse (step v s) (step' v' s))
    {items items' : List Value}
    (hItems : items.map Value.skeleton = items'.map Value.skeleton) (s : Session) :
    SameCourse (sequence (items.map step) s) (sequence (items'.map step') s) := by
  induction items generalizing items' s with
  | nil =>
    obtain rfl : items' = [] := List.map_eq_nil_iff.mp hItems.symm
    exact .refl _
  | cons v vs ih =>
    cases items' with
    | nil => cases hItems
    | cons v' vs' =>
      obtain ⟨hHead, hTail⟩ := List.cons.inj hItems
      exact (hStep v v' hHead s).andThen fun s => ih hTail s

end Outcome

/-! ## Rendering -/

/-- What becomes of an include is not up to the scalars of its context. -/
def IncludeRule.Blind (onInclude : IncludeRule) : Prop :=
  ∀ name (c c' : Context), c.SameSkeletons c' → ∀ s,
    (onInclude name c s).SameCourse (onInclude name c' s)

namespace Renderer

variable (r : Renderer) {onInclude : IncludeRule} {c c' : Context}

/-- A loop goes through as many items in both contexts, or through none. -/
theorem sameCourse_loop {body : List Node}
    (hBody : ∀ c c' : Context, c.SameSkeletons c' → ∀ s,
      (r.renderNodes onInclude body c s).SameCourse (r.renderNodes onInclude body c' s))
    (item collection : String) (position : Position) (hContexts : c.SameSkeletons c')
    (s : Session) :
    (r.renderNode onInclude (.loop item collection body position) c s).SameCourse
      (r.renderNode onInclude (.loop item collection body position) c' s) := by
  rw [renderNode_loop, renderNode_loop]
  cases s.recordLoop with
  | error e => exact .refl _
  | ok charged =>
    have hItems := congrArg Skeleton.items? (Context.skeletonOf_lookup? hContexts collection)
    rw [Value.items?_skeleton, Value.items?_skeleton] at hItems
    show (r.renderItems onInclude item collection body c charged).SameCourse
      (r.renderItems onInclude item collection body c' charged)
    unfold renderItems
    cases hHere : (c.lookup? collection).bind Value.items? with
    | none =>
      rw [hHere] at hItems
      rw [Option.map_eq_none_iff.mp hItems.symm]
      exact .refl _
    | some items =>
      rw [hHere] at hItems
      obtain ⟨items', hThere, hSame⟩ := Option.map_eq_some_iff.mp hItems.symm
      rw [hThere]
      exact Outcome.sameCourse_sequence
        (fun v v' hItem => hBody _ _ (hContexts.forItem item hItem)) hSame.symm charged

theorem sameCourse_renderNodes (hRule : onInclude.Blind) (nodes : List Node) :
    ∀ c c' : Context, c.SameSkeletons c' → ∀ s,
      (r.renderNodes onInclude nodes c s).SameCourse (r.renderNodes onInclude nodes c' s) := by
  induction nodes using Node.forest_induction with
  | nil => exact fun c c' _ s => .refl _
  | text content position nodes ih =>
    exact fun c c' h s => (Outcome.SameCourse.refl _).andThen (ih c c' h)
  | placeholder path position nodes ih =>
    -- the one place where the two contexts may differ
    intro c c' h s
    have hFirst := Outcome.sameCourse_done (placeholderText c path) (placeholderText c' path) s
    exact hFirst.andThen (ih c c' h)
  | inclusion name position nodes ih =>
    exact fun c c' h s => (hRule name c c' h s).andThen (ih c c' h)
  | loop item collection body position nodes hBody ih =>
    exact fun c c' h s =>
      (r.sameCourse_loop hBody item collection position h s).andThen (ih c c' h)

theorem blind_renderTemplate (hRule : onInclude.Blind) : (r.renderTemplate onInclude).Blind := by
  intro name c c' h s
  cases hSource : r.source name with
  | error e =>
    rw [r.renderTemplate_of_error hSource, r.renderTemplate_of_error hSource]
    exact .refl _
  | ok template =>
    rw [r.renderTemplate_of_ok hSource, r.renderTemplate_of_ok hSource]
    cases hParse : r.parser.parseText template with
    | error e =>
      rw [r.parsed_of_error hParse, r.parsed_of_error hParse]
      exact .refl _
    | ok nodes =>
      rw [r.parsed_of_ok hParse, r.parsed_of_ok hParse]
      exact r.sameCourse_renderNodes hRule nodes c c' h s

/-- **Includes are blind to scalars**, however many levels they have. -/
theorem blind_renderInclude (levels : Nat) : (r.renderInclude levels).Blind := by
  induction levels with
  | zero => exact fun name c c' _ s => .refl _
  | succ levels ih =>
    intro name c c' h s
    cases hEnter : s.enterInclude name with
    | error e =>
      rw [r.renderInclude_of_error hEnter, r.renderInclude_of_error hEnter]
      exact .refl _
    | ok entered =>
      rw [r.renderInclude_succ_of_ok hEnter, r.renderInclude_succ_of_ok hEnter]
      obtain ⟨hEnding, hSession, hRequests⟩ := r.blind_renderTemplate ih name c c' h entered
      exact ⟨hEnding, congrArg Session.leaveInclude hSession, congrArg (List.cons _) hRequests⟩

end Renderer

/--
**Scalars never steer.** Take any session, any source and any way to read its templates, any list of
trees, and two contexts in which every name has the same skeleton: both are lists or records that
differ in scalars alone, or each is a scalar or bound to nothing. Rendering succeeds in both or fails
in both with the same error; it puts the same questions to the source and leaves the same session;
only the text may differ. So no text in the data is ever read as a template, and no value that is
missing or null is an error.
-/
theorem Session.scalars_never_steer (s : Session) (r : Renderer) (nodes : List Node)
    {c c' : Context} (hContexts : c.SameSkeletons c') :
    (s.evaluate r nodes c).SameCourse (s.evaluate r nodes c') :=
  r.sameCourse_renderNodes (r.blind_renderInclude s.room) nodes c c' hContexts s

/-- The theorem at a name bound to the text of a tag in one context and to nothing in the other, and
at lists of records that have different scalars. -/
theorem Session.scalars_never_steer_from_tag_text :
    let rows (tags : List Value) (others : List (String × Value)) : Value :=
      .list [.record (Record.ofList (("tags", .list tags) :: others))]
    let c : Context := .ofBindings [("x", .string "\x7b\x7binclude:b\x7d\x7d"),
      ("rows", rows [.string "1", .null] [("title", .string "t")])]
    let c' : Context := .ofBindings [("rows", rows [.bool true, .string "2"] [])]
    let r : Renderer := ({} : Parser).over fun name => .error (.notFound name)
    let nodes : List Node := [.placeholder "x" .start,
      .loop "row" "rows" [.loop "tag" "tags" [.placeholder "tag" .start] .start] .start]
    let s := Session.start {}
    c.SameSkeletons c' ∧ (s.evaluate r nodes c).SameCourse (s.evaluate r nodes c') ∧
    (s.evaluate r nodes c).result = .ok "\x7b\x7binclude:b\x7d\x7d1" ∧
    (s.evaluate r nodes c').result = .ok "\x7b\x7bx\x7d\x7dtrue2" := by
  intro rows c c' r nodes s
  have hContexts : c.SameSkeletons c' := by
    intro name
    simp only [c, c', Context.ofBindings, Context.resolve?, Record.get?_ofList]
    by_cases hX : name = "x"
    · subst hX
      rfl
    · by_cases hRows : name = "rows"
      · subst hRows
        rfl
      · have hX' : (name == "x") = false := beq_eq_false_iff_ne.mpr hX
        have hRows' : (name == "rows") = false := beq_eq_false_iff_ne.mpr hRows
        simp [List.lookup_cons, Context.resolveFirst?, hX', hRows']
  exact ⟨hContexts, s.scalars_never_steer r nodes hContexts, by cbv, by cbv⟩

end Stencil
