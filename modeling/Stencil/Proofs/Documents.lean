import Mathlib.Data.List.Forall2
import Stencil.Context
import Stencil.Proofs.Records

/-!
# Stencil — documents as values

A document is turned into a value to be looked into, and a value into a document to be written. The
two are not quite the same: the members of an object stand in some order, and a name may come twice
among them, where the fields of a record are in the order of their names. Nothing but that may be
lost on the way, and a path has to lead to the same thing on either side.

* `Value.induction`, `Json.induction` — induction over values and over documents, by what is in
  them.
* `Json.Same` — documents that are the same up to the order of members. `Json.Ordered` — documents
  with members in the order of their names; of these, no two are the same (`Same.eq_of_ordered`).
* `Value.ofJson_toJson`, `Value.same_toJson_ofJson` — there and back, from either side.
* `pathNames` — the names of a path. `Value.at?` — what names lead to in a value; `Json.Leads` — in
  a document.
* `documents_are_values` — all that together.
-/

namespace Stencil

open Text

-- ---------------------------------------------------------------------------
-- Induction
-- ---------------------------------------------------------------------------

/-- **Induction over a value**: over the items of a list, and over the fields of a record. -/
theorem Value.induction {P : Value → Prop} (null : P .null) (bool : ∀ b, P (.bool b))
    (number : ∀ n, P (.number n)) (string : ∀ s, P (.string s))
    (list : ∀ items, (∀ v ∈ items, P v) → P (.list items))
    (record : ∀ fields : Record, (∀ name v, fields.get? name = some v → P v) → P (.record fields))
    (v : Value) : P v := by
  refine @Value.rec P (fun _ fields => ∀ name v, fields.get? name = some v → P v)
    (fun items => ∀ v ∈ items, P v) null bool number string list record ?_ ?_ ?_ ?_ v
  · intro low name v hGet
    cases hGet
  · intro low name above value rest hValue hRest n v hGet
    rw [Fields.get?] at hGet
    split at hGet
    · obtain rfl := Option.some.inj hGet
      exact hValue
    · exact hRest n v hGet
  · exact List.forall_mem_nil _
  · exact fun v vs hv hvs => List.forall_mem_cons.mpr ⟨hv, hvs⟩

/-- **Induction over a document**: over the items of an array, and over the members of an object. -/
theorem Json.induction {P : Json → Prop} (null : P .null) (bool : ∀ b, P (.bool b))
    (number : ∀ n, P (.number n)) (string : ∀ s, P (.string s))
    (array : ∀ items, (∀ j ∈ items, P j) → P (.array items))
    (object : ∀ members, (∀ m ∈ members, P m.2) → P (.object members)) (j : Json) : P j := by
  refine @Json.rec P (fun items => ∀ j ∈ items, P j) (fun members => ∀ m ∈ members, P m.2)
    (fun m => P m.2) null bool number string array object ?_ ?_ ?_ ?_ ?_ j
  · exact List.forall_mem_nil _
  · exact fun j js hj hjs => List.forall_mem_cons.mpr ⟨hj, hjs⟩
  · exact List.forall_mem_nil _
  · exact fun m ms hm hms => List.forall_mem_cons.mpr ⟨hm, hms⟩
  · exact fun name j hj => hj

-- ---------------------------------------------------------------------------
-- Documents by their members
-- ---------------------------------------------------------------------------

namespace Json

/-- The same document up to the order of members: items one by one, and members name by name. Where
a name comes several times, the last member of it counts. -/
inductive Same : Json → Json → Prop
  | null : Same .null .null
  | bool (b : Bool) : Same (.bool b) (.bool b)
  | number (n : Number) : Same (.number n) (.number n)
  | string (s : String) : Same (.string s) (.string s)
  | array {items items' : List Json} (alike : List.Forall₂ Same items items') :
      Same (.array items) (.array items')
  | object {members members' : List (String × Json)}
      (alike : ∀ name, Option.Rel Same ((Json.object members).member? name)
        ((Json.object members').member? name)) :
      Same (.object members) (.object members')

/-- Every object in the document has its members in strictly increasing order of their names. -/
inductive Ordered : Json → Prop
  | null : Ordered .null
  | bool (b : Bool) : Ordered (.bool b)
  | number (n : Number) : Ordered (.number n)
  | string (s : String) : Ordered (.string s)
  | array {items : List Json} (inside : ∀ j ∈ items, Ordered j) : Ordered (.array items)
  | object {members : List (String × Json)} (order : InOrder members)
      (inside : ∀ m ∈ members, Ordered m.2) : Ordered (.object members)

theorem member?_object (members : List (String × Json)) (name : String) :
    (Json.object members).member? name = members.reverse.lookup name := by
  show (members.reverse.find? fun m => m.1 == name).map Prod.snd = _
  induction members.reverse with
  | nil => rfl
  | cons m rest ih =>
    rw [List.find?_cons, List.lookup_cons, ← ih, Bool.beq_comm]
    cases name == m.1 <;> rfl

theorem mem_of_member? {members : List (String × Json)} {name : String} {j : Json}
    (hMember : (Json.object members).member? name = some j) : (name, j) ∈ members := by
  rw [member?_object] at hMember
  obtain ⟨before, after, hSplit, -⟩ := List.lookup_eq_some_iff.mp hMember
  rw [← List.mem_reverse, hSplit]
  exact List.mem_append_right _ List.mem_cons_self

/-- Where no name comes twice, a member is found if it is there. -/
theorem mem_iff_member? {members : List (String × Json)} (h : InOrder members) {name : String}
    {j : Json} : (name, j) ∈ members ↔ (Json.object members).member? name = some j := by
  refine ⟨fun hMem => ?_, mem_of_member?⟩
  rw [member?_object]
  refine lookup_eq_of_mem_iff fun k => ?_
  rw [List.mem_reverse]
  constructor
  · intro hThere
    rw [h.eq_of_mem hMem hThere]
  · intro hEq
    rwa [← Option.some.inj hEq]

/-- **Documents in order that are the same are equal.** -/
theorem Same.eq_of_ordered {j k : Json} (hSame : j.Same k) (hj : j.Ordered) (hk : k.Ordered) :
    j = k := by
  induction j using Json.induction generalizing k with
  | null | bool _ | number _ | string _ =>
    cases hSame
    rfl
  | array items ih =>
    cases hSame with
    | @array _ items' alike =>
    cases hj with
    | array hItems =>
    cases hk with
    | array hItems' =>
    congr 1
    induction alike with
    | nil => rfl
    | @cons j k items items' hHead hTail ihTail =>
      obtain ⟨ihHead, ihItems⟩ := List.forall_mem_cons.mp ih
      obtain ⟨hj, hItems⟩ := List.forall_mem_cons.mp hItems
      obtain ⟨hk, hItems'⟩ := List.forall_mem_cons.mp hItems'
      rw [ihHead hHead hj hk, ihTail ihItems hItems hItems']
  | object members ih =>
    cases hSame with
    | @object _ members' alike =>
    cases hj with
    | object hOrder hInside =>
    cases hk with
    | object hOrder' hInside' =>
    congr 1
    refine hOrder.eq_of_mem_iff hOrder' ?_
    rintro ⟨name, j⟩
    rw [mem_iff_member? hOrder, mem_iff_member? hOrder']
    -- a member of the name is there on both sides, and it is the same document
    have hName := alike name
    generalize hHere : (Json.object members).member? name = here at hName ⊢
    generalize hThere : (Json.object members').member? name = there at hName ⊢
    cases hName with
    | none => rfl
    | @some l k hSame =>
      have hl := (mem_iff_member? hOrder).mpr hHere
      have hk := (mem_iff_member? hOrder').mpr hThere
      obtain rfl : l = k := ih (name, l) hl hSame (hInside _ hl) (hInside' _ hk)
      rfl

end Json

-- ---------------------------------------------------------------------------
-- There and back
-- ---------------------------------------------------------------------------

theorem Value.ofItems_eq_map (items : List Json) : Value.ofItems items = items.map Value.ofJson := by
  induction items with
  | nil => rfl
  | cons j js ih => rw [Value.ofItems, ih, List.map_cons]

theorem Value.toItems_eq_map (items : List Value) : Value.toItems items = items.map Value.toJson := by
  induction items with
  | nil => rfl
  | cons v vs ih => rw [Value.toItems, ih, List.map_cons]

theorem Fields.toMembers_eq_map :
    ∀ {low : Option String} (fields : Fields low),
      fields.toMembers = fields.toList.map fun field => (field.1, field.2.toJson)
  | _, .nil => rfl
  | _, .cons _ _ _ rest => by
    rw [Fields.toMembers, Fields.toList, toMembers_eq_map rest, List.map_cons]

/-- The members of an object are written one over the other, like any fields. -/
theorem Record.ofMembers_eq_ofList (members : List (String × Json)) :
    Record.ofMembers .empty members =
      Record.ofList (members.map fun m => (m.1, Value.ofJson m.2)) := by
  unfold Record.ofList
  generalize Record.empty = r
  induction members generalizing r with
  | nil => rfl
  | cons m ms ih => rw [Record.ofMembers, ih, List.map_cons, List.foldl_cons]

theorem Record.get?_ofMembers (members : List (String × Json)) (name : String) :
    (Record.ofMembers .empty members).get? name =
      ((Json.object members).member? name).map Value.ofJson := by
  rw [ofMembers_eq_ofList, get?_ofList, ← List.map_reverse, lookup_map_snd, Json.member?_object]

theorem Fields.member?_toMembers (fields : Record) (name : String) :
    (Json.object fields.toMembers).member? name = (fields.get? name).map Value.toJson := by
  rw [Json.member?_object, toMembers_eq_map, ← List.map_reverse, lookup_map_snd,
    lookup_reverse_toList]

namespace Value

/-- **A value comes back from its document.** -/
theorem ofJson_toJson (v : Value) : ofJson v.toJson = v := by
  induction v using Value.induction with
  | null | bool _ | number _ | string _ => rfl
  | list items ih =>
    have hItems : items.map (fun v => ofJson v.toJson) = items :=
      (List.map_congr_left ih).trans (List.map_id items)
    rw [toJson, ofJson, toItems_eq_map, ofItems_eq_map, List.map_map]
    exact congrArg list hItems
  | record fields ih =>
    rw [toJson, ofJson]
    congr 1
    refine Fields.ext fun name => ?_
    rw [Record.get?_ofMembers, Fields.member?_toMembers, Option.map_map]
    cases hGet : fields.get? name with
    | none => rfl
    | some v => exact congrArg some (ih name v hGet)

/-- **A document comes back from its value**, up to the order of members. -/
theorem same_toJson_ofJson (j : Json) : (ofJson j).toJson.Same j := by
  induction j using Json.induction with
  | null => exact .null
  | bool b => exact .bool b
  | number n => exact .number n
  | string s => exact .string s
  | array items ih =>
    rw [ofJson, toJson, ofItems_eq_map, toItems_eq_map, List.map_map]
    exact .array (List.forall₂_map_left_iff.mpr (List.forall₂_same.mpr ih))
  | object members ih =>
    rw [ofJson, toJson]
    refine .object fun name => ?_
    rw [Fields.member?_toMembers, Record.get?_ofMembers, Option.map_map]
    cases hMember : (Json.object members).member? name with
    | none => exact .none
    | some j => exact .some (ih (name, j) (Json.mem_of_member? hMember))

/-- Fields are written in the order of their names. -/
theorem ordered_toJson (v : Value) : v.toJson.Ordered := by
  induction v using Value.induction with
  | null => exact .null
  | bool b => exact .bool b
  | number n => exact .number n
  | string s => exact .string s
  | list items ih =>
    rw [toJson, toItems_eq_map]
    exact .array (List.forall_mem_map.mpr ih)
  | record fields ih =>
    rw [toJson, Fields.toMembers_eq_map]
    refine .object (List.pairwise_map.mpr fields.inOrder_toList) (List.forall_mem_map.mpr ?_)
    rintro ⟨name, v⟩ hMem
    exact ih name v ((Fields.mem_toList_iff fields).mp hMem)

end Value

-- ---------------------------------------------------------------------------
-- Paths
-- ---------------------------------------------------------------------------

/-- The names of a path, which stand between its dots. -/
def pathNames (path : String) : List String := (path.toList.splitOn '.').map String.ofList

theorem segmentList_eq_splitOnP (p : Char → Bool) (cs : List Char) :
    segmentList p cs = cs.splitOnP p := by
  induction cs with
  | nil => rfl
  | cons c cs ih =>
    rw [List.splitOnP_cons_eq_if_modifyHead, ← ih, segmentList, segments]
    cases p c <;> rfl

/-- What names lead to in a value, by one field of a record each. -/
def Value.at? : Value → List String → Option Value
  | v, [] => some v
  | .record fields, name :: names => (fields.get? name).bind (·.at? names)
  | _, _ :: _ => none

theorem Value.at?_cons (v : Value) (name : String) (names : List String) :
    v.at? (name :: names) = (v.field? name).bind (·.at? names) := by
  cases v <;> rfl

theorem pathNames_eq (path : String) :
    pathNames path = (segmentList (· == '.') path.toList).map String.ofList := by
  rw [segmentList_eq_splitOnP]
  rfl

/-- A path has one name at least. -/
theorem exists_pathNames (path : String) : ∃ first others, pathNames path = first :: others :=
  ⟨_, _, pathNames_eq path⟩

/-- The first name of a path is looked up, and the others lead on from there. -/
theorem Context.lookup?_eq (c : Context) {path first : String} {others : List String}
    (hNames : pathNames path = first :: others) :
    c.lookup? path = (c.resolve? first).bind (·.at? others) := by
  obtain ⟨rfl, rfl⟩ := List.cons.inj ((pathNames_eq path).symm.trans hNames)
  have hDescend : ∀ (segments : List (List Char)) (v : Value),
      segments.foldlM (fun v name => v.field? (String.ofList name)) v =
        v.at? (segments.map String.ofList) := by
    intro segments
    induction segments with
    | nil => exact fun v => by cases v <;> rfl
    | cons segment rest ih =>
      intro v
      rw [List.foldlM_cons, List.map_cons, Value.at?_cons]
      exact congrArg (v.field? (String.ofList segment)).bind (funext ih)
  exact congrArg (Option.bind _) (funext fun root => hDescend _ root)

namespace Json

/-- The names lead from the first document to the second, by one member of an object each. -/
inductive Leads : Json → List String → Json → Prop
  | here (j : Json) : Leads j [] j
  | member {members : List (String × Json)} {name : String} {names : List String} {j k : Json}
      (found : (Json.object members).member? name = some j) (onwards : Leads j names k) :
      Leads (.object members) (name :: names) k

/-- There is no member of this name: the document is no object, or one without it. -/
def Lacks (j : Json) (name : String) : Prop :=
  ∀ members, j = .object members → ∀ m ∈ members, m.1 ≠ name

theorem leads_nil_iff {j k : Json} : j.Leads [] k ↔ k = j := by
  constructor
  · rintro ⟨⟩
    rfl
  · rintro rfl
    exact .here k

theorem leads_cons_iff {j k : Json} {name : String} {names : List String} :
    j.Leads (name :: names) k ↔ ∃ l, j.member? name = some l ∧ l.Leads names k := by
  constructor
  · rintro (_ | ⟨found, onwards⟩)
    exact ⟨_, found, onwards⟩
  · rintro ⟨l, hMember, hLeads⟩
    cases j with
    | object members => exact .member hMember hLeads
    | null | bool _ | number _ | string _ | array _ => cases hMember

theorem lacks_iff {j : Json} {name : String} : j.Lacks name ↔ j.member? name = none := by
  cases j with
  | null | bool _ | number _ | string _ | array _ =>
    refine ⟨fun _ => rfl, fun _ members hObject => ?_⟩
    cases hObject
  | object members =>
    rw [member?_object, List.lookup_eq_none_iff]
    constructor
    · intro hLacks m hMem
      exact bne_iff_ne.mpr (hLacks members rfl m (List.mem_reverse.mp hMem)).symm
    · rintro hNone _ ⟨⟩ m hMem
      exact (bne_iff_ne.mp (hNone m (List.mem_reverse.mpr hMem))).symm

end Json

namespace Value

theorem field?_ofJson (j : Json) (name : String) :
    (ofJson j).field? name = (j.member? name).map ofJson := by
  cases j with
  | object members => exact Record.get?_ofMembers members name
  | null | bool _ | number _ | string _ | array _ => rfl

/-- Names lead to the value of the document that they lead to. -/
theorem at?_ofJson_eq_some_iff {j : Json} {names : List String} {v : Value} :
    (ofJson j).at? names = some v ↔ ∃ k, j.Leads names k ∧ v = ofJson k := by
  induction names generalizing j with
  | nil => simp [Value.at?, Json.leads_nil_iff, eq_comm]
  | cons name names ih =>
    rw [at?_cons, field?_ofJson]
    cases hMember : j.member? name with
    | none => simp [Json.leads_cons_iff, hMember]
    | some l => simp [Json.leads_cons_iff, hMember, ih]

/-- Names lead to nothing where one of them is lacking. -/
theorem at?_ofJson_eq_none_iff {j : Json} {names : List String} :
    (ofJson j).at? names = none ↔
      ∃ front name back k, names = front ++ name :: back ∧ j.Leads front k ∧ k.Lacks name := by
  induction names generalizing j with
  | nil => simp [Value.at?]
  | cons name names ih =>
    rw [at?_cons, field?_ofJson]
    constructor
    · intro hNone
      cases hMember : j.member? name with
      | none => exact ⟨[], name, names, j, rfl, .here j, Json.lacks_iff.mpr hMember⟩
      | some l =>
        rw [hMember] at hNone
        obtain ⟨front, n, back, k, rfl, hLeads, hLacks⟩ := ih.mp hNone
        exact ⟨name :: front, n, back, k, rfl, Json.leads_cons_iff.mpr ⟨l, hMember, hLeads⟩, hLacks⟩
    · rintro ⟨front, n, back, k, hNames, hLeads, hLacks⟩
      cases front with
      | nil =>
        obtain ⟨rfl, rfl⟩ := List.cons.inj hNames
        obtain rfl := Json.leads_nil_iff.mp hLeads
        rw [Json.lacks_iff.mp hLacks]
        rfl
      | cons m front =>
        obtain ⟨rfl, rfl⟩ := List.cons.inj hNames
        obtain ⟨l, hMember, hLeads⟩ := Json.leads_cons_iff.mp hLeads
        rw [hMember]
        exact ih.mpr ⟨front, n, back, k, rfl, hLeads, hLacks⟩

end Value

theorem Context.resolve?_ofJson (j : Json) (name : String) :
    (ofJson j).resolve? name = (Value.ofJson j).field? name := by
  unfold ofJson
  cases Value.ofJson j with
  | record fields =>
    show (layer fields []).resolve? name = fields.get? name
    rw [resolve?]
    cases fields.get? name <;> rfl
  | null | bool _ | number _ | string _ | list _ => rfl

/-- A path leads through the context of a document as through its value. -/
theorem Context.lookup?_ofJson (j : Json) (path : String) :
    (ofJson j).lookup? path = (Value.ofJson j).at? (pathNames path) := by
  obtain ⟨first, others, hNames⟩ := exists_pathNames path
  rw [lookup?_eq _ hNames, resolve?_ofJson, hNames, Value.at?_cons]

/--
**Documents and values are the same data.** A document that is turned into a value and back is the
same up to the order of members, and equal to what it was if its members stand in order; a value that
is turned into a document and back is the same, and its document has all members in order. And in the
context of a document, a path leads to the value of what its names lead to in the document, member by
member: to nothing exactly if one of them is asked of something that is no object or lacks it. A
member that is null is there.
-/
theorem documents_are_values :
    (∀ j : Json, (Value.ofJson j).toJson.Same j ∧ (j.Ordered → (Value.ofJson j).toJson = j)) ∧
    (∀ v : Value, Value.ofJson v.toJson = v ∧ v.toJson.Ordered) ∧
    ∀ (j : Json) (path : String),
      (∀ v, (Context.ofJson j).lookup? path = some v ↔
        ∃ k, j.Leads (pathNames path) k ∧ v = Value.ofJson k) ∧
      ((Context.ofJson j).lookup? path = none ↔
        ∃ front name back k, pathNames path = front ++ name :: back ∧ j.Leads front k ∧
          k.Lacks name) := by
  refine ⟨fun j => ?_, fun v => ⟨v.ofJson_toJson, v.ordered_toJson⟩, fun j path => ?_⟩
  · have hSame := Value.same_toJson_ofJson j
    exact ⟨hSame, fun hOrdered => hSame.eq_of_ordered (Value.ordered_toJson _) hOrdered⟩
  · rw [Context.lookup?_ofJson]
    exact ⟨fun v => Value.at?_ofJson_eq_some_iff, Value.at?_ofJson_eq_none_iff⟩

/-- The theorem at members out of order, a member that is null, and names that go on behind it. -/
theorem documents_are_values_at_null_member :
    let inner : Json := .object [("c", .array [.number (.integer 1), .null])]
    let j : Json := .object [("b", .null), ("a", inner)]
    let sorted : Json := .object [("a", inner), ("b", .null)]
    sorted.Same j ∧ sorted.Ordered ∧ (Value.ofJson sorted).toJson = sorted ∧
    (Context.ofJson j).lookup? "a.c" = some (.list [.number (.integer 1), .null]) ∧
    (Context.ofJson j).lookup? "b" = some .null ∧ (Context.ofJson j).lookup? "b.c" = none := by
  intro inner j sorted
  obtain ⟨hDocuments, hValues, hPaths⟩ := documents_are_values
  have hSorted : (Value.ofJson j).toJson = sorted := rfl
  have hOrdered : sorted.Ordered := hSorted ▸ (hValues (Value.ofJson j)).2
  have hThere : pathNames "a.c" = ["a", "c"] := by decide
  have hNull : pathNames "b" = ["b"] := by decide
  have hBehind : pathNames "b.c" = ["b", "c"] := by decide
  refine ⟨hSorted ▸ (hDocuments j).1, hOrdered, (hDocuments sorted).2 hOrdered, ?_, ?_, ?_⟩
  · refine ((hPaths j "a.c").1 _).mpr ⟨.array [.number (.integer 1), .null], ?_, rfl⟩
    rw [hThere]
    exact .member rfl (.member rfl (.here _))
  · refine ((hPaths j "b").1 _).mpr ⟨.null, ?_, rfl⟩
    rw [hNull]
    exact .member rfl (.here _)
  · refine (hPaths j "b.c").2.mpr ⟨["b"], "c", [], .null, hBehind, .member rfl (.here _), ?_⟩
    intro members hObject
    cases hObject

end Stencil
