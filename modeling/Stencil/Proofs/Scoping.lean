import Stencil.Proofs.Documents

/-!
# Stencil — what a name means in a context

Contexts are put on top of each other and beside each other, and the same one may be found below
several others. For names all that comes down to one row of layers: the layer of a context first,
and behind it the rows of the contexts below, one after the other. The first layer that binds a name
says what it means.

The name that counts is the first of a path. What follows it is looked for in the value that was
found, and nowhere else: a name bound to null hides a record under the same name, with all its
fields.

* `Context.layers` — the row of layers. A name means what the first of them says that binds it
  (`Context.resolve?_eq`).
* `Context.Built` — the ways to build a context, with the bindings of its row as they were written.
  They are what the layers hold (`Context.layers_of_built`).
* `Context.Indistinct` — contexts that neither paths nor names can tell apart, which is so if each
  name means the same in both (`Context.indistinct_of_resolve?`).
* `Context.first_layer_counts` — what a path leads to, and which ways to build a context come to the
  same.
-/

namespace Stencil

namespace Context

-- ---------------------------------------------------------------------------
-- Layers
-- ---------------------------------------------------------------------------

mutual

/-- The layers in which a name is looked for, in this order: that of the context, and then those of
each context below it. -/
def layers : Context → List Record
  | layer bindings below => bindings :: layersOfAll below
termination_by structural c => c

/-- The layers of several contexts, one after the other. -/
def layersOfAll : List Context → List Record
  | [] => []
  | c :: cs => c.layers ++ layersOfAll cs
termination_by structural cs => cs

end

/-- **Induction over a context**, from below. -/
theorem induction {P : Context → Prop}
    (layer : ∀ bindings below, (∀ c ∈ below, P c) → P (layer bindings below)) (c : Context) :
    P c := by
  refine @Context.rec P (fun below => ∀ c ∈ below, P c) layer ?_ ?_ c
  · exact List.forall_mem_nil _
  · exact fun c cs hc hcs => List.forall_mem_cons.mpr ⟨hc, hcs⟩

theorem resolveFirst?_eq (name : String) (cs : List Context) :
    resolveFirst? name cs = cs.findSome? (resolve? name) := by
  induction cs with
  | nil => rfl
  | cons c cs ih =>
    rw [resolveFirst?, List.findSome?_cons, ih]
    cases c.resolve? name <;> rfl

theorem findSome?_layersOfAll {name : String} {cs : List Context}
    (hEach : ∀ c ∈ cs, c.resolve? name = c.layers.findSome? (·.get? name)) :
    (layersOfAll cs).findSome? (·.get? name) = cs.findSome? (resolve? name) := by
  induction cs with
  | nil => rfl
  | cons c cs ih =>
    obtain ⟨hc, hcs⟩ := List.forall_mem_cons.mp hEach
    rw [layersOfAll, List.findSome?_append, ih hcs, ← hc, List.findSome?_cons]
    cases c.resolve? name <;> rfl

/-- **A name means what the first layer says that binds it.** -/
theorem resolve?_eq (c : Context) (name : String) :
    c.resolve? name = c.layers.findSome? (·.get? name) := by
  induction c using Context.induction with
  | layer bindings below ih =>
    rw [resolve?, layers, List.findSome?_cons, findSome?_layersOfAll ih, resolveFirst?_eq]
    cases bindings.get? name <;> rfl

theorem resolve?_layered (below : List Context) (name : String) :
    (layered below).resolve? name = below.findSome? (resolve? name) := by
  rw [layered, resolve?, resolveFirst?_eq]
  rfl

/-- Of several bindings in a layer the last counts. -/
theorem resolve?_withBindings (c : Context) (bindings : List (String × Value)) (name : String) :
    (c.withBindings bindings).resolve? name =
      (bindings.reverse.lookup name).or (c.resolve? name) := by
  rw [withBindings, resolve?, resolveFirst?_eq, Record.get?_ofList, List.findSome?_singleton]
  cases bindings.reverse.lookup name <;> rfl

/-- Bindings that are layered one by one count as those of one layer. -/
theorem resolve?_foldl_withBinding (c : Context) (bindings : List (String × Value))
    (name : String) :
    (bindings.foldl (fun c binding => c.withBinding binding.1 binding.2) c).resolve? name =
      (bindings.reverse.lookup name).or (c.resolve? name) := by
  induction bindings generalizing c with
  | nil => rfl
  | cons binding rest ih =>
    have hLast : (binding :: rest).reverse = rest.reverse ++ [binding] := List.reverse_cons
    rw [List.foldl_cons, ih, withBinding, resolve?_withBindings, hLast, List.lookup_append,
      Option.or_assoc]
    rfl

theorem findSome?_map_layered (groups : List (List Context)) (name : String) :
    (groups.map layered).findSome? (resolve? name) = groups.flatten.findSome? (resolve? name) := by
  induction groups with
  | nil => rfl
  | cons group groups ih =>
    rw [List.map_cons, List.findSome?_cons, ih, List.flatten_cons, List.findSome?_append,
      resolve?_layered]
    cases group.findSome? (resolve? name) <;> rfl

-- ---------------------------------------------------------------------------
-- Rows of bindings
-- ---------------------------------------------------------------------------

/-- The bindings of one layer, as they were written. -/
abbrev Bindings := List (String × Value)

/-- The value that a layer binds to a name: of several bindings for it, the last counts. -/
def Bindings.of? (bindings : Bindings) (name : String) : Option Value :=
  bindings.reverse.lookup name

/-- The members of an object as bindings. Any other document has none. -/
def bindingsOf : Json → Bindings
  | .object members => members.map fun m => (m.1, Value.ofJson m.2)
  | _ => []

mutual

/--
The context was built like this, and its row was written like this: the bindings of its own layer,
and behind them those of the contexts below it. Nothing keeps a context from coming up in several
places.
-/
inductive Built : Context → List Bindings → Prop
  | empty : Built empty [[]]
  | ofBindings (bindings : Bindings) : Built (ofBindings bindings) [bindings]
  | ofJson (j : Json) : Built (ofJson j) [bindingsOf j]
  | layered {below : List Context} {rows : List Bindings} (each : BuiltAll below rows) :
      Built (layered below) ([] :: rows)
  | withParents {c : Context} {more : List Context} {own rows : List Bindings}
      (base : Built c own) (each : BuiltAll more rows) :
      Built (c.withParents more) ([] :: (own ++ rows))
  | withBinding {c : Context} {own : List Bindings} (base : Built c own) (name : String)
      (value : Value) : Built (c.withBinding name value) ([(name, value)] :: own)
  | withBindings {c : Context} {own : List Bindings} (base : Built c own) (bindings : Bindings) :
      Built (c.withBindings bindings) (bindings :: own)

/-- Each of the contexts was built, and their rows stand one after the other. -/
inductive BuiltAll : List Context → List Bindings → Prop
  | nil : BuiltAll [] []
  | cons {c : Context} {cs : List Context} {own rows : List Bindings} (first : Built c own)
      (others : BuiltAll cs rows) : BuiltAll (c :: cs) (own ++ rows)

end

theorem layers_ofJson (j : Json) : (ofJson j).layers = [Record.ofList (bindingsOf j)] := by
  cases j with
  | object members =>
    show [Record.ofMembers .empty members] = _
    rw [Record.ofMembers_eq_ofList]
    rfl
  | null | bool _ | number _ | string _ | array _ => rfl

/-- **The layers of a context hold the bindings that were written.** -/
theorem layers_of_built {c : Context} {rows : List Bindings} (h : Built c rows) :
    c.layers = rows.map Record.ofList := by
  refine @Built.rec (fun c rows _ => c.layers = rows.map Record.ofList)
    (fun cs rows _ => layersOfAll cs = rows.map Record.ofList)
    rfl (fun bindings => rfl) layers_ofJson ?layered ?withParents ?withBinding ?withBindings
    rfl ?cons c rows h
  case layered =>
    intro below rows each ih
    exact congrArg (Record.empty :: ·) ih
  case withParents =>
    intro c more own rows base each ihBase ihEach
    rw [withParents, Context.layered, layers, layersOfAll, ihBase, ihEach, ← List.map_append]
    rfl
  case withBinding =>
    intro c own base name value ih
    rw [withBinding, Context.withBindings, layers, layersOfAll, ih, layersOfAll, List.append_nil]
    rfl
  case withBindings =>
    intro c own base bindings ih
    rw [withBindings, layers, layersOfAll, ih, layersOfAll, List.append_nil]
    rfl
  case cons =>
    intro c cs own rows first others ihFirst ihOthers
    rw [layersOfAll, ihFirst, ihOthers, List.map_append]

theorem resolve?_of_built {c : Context} {rows : List Bindings} (h : Built c rows) (name : String) :
    c.resolve? name = rows.findSome? (·.of? name) := by
  rw [resolve?_eq, layers_of_built h, List.findSome?_map]
  exact congrArg (List.findSome? · rows) (funext fun bindings => Record.get?_ofList bindings name)

-- ---------------------------------------------------------------------------
-- Contexts that mean the same
-- ---------------------------------------------------------------------------

/-- No path leads elsewhere in one than in the other, and no name is bound in one alone. -/
structure Indistinct (c d : Context) : Prop where
  lookup?      : ∀ path, c.lookup? path = d.lookup? path
  isAccessible : ∀ path, c.isAccessible path = d.isAccessible path
  contains     : ∀ name, c.contains name = d.contains name

theorem indistinct_of_resolve? {c d : Context} (h : ∀ name, c.resolve? name = d.resolve? name) :
    c.Indistinct d := by
  have hLookup : ∀ path, c.lookup? path = d.lookup? path := by
    intro path
    obtain ⟨first, others, hNames⟩ := exists_pathNames path
    rw [c.lookup?_eq hNames, d.lookup?_eq hNames, h]
  refine ⟨hLookup, fun path => ?_, fun name => ?_⟩
  · rw [isAccessible, isAccessible, hLookup]
  · rw [contains, contains, h]

section

variable {c d : Context} {front back : List Bindings}

/-- A layer without bindings may be left out. -/
theorem indistinct_of_empty_layer (hc : Built c (front ++ [] :: back))
    (hd : Built d (front ++ back)) : c.Indistinct d := by
  refine indistinct_of_resolve? fun name => ?_
  rw [resolve?_of_built hc, resolve?_of_built hd, List.findSome?_append, List.findSome?_append]
  rfl

/-- Layers that were there before may be left out. -/
theorem indistinct_of_repeated {part between : List Bindings}
    (hc : Built c (front ++ part ++ between ++ part ++ back))
    (hd : Built d (front ++ part ++ between ++ back)) : c.Indistinct d := by
  refine indistinct_of_resolve? fun name => ?_
  rw [resolve?_of_built hc, resolve?_of_built hd]
  simp only [List.findSome?_append]
  cases front.findSome? (·.of? name) with
  | some v => rfl
  | none =>
    -- what the second occurrence says, the first has said
    cases part.findSome? (·.of? name) with
    | some v => rfl
    | none => rw [Option.or_none]

end

-- ---------------------------------------------------------------------------
-- Paths
-- ---------------------------------------------------------------------------

section

variable {c : Context} {rows : List Bindings} {path first : String} {others : List String}

theorem pathNames_of_no_dot {name : String} (hName : '.' ∉ name.toList) :
    pathNames name = [name] := by
  have hSplit : (['.'].intercalate [name.toList]).splitOn '.' = [name.toList] :=
    List.splitOn_intercalate '.' (by simpa using hName) (by simp)
  have hWhole : name.toList.splitOn '.' = [name.toList] := by simpa using hSplit
  rw [pathNames, hWhole, List.map_singleton, String.ofList_toList]

theorem lookup?_of_bound (hBuilt : Built c rows) (hNames : pathNames path = first :: others)
    {front back : List Bindings} {bindings : Bindings} {v : Value}
    (hRow : rows = front ++ bindings :: back) (hBefore : ∀ earlier ∈ front, earlier.of? first = none)
    (hHere : bindings.of? first = some v) : c.lookup? path = v.at? others := by
  have hFirst : rows.findSome? (·.of? first) = some v :=
    List.findSome?_eq_some_iff.mpr ⟨front, bindings, back, hRow, hHere, hBefore⟩
  rw [c.lookup?_eq hNames, resolve?_of_built hBuilt, hFirst]
  rfl

theorem lookup?_of_unbound (hBuilt : Built c rows) (hNames : pathNames path = first :: others)
    (hNone : ∀ bindings ∈ rows, bindings.of? first = none) : c.lookup? path = none := by
  rw [c.lookup?_eq hNames, resolve?_of_built hBuilt, List.findSome?_eq_none_iff.mpr hNone]
  rfl

theorem contains_iff (hBuilt : Built c rows) (name : String) :
    c.contains name = true ↔ ∃ bindings ∈ rows, ∃ v, bindings.of? name = some v := by
  rw [contains, resolve?_of_built hBuilt, List.findSome?_isSome_iff]
  simp only [Option.isSome_iff_exists]

theorem contains_eq_isAccessible (c : Context) {name : String} (hName : '.' ∉ name.toList) :
    c.contains name = c.isAccessible name := by
  rw [isAccessible, c.lookup?_eq (pathNames_of_no_dot hName), contains]
  cases c.resolve? name <;> rfl

end

/--
**The first layer that binds a name counts, and no other.** Take any context that was built, and the
row of its layers. A path leads to what its later names lead to in the value that the first layer
binds to its first name, whatever layers come behind; if no layer binds that name, to nothing. A name
is bound if one of the layers binds it; without a dot in it, that is if it leads somewhere as a path.

So paths and names cannot tell whether bindings were put on in one layer or one by one from left to
right; whether contexts were added behind a context or layered with it in front; and whether
contexts were layered in groups or all at once, or a group among others. Nor can they tell a row of
layers from the same row with an empty layer in it, or with a part of it, such as the layers of one
context, once more behind.
-/
theorem first_layer_counts :
    (∀ (c : Context) (rows : List Bindings), Built c rows →
      (∀ (path first : String) (others : List String), pathNames path = first :: others →
        (∀ front bindings back v, rows = front ++ bindings :: back →
          (∀ earlier ∈ front, earlier.of? first = none) → bindings.of? first = some v →
          c.lookup? path = v.at? others) ∧
        ((∀ bindings ∈ rows, bindings.of? first = none) → c.lookup? path = none)) ∧
      ∀ name : String,
        (c.contains name = true ↔ ∃ bindings ∈ rows, ∃ v, bindings.of? name = some v) ∧
        ('.' ∉ name.toList → c.contains name = c.isAccessible name)) ∧
    (∀ (c : Context) (bindings : Bindings),
      (c.withBindings bindings).Indistinct
        (bindings.foldl (fun c binding => c.withBinding binding.1 binding.2) c)) ∧
    (∀ (c : Context) (more : List Context),
      (c.withParents more).Indistinct (layered ([c] ++ more))) ∧
    (∀ groups : List (List Context),
      (layered (groups.map layered)).Indistinct (layered groups.flatten)) ∧
    (∀ front group back : List Context,
      (layered (front ++ layered group :: back)).Indistinct (layered (front ++ group ++ back))) ∧
    (∀ (c d : Context) (front back : List Bindings),
      Built c (front ++ [] :: back) → Built d (front ++ back) → c.Indistinct d) ∧
    ∀ (c d : Context) (front part between back : List Bindings),
      Built c (front ++ part ++ between ++ part ++ back) →
      Built d (front ++ part ++ between ++ back) → c.Indistinct d := by
  refine ⟨?_, ?_, ?_, ?_, ?_, ?_, ?_⟩
  · intro c rows hBuilt
    refine ⟨fun path first others hNames => ?_, fun name => ?_⟩
    · exact ⟨fun front bindings back v hRow hBefore hHere =>
        lookup?_of_bound hBuilt hNames hRow hBefore hHere, lookup?_of_unbound hBuilt hNames⟩
    · exact ⟨contains_iff hBuilt name, contains_eq_isAccessible c⟩
  · intro c bindings
    refine indistinct_of_resolve? fun name => ?_
    rw [resolve?_withBindings, resolve?_foldl_withBinding]
  · exact fun c more => indistinct_of_resolve? fun name => rfl
  · intro groups
    refine indistinct_of_resolve? fun name => ?_
    rw [resolve?_layered, resolve?_layered, findSome?_map_layered]
  · intro front group back
    refine indistinct_of_resolve? fun name => ?_
    rw [resolve?_layered, resolve?_layered, List.append_assoc, List.findSome?_append,
      List.findSome?_append, List.findSome?_append, List.findSome?_cons, resolve?_layered]
    cases group.findSome? (resolve? name) <;> rfl
  · exact fun c d front back => indistinct_of_empty_layer
  · exact fun c d front part between back => indistinct_of_repeated

/-- The theorem at a record that null hides, in a context that comes up twice below another. -/
theorem first_layer_counts_above_hidden_record :
    let bindings : Bindings :=
      [("user", .bool true), ("user", .record (Record.ofList [("name", .string "n")]))]
    let base : Context := ofBindings bindings
    let c : Context := layered [base.withBinding "user" .null, base]
    Built c ([[], [("user", .null)]] ++ [bindings] ++ [] ++ [bindings] ++ []) ∧
    base.lookup? "user.name" = some (.string "n") ∧ c.lookup? "user.name" = none ∧
    c.contains "user" = true ∧ c.Indistinct (layered [base.withBinding "user" .null]) := by
  intro bindings base c
  have hBase : Built base [bindings] := .ofBindings bindings
  have hHidden := hBase.withBinding "user" .null
  have hBoth := BuiltAll.cons hHidden (BuiltAll.cons hBase BuiltAll.nil)
  have hOne := BuiltAll.cons hHidden BuiltAll.nil
  have hRow : Built c ([[], [("user", .null)]] ++ [bindings] ++ [] ++ [bindings] ++ []) :=
    .layered hBoth
  have hAlone : Built (layered [base.withBinding "user" .null])
      ([[], [("user", .null)]] ++ [bindings] ++ [] ++ []) :=
    .layered hOne
  have hNames : pathNames "user.name" = ["user", "name"] := by decide
  obtain ⟨hReads, -, -, -, -, -, hRepeated⟩ := first_layer_counts
  obtain ⟨hPaths, hBound⟩ := hReads c _ hRow
  refine ⟨hRow, ?_, ?_, ?_, hRepeated c _ _ _ _ _ hRow hAlone⟩
  · exact ((hReads base _ hBase).1 _ _ _ hNames).1 [] bindings [] _ rfl (List.forall_mem_nil _) rfl
  · refine (hPaths _ _ _ hNames).1 [[]] [("user", .null)] [bindings, bindings] .null rfl ?_ rfl
    exact List.forall_mem_singleton.mpr rfl
  · refine (hBound "user").1.mpr ⟨[("user", .null)], by simp, .null, rfl⟩

end Context

end Stencil
