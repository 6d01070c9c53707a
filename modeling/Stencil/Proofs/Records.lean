import Mathlib.Data.List.Sort
import Stencil.Value.Basic

/-!
# Stencil — records by their names

What a record holds under each name, whatever its fields are made from.

* `Record.get?_insert` — a write changes one name.
* `Record.get?_ofList` — the last of several fields for a name counts.
* `Fields.mem_toList_iff` — the fields in order are what the names lead to.
* `Fields.lookup_listFields` — so are those of them that are lists.
* `Fields.ext` — fields are known once it is known what each name leads to.
-/

namespace Stencil

-- ---------------------------------------------------------------------------
-- Lists of named things
-- ---------------------------------------------------------------------------

section

variable {α β : Type} {l l' : List (String × α)} {n : String}

/-- What a name leads to is known once it is known what stands there under the name. -/
theorem lookup_eq_of_mem_iff {o : Option α} (hMem : ∀ a, (n, a) ∈ l ↔ o = some a) :
    l.lookup n = o := by
  cases hLookup : l.lookup n with
  | some a =>
    obtain ⟨before, after, hSplit, -⟩ := List.lookup_eq_some_iff.mp hLookup
    have hHere : (n, a) ∈ l := by
      rw [hSplit]
      exact List.mem_append_right _ List.mem_cons_self
    exact ((hMem a).mp hHere).symm
  | none =>
    cases o with
    | none => rfl
    | some a =>
      have hApart := List.lookup_eq_none_iff.mp hLookup (n, a) ((hMem a).mpr rfl)
      simp at hApart

theorem lookup_map_snd (f : α → β) (l : List (String × α)) (n : String) :
    (l.map fun field => (field.1, f field.2)).lookup n = (l.lookup n).map f := by
  induction l with
  | nil => rfl
  | cons field rest ih =>
    rw [List.map_cons, List.lookup_cons, List.lookup_cons, ih]
    cases n == field.1 <;> rfl

/-- Named things in strictly increasing order of their names, so that no name comes twice. -/
def InOrder (l : List (String × α)) : Prop := l.Pairwise fun a b => a.1 < b.1

/-- Under one name there is one thing. -/
theorem InOrder.eq_of_mem (h : InOrder l) {a b : α} (ha : (n, a) ∈ l) (hb : (n, b) ∈ l) :
    a = b := by
  induction l with
  | nil => cases ha
  | cons field rest ih =>
    obtain ⟨hFirst, hRest⟩ := List.pairwise_cons.mp h
    rcases List.mem_cons.mp ha with rfl | haRest
    · rcases List.mem_cons.mp hb with hEq | hbRest
      · exact (Prod.mk.inj hEq).2.symm
      · exact absurd (hFirst (n, b) hbRest) (String.lt_irrefl n)
    · rcases List.mem_cons.mp hb with rfl | hbRest
      · exact absurd (hFirst (n, a) haRest) (String.lt_irrefl n)
      · exact ih hRest haRest hbRest

theorem InOrder.eq_of_mem_iff (h : InOrder l) (h' : InOrder l') (hMem : ∀ a, a ∈ l ↔ a ∈ l') :
    l = l' := by
  have : Std.Irrefl fun a b : String × α => a.1 < b.1 := ⟨fun a => String.lt_irrefl a.1⟩
  have : Std.Antisymm fun a b : String × α => a.1 < b.1 :=
    ⟨fun a b hab hba => absurd (String.lt_trans hab hba) (String.lt_irrefl a.1)⟩
  exact List.Pairwise.eq_of_mem_iff h h' hMem

end

-- ---------------------------------------------------------------------------
-- Fields
-- ---------------------------------------------------------------------------

theorem Fields.get?_insert {name n : String} {value : Value} :
    ∀ {low : Option String} (fields : Fields low) (above : ∀ l ∈ low, l < name),
      (fields.insert name value above).get? n =
        if n = name then some value else fields.get? n
  | _, .nil, _ => by simp [Fields.insert, Fields.get?]
  | _, .cons n' h v rest, above => by
    rw [Fields.insert]
    split
    · simp only [Fields.get?]
    · split
      · next hEq =>
        subst hEq
        simp only [Fields.get?]
        split <;> rfl
      · next hEq =>
        rw [Fields.get?, Fields.get?, get?_insert rest]
        by_cases hn : n = n'
        · have hNe : n ≠ name := fun h => hEq (h ▸ hn)
          simp [hn ▸ hNe, hn]
        · simp [hn]

theorem Record.get?_insert (r : Record) (name n : String) (value : Value) :
    (r.insert name value).get? n = if n = name then some value else r.get? n :=
  Fields.get?_insert r _

/-- The last of several bindings for a name counts. -/
theorem Record.get?_ofList (bindings : List (String × Value)) (n : String) :
    (Record.ofList bindings).get? n = bindings.reverse.lookup n := by
  have hFold : ∀ r : Record,
      (bindings.foldl (fun r field => r.insert field.1 field.2) r).get? n =
        (bindings.reverse.lookup n).or (r.get? n) := by
    induction bindings with
    | nil => exact fun r => rfl
    | cons field rest ih =>
      intro r
      rw [List.foldl_cons, ih, Record.get?_insert, List.reverse_cons, List.lookup_append,
        Option.or_assoc]
      congr 1
      rw [List.lookup_cons]
      by_cases hn : n = field.1
      · rw [if_pos hn, beq_iff_eq.mpr hn]
        rfl
      · rw [if_neg hn, beq_eq_false_iff_ne.mpr hn]
        rfl
  rw [Record.ofList, hFold]
  exact Option.or_none

theorem Fields.lt_of_mem_toList {n : String} {w : Value} :
    ∀ {low : Option String} (fields : Fields low), (n, w) ∈ fields.toList → ∀ l ∈ low, l < n
  | _, .nil, hMem => by cases hMem
  | _, .cons m above v rest, hMem => by
    intro l hLow
    rcases List.mem_cons.mp hMem with hHere | hRest
    · cases hHere
      exact above l hLow
    · exact String.lt_trans (above l hLow) (lt_of_mem_toList rest hRest m rfl)

/-- Each name is there once, so a field is found if it is there. -/
theorem Fields.mem_toList_iff {n : String} {w : Value} :
    ∀ {low : Option String} (fields : Fields low),
      (n, w) ∈ fields.toList ↔ fields.get? n = some w
  | _, .nil => by simp [Fields.toList, Fields.get?]
  | _, .cons m above v rest => by
    rw [Fields.toList, Fields.get?, List.mem_cons, Prod.mk.injEq, mem_toList_iff rest]
    by_cases hn : n = m
    · -- no later field has the name of the first
      have hNone : ¬ rest.get? n = some w := fun hFound =>
        String.lt_irrefl n (lt_of_mem_toList rest ((mem_toList_iff rest).mpr hFound) n (hn ▸ rfl))
      simp [hn, hn ▸ hNone, eq_comm]
    · simp [hn]

theorem Fields.lookup_listFields {low : Option String} (fields : Fields low) (n : String) :
    fields.listFields.reverse.lookup n = (fields.get? n).filter Value.isList := by
  refine lookup_eq_of_mem_iff fun w => ?_
  rw [List.mem_reverse, Fields.listFields, List.mem_filter, mem_toList_iff,
    Option.filter_eq_some_iff]

theorem Fields.lookup_reverse_toList {low : Option String} (fields : Fields low) (n : String) :
    fields.toList.reverse.lookup n = fields.get? n := by
  refine lookup_eq_of_mem_iff fun w => ?_
  rw [List.mem_reverse, mem_toList_iff]

theorem Fields.inOrder_toList :
    ∀ {low : Option String} (fields : Fields low), InOrder fields.toList
  | _, .nil => List.Pairwise.nil
  | _, .cons n _ _ rest =>
    List.Pairwise.cons (fun _ hMem => lt_of_mem_toList rest hMem n rfl) (inOrder_toList rest)

theorem Fields.eq_of_toList_eq :
    ∀ {low : Option String} {fields fields' : Fields low}, fields.toList = fields'.toList →
      fields = fields'
  | _, .nil, .nil, _ => rfl
  | _, .cons n above v rest, .cons n' above' v' rest', hList => by
    obtain ⟨hHead, hTail⟩ := List.cons.inj hList
    cases hHead
    rw [eq_of_toList_eq hTail]

/-- **Fields are known by their names.** -/
theorem Fields.ext {low : Option String} {fields fields' : Fields low}
    (hGet : ∀ n, fields.get? n = fields'.get? n) : fields = fields' := by
  refine eq_of_toList_eq (fields.inOrder_toList.eq_of_mem_iff fields'.inOrder_toList ?_)
  rintro ⟨n, w⟩
  rw [mem_toList_iff, mem_toList_iff, hGet]

end Stencil
