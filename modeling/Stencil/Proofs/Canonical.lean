import Mathlib.Data.List.Dedup
import Stencil.Proofs.Records
import Stencil.Value.Json

/-!
# Stencil — records and what was written to them

Fields are written to a record one after the other, under whatever names, or all at once. Nothing of
that may be seen afterwards but the last value under each name: not the order of the writes, and not
what was written over. So there is one record for the last values, and one text for the record.

Equality of values is wider than that, as the zeros of both signs are equal. It takes records name by
name, however deep the values under the names go.

* `utf8_lt` — of two names, the one that comes first has the smaller bytes.
* `Record.Written` — the ways to write a record, with all that was written, and
  `Record.WrittenLast` — what counts of it (`Written.get?_eq_some_iff`).
* `Fields.same_iff` — fields are equal if the values under each name are.
* `Record.last_writes_count` — what a record shows of its writes, and when two of them are equal.
-/

namespace Stencil

-- ---------------------------------------------------------------------------
-- The order of bytes
-- ---------------------------------------------------------------------------

/-- The bytes of a text. -/
def utf8 (text : String) : List UInt8 := text.toUTF8.data.toList

theorem utf8_eq_flatMap (text : String) : utf8 text = text.toList.flatMap String.utf8EncodeChar := by
  conv_lhs => rw [utf8, ← String.ofList_toList (s := text), String.toUTF8_eq_toByteArray,
    String.toByteArray_ofList, List.utf8Encode, List.data_toByteArray]

/-- The bytes of the smaller character are smaller, whatever follows. The first byte is the greater the
more of them there are, and as many of them are the digits of the code to the base of 64. -/
theorem utf8EncodeChar_append_lt {c d : Char} (h : c < d) (bytes bytes' : List UInt8) :
    String.utf8EncodeChar c ++ bytes < String.utf8EncodeChar d ++ bytes' := by
  have hCodes : c.val.toNat < d.val.toNat := h
  have hRange : d.val.toNat < 1114112 := by
    have hValid := d.valid
    unfold UInt32.isValidChar Nat.isValidChar at hValid
    omega
  have hDigits : ∀ n, n / 4096 = n / 64 / 64 ∧ n / 262144 = n / 64 / 64 / 64 := by omega
  -- no byte is cut off
  have hTail : ∀ n, (n % 64 + 128) % 256 = n % 64 + 128 := by omega
  have hTwo : ∀ n, (n % 32 + 192) % 256 = n % 32 + 192 := by omega
  have hThree : ∀ n, (n % 16 + 224) % 256 = n % 16 + 224 := by omega
  have hFour : ∀ n, (n % 8 + 240) % 256 = n % 8 + 240 := by omega
  unfold String.utf8EncodeChar
  simp only
  generalize c.val.toNat = v at *
  generalize d.val.toNat = w at *
  -- by the number of bytes of either
  split_ifs <;>
    simp only [List.cons_append, List.nil_append, List.cons_lt_cons_iff, UInt8.lt_iff_toNat_lt,
      UInt8.toNat_ofNat', ← UInt8.toNat_inj, hTail, hTwo, hThree, hFour, hDigits] <;> omega

theorem flatMap_utf8EncodeChar_lt {cs ds : List Char} (h : cs < ds) :
    cs.flatMap String.utf8EncodeChar < ds.flatMap String.utf8EncodeChar := by
  induction cs generalizing ds with
  | nil =>
    cases ds with
    | nil => exact absurd h (List.lt_irrefl [])
    | cons d ds =>
      rw [List.flatMap_cons, List.flatMap_nil]
      cases hBytes : String.utf8EncodeChar d with
      | nil => exact absurd hBytes String.utf8EncodeChar_ne_nil
      | cons b bytes => exact List.nil_lt_cons b _
  | cons c cs ih =>
    cases ds with
    | nil => exact absurd h (List.not_lt_nil _)
    | cons d ds =>
      rw [List.flatMap_cons, List.flatMap_cons]
      rcases List.cons_lt_cons_iff.mp h with hLess | ⟨rfl, hRest⟩
      · exact utf8EncodeChar_append_lt hLess _ _
      · exact List.append_left_lt (ih hRest)

/-- **Texts in order have their bytes in order.** -/
theorem utf8_lt {a b : String} (h : a < b) : utf8 a < utf8 b := by
  rw [utf8_eq_flatMap, utf8_eq_flatMap]
  exact flatMap_utf8EncodeChar_lt (String.lt_iff.mp h)

-- ---------------------------------------------------------------------------
-- Writes
-- ---------------------------------------------------------------------------

namespace Record

/-- The record was made by these writes, in this order. -/
inductive Written : Record → List (String × Value) → Prop
  | empty : Written empty []
  /-- All at once. -/
  | ofList (writes : List (String × Value)) : Written (ofList writes) writes
  /-- One more over all that was written so far, in place or in a chain of writes. -/
  | insert {r : Record} {writes : List (String × Value)} (before : Written r writes) (name : String)
      (value : Value) : Written (r.insert name value) (writes ++ [(name, value)])

/-- The last of the writes for the name wrote this value. -/
def WrittenLast (writes : List (String × Value)) (name : String) (value : Value) : Prop :=
  ∃ before after, writes = before ++ (name, value) :: after ∧ ∀ later ∈ after, later.1 ≠ name

variable {r r' : Record} {writes writes' : List (String × Value)}

/-- One by one and all at once come to the same. -/
theorem Written.eq_ofList (h : Written r writes) : r = Record.ofList writes := by
  induction h with
  | empty => rfl
  | ofList writes => rfl
  | insert before name value ih =>
    rw [ih, Record.ofList, Record.ofList, List.foldl_append]
    rfl

theorem lookup_reverse_eq_some_iff {name : String} {value : Value} :
    writes.reverse.lookup name = some value ↔ WrittenLast writes name value := by
  rw [List.lookup_eq_some_iff]
  constructor
  · rintro ⟨later, earlier, hSplit, hLater⟩
    refine ⟨earlier.reverse, later.reverse, ?_, fun w hw => ?_⟩
    · rw [← List.reverse_inj, hSplit]
      simp
    · exact (bne_iff_ne.mp (hLater w (List.mem_reverse.mp hw))).symm
  · rintro ⟨before, after, rfl, hAfter⟩
    refine ⟨after.reverse, before.reverse, by simp, fun w hw => ?_⟩
    exact bne_iff_ne.mpr (hAfter w (List.mem_reverse.mp hw)).symm

/-- **Under a name there is what was written last.** -/
theorem Written.get?_eq_some_iff (h : Written r writes) {name : String} {value : Value} :
    r.get? name = some value ↔ WrittenLast writes name value := by
  rw [h.eq_ofList, Record.get?_ofList, lookup_reverse_eq_some_iff]

theorem Written.get?_eq_none_iff (h : Written r writes) {name : String} :
    r.get? name = none ↔ name ∉ writes.map Prod.fst := by
  rw [h.eq_ofList, Record.get?_ofList, List.lookup_eq_none_iff, List.mem_map]
  constructor
  · rintro hNone ⟨w, hw, rfl⟩
    exact bne_iff_ne.mp (hNone w (List.mem_reverse.mpr hw)) rfl
  · intro hNone w hw
    exact bne_iff_ne.mpr fun hEq => hNone ⟨w, List.mem_reverse.mp hw, hEq.symm⟩

/-- Records with the same last writes are the same. -/
theorem Written.eq_of_last (h : Written r writes) (h' : Written r' writes')
    (hLast : ∀ name value, WrittenLast writes name value ↔ WrittenLast writes' name value) :
    r = r' := by
  refine Fields.ext fun name => Option.ext fun value => ?_
  rw [h.get?_eq_some_iff, h'.get?_eq_some_iff, hLast]

end Record

-- ---------------------------------------------------------------------------
-- Fields in order
-- ---------------------------------------------------------------------------

namespace Fields

variable {low : Option String} (fields : Fields low)

theorem mem_names_iff {name : String} : name ∈ fields.names ↔ fields.get? name ≠ none := by
  rw [names, List.mem_map, Option.ne_none_iff_exists']
  constructor
  · rintro ⟨⟨_, value⟩, hMem, rfl⟩
    exact ⟨value, fields.mem_toList_iff.mp hMem⟩
  · rintro ⟨value, hGet⟩
    exact ⟨(name, value), fields.mem_toList_iff.mpr hGet, rfl⟩

theorem nodup_names : fields.names.Nodup := by
  have hOrder : fields.names.Pairwise (· < ·) := List.pairwise_map.mpr fields.inOrder_toList
  refine hOrder.imp ?_
  rintro a b hLess rfl
  exact String.lt_irrefl a hLess

/-- The fields stand in the order of the bytes of their names. -/
theorem pairwise_utf8_lt : fields.toList.Pairwise fun a b => utf8 a.1 < utf8 b.1 :=
  fields.inOrder_toList.imp utf8_lt

theorem mem_listFields_iff {name : String} {value : Value} :
    (name, value) ∈ fields.listFields ↔
      (name, value) ∈ fields.toList ∧ ∃ items, value = .list items := by
  rw [listFields, List.mem_filter]
  cases value <;> simp [Value.isList]

end Fields

namespace Record

variable {r : Record} {writes : List (String × Value)}

theorem Written.count_names (h : Written r writes) (name : String) :
    r.names.count name = if name ∈ writes.map Prod.fst then 1 else 0 := by
  rw [r.nodup_names.count]
  congr 1
  rw [Fields.mem_names_iff, ne_eq, h.get?_eq_none_iff, not_not]

/-- A record has as many fields as names were written. -/
theorem Written.size_eq (h : Written r writes) :
    r.size = (writes.map Prod.fst).dedup.length := by
  have hNames : r.size = r.names.length := (List.length_map _).symm
  rw [hNames]
  refine List.Perm.length_eq ((List.perm_ext_iff_of_nodup r.nodup_names (List.nodup_dedup _)).mpr ?_)
  intro name
  rw [Fields.mem_names_iff, ne_eq, h.get?_eq_none_iff, not_not, List.mem_dedup]

end Record

-- ---------------------------------------------------------------------------
-- Equality name by name
-- ---------------------------------------------------------------------------

namespace Fields

/-- The values under one name are equal, or there is none on either side. -/
abbrev SameAt (name : String) {low low' : Option String} (fields : Fields low)
    (fields' : Fields low') : Prop :=
  Option.Rel (fun v w => v.same w = true) (fields.get? name) (fields'.get? name)

theorem lt_of_get?_eq_some {low : Option String} {fields : Fields low} {name : String}
    {value : Value} (hGet : fields.get? name = some value) : ∀ l ∈ low, l < name :=
  fields.lt_of_mem_toList (fields.mem_toList_iff.mpr hGet)

/-- Above a name there is no field of that name. -/
theorem get?_low {name : String} (fields : Fields (some name)) : fields.get? name = none := by
  cases hGet : fields.get? name with
  | none => rfl
  | some value => exact absurd (lt_of_get?_eq_some hGet name rfl) (String.lt_irrefl name)

section

variable {low low' : Option String} {name name' : String} {value value' : Value}
  {above : ∀ l ∈ low, l < name} {above' : ∀ l ∈ low', l < name'}
  {rest : Fields (some name)} {rest' : Fields (some name')}

theorem get?_cons_self : (cons name above value rest).get? name = some value := by
  rw [get?, if_pos rfl]

theorem get?_cons_of_ne {n : String} (h : n ≠ name) :
    (cons name above value rest).get? n = rest.get? n := by
  rw [get?, if_neg h]

/-- The first name is the least one, on both sides. -/
theorem head_eq_of_sameAt
    (h : ∀ n, SameAt n (cons name above value rest) (cons name' above' value' rest')) :
    name = name' := by
  by_contra hNe
  have hHere := h name
  have hThere := h name'
  rw [SameAt, get?_cons_self, get?_cons_of_ne hNe] at hHere
  rw [SameAt, get?_cons_self, get?_cons_of_ne (Ne.symm hNe)] at hThere
  -- each is behind the first name of the other side
  generalize hGet' : rest'.get? name = found' at hHere
  generalize hGet : rest.get? name' = found at hThere
  cases hHere
  cases hThere
  exact String.lt_irrefl name
    (String.lt_trans (lt_of_get?_eq_some hGet name rfl) (lt_of_get?_eq_some hGet' name' rfl))

theorem sameAt_cons_iff {rest' : Fields (some name)} {above' : ∀ l ∈ low', l < name} :
    (∀ n, SameAt n (cons name above value rest) (cons name above' value' rest')) ↔
      value.same value' = true ∧ ∀ n, SameAt n rest rest' := by
  constructor
  · intro h
    refine ⟨?_, fun n => ?_⟩
    · have hHere := h name
      rw [SameAt, get?_cons_self, get?_cons_self] at hHere
      cases hHere with
      | some hValue => exact hValue
    · by_cases hn : n = name
      · subst hn
        rw [SameAt, get?_low, get?_low]
        exact .none
      · have hRest := h n
        rwa [SameAt, get?_cons_of_ne hn, get?_cons_of_ne hn] at hRest
  · rintro ⟨hValue, hRest⟩ n
    by_cases hn : n = name
    · subst hn
      rw [SameAt, get?_cons_self, get?_cons_self]
      exact .some hValue
    · rw [SameAt, get?_cons_of_ne hn, get?_cons_of_ne hn]
      exact hRest n

end

/-- **Fields are equal if the values under each name are.** -/
theorem same_iff :
    ∀ {low low' : Option String} (fields : Fields low) (fields' : Fields low'),
      fields.same fields' = true ↔ ∀ name, SameAt name fields fields'
  | _, _, .nil, .nil => ⟨fun _ _ => .none, fun _ => rfl⟩
  | _, _, .nil, .cons name above value rest => by
    constructor
    · intro h
      cases h
    · intro h
      have hHere := h name
      rw [SameAt, get?_cons_self] at hHere
      cases hHere
  | _, _, .cons name above value rest, .nil => by
    constructor
    · intro h
      cases h
    · intro h
      have hHere := h name
      rw [SameAt, get?_cons_self] at hHere
      cases hHere
  | _, _, .cons name above value rest, .cons name' above' value' rest' => by
    rw [same, Bool.and_eq_true, Bool.and_eq_true, beq_iff_eq, same_iff rest rest']
    by_cases hName : name = name'
    · subst hName
      rw [sameAt_cons_iff]
      simp
    · exact ⟨fun h => absurd h.1.1 hName, fun h => absurd (head_eq_of_sameAt h) hName⟩

end Fields

-- ---------------------------------------------------------------------------
-- Records are canonical
-- ---------------------------------------------------------------------------

namespace Record

/--
**The last writes count, and nothing else does.** Take any record and the writes that made it. Under a
name there is the value that was written last, and nothing if none was; the fields are each name that
was written once, with what is under it, in strictly increasing order of the bytes of the names; they
are as many as there were names; and the lists among them stand in the same order.

Two records are equal if under each name there are equal values, or none. If each name was written
last with the same value, not only with an equal one, they are the same record, with the same text.
-/
theorem last_writes_count :
    (∀ (r : Record) (writes : List (String × Value)), Written r writes →
      (∀ name, (∀ value, r.get? name = some value ↔ WrittenLast writes name value) ∧
        (r.get? name = none ↔ name ∉ writes.map Prod.fst)) ∧
      (∀ name, r.names.count name = if name ∈ writes.map Prod.fst then 1 else 0) ∧
      (∀ name value, (name, value) ∈ r.toList ↔ r.get? name = some value) ∧
      (r.toList.Pairwise fun a b => utf8 a.1 < utf8 b.1) ∧
      r.size = (writes.map Prod.fst).dedup.length ∧
      r.listFields.Sublist r.toList ∧
      ∀ name value, (name, value) ∈ r.listFields ↔
        (name, value) ∈ r.toList ∧ ∃ items, value = .list items) ∧
    (∀ r r' : Record, r.same r' = true ↔
      ∀ name, Option.Rel (fun v w => v.same w = true) (r.get? name) (r'.get? name)) ∧
    ∀ (r r' : Record) (writes writes' : List (String × Value)),
      Written r writes → Written r' writes' →
      (∀ name value, WrittenLast writes name value ↔ WrittenLast writes' name value) →
      r = r' ∧ (Value.record r).render = (Value.record r').render := by
  refine ⟨fun r writes h => ⟨?_, h.count_names, ?_, ?_, h.size_eq, ?_, ?_⟩, ?_, ?_⟩
  · exact fun name => ⟨fun value => h.get?_eq_some_iff, h.get?_eq_none_iff⟩
  · exact fun name value => r.mem_toList_iff
  · exact r.pairwise_utf8_lt
  · exact List.filter_sublist
  · exact fun name value => r.mem_listFields_iff
  · exact fun r r' => r.same_iff r'
  · intro r r' writes writes' h h' hLast
    obtain rfl := h.eq_of_last h' hLast
    exact ⟨rfl, rfl⟩

/-- The theorem at a record that is written in two ways, and at one with the other zero in it: equal
under each name, but not the same. -/
theorem last_writes_count_at_zeros :
    let zero : Value := .number (.float ⟨false, ⟨0, by decide⟩⟩)
    let minusZero : Value := .number (.float ⟨true, ⟨0, by decide⟩⟩)
    let stepwise := ((empty.insert "z" (.bool true)).insert "é" zero).insert "z" (.list [])
    let atOnce := ofList [("é", minusZero), ("z", .list []), ("é", zero)]
    let other := ofList [("é", minusZero), ("z", .list [])]
    stepwise.names = ["z", "é"] ∧ stepwise.get? "z" = some (.list []) ∧ stepwise = atOnce ∧
    (∀ name, Option.Rel (fun v w => v.same w = true) (stepwise.get? name) (other.get? name)) ∧
    stepwise ≠ other := by
  intro zero minusZero stepwise atOnce other
  have hStepwise : Written stepwise [("z", .bool true), ("é", zero), ("z", .list [])] :=
    ((Written.empty.insert "z" (.bool true)).insert "é" zero).insert "z" (.list [])
  have hAtOnce : Written atOnce [("é", minusZero), ("z", .list []), ("é", zero)] := .ofList _
  have hOther : Written other [("é", minusZero), ("z", .list [])] := .ofList _
  obtain ⟨hReads, hEqual, hSame⟩ := last_writes_count
  obtain ⟨hGet, -⟩ := hReads stepwise _ hStepwise
  obtain ⟨hGetOther, -⟩ := hReads other _ hOther
  refine ⟨by decide, ?_, ?_, (hEqual _ _).mp (by decide), fun hEq => ?_⟩
  · exact ((hGet "z").1 _).mpr ⟨[("z", .bool true), ("é", zero)], [], rfl, by simp⟩
  · refine (hSame _ _ _ _ hStepwise hAtOnce fun name value => ?_).1
    rw [← lookup_reverse_eq_some_iff, ← lookup_reverse_eq_some_iff]
    by_cases hz : name = "z"
    · subst hz
      rfl
    · by_cases hé : name = "é"
      · subst hé
        rfl
      · simp [List.lookup_cons, beq_eq_false_iff_ne.mpr hz, beq_eq_false_iff_ne.mpr hé]
  · have hZero : stepwise.get? "é" = some zero :=
      ((hGet "é").1 zero).mpr ⟨[("z", .bool true)], [("z", .list [])], rfl, by simp⟩
    have hMinus : other.get? "é" = some minusZero :=
      ((hGetOther "é").1 minusZero).mpr ⟨[], [("z", .list [])], rfl, by simp⟩
    rw [hEq, hMinus] at hZero
    exact absurd hZero (by simp [zero, minusZero])

end Record

end Stencil
