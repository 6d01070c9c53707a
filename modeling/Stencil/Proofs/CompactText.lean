import Mathlib
import Stencil.Json.Reader
import Stencil.Proofs.Documents

/-!
# Stencil — what compact text tells apart

Lists and records show in output as compact text, and two of them that differ should not look the
same. Nothing in the text says how long a part of it is. A string ends at its first quote that is
not escaped, and what is escaped comes back when it is read; a bracket closes its row because no
item starts with one; and a number goes on as long as there are digits, so what follows it must not
start with one. An item is followed by a comma or by the closing bracket, which is enough.

* `Number.text_append_inj` — integers, in front of text in which no integer goes on.
* `Recognized`, `Row` — what is told apart by its text in front of such text, and how rows of it are
  written in brackets. Rows are told apart if their items are (`Row.inside_append_inj`).
* `Json.quoted_append_inj` — strings, in front of any text.
* `Json.Whole.recognized` — documents whose numbers are integers.
* `Value.render_tells_apart` — such lists and records are equal if they look the same.
-/

namespace Stencil

open Text

-- ---------------------------------------------------------------------------
-- Integers
-- ---------------------------------------------------------------------------

/-- A character that integers are written with. -/
def isNumeral (c : Char) : Bool := c == '-' || c.isDigit

/-- No integer goes on in the text: it is empty, or starts with something else. -/
def Ends (r : List Char) : Prop := r.takeWhile isNumeral = []

/-- An integer is written with numerals, and with one at least. -/
theorem Number.text_integer (n : Int) :
    (Number.integer n).text.toList ≠ [] ∧
      ∀ c ∈ (Number.integer n).text.toList, isNumeral c = true := by
  have hDigits : ∀ (m : Nat), ∀ c ∈ m.repr.toList, isNumeral c = true := by
    intro m c hMem
    rw [Nat.toList_repr] at hMem
    rw [isNumeral, Nat.isDigit_of_mem_toDigits (by decide) (by decide) hMem, Bool.or_true]
  rw [text, Int.toString_eq_repr, Int.repr_eq_if]
  split
  · refine ⟨?_, hDigits _⟩
    rw [Nat.toList_repr]
    exact Nat.toDigits_ne_nil
  · rw [String.toList_append]
    exact ⟨List.cons_ne_nil _ _, List.forall_mem_cons.mpr ⟨by decide, hDigits _⟩⟩

/-- **An integer ends where its numerals end.** -/
theorem Number.text_append_inj {m n : Int} {r r' : List Char} (hEnds : Ends r) (hEnds' : Ends r')
    (hText : (Number.integer m).text.toList ++ r = (Number.integer n).text.toList ++ r') :
    m = n ∧ r = r' := by
  have hTake : ∀ (n : Int) {r : List Char}, Ends r →
      ((Number.integer n).text.toList ++ r).takeWhile isNumeral = (Number.integer n).text.toList := by
    intro n r hEnds
    rw [List.takeWhile_append_of_pos (text_integer n).2, hEnds, List.append_nil]
  have hSame : (Number.integer m).text.toList = (Number.integer n).text.toList := by
    rw [← hTake m hEnds, hText, hTake n hEnds']
  have hRepr : m.repr = n.repr := String.toList_inj.mp hSame
  rw [hSame] at hText
  exact ⟨Int.repr_inj.mp hRepr, List.append_cancel_left hText⟩

-- ---------------------------------------------------------------------------
-- Rows
-- ---------------------------------------------------------------------------

section

variable {α : Type} {write : α → List Char} {among : α → Prop}

/-- The text of `a` is not taken for that of another, as long as no integer goes on behind either. -/
def Recognized (write : α → List Char) (among : α → Prop) (a : α) : Prop :=
  ∀ b, among b → ∀ r r', Ends r → Ends r' → write a ++ r = write b ++ r' → a = b ∧ r = r'

/-- How a row is written in brackets: `inside` is what follows the opening bracket, and `more` what
follows an item of the row. -/
structure Row (write : α → List Char) (among : α → Prop) (inside more : List α → List Char)
    (closing : Char) : Prop where
  inside_nil  : inside [] = [closing]
  inside_cons : ∀ a as, inside (a :: as) = write a ++ more as
  more_nil    : more [] = [closing]
  more_cons   : ∀ a as, more (a :: as) = ',' :: (write a ++ more as)
  no_comma    : closing ≠ ','
  no_numeral  : isNumeral closing = false
  /-- No item starts with the closing bracket. -/
  no_item     : ∀ a, among a → ∀ r r', write a ++ r ≠ closing :: r'

namespace Row

variable {inside more : List α → List Char} {closing : Char}
  (row : Row write among inside more closing)

include row

theorem ends_more (as : List α) (r : List Char) : Ends (more as ++ r) := by
  cases as with
  | nil =>
    rw [row.more_nil]
    exact List.takeWhile_cons_of_neg (by simp [row.no_numeral])
  | cons a as =>
    rw [row.more_cons]
    rfl

/-- **Items are told apart**, and the bracket that closes them from what follows. -/
theorem more_append_inj {as bs : List α} {r r' : List Char}
    (hItems : ∀ a ∈ as, Recognized write among a) (hAmong : ∀ b ∈ bs, among b)
    (hText : more as ++ r = more bs ++ r') : as = bs ∧ r = r' := by
  induction as generalizing bs with
  | nil =>
    cases bs with
    | nil => exact ⟨rfl, List.append_cancel_left hText⟩
    | cons b bs =>
      rw [row.more_nil, row.more_cons] at hText
      exact absurd (List.cons.inj hText).1 row.no_comma
  | cons a as ih =>
    cases bs with
    | nil =>
      rw [row.more_nil, row.more_cons] at hText
      exact absurd (List.cons.inj hText).1.symm row.no_comma
    | cons b bs =>
      obtain ⟨ha, has⟩ := List.forall_mem_cons.mp hItems
      obtain ⟨hb, hbs⟩ := List.forall_mem_cons.mp hAmong
      rw [row.more_cons, row.more_cons] at hText
      have hBehind : (write a ++ more as) ++ r = (write b ++ more bs) ++ r' :=
        (List.cons.inj hText).2
      rw [List.append_assoc, List.append_assoc] at hBehind
      obtain ⟨rfl, hRest⟩ := ha b hb _ _ (row.ends_more as r) (row.ends_more bs r') hBehind
      obtain ⟨rfl, rfl⟩ := ih has hbs hRest
      exact ⟨rfl, rfl⟩

/-- **Rows are told apart.** -/
theorem inside_append_inj {as bs : List α} {r r' : List Char}
    (hItems : ∀ a ∈ as, Recognized write among a) (hAmong : ∀ a ∈ as, among a)
    (hAmong' : ∀ b ∈ bs, among b) (hText : inside as ++ r = inside bs ++ r') :
    as = bs ∧ r = r' := by
  cases as with
  | nil =>
    cases bs with
    | nil => exact ⟨rfl, List.append_cancel_left hText⟩
    | cons b bs =>
      rw [row.inside_nil, row.inside_cons, List.append_assoc] at hText
      exact absurd hText.symm (row.no_item b (hAmong' b List.mem_cons_self) _ _)
  | cons a as =>
    cases bs with
    | nil =>
      rw [row.inside_nil, row.inside_cons, List.append_assoc] at hText
      exact absurd hText (row.no_item a (hAmong a List.mem_cons_self) _ _)
    | cons b bs =>
      -- the first item is like the others once a comma stands before it
      have hMore : more (a :: as) ++ r = more (b :: bs) ++ r' := by
        rw [row.inside_cons, row.inside_cons] at hText
        rw [row.more_cons, row.more_cons, List.cons_append, hText, List.cons_append]
      exact row.more_append_inj hItems hAmong' hMore

end Row

end

-- ---------------------------------------------------------------------------
-- Strings
-- ---------------------------------------------------------------------------

namespace Json

/-- Two hexadecimal digits behind two zeros write any number of eight bits. -/
theorem hexNumber?_hexDigit :
    ∀ a < 16, ∀ b < 16, hexNumber? ['0', '0', hexDigit a, hexDigit b] = some (16 * a + b) := by
  decide

/-- A control character comes back from its number. -/
theorem readString_number {c : Char} (hControl : c < ' ') (rest : List Char) :
    readString none
        ('\\' :: 'u' :: '0' :: '0' :: hexDigit (c.toNat / 16) :: hexDigit (c.toNat % 16) :: rest) =
      withChar c (readString none rest) := by
  have hSmall : c.toNat < 32 := hControl
  have hUnit := hexNumber?_hexDigit (c.toNat / 16) (by omega) (c.toNat % 16) (by omega)
  rw [show 16 * (c.toNat / 16) + c.toNat % 16 = c.toNat by omega] at hUnit
  have hHigh : isHighSurrogate c.toNat = false := by
    rw [isHighSurrogate, decide_eq_false (by omega), Bool.false_and]
  have hLow : isLowSurrogate c.toNat = false := by
    rw [isLowSurrogate, decide_eq_false (by omega), Bool.false_and]
  rw [readString.eq_2 _ _ _ _ _ _ hUnit]
  simp only [hHigh, hLow, Bool.false_eq_true, if_false, Char.ofNat_toNat]

/-- A character that is written as it is comes back. -/
theorem readString_plain {c : Char} (hQuote : c ≠ '"') (hBackslash : c ≠ '\\') (hText : ¬ c < ' ')
    (rest : List Char) : readString none (c :: rest) = withChar c (readString none rest) := by
  rw [readString.eq_5]
  · simp [hQuote, hBackslash, hText]
  · intro _ _ _ _ _ h
    exact absurd h hBackslash
  · intro _ _ h
    exact absurd h hBackslash

/-- **A character of a string comes back**, however it is written. -/
theorem readString_escape (c : Char) (rest : List Char) :
    readString none (escape c ++ rest) = withChar c (readString none rest) := by
  unfold escape
  split
  case h_8 hQuote hBackslash _ _ _ _ _ =>
    split
    case isTrue hControl => exact readString_number hControl rest
    case isFalse hText => exact readString_plain hQuote hBackslash hText rest
  -- the letters after a backslash
  all_goals rfl

/-- A string is read up to its closing quote. -/
theorem readString_flatMap_escape (cs r : List Char) :
    readString none (cs.flatMap escape ++ '"' :: r) = some (cs, r) := by
  induction cs with
  | nil => rfl
  | cons c cs ih =>
    rw [List.flatMap_cons, List.append_assoc, readString_escape, ih]
    rfl

/-- **A quoted string ends where it says.** -/
theorem quoted_append_inj {s t : String} {r r' : List Char}
    (hText : quoted s ++ r = quoted t ++ r') : s = t ∧ r = r' := by
  have hRead : ∀ (s : String) (r : List Char),
      readString none (quoted s ++ r).tail = some (s.toList, r) := by
    intro s r
    rw [← readString_flatMap_escape s.toList r, List.append_cons]
    rfl
  have hSame : some (s.toList, r) = some (t.toList, r') := by
    rw [← hRead, hText, hRead]
  obtain ⟨hChars, rfl⟩ := Prod.mk.inj (Option.some.inj hSame)
  exact ⟨String.toList_inj.mp hChars, rfl⟩

-- ---------------------------------------------------------------------------
-- Documents
-- ---------------------------------------------------------------------------

/-- All numbers of the document are integers. -/
inductive Whole : Json → Prop
  | null : Whole .null
  | bool (b : Bool) : Whole (.bool b)
  | integer (n : Int) : Whole (.number (.integer n))
  | string (s : String) : Whole (.string s)
  | array {items : List Json} (inside : ∀ j ∈ items, Whole j) : Whole (.array items)
  | object {members : List (String × Json)} (inside : ∀ m ∈ members, Whole m.2) :
      Whole (.object members)

/-- The kind of what starts with the character. -/
def kindOf? (c : Char) : Option ValueKind :=
  if isNumeral c then some .number
  else
    match c with
    | 'n' => some .null
    | 't' => some .bool
    | 'f' => some .bool
    | '"' => some .string
    | '[' => some .list
    | '{' => some .record
    | _   => none

/-- The first character of a document shows of which kind it is. -/
theorem Whole.write_eq_cons {j : Json} (hWhole : j.Whole) :
    ∃ c cs, j.write = c :: cs ∧ kindOf? c = some (Value.ofJson j).kind := by
  cases hWhole with
  | null | string _ => exact ⟨_, _, rfl, rfl⟩
  | bool b => cases b <;> exact ⟨_, _, rfl, rfl⟩
  | integer n =>
    obtain ⟨hSome, hNumerals⟩ := Number.text_integer n
    obtain ⟨c, cs, hText⟩ := List.exists_cons_of_ne_nil hSome
    have hNumeral := hNumerals c (hText ▸ List.mem_cons_self)
    exact ⟨c, cs, hText, if_pos hNumeral⟩
  | @array items _ => cases items <;> exact ⟨_, _, rfl, rfl⟩
  | @object members _ => cases members <;> exact ⟨_, _, rfl, rfl⟩

theorem Whole.kind_eq {j k : Json} (hj : j.Whole) (hk : k.Whole) {r r' : List Char}
    (hText : j.write ++ r = k.write ++ r') : (Value.ofJson j).kind = (Value.ofJson k).kind := by
  obtain ⟨c, cs, hWrite, hKind⟩ := hj.write_eq_cons
  obtain ⟨d, ds, hWrite', hKind'⟩ := hk.write_eq_cons
  rw [hWrite, hWrite'] at hText
  obtain rfl := (List.cons.inj hText).1
  exact Option.some.inj (hKind.symm.trans hKind')

/-- Items stand in brackets. -/
theorem row_items :
    Row write Whole (fun items => (array items).write.tail) writeItems ']' where
  inside_nil := rfl
  inside_cons _ _ := rfl
  more_nil := rfl
  more_cons _ _ := rfl
  no_comma := by decide
  no_numeral := by decide
  no_item j hWhole r r' hText := by
    obtain ⟨c, cs, hWrite, hKind⟩ := hWhole.write_eq_cons
    rw [hWrite] at hText
    obtain rfl := (List.cons.inj hText).1
    cases hKind

/-- The text of a member. -/
def writeMember (m : String × Json) : List Char := quoted m.1 ++ ':' :: m.2.write

theorem writeMember_append (m : String × Json) (r : List Char) :
    quoted m.1 ++ ':' :: (m.2.write ++ r) = writeMember m ++ r := by
  rw [writeMember, List.append_assoc]
  rfl

/-- Members stand in braces. -/
theorem row_members :
    Row writeMember (fun m => m.2.Whole) (fun members => (object members).write.tail)
      writeMembers '}' where
  inside_nil := rfl
  inside_cons m ms := writeMember_append m (writeMembers ms)
  more_nil := rfl
  more_cons m ms := congrArg (',' :: ·) (writeMember_append m (writeMembers ms))
  no_comma := by decide
  no_numeral := by decide
  no_item m hWhole r r' hText := absurd (List.cons.inj hText).1 (by decide)

/-- A member is recognized by its name and its document. -/
theorem recognized_writeMember {m : String × Json} (h : Recognized write Whole m.2) :
    Recognized writeMember (fun m => m.2.Whole) m := by
  intro n hn r r' hEnds hEnds' hText
  rw [← writeMember_append, ← writeMember_append] at hText
  obtain ⟨hName, hBehind⟩ := quoted_append_inj hText
  obtain ⟨hDocument, hRest⟩ := h n.2 hn r r' hEnds hEnds' (List.cons.inj hBehind).2
  exact ⟨Prod.ext hName hDocument, hRest⟩

theorem write_array (items : List Json) :
    (array items).write = '[' :: (array items).write.tail := by
  cases items <;> rfl

theorem write_object (members : List (String × Json)) :
    (object members).write = '{' :: (object members).write.tail := by
  cases members <;> rfl

/-- **A document is recognized by its text**, if its numbers are integers. -/
theorem Whole.recognized {j : Json} (hWhole : j.Whole) : Recognized write Whole j := by
  induction hWhole with
  | null =>
    intro k hk r r' _ _ hText
    have hKind := Whole.null.kind_eq hk hText
    cases hk with
    | null => exact ⟨rfl, List.append_cancel_left hText⟩
    | bool _ | integer _ | string _ | array _ | object _ => cases hKind
  | bool b =>
    intro k hk r r' _ _ hText
    have hKind := (Whole.bool b).kind_eq hk hText
    cases hk with
    | bool b' =>
      cases b <;> cases b'
      · exact ⟨rfl, List.append_cancel_left hText⟩
      · exact absurd (List.cons.inj hText).1 (by decide)
      · exact absurd (List.cons.inj hText).1 (by decide)
      · exact ⟨rfl, List.append_cancel_left hText⟩
    | null | integer _ | string _ | array _ | object _ => cases hKind
  | integer m =>
    intro k hk r r' hEnds hEnds' hText
    have hKind := (Whole.integer m).kind_eq hk hText
    cases hk with
    | integer n =>
      obtain ⟨rfl, rfl⟩ := Number.text_append_inj hEnds hEnds' hText
      exact ⟨rfl, rfl⟩
    | null | bool _ | string _ | array _ | object _ => cases hKind
  | string s =>
    intro k hk r r' _ _ hText
    have hKind := (Whole.string s).kind_eq hk hText
    cases hk with
    | string t =>
      obtain ⟨rfl, rfl⟩ := quoted_append_inj hText
      exact ⟨rfl, rfl⟩
    | null | bool _ | integer _ | array _ | object _ => cases hKind
  | @array items hItems ih =>
    intro k hk r r' _ _ hText
    have hKind := (Whole.array hItems).kind_eq hk hText
    cases hk with
    | @array items' hItems' =>
      rw [write_array items, write_array items'] at hText
      obtain ⟨rfl, rfl⟩ := row_items.inside_append_inj ih hItems hItems' (List.cons.inj hText).2
      exact ⟨rfl, rfl⟩
    | null | bool _ | integer _ | string _ | object _ => cases hKind
  | @object members hMembers ih =>
    intro k hk r r' _ _ hText
    have hKind := (Whole.object hMembers).kind_eq hk hText
    cases hk with
    | @object members' hMembers' =>
      have hEach : ∀ m ∈ members, Recognized writeMember (fun m => m.2.Whole) m :=
        fun m hMem => recognized_writeMember (ih m hMem)
      rw [write_object members, write_object members'] at hText
      obtain ⟨rfl, rfl⟩ :=
        row_members.inside_append_inj hEach hMembers hMembers' (List.cons.inj hText).2
      exact ⟨rfl, rfl⟩
    | null | bool _ | integer _ | string _ | array _ => cases hKind

/-- Documents with the same text are equal. -/
theorem Whole.eq_of_compact_eq {j k : Json} (hj : j.Whole) (hk : k.Whole)
    (hText : j.compact = k.compact) : j = k :=
  (hj.recognized k hk [] [] rfl rfl (congrArg (· ++ []) (String.ofList_injective hText))).1

end Json

-- ---------------------------------------------------------------------------
-- Values
-- ---------------------------------------------------------------------------

namespace Value

/-- All numbers in the value are integers. -/
inductive Whole : Value → Prop
  | null : Whole .null
  | bool (b : Bool) : Whole (.bool b)
  | integer (n : Int) : Whole (.number (.integer n))
  | string (s : String) : Whole (.string s)
  | list {items : List Value} (inside : ∀ v ∈ items, Whole v) : Whole (.list items)
  | record {fields : Record} (inside : ∀ name v, fields.get? name = some v → Whole v) :
      Whole (.record fields)

theorem Whole.toJson {v : Value} (hWhole : v.Whole) : v.toJson.Whole := by
  induction hWhole with
  | null => exact .null
  | bool b => exact .bool b
  | integer n => exact .integer n
  | string s => exact .string s
  | list _ ih =>
    rw [Value.toJson, toItems_eq_map]
    exact .array (List.forall_mem_map.mpr ih)
  | @record fields _ ih =>
    rw [Value.toJson, Fields.toMembers_eq_map]
    refine .object (List.forall_mem_map.mpr ?_)
    rintro ⟨name, v⟩ hMem
    exact ih name v ((Fields.mem_toList_iff fields).mp hMem)

/-- The value is a list or a record. -/
def IsContainer (v : Value) : Prop := v.kind = .list ∨ v.kind = .record

theorem IsContainer.render_eq {v : Value} (h : v.IsContainer) : v.render = v.toJson.compact := by
  cases v with
  | list _ | record _ => rfl
  | null | bool _ | number _ | string _ => rcases h with h | h <;> cases h

/--
**The text of lists and records tells them apart.** Two of them, both without floats, are equal if
they look the same in output, whatever is in them and in whatever characters it is written. So there
is a way to get such a value back from its text alone.
-/
theorem render_tells_apart :
    (∀ v w : Value, v.IsContainer → w.IsContainer → v.Whole → w.Whole → v.render = w.render →
      v = w) ∧
    ∃ decode : String → Option Value,
      ∀ v : Value, v.IsContainer → v.Whole → decode v.render = some v := by
  have hApart : ∀ v w : Value, v.IsContainer → w.IsContainer → v.Whole → w.Whole →
      v.render = w.render → v = w := by
    intro v w hv hw hWhole hWhole' hText
    rw [hv.render_eq, hw.render_eq] at hText
    have hSame := hWhole.toJson.eq_of_compact_eq hWhole'.toJson hText
    rw [← v.ofJson_toJson, hSame, w.ofJson_toJson]
  refine ⟨hApart, ?_⟩
  classical
  refine ⟨fun text => if h : ∃ v : Value, v.IsContainer ∧ v.Whole ∧ v.render = text
    then some h.choose else none, fun v hv hWhole => ?_⟩
  have hThere : ∃ w : Value, w.IsContainer ∧ w.Whole ∧ w.render = v.render := ⟨v, hv, hWhole, rfl⟩
  obtain ⟨hw, hWhole', hText⟩ := hThere.choose_spec
  show (if h : ∃ w : Value, w.IsContainer ∧ w.Whole ∧ w.render = v.render
    then some h.choose else none) = some v
  rw [dif_pos hThere, hApart _ v hw hv hWhole' hWhole hText]

/-- The theorem at a list with a quote, a line end and a record in it: nothing else looks so. -/
theorem render_tells_apart_at_nested_list :
    let inner : Record := Record.ofList [("é", .list []), ("\\", .number (.integer 12))]
    let v : Value := .list [.string "\"\n", .null, .record inner]
    let text : String := "[\"\\\"\\n\",null,\x7b\"\\\\\":12,\"é\":[]\x7d]"
    (∀ w : Value, w.IsContainer → w.Whole → w.render = text → w = v) ∧
    ∃ decode : String → Option Value, decode text = some v := by
  intro inner v text
  obtain ⟨hApart, decode, hDecode⟩ := render_tells_apart
  have hText : v.render = text := by decide
  have hContainer : v.IsContainer := .inl rfl
  have hInner : (Value.record inner).Whole := by
    have hFields : inner.toList = [("\\", .number (.integer 12)), ("é", .list [])] := rfl
    refine .record fun name w hGet => ?_
    have hMem := (Fields.mem_toList_iff inner).mpr hGet
    rw [hFields] at hMem
    rcases List.mem_cons.mp hMem with hHere | hRest
    · cases hHere
      exact .integer 12
    · cases List.mem_singleton.mp hRest
      exact .list (List.forall_mem_nil _)
  have hWhole : v.Whole := by
    refine .list (List.forall_mem_cons.mpr ⟨.string _, ?_⟩)
    exact List.forall_mem_cons.mpr ⟨.null, List.forall_mem_singleton.mpr hInner⟩
  refine ⟨fun w hw hWhole' hSame => ?_, decode, ?_⟩
  · exact hApart w v hw hContainer hWhole' hWhole (hSame.trans hText.symm)
  · rw [← hText]
    exact hDecode v hContainer hWhole

end Value

end Stencil
