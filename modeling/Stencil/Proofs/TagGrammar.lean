import Mathlib.Computability.Language
import Stencil.Parser
import Stencil.Proofs.Documents

/-!
# Stencil — the grammar of tags, and nothing else

A path is names between single dots, and the header of a loop is a fixed row of words, gaps and names.
Both are read from the left, each run of characters as far as it goes. What could go wrong is that a
run goes too far, or not far enough: that a header has to be read in another way than it was written,
or that the words of the header get in the way of names that are spelled like them. Neither happens,
since no character of a name is a blank.

* `IsRun` — one or more characters of a class. In front of something else a run is found again
  (`takeWhile_run_append`), so a text is put together from runs in one way only.
* `pathGrammar`, `headerGrammar` — the two grammars as regular languages.
* `LoopHeader.Parts` — a header taken apart. It is read from its text (`read?_text`), nothing else is
  (`exists_parts`), and the text has no other parts (`text_injective`).
* `tag_grammars_exact` — the recognizers accept their grammars, and no content of a tag is in two.
-/

namespace Stencil

open Text
open scoped Computability

-- ---------------------------------------------------------------------------
-- Characters
-- ---------------------------------------------------------------------------

namespace Text

variable {c : Char} {cs : List Char}

/-- The characters that mean something in a tag other than a path. -/
def marks : List Char := ['\x7d', ':', '/']

/-- Names are apart from all that stands between them. -/
theorem all_not_isWord : ((blanks ++ marks).all fun c => !isWord c) = true := by decide +kernel

theorem isWord_eq_false (hMem : c ∈ blanks ++ marks) : isWord c = false := by
  simpa using List.all_eq_true.mp all_not_isWord c hMem

theorem isBlank_of_isWord (hWord : isWord c = true) : isBlank c = false := by
  by_contra hBlank
  rw [Bool.not_eq_false] at hBlank
  have hMem : c ∈ blanks := List.contains_iff_mem.mp hBlank
  rw [isWord_eq_false (List.mem_append_left _ hMem)] at hWord
  cases hWord

theorem isWord_of_isBlank (hBlank : isBlank c = true) : isWord c = false := by
  by_contra hWord
  rw [isBlank_of_isWord (Bool.not_eq_false _ ▸ hWord)] at hBlank
  cases hBlank

theorem not_mem_marks_of_isWord (hWord : isWord c = true) : c ∉ marks := by
  intro hMem
  rw [isWord_eq_false (List.mem_append_right _ hMem)] at hWord
  cases hWord

end Text

-- ---------------------------------------------------------------------------
-- Runs
-- ---------------------------------------------------------------------------

namespace Text

/-- One or more characters, all of the class. -/
def IsRun (p : Char → Bool) (cs : List Char) : Prop := cs ≠ [] ∧ ∀ c ∈ cs, p c = true

section

variable {p : Char → Bool} {run run' rest rest' : List Char}

theorem isRun_iff : IsRun p run ↔ (!run.isEmpty && run.all p) = true := by
  rw [Bool.and_eq_true, List.all_eq_true, IsRun]
  simp

instance : Decidable (IsRun p run) := decidable_of_iff _ isRun_iff.symm

/-- A run in front of something else is found again. -/
theorem takeWhile_run_append (hRun : IsRun p run) (hRest : ∀ c ∈ rest.head?, p c = false) :
    (run ++ rest).takeWhile p = run := by
  have hStop : rest.takeWhile p = [] := by
    cases rest with
    | nil => rfl
    | cons c rest => exact List.takeWhile_cons_of_neg (by simp [hRest c rfl])
  rw [List.takeWhile_append_of_pos hRun.2, hStop, List.append_nil]

theorem dropWhile_run_append (hRun : IsRun p run) (hRest : ∀ c ∈ rest.head?, p c = false) :
    (run ++ rest).dropWhile p = rest := by
  have hSplit := List.takeWhile_append_dropWhile (p := p) (l := run ++ rest)
  rw [takeWhile_run_append hRun hRest] at hSplit
  exact List.append_cancel_left hSplit

/-- A run in front of something else is found in one way only. -/
theorem run_append_inj (hRun : IsRun p run) (hRun' : IsRun p run')
    (hRest : ∀ c ∈ rest.head?, p c = false) (hRest' : ∀ c ∈ rest'.head?, p c = false)
    (h : run ++ rest = run' ++ rest') : run = run' ∧ rest = rest' := by
  constructor
  · rw [← takeWhile_run_append hRun hRest, h, takeWhile_run_append hRun' hRest']
  · rw [← dropWhile_run_append hRun hRest, h, dropWhile_run_append hRun' hRest']

theorem length_lt_of_isRun (hRun : IsRun p run) (rest : List Char) :
    rest.length < (run ++ rest).length := by
  have hPos := List.length_pos_iff.mpr hRun.1
  rw [List.length_append]
  omega

/-- What is dropped from the front is a run if anything is. -/
theorem exists_run_of_dropWhile_lt (hLess : (rest.dropWhile p).length < rest.length) :
    ∃ run, IsRun p run ∧ rest = run ++ rest.dropWhile p := by
  have hSplit := List.takeWhile_append_dropWhile (p := p) (l := rest)
  refine ⟨rest.takeWhile p, ⟨fun hNone => ?_, List.all_eq_true.mp List.all_takeWhile⟩, hSplit.symm⟩
  have hLength := congrArg List.length hSplit
  rw [hNone, List.nil_append] at hLength
  omega

end

theorem head_of_isRun {p q : Char → Bool} {run : List Char} (hRun : IsRun p run)
    (hApart : ∀ c, p c = true → q c = false) (rest : List Char) :
    ∀ c ∈ (run ++ rest).head?, q c = false := by
  intro c hHead
  rw [List.head?_append_of_ne_nil _ hRun.1] at hHead
  exact hApart c (hRun.2 c (List.mem_of_mem_head? hHead))

end Text

theorem isName_iff {cs : List Char} : isName cs = true ↔ IsRun isWord cs := isRun_iff.symm

-- ---------------------------------------------------------------------------
-- Paths
-- ---------------------------------------------------------------------------

theorem isPath_iff {cs : List Char} :
    isPath cs = true ↔ ∀ name ∈ cs.splitOn '.', IsRun isWord name := by
  rw [isPath, segmentList_eq_splitOnP, List.all_eq_true]
  exact forall₂_congr fun name _ => isName_iff

/-- The language of one character of the class. -/
def oneOf (p : Char → Bool) : Language Char := {cs | ∃ c, p c = true ∧ cs = [c]}

/-- One or more words of a language, one after the other. -/
def oneOrMore (l : Language Char) : Language Char := l * l∗

/-- Names, with a dot in front of each but the first. -/
def pathGrammar : Language Char :=
  oneOrMore (oneOf isWord) * ({['.']} * oneOrMore (oneOf isWord))∗

theorem mem_kstar_oneOf {p : Char → Bool} {cs : List Char} :
    cs ∈ (oneOf p)∗ ↔ ∀ c ∈ cs, p c = true := by
  rw [Language.mem_kstar]
  constructor
  · rintro ⟨words, rfl, hWords⟩ c hMem
    obtain ⟨word, hWord, hIn⟩ := List.mem_flatten.mp hMem
    obtain ⟨c', hClass, rfl⟩ := hWords word hWord
    exact List.mem_singleton.mp hIn ▸ hClass
  · intro hClass
    have hWhole : cs = (cs.map fun c => [c]).flatten := (List.flatMap_singleton' cs).symm
    refine ⟨cs.map fun c => [c], hWhole, fun word hWord => ?_⟩
    obtain ⟨c, hMem, rfl⟩ := List.mem_map.mp hWord
    exact ⟨c, hClass c hMem, rfl⟩

theorem mem_oneOrMore_oneOf {p : Char → Bool} {cs : List Char} :
    cs ∈ oneOrMore (oneOf p) ↔ IsRun p cs := by
  rw [oneOrMore, Language.mem_mul]
  constructor
  · rintro ⟨_, ⟨c, hClass, rfl⟩, rest, hRest, rfl⟩
    exact ⟨by simp, List.forall_mem_cons.mpr ⟨hClass, mem_kstar_oneOf.mp hRest⟩⟩
  · rintro ⟨hNe, hClass⟩
    obtain ⟨c, rest, rfl⟩ := List.exists_cons_of_ne_nil hNe
    obtain ⟨hFirst, hRest⟩ := List.forall_mem_cons.mp hClass
    exact ⟨[c], ⟨c, hFirst, rfl⟩, rest, mem_kstar_oneOf.mpr hRest, rfl⟩

theorem intercalate_cons (c : Char) (first : List Char) (others : List (List Char)) :
    [c].intercalate (first :: others) = first ++ (others.map (c :: ·)).flatten := by
  induction others generalizing first with
  | nil => simp
  | cons next others ih =>
    rw [List.intercalate_cons_cons, ih]
    simp

/-- Words with a character in front of each, one after the other. -/
theorem mem_kstar_marked {c : Char} {l : Language Char} {cs : List Char} :
    cs ∈ ({[c]} * l)∗ ↔
      ∃ words : List (List Char), (∀ word ∈ words, word ∈ l) ∧ cs = (words.map (c :: ·)).flatten := by
  rw [Language.mem_kstar]
  constructor
  · rintro ⟨parts, rfl, hParts⟩
    induction parts with
    | nil => exact ⟨[], by simp, rfl⟩
    | cons part parts ih =>
      obtain ⟨hFirst, hOthers⟩ := List.forall_mem_cons.mp hParts
      obtain ⟨words, hWords, hText⟩ := ih hOthers
      obtain ⟨_, rfl, word, hWord, rfl⟩ := Language.mem_mul.mp hFirst
      refine ⟨word :: words, List.forall_mem_cons.mpr ⟨hWord, hWords⟩, ?_⟩
      rw [List.flatten_cons, hText]
      rfl
  · rintro ⟨words, hWords, rfl⟩
    refine ⟨words.map (c :: ·), rfl, List.forall_mem_map.mpr fun word hWord => ?_⟩
    exact Language.mem_mul.mpr ⟨[c], rfl, word, hWords word hWord, rfl⟩

/-- **A path is what the grammar of paths has.** -/
theorem mem_pathGrammar_iff {cs : List Char} : cs ∈ pathGrammar ↔ isPath cs = true := by
  have hDot : isWord '.' = false := by decide +kernel
  rw [pathGrammar, Language.mem_mul, isPath_iff]
  constructor
  · rintro ⟨first, hFirst, rest, hRest, rfl⟩
    obtain ⟨others, hOthers, rfl⟩ := mem_kstar_marked.mp hRest
    have hNames : ∀ name ∈ first :: others, IsRun isWord name :=
      List.forall_mem_cons.mpr ⟨mem_oneOrMore_oneOf.mp hFirst,
        fun name hMem => mem_oneOrMore_oneOf.mp (hOthers name hMem)⟩
    -- a name has no dot in it, so the text is split where it was put together
    have hNoDot : ∀ name ∈ first :: others, '.' ∉ name := fun name hMem hIn => by
      rw [(hNames name hMem).2 '.' hIn] at hDot
      cases hDot
    rwa [← intercalate_cons, List.splitOn_intercalate '.' hNoDot (List.cons_ne_nil _ _)]
  · intro hNames
    obtain ⟨first, others, hSplit⟩ := List.exists_cons_of_ne_nil (List.splitOn_ne_nil '.' cs)
    rw [hSplit] at hNames
    obtain ⟨hFirst, hOthers⟩ := List.forall_mem_cons.mp hNames
    refine ⟨first, mem_oneOrMore_oneOf.mpr hFirst, _, mem_kstar_marked.mpr ⟨others, ?_, rfl⟩, ?_⟩
    · exact fun name hMem => mem_oneOrMore_oneOf.mpr (hOthers name hMem)
    · rw [← intercalate_cons, ← hSplit, List.intercalate_splitOn]

theorem isWord_or_dot_of_isPath {cs : List Char} (hPath : isPath cs = true) :
    ∀ c ∈ cs, isWord c = true ∨ c = '.' := by
  intro c hMem
  obtain ⟨first, others, hSplit⟩ := List.exists_cons_of_ne_nil (List.splitOn_ne_nil '.' cs)
  have hNames := isPath_iff.mp hPath
  have hWhole : ['.'].intercalate (cs.splitOn '.') = cs := List.intercalate_splitOn '.'
  rw [hSplit] at hNames hWhole
  rw [← hWhole, intercalate_cons, List.mem_append] at hMem
  obtain ⟨hFirst, hOthers⟩ := List.forall_mem_cons.mp hNames
  rcases hMem with hHere | hThere
  · exact .inl (hFirst.2 c hHere)
  · obtain ⟨_, hPart, hIn⟩ := List.mem_flatten.mp hThere
    obtain ⟨name, hName, rfl⟩ := List.mem_map.mp hPart
    rcases List.mem_cons.mp hIn with rfl | hIn
    · exact .inr rfl
    · exact .inl ((hOthers name hName).2 c hIn)

theorem ne_nil_of_isPath {cs : List Char} (hPath : isPath cs = true) : cs ≠ [] := by
  rintro rfl
  cases hPath

/-- No character of a path is a blank, or a mark that means something in a tag. -/
theorem plain_of_isPath {cs : List Char} (hPath : isPath cs = true) :
    ∀ c ∈ cs, isBlank c = false ∧ c ∉ marks := by
  intro c hMem
  rcases isWord_or_dot_of_isPath hPath c hMem with hWord | rfl
  · exact ⟨isBlank_of_isWord hWord, not_mem_marks_of_isWord hWord⟩
  · decide

theorem isPath_eq_false_of_mark {cs : List Char} (hMark : includeMark <+: cs) :
    isPath cs = false := by
  rw [← Bool.not_eq_true]
  intro hPath
  -- the mark has a colon, and a path has none
  have hColon : ':' ∈ cs := hMark.subset (by decide)
  exact (plain_of_isPath hPath ':' hColon).2 (by decide)

-- ---------------------------------------------------------------------------
-- Loop headers
-- ---------------------------------------------------------------------------

namespace LoopHeader

/-- A loop header taken apart, with the gaps between its words and names. -/
structure Parts where
  afterFor   : String
  item       : String
  beforeIn   : String
  afterIn    : String
  collection : String
  blank_afterFor : IsRun isBlank afterFor.toList
  word_item      : IsRun isWord item.toList
  blank_beforeIn : IsRun isBlank beforeIn.toList
  blank_afterIn  : IsRun isBlank afterIn.toList
  path           : Construct.placeholder.claims collection = true

namespace Parts

variable (parts : Parts)

/-- The parts put together. -/
def text : String :=
  "for" ++ parts.afterFor ++ parts.item ++ parts.beforeIn ++ "in" ++ parts.afterIn ++
    parts.collection

/-- What the parts say. -/
def header : LoopHeader := ⟨parts.item, parts.collection⟩

/-- The text from the second word on. -/
def fromIn : List Char := 'i' :: 'n' :: (parts.afterIn.toList ++ parts.collection.toList)

/-- The text from the name on. -/
def fromItem : List Char :=
  parts.item.toList ++ (parts.beforeIn.toList ++ parts.fromIn)

theorem toList_text :
    parts.text.toList = loopWord ++ (parts.afterFor.toList ++ parts.fromItem) := by
  simp [text, fromItem, fromIn, loopWord]

/-! Behind each run there is a character of another class. -/

theorem head_collection : ∀ c ∈ parts.collection.toList.head?, isBlank c = false :=
  fun c hHead => (plain_of_isPath parts.path c (List.mem_of_mem_head? hHead)).1

theorem head_fromIn : ∀ c ∈ parts.fromIn.head?, isBlank c = false := by
  intro c hHead
  obtain rfl : 'i' = c := Option.some.inj hHead
  decide

theorem head_beforeIn : ∀ c ∈ (parts.beforeIn.toList ++ parts.fromIn).head?, isWord c = false :=
  head_of_isRun parts.blank_beforeIn (fun _ => isWord_of_isBlank) _

theorem head_fromItem : ∀ c ∈ parts.fromItem.head?, isBlank c = false :=
  head_of_isRun parts.word_item (fun _ => isBlank_of_isWord) _

theorem readCollection?_fromIn :
    readCollection? parts.fromIn = some parts.collection.toList := by
  have hTrim : trimStart (parts.afterIn.toList ++ parts.collection.toList) =
      parts.collection.toList :=
    dropWhile_run_append parts.blank_afterIn parts.head_collection
  have hLess := length_lt_of_isRun parts.blank_afterIn parts.collection.toList
  have hPath : isPath parts.collection.toList = true := parts.path
  simp only [fromIn, readCollection?, hTrim, hLess, hPath, and_self, if_true]

/-- **The parts are read from their text.** -/
theorem read?_text : read? parts.text = some parts.header := by
  have hWord : loopWord.isPrefixOf (loopWord ++ (parts.afterFor.toList ++ parts.fromItem)) = true :=
    List.isPrefixOf_iff_prefix.mpr (List.prefix_append _ _)
  have hFromItem : trimStart (parts.afterFor.toList ++ parts.fromItem) = parts.fromItem :=
    dropWhile_run_append parts.blank_afterFor parts.head_fromItem
  have hItem : parts.fromItem.takeWhile isWord = parts.item.toList :=
    takeWhile_run_append parts.word_item parts.head_beforeIn
  have hAfterItem : parts.fromItem.dropWhile isWord = parts.beforeIn.toList ++ parts.fromIn :=
    dropWhile_run_append parts.word_item parts.head_beforeIn
  have hFromIn : trimStart (parts.beforeIn.toList ++ parts.fromIn) = parts.fromIn :=
    dropWhile_run_append parts.blank_beforeIn parts.head_fromIn
  have hGap := length_lt_of_isRun parts.blank_afterFor parts.fromItem
  have hGap' := length_lt_of_isRun parts.blank_beforeIn parts.fromIn
  have hName : (!parts.item.toList.isEmpty) = true := by simpa using parts.word_item.1
  have hRead : readChars? parts.text.toList =
      some (parts.item.toList, parts.collection.toList) := by
    rw [toList_text]
    simp only [readChars?, hWord, if_true, List.drop_left, hFromItem, hItem, hAfterItem, hFromIn,
      hGap, hGap', hName, and_self, readCollection?_fromIn, Option.map_some]
  simp only [read?, hRead, Option.map_some, String.ofList_toList, header]

/-- **The parts are the only ones of their text.** -/
theorem text_injective : Function.Injective text := by
  intro parts parts' hText
  have hChars := congrArg String.toList hText
  rw [toList_text, toList_text] at hChars
  obtain ⟨hAfterFor, hFromItem⟩ := run_append_inj parts.blank_afterFor parts'.blank_afterFor
    parts.head_fromItem parts'.head_fromItem (List.append_cancel_left hChars)
  obtain ⟨hItem, hAfterItem⟩ := run_append_inj parts.word_item parts'.word_item
    parts.head_beforeIn parts'.head_beforeIn hFromItem
  obtain ⟨hBeforeIn, hFromIn⟩ := run_append_inj parts.blank_beforeIn parts'.blank_beforeIn
    parts.head_fromIn parts'.head_fromIn hAfterItem
  have hRest := (List.cons.inj (List.cons.inj hFromIn).2).2
  obtain ⟨hAfterIn, hCollection⟩ := run_append_inj parts.blank_afterIn parts'.blank_afterIn
    parts.head_collection parts'.head_collection hRest
  cases parts
  cases parts'
  simp_all [String.toList_inj]

end Parts

theorem readCollection?_eq_some {cs path : List Char} (hRead : readCollection? cs = some path) :
    ∃ gap, IsRun isBlank gap ∧ isPath path = true ∧ cs = 'i' :: 'n' :: (gap ++ path) := by
  unfold readCollection? at hRead
  split at hRead
  · next rest =>
    dsimp only at hRead
    split at hRead
    · next hPath =>
      obtain rfl := Option.some.inj hRead
      obtain ⟨gap, hGap, hRest⟩ := exists_run_of_dropWhile_lt hPath.1
      exact ⟨gap, hGap, hPath.2, congrArg ('i' :: 'n' :: ·) hRest⟩
    · cases hRead
  · cases hRead

theorem readChars?_eq_some {cs item path : List Char} (hRead : readChars? cs = some (item, path)) :
    ∃ afterFor beforeIn afterIn, IsRun isBlank afterFor ∧ IsRun isWord item ∧
      IsRun isBlank beforeIn ∧ IsRun isBlank afterIn ∧ isPath path = true ∧
      cs = loopWord ++ (afterFor ++ (item ++ (beforeIn ++ 'i' :: 'n' :: (afterIn ++ path)))) := by
  unfold readChars? at hRead
  split at hRead
  · next hWord =>
    obtain ⟨afterWord, rfl⟩ := List.isPrefixOf_iff_prefix.mp hWord
    rw [List.drop_left] at hRead
    dsimp only at hRead
    split at hRead
    · next hGaps =>
      obtain ⟨hAfterFor, hItem, hBeforeIn⟩ := hGaps
      obtain ⟨path', hPath', hPair⟩ := Option.map_eq_some_iff.mp hRead
      cases hPair
      obtain ⟨afterFor, hRunFor, hSplit⟩ := exists_run_of_dropWhile_lt hAfterFor
      obtain ⟨beforeIn, hRunIn, hSplit'⟩ := exists_run_of_dropWhile_lt hBeforeIn
      obtain ⟨afterIn, hRunAfter, hPath, hFromIn⟩ := readCollection?_eq_some hPath'
      have hRunItem : IsRun isWord ((trimStart afterWord).takeWhile isWord) :=
        ⟨by simpa using hItem, List.all_eq_true.mp List.all_takeWhile⟩
      refine ⟨afterFor, beforeIn, afterIn, hRunFor, hRunItem, hRunIn, hRunAfter, hPath, ?_⟩
      rw [← hFromIn]
      change _ = loopWord ++ (afterFor ++ (_ ++ (beforeIn ++ List.dropWhile isBlank _)))
      rw [← hSplit', List.takeWhile_append_dropWhile]
      exact congrArg (loopWord ++ ·) hSplit
    · cases hRead
  · cases hRead

theorem exists_parts_of_runs {content : String} {afterFor item beforeIn afterIn path : List Char}
    (hFor : IsRun isBlank afterFor) (hItem : IsRun isWord item) (hIn : IsRun isBlank beforeIn)
    (hAfter : IsRun isBlank afterIn) (hPath : isPath path = true)
    (hText : content.toList =
      loopWord ++ (afterFor ++ (item ++ (beforeIn ++ 'i' :: 'n' :: (afterIn ++ path))))) :
    ∃ parts : Parts, parts.text = content ∧
      parts.header = ⟨String.ofList item, String.ofList path⟩ := by
  let parts : Parts :=
    { afterFor   := String.ofList afterFor
      item       := String.ofList item
      beforeIn   := String.ofList beforeIn
      afterIn    := String.ofList afterIn
      collection := String.ofList path
      blank_afterFor := by rwa [String.toList_ofList]
      word_item      := by rwa [String.toList_ofList]
      blank_beforeIn := by rwa [String.toList_ofList]
      blank_afterIn  := by rwa [String.toList_ofList]
      path           := by
        show isPath (String.ofList path).toList = true
        rwa [String.toList_ofList] }
  refine ⟨parts, String.toList_inj.mp ?_, rfl⟩
  rw [Parts.toList_text, hText]
  simp [parts, Parts.fromItem, Parts.fromIn]

/-- **Nothing but a header is read as one.** -/
theorem exists_parts {content : String} {header : LoopHeader} (hRead : read? content = some header) :
    ∃ parts : Parts, parts.text = content ∧ parts.header = header := by
  obtain ⟨⟨item, path⟩, hChars, rfl⟩ := Option.map_eq_some_iff.mp hRead
  obtain ⟨afterFor, beforeIn, afterIn, hFor, hItem, hIn, hAfter, hPath, hText⟩ :=
    readChars?_eq_some hChars
  exact exists_parts_of_runs hFor hItem hIn hAfter hPath hText

theorem isSome_read?_iff {content : String} :
    (read? content).isSome = true ↔ ∃ parts : Parts, parts.text = content := by
  constructor
  · intro hRead
    obtain ⟨header, hHeader⟩ := Option.isSome_iff_exists.mp hRead
    obtain ⟨parts, hText, -⟩ := exists_parts hHeader
    exact ⟨parts, hText⟩
  · rintro ⟨parts, rfl⟩
    rw [parts.read?_text]
    rfl

/-- The word, a gap, a name, a gap, a word, a gap and a path. -/
def headerGrammar : Language Char :=
  {loopWord} * oneOrMore (oneOf isBlank) * oneOrMore (oneOf isWord) * oneOrMore (oneOf isBlank) *
    {['i', 'n']} * oneOrMore (oneOf isBlank) * pathGrammar

/-- **A header is what the grammar of headers has.** -/
theorem mem_headerGrammar_iff {content : String} :
    content.toList ∈ headerGrammar ↔ ∃ parts : Parts, parts.text = content := by
  simp only [headerGrammar, Language.mem_mul, mem_oneOrMore_oneOf, mem_pathGrammar_iff]
  constructor
  · rintro ⟨_, ⟨_, ⟨_, ⟨_, ⟨_, ⟨_, rfl, afterFor, hFor, rfl⟩, item, hItem, rfl⟩, beforeIn, hIn, rfl⟩,
      _, rfl, rfl⟩, afterIn, hAfter, rfl⟩, path, hPath, hText⟩
    obtain ⟨parts, hParts, -⟩ := exists_parts_of_runs hFor hItem hIn hAfter hPath
      (by simpa using hText.symm)
    exact ⟨parts, hParts⟩
  · rintro ⟨parts, rfl⟩
    refine ⟨_, ⟨_, ⟨_, ⟨_, ⟨_, ⟨_, rfl, _, parts.blank_afterFor, rfl⟩, _, parts.word_item, rfl⟩, _,
      parts.blank_beforeIn, rfl⟩, _, rfl, rfl⟩, _, parts.blank_afterIn, rfl⟩, _, parts.path, ?_⟩
    rw [parts.toList_text]
    simp [Parts.fromItem, Parts.fromIn]

/-- A header is no path, as there are blanks in it. -/
theorem isPath_eq_false_of_read? {content : String} (hRead : (read? content).isSome = true) :
    isPath content.toList = false := by
  obtain ⟨parts, rfl⟩ := isSome_read?_iff.mp hRead
  rw [← Bool.not_eq_true]
  intro hPath
  obtain ⟨hNe, hBlank⟩ := parts.blank_afterFor
  obtain ⟨c, rest, hGap⟩ := List.exists_cons_of_ne_nil hNe
  have hMem : c ∈ parts.text.toList := by
    rw [parts.toList_text, hGap]
    simp
  have hHere := hBlank c (hGap ▸ List.mem_cons_self)
  rw [(plain_of_isPath hPath c hMem).1] at hHere
  cases hHere

theorem read?_eq_none_of_mark {content : String} (hMark : includeMark <+: content.toList) :
    read? content = none := by
  cases hRead : read? content with
  | none => rfl
  | some header =>
    -- the mark and the loop word differ in the first letter
    obtain ⟨parts, rfl, -⟩ := exists_parts hRead
    rw [parts.toList_text] at hMark
    exact absurd (List.cons_prefix_cons.mp hMark).1 (by decide)

end LoopHeader

-- ---------------------------------------------------------------------------
-- What the parser makes of headers
-- ---------------------------------------------------------------------------

namespace Parser

open LoopHeader

variable {p : Parser} {position : Position} {s : TokenStream}

theorem openLoop_text (parts : Parts) (position : Position) (depth : Nat) :
    p.openLoop parts.text position depth =
      if p.maxLoopNesting ≤ depth then .error (.grammar position (.nestingLimit p.maxLoopNesting))
      else .ok parts.header := by
  rw [openLoop, parts.read?_text]

theorem openLoop_eq_malformed_iff {content : String} {depth : Nat} :
    p.openLoop content position depth = .error (.grammar position (.malformedLoop content)) ↔
      read? content = none := by
  unfold openLoop
  cases read? content with
  | none => simp
  | some header => by_cases hFull : p.maxLoopNesting ≤ depth <;> simp [hFull]

/-- A loop node of the tag carries what the parts say. -/
theorem parts_of_parseTag {parts : Parts} {item collection : String} {body : List Node}
    {place : Position}
    (hNode : (p.parseTag .loop parts.text position s).1 = .ok (.loop item collection body place)) :
    item = parts.item ∧ collection = parts.collection ∧ place = position := by
  rw [parseTag, openLoop_text] at hNode
  by_cases hFull : p.maxLoopNesting ≤ s.loopDepth
  · rw [if_pos hFull] at hNode
    cases hNode
  · rw [if_neg hFull] at hNode
    rcases hBody : p.parseUntil s.enterLoop loopEnd with ⟨e | ⟨nodes, closed⟩, s'⟩
    · simp only [hBody] at hNode
      cases hNode
    · simp only [hBody, loopNode] at hNode
      cases closed with
      | false => cases hNode
      | true =>
        cases hNode
        exact ⟨rfl, rfl, rfl⟩

theorem parseTag_of_closed {parts : Parts} {nodes : List Node} {s' : TokenStream}
    (hRoom : s.loopDepth < p.maxLoopNesting)
    (hBody : p.parseUntil s.enterLoop loopEnd = (.ok ⟨nodes, true⟩, s')) :
    p.parseTag .loop parts.text position s =
      (.ok (.loop parts.item parts.collection nodes position), s'.exitLoop) := by
  rw [parseTag, openLoop_text, if_neg (Nat.not_le.mpr hRoom)]
  simp only [hBody, loopNode]
  rfl

end Parser

-- ---------------------------------------------------------------------------
-- The grammars
-- ---------------------------------------------------------------------------

theorem claims_placeholder_iff {content : String} :
    Construct.placeholder.claims content = true ↔
      ∀ name ∈ pathNames content, name ≠ "" ∧ ∀ c ∈ name.toList, isWord c = true := by
  show isPath content.toList = true ↔ _
  rw [isPath_iff, pathNames, List.forall_mem_map]
  refine forall₂_congr fun name _ => ?_
  rw [IsRun, String.toList_ofList, Ne, Ne, String.ofList_eq_empty_iff]

/--
**The recognizers accept their grammars, and each content in one way.** A placeholder is a text of
which the parts between dots are names of word characters; a loop header is the word `for`, a gap, a
name, a gap, the word `in`, a gap and a path, where gaps are blanks. Just those are the words of the two
regular languages, and any other content of a loop tag is a malformed loop.

A header has one row of parts only, and the name and the path among them are what is read and what the
node of the loop carries, also where they are spelled like the words of the header. No header is a
placeholder, and what starts with the mark of an include is neither.
-/
theorem tag_grammars_exact :
    (∀ content : String,
      (Construct.placeholder.claims content = true ↔
        ∀ name ∈ pathNames content, name ≠ "" ∧ ∀ c ∈ name.toList, isWord c = true) ∧
      (Construct.placeholder.claims content = true ↔ content.toList ∈ pathGrammar)) ∧
    (∀ content : String,
      ((LoopHeader.read? content).isSome = true ↔
        ∃ parts : LoopHeader.Parts, parts.text = content) ∧
      ((LoopHeader.read? content).isSome = true ↔ content.toList ∈ LoopHeader.headerGrammar) ∧
      ∀ (p : Parser) (position : Position) (depth : Nat),
        p.openLoop content position depth = .error (.grammar position (.malformedLoop content)) ↔
          ¬ ∃ parts : LoopHeader.Parts, parts.text = content) ∧
    (∀ parts : LoopHeader.Parts,
      (∀ parts' : LoopHeader.Parts, parts'.text = parts.text → parts' = parts) ∧
      LoopHeader.read? parts.text = some ⟨parts.item, parts.collection⟩ ∧
      ∀ (p : Parser) (position : Position) (s : TokenStream),
        (∀ item collection body place,
          (p.parseTag .loop parts.text position s).1 = .ok (.loop item collection body place) →
          item = parts.item ∧ collection = parts.collection ∧ place = position) ∧
        ∀ nodes s', s.loopDepth < p.maxLoopNesting →
          p.parseUntil s.enterLoop loopEnd = (.ok ⟨nodes, true⟩, s') →
          p.parseTag .loop parts.text position s =
            (.ok (.loop parts.item parts.collection nodes position), s'.exitLoop)) ∧
    (∀ content : String, (LoopHeader.read? content).isSome = true →
      Construct.placeholder.claims content = false) ∧
    (∀ rest : String, Construct.placeholder.claims ("include:" ++ rest) = false ∧
      LoopHeader.read? ("include:" ++ rest) = none) ∧
    ∀ c, isWord c = true → isBlank c = false := by
  have hMark : ∀ rest : String, includeMark <+: ("include:" ++ rest).toList := fun rest => by
    rw [String.toList_append]
    exact List.prefix_append _ _
  refine ⟨fun content => ⟨claims_placeholder_iff, mem_pathGrammar_iff.symm⟩, fun content => ?header,
    fun parts => ?parts, fun content => LoopHeader.isPath_eq_false_of_read?, fun rest => ?mark,
    fun c => isBlank_of_isWord⟩
  case header =>
    refine ⟨LoopHeader.isSome_read?_iff, ?_, fun p position depth => ?_⟩
    · rw [LoopHeader.isSome_read?_iff, LoopHeader.mem_headerGrammar_iff]
    · rw [Parser.openLoop_eq_malformed_iff, ← LoopHeader.isSome_read?_iff, Option.not_isSome_iff_eq_none]
  case parts =>
    refine ⟨fun parts' hText => LoopHeader.Parts.text_injective hText, parts.read?_text,
      fun p position s => ⟨?_, ?_⟩⟩
    · exact fun item collection body place => Parser.parts_of_parseTag
    · exact fun nodes s' => Parser.parseTag_of_closed
  case mark =>
    exact ⟨isPath_eq_false_of_mark (hMark rest), LoopHeader.read?_eq_none_of_mark (hMark rest)⟩

/-- The theorem at a loop over a path of the words of a header, with a name spelled like one too. -/
theorem tag_grammars_exact_at_words_as_names :
    let content := "for\tin  in\u00a0in.for"
    let closing : Token := .tag loopEnd "\x7b\x7b/for\x7d\x7d" ⟨1, 30⟩
    LoopHeader.read? content = some ⟨"in", "in.for"⟩ ∧
    Construct.placeholder.claims content = false ∧ Construct.placeholder.claims "in.for" = true ∧
    (∀ parts : LoopHeader.Parts, parts.text = content → parts.item = "in") ∧
    (({} : Parser).parseTag .loop content ⟨1, 1⟩ (.ofTokens [closing])).1 =
      .ok (.loop "in" "in.for" [] ⟨1, 1⟩) := by
  intro content closing
  let parts : LoopHeader.Parts :=
    { afterFor   := "\t"
      item       := "in"
      beforeIn   := "  "
      afterIn    := "\u00a0"
      collection := "in.for"
      blank_afterFor := by decide
      word_item      := by decide
      blank_beforeIn := by decide
      blank_afterIn  := by decide
      path           := by decide }
  have hText : parts.text = content := by decide
  obtain ⟨-, hHeaders, hParts, hApart, -, -⟩ := tag_grammars_exact
  obtain ⟨hOnly, hRead, hNode⟩ := hParts parts
  have hBody : ({} : Parser).parseUntil (TokenStream.ofTokens [closing]).enterLoop loopEnd =
      (.ok ⟨[], true⟩, ⟨[closing], [], 1⟩) := by
    rw [Parser.parseUntil, Parser.parseNodes_eq]
    rfl
  rw [hText] at hOnly hRead hNode
  refine ⟨hRead, hApart content ((hHeaders content).1.mpr ⟨parts, hText⟩), parts.path,
    fun parts' h => ?_, ?_⟩
  · rw [hOnly parts' h]
  · rw [(hNode {} ⟨1, 1⟩ (.ofTokens [closing])).2 [] _ (by decide) hBody]

end Stencil
