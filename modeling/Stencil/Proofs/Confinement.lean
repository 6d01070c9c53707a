import Mathlib
import Stencil.Files.Directory
import Stencil.Proofs.Names
import Stencil.Proofs.Resolution

/-!
# Stencil — nothing outside the root

A template directory gives out what lies below its root and nothing else. Names cannot be trusted to
show where they lead: a name without a single dot in it may lead out of the root by a link, and one
that leads out may lead back in. So it is the place at the end of the way that counts, and it is
compared with the root name by name.

* `Directory.Askable` — a name that is looked up at all. Any other is refused unseen
  (`content_of_not_askable`).
* `textOfBytes_eq_ok_iff` — bytes are a text when they are its UTF-8.
* `Directory.Replies` — what can come of a name; one of these does (`replies_content`).
* `FileTree.AgreesBelow` — two trees that differ in the bytes of files outside some place at most.
* `Directory.content_is_confined` — what is answered for which name, and that nothing outside the
  root has a part in it.
-/

namespace Stencil

-- ---------------------------------------------------------------------------
-- Bytes
-- ---------------------------------------------------------------------------

theorem textOfBytes_eq_ok_iff {bytes : ByteArray} {text : String} :
    textOfBytes bytes = .ok text ↔ bytes = text.toUTF8 := by
  unfold textOfBytes String.fromUTF8?
  by_cases hValid : bytes.IsValidUTF8
  · rw [dif_pos hValid, Except.ok.injEq, ← String.toByteArray_inj, String.fromUTF8]
    rfl
  · rw [dif_neg hValid]
    constructor
    · intro hText
      cases hText
    · rintro rfl
      exact absurd text.isValidUTF8 hValid

theorem textOfBytes_cases (bytes : ByteArray) :
    (∃ text : String, bytes = text.toUTF8 ∧ textOfBytes bytes = .ok text) ∨
    (∀ text : String, bytes ≠ text.toUTF8) ∧ textOfBytes bytes = .error .notText := by
  cases hText : textOfBytes bytes with
  | ok text => exact .inl ⟨text, textOfBytes_eq_ok_iff.mp hText, rfl⟩
  | error fault =>
    refine .inr ⟨?_, ?_⟩
    · rintro text rfl
      rw [textOfBytes_eq_ok_iff.mpr rfl] at hText
      cases hText
    · unfold textOfBytes at hText
      split at hText <;> cases hText
      rfl

namespace FileTree

variable {t t' : FileTree} {place : Place}

/-- What stands somewhere can be read, or is a directory. -/
theorem readAt_of_stands (hStands : t.root.Stands place) :
    (∃ bytes, t.root.at? place = some (.file bytes) ∧ t.readAt place = .ok bytes) ∨
    t.root.HasDirectory place ∧ t.readAt place = .error .isADirectory := by
  rcases Entry.stands_iff.mp hStands with ⟨children, hAt⟩ | ⟨bytes, hAt⟩
  · refine .inr ⟨⟨children, hAt⟩, ?_⟩
    rw [readAt, hAt]
    rfl
  · refine .inl ⟨bytes, hAt, ?_⟩
    rw [readAt, hAt]
    rfl

/-- The trees have the same directories, links and files, and the files at or below the place have
the same bytes. -/
structure AgreesBelow (t t' : FileTree) (place : Place) : Prop where
  here   : t.here = t'.here
  layout : t.root.SameLayout t'.root
  bytes  : ∀ inside bytes, place <+: inside → t.root.at? inside = some (.file bytes) →
    t'.root.at? inside = some (.file bytes)

/-- Another content of one file outside is such a difference. -/
theorem agreesBelow_of_file {other : Place} (hHere : t.here = t'.here)
    (hOutside : ¬ place <+: other) (hFile : t.root.HasFile other) (hFile' : t'.root.HasFile other)
    (hSame : ∀ inside, inside ≠ other → t.root.at? inside = t'.root.at? inside ∨
      t.root.HasDirectory inside ∧ t'.root.HasDirectory inside) :
    t.AgreesBelow t' place := by
  obtain ⟨bytes, hAt⟩ := hFile
  obtain ⟨bytes', hAt'⟩ := hFile'
  refine ⟨hHere, ⟨fun inside => ?_, fun inside => ?_, fun inside target => ?_⟩,
    fun inside bytes hInside => ?_⟩
  all_goals
    by_cases hOther : inside = other
    on_goal 2 => rcases hSame inside hOther with hEqual | ⟨⟨_, hChildren⟩, ⟨_, hChildren'⟩⟩
  · simp [hOther, Entry.HasDirectory, hAt, hAt']
  · simp only [Entry.HasDirectory, hEqual]
  · simp [Entry.HasDirectory, hChildren, hChildren']
  · simp [hOther, Entry.HasFile, hAt, hAt']
  · simp only [Entry.HasFile, hEqual]
  · simp [Entry.HasFile, hChildren, hChildren']
  · simp [hOther, hAt, hAt']
  · rw [hEqual]
  · simp [hChildren, hChildren']
  · exact absurd (hOther ▸ hInside) hOutside
  · rw [hEqual]
    exact id
  · simp [hChildren]

theorem AgreesBelow.canonicalizeFrom_eq (h : t.AgreesBelow t' place) (base : Place) (path : String) :
    t'.canonicalizeFrom base path = t.canonicalizeFrom base path := by
  unfold canonicalizeFrom
  rw [Entry.follow_eq_of_sameLayout h.layout]

theorem AgreesBelow.readAt_eq (h : t.AgreesBelow t' place) {inside : Place}
    (hInside : place <+: inside) (hStands : t.root.Stands inside) :
    t'.readAt inside = t.readAt inside := by
  rcases readAt_of_stands hStands with ⟨bytes, hAt, hRead⟩ | ⟨hDirectory, hRead⟩
  · rw [hRead, readAt, h.bytes inside bytes hInside hAt]
    rfl
  · obtain ⟨children, hAt⟩ := (h.layout.directories inside).mp hDirectory
    rw [hRead, readAt, hAt]
    rfl

end FileTree

namespace Directory

variable {t t' : FileTree} {d : Directory} {path name : String}

-- ---------------------------------------------------------------------------
-- Names that are refused unseen
-- ---------------------------------------------------------------------------

/-- The name is looked up at all: it passes the check of names, and it is relative. -/
structure Askable (name : String) : Prop where
  passes   : TemplateName.check name = .ok ()
  relative : ¬ Path.isAbsolute name = true

/-- **A name that cannot be asked for** is refused before the disk is asked anything. -/
theorem content_of_not_askable (hName : ¬ Askable name) :
    ∃ reason, ∀ {m : Type → Type} [Monad m] (disk : Disk m),
      d.content disk name = pure (.error (.validation reason)) := by
  by_cases hCheck : TemplateName.check name = .ok ()
  · have hAbsolute : Path.isAbsolute name = true := by
      by_contra hRelative
      exact hName ⟨hCheck, hRelative⟩
    refine ⟨.absoluteName name, fun disk => ?_⟩
    simp only [content, hCheck, hAbsolute, if_true]
  · cases hRefused : TemplateName.check name with
    | ok u => exact absurd hRefused hCheck
    | error e =>
      obtain ⟨reason, rfl⟩ := TemplateName.check_eq_error hRefused
      refine ⟨reason, fun disk => ?_⟩
      simp only [content, hRefused]

-- ---------------------------------------------------------------------------
-- Names that are looked up
-- ---------------------------------------------------------------------------

theorem Askable.ne_empty (hName : Askable name) : name ≠ "" := by
  rintro rfl
  exact (TemplateName.check_eq_ok_iff.mp hName.passes).notBlank (by decide)

theorem content_of_askable (hName : Askable name) :
    d.content t.disk name =
      match t.canonicalizeFrom d.root name with
      | .error fault => .error (faultFor name fault)
      | .ok place =>
        if !d.root.isPrefixOf place then .error (.validation (.outsideRoot name))
        else
          match t.readAt place with
          | .error fault => .error (faultFor name fault)
          | .ok bytes => (textOfBytes bytes).mapError Error.file := by
  simp only [content, hName.passes, if_neg hName.relative]
  rfl

theorem content_of_fault (hName : Askable name) {fault : FileFault}
    (hPath : t.canonicalizeFrom d.root name = .error fault) :
    d.content t.disk name = .error (faultFor name fault) := by
  rw [content_of_askable hName, hPath]

theorem content_outside (hName : Askable name) {place : Place}
    (hPath : t.canonicalizeFrom d.root name = .ok place) (hOutside : ¬ d.root <+: place) :
    d.content t.disk name = .error (.validation (.outsideRoot name)) := by
  rw [content_of_askable hName, hPath]
  simp [List.isPrefixOf_iff_prefix, hOutside]

theorem content_inside (hName : Askable name) {place : Place}
    (hPath : t.canonicalizeFrom d.root name = .ok place) (hInside : d.root <+: place) :
    d.content t.disk name =
      match t.readAt place with
      | .error fault => .error (faultFor name fault)
      | .ok bytes => (textOfBytes bytes).mapError Error.file := by
  have hPrefix : d.root.isPrefixOf place = true := List.isPrefixOf_iff_prefix.mpr hInside
  rw [content_of_askable hName, hPath]
  simp only [hPrefix, Bool.not_true, Bool.false_eq_true, if_false]

/-- A file is given out as the text that its bytes are; a directory cannot be. -/
theorem content_of_file (hName : Askable name) {place : Place}
    (hPath : t.canonicalizeFrom d.root name = .ok place) (hInside : d.root <+: place)
    {bytes : ByteArray} (hAt : t.root.at? place = some (.file bytes)) :
    d.content t.disk name = (textOfBytes bytes).mapError Error.file := by
  have hRead : t.readAt place = .ok bytes := by
    rw [FileTree.readAt, hAt]
    rfl
  rw [content_inside hName hPath hInside, hRead]

/-- What a template directory can answer, and when. -/
inductive Replies (t : FileTree) (d : Directory) (name : String) : Except Error String → Prop
  | refused (notAskable : ¬ Askable name) (reason : Refusal) :
      Replies t d name (.error (.validation reason))
  | missing (askable : Askable name) (leads : t.canonicalizeFrom d.root name = .error .notFound) :
      Replies t d name (.error (.notFound name))
  | faulty (askable : Askable name) {fault : FileFault} (other : fault ≠ .notFound)
      (leads : t.canonicalizeFrom d.root name = .error fault) :
      Replies t d name (.error (.file fault))
  | outside (askable : Askable name) {place : Place}
      (leads : t.canonicalizeFrom d.root name = .ok place) (outside : ¬ d.root <+: place) :
      Replies t d name (.error (.validation (.outsideRoot name)))
  | directory (askable : Askable name) {place : Place}
      (leads : t.canonicalizeFrom d.root name = .ok place) (inside : d.root <+: place)
      (there : t.root.HasDirectory place) : Replies t d name (.error (.file .isADirectory))
  | damaged (askable : Askable name) {place : Place}
      (leads : t.canonicalizeFrom d.root name = .ok place) (inside : d.root <+: place)
      {bytes : ByteArray} (there : t.root.at? place = some (.file bytes))
      (notText : ∀ text : String, bytes ≠ text.toUTF8) : Replies t d name (.error (.file .notText))
  | text (askable : Askable name) {place : Place}
      (leads : t.canonicalizeFrom d.root name = .ok place) (inside : d.root <+: place)
      {text : String} (there : t.root.at? place = some (.file text.toUTF8)) :
      Replies t d name (.ok text)

theorem replies_content (t : FileTree) (d : Directory) (name : String) :
    Replies t d name (d.content t.disk name) := by
  by_cases hName : Askable name
  · cases hPath : t.canonicalizeFrom d.root name with
    | error fault =>
      rw [content_of_fault hName hPath]
      cases fault with
      | notFound => exact .missing hName hPath
      | _ => exact .faulty hName (fun hSame => by cases hSame) hPath
    | ok place =>
      by_cases hInside : d.root <+: place
      · obtain ⟨-, hStands⟩ := FileTree.stands_of_canonicalizeFrom hPath
        rcases FileTree.readAt_of_stands hStands with ⟨bytes, hAt, -⟩ | ⟨hDirectory, hRead⟩
        · rw [content_of_file hName hPath hInside hAt]
          rcases textOfBytes_cases bytes with ⟨text, rfl, hText⟩ | ⟨hDamage, hText⟩
          · rw [hText]
            exact .text hName hPath hInside hAt
          · rw [hText]
            exact .damaged hName hPath hInside hAt hDamage
        · rw [content_inside hName hPath hInside, hRead]
          exact .directory hName hPath hInside hDirectory
      · rw [content_outside hName hPath hInside]
        exact .outside hName hPath hInside
  · obtain ⟨reason, hRefused⟩ := content_of_not_askable hName
    rw [hRefused t.disk]
    exact .refused hName reason

theorem content_eq_ok_iff {text : String} :
    d.content t.disk name = .ok text ↔
      Askable name ∧ ∃ place, t.canonicalizeFrom d.root name = .ok place ∧ d.root <+: place ∧
        t.root.at? place = some (.file text.toUTF8) := by
  constructor
  · intro hContent
    have hReply := replies_content t d name
    rw [hContent] at hReply
    cases hReply with
    | text askable leads inside there => exact ⟨askable, _, leads, inside, there⟩
  · rintro ⟨hName, place, hPath, hInside, hAt⟩
    rw [content_of_file hName hPath hInside hAt, textOfBytes_eq_ok_iff.mpr rfl]
    rfl

theorem content_eq_validation_iff :
    (∃ reason, d.content t.disk name = .error (.validation reason)) ↔
      ¬ Askable name ∨
        ∃ place, t.canonicalizeFrom d.root name = .ok place ∧ ¬ d.root <+: place := by
  constructor
  · rintro ⟨reason, hContent⟩
    have hReply := replies_content t d name
    rw [hContent] at hReply
    cases hReply with
    | refused notAskable => exact .inl notAskable
    | outside askable leads outside => exact .inr ⟨_, leads, outside⟩
  · intro hRefused
    by_cases hName : Askable name
    · obtain ⟨place, hPath, hOutside⟩ := hRefused.resolve_left (not_not.mpr hName)
      exact ⟨_, content_outside hName hPath hOutside⟩
    · obtain ⟨reason, hUnseen⟩ := content_of_not_askable hName
      exact ⟨reason, hUnseen t.disk⟩

theorem content_eq_notFound_iff {other : String} :
    d.content t.disk name = .error (.notFound other) ↔
      other = name ∧ Askable name ∧ t.canonicalizeFrom d.root name = .error .notFound := by
  constructor
  · intro hContent
    have hReply := replies_content t d name
    rw [hContent] at hReply
    cases hReply with
    | missing askable leads => exact ⟨rfl, askable, leads⟩
  · rintro ⟨rfl, hName, hPath⟩
    exact content_of_fault hName hPath

/-- No other error comes of a name. -/
theorem content_eq_error {e : Error} (hContent : d.content t.disk name = .error e) :
    (∃ reason, e = .validation reason) ∨ e = .notFound name ∨ ∃ fault, e = .file fault := by
  have hReply := replies_content t d name
  rw [hContent] at hReply
  cases hReply with
  | refused _ reason => exact .inl ⟨reason, rfl⟩
  | outside => exact .inl ⟨_, rfl⟩
  | missing => exact .inr (.inl rfl)
  | faulty => exact .inr (.inr ⟨_, rfl⟩)
  | directory => exact .inr (.inr ⟨_, rfl⟩)
  | damaged => exact .inr (.inr ⟨_, rfl⟩)

/-- Trees that agree below the root answer alike. -/
theorem content_eq_of_agreesBelow (h : t.AgreesBelow t' d.root) (name : String) :
    d.content t'.disk name = d.content t.disk name := by
  by_cases hName : Askable name
  · have hSame := h.canonicalizeFrom_eq d.root name
    cases hPath : t.canonicalizeFrom d.root name with
    | error fault =>
      rw [hPath] at hSame
      rw [content_of_fault hName hPath, content_of_fault hName hSame]
    | ok place =>
      rw [hPath] at hSame
      by_cases hInside : d.root <+: place
      · obtain ⟨-, hStands⟩ := FileTree.stands_of_canonicalizeFrom hPath
        rw [content_inside hName hPath hInside, content_inside hName hSame hInside,
          h.readAt_eq hInside hStands]
      · rw [content_outside hName hPath hInside, content_outside hName hSame hInside]
  · obtain ⟨reason, hRefused⟩ := content_of_not_askable (d := d) hName
    exact (hRefused t'.disk).trans (hRefused t.disk).symm

-- ---------------------------------------------------------------------------
-- The directory as a whole
-- ---------------------------------------------------------------------------

theorem openAt_eq_ok_iff : openAt t.disk path = .ok d ↔ t.canonicalize path = .ok d.root := by
  obtain ⟨root⟩ := d
  unfold openAt
  show (match t.canonicalize path with
    | .error fault => .error (.file fault)
    | .ok place => .ok ⟨place⟩ : Except Error Directory) = .ok ⟨root⟩ ↔ _
  cases t.canonicalize path <;> simp

/-- What is asked for below the root is asked for at the path of the root with the name behind it. -/
theorem canonicalize_join_root (hNamed : t.root.WellNamed) (hOpen : openAt t.disk path = .ok d)
    (hName : Askable name) :
    t.canonicalize (Path.join d.root name) = t.canonicalizeFrom d.root name := by
  obtain ⟨hTop, hStands⟩ := FileTree.stands_of_canonicalizeFrom (openAt_eq_ok_iff.mp hOpen)
  exact FileTree.canonicalize_join hNamed hTop hStands hName.ne_empty

/--
**A template directory is confined to its root.** Take any file tree, with whatever links in it, and
a template directory opened in it. A name is answered with a text exactly if it passes the check of
names, is relative, and leads, from the root on, to the place of a file that has the UTF-8 of that
text and lies at or below the root, name by name. It is invalid exactly if it cannot be asked for,
and then it is in any tree, or if it leads to something outside the root. It is not found exactly if
it can be asked for and a directory on its way lacks the next name. Everything else is a fault of
the file system: a way that goes on below a file, a cycle of links, a directory in place of a file,
bytes that are no text. So a tree that differs in the bytes of files outside the root at most has
the same template directory, which answers alike for every name.
-/
theorem content_is_confined (hNamed : t.root.WellNamed) (hOpen : openAt t.disk path = .ok d) :
    (∀ name text, d.content t.disk name = .ok text ↔
      Askable name ∧ ∃ place, t.canonicalize (Path.join d.root name) = .ok place ∧
        d.root <+: place ∧ t.root.at? place = some (.file text.toUTF8)) ∧
    (∀ name, (∃ reason, d.content t.disk name = .error (.validation reason)) ↔
      ¬ Askable name ∨
        ∃ place, t.canonicalize (Path.join d.root name) = .ok place ∧ ¬ d.root <+: place) ∧
    (∀ name, ¬ Askable name → ∃ reason, ∀ t' : FileTree,
      d.content t'.disk name = .error (.validation reason)) ∧
    (∀ name other, d.content t.disk name = .error (.notFound other) ↔
      other = name ∧ Askable name ∧ t.Missing (Path.join d.root name)) ∧
    (∀ name e, d.content t.disk name = .error e →
      (∃ reason, e = .validation reason) ∨ e = .notFound name ∨ ∃ fault, e = .file fault) ∧
    ∀ t' : FileTree, t.AgreesBelow t' d.root →
      openAt t'.disk path = .ok d ∧ ∀ name, d.content t'.disk name = d.content t.disk name := by
  have hJoin : ∀ name, Askable name →
      t.canonicalize (Path.join d.root name) = t.canonicalizeFrom d.root name :=
    fun name hName => canonicalize_join_root hNamed hOpen hName
  refine ⟨fun name text => ?_, fun name => ?_, fun name hName => ?_, fun name other => ?_,
    fun name e => content_eq_error, fun t' hAgrees => ?_⟩
  · rw [content_eq_ok_iff]
    refine and_congr_right fun hName => ?_
    rw [hJoin name hName]
  · rw [content_eq_validation_iff]
    by_cases hName : Askable name
    · rw [hJoin name hName]
    · simp only [hName, not_false_iff, true_or]
  · obtain ⟨reason, hRefused⟩ := content_of_not_askable (d := d) hName
    exact ⟨reason, fun t' => hRefused t'.disk⟩
  · rw [content_eq_notFound_iff]
    refine and_congr_right fun _ => and_congr_right fun hName => ?_
    have hPath : Path.join d.root name ≠ "" := by
      rw [Ne, ← String.toList_eq_nil_iff, Path.toList_join]
      exact List.cons_ne_nil _ _
    rw [← hJoin name hName, FileTree.canonicalize_eq_notFound_iff hPath]
  · refine ⟨?_, content_eq_of_agreesBelow hAgrees⟩
    have hBase : t'.base path = t.base path := by rw [FileTree.base, FileTree.base, hAgrees.here]
    rw [openAt_eq_ok_iff] at hOpen ⊢
    rw [← hOpen, FileTree.canonicalize, FileTree.canonicalize, hBase]
    exact hAgrees.canonicalizeFrom_eq _ path

/-- The theorem at a root beside a file with a like name, and links that lead there and to nothing. -/
theorem content_is_confined_beside_like_name :
    let tree (secret : String) : FileTree :=
      { root := .directory [
          ("site", .directory [("a", .file "A".toUTF8), ("out", .link "../site-old"),
            ("gone", .link "b")]),
          ("site-old", .file secret.toUTF8)] }
    let d : Directory := ⟨["site"]⟩
    (tree "S").root.WellNamed ∧ openAt (tree "S").disk "/site" = .ok d ∧
    d.content (tree "S").disk "./a" = .ok "A" ∧
    (∃ reason, d.content (tree "S").disk "out" = .error (.validation reason)) ∧
    d.content (tree "S").disk "gone" = .error (.notFound "gone") ∧
    ∀ name, d.content (tree "T").disk name = d.content (tree "S").disk name := by
  intro tree d
  have hNamed : (tree "S").root.WellNamed := by
    refine Entry.wellNamed_directory (List.forall_mem_cons.mpr ⟨⟨by decide, ?_⟩,
      List.forall_mem_singleton.mpr ⟨by decide, ?_⟩⟩)
    · refine Entry.wellNamed_directory (List.forall_mem_cons.mpr ⟨⟨by decide, ?_⟩,
        List.forall_mem_cons.mpr ⟨⟨by decide, ?_⟩, List.forall_mem_singleton.mpr ⟨by decide, ?_⟩⟩⟩)
      · exact Entry.wellNamed_file _
      · exact Entry.wellNamed_link _
      · exact Entry.wellNamed_link _
    · exact Entry.wellNamed_file _
  have hSite : Path.parts "/site" = ["", "site"] := by decide
  have hUp : Path.parts "../site-old" = ["..", "site-old"] := by decide
  have hNames : Path.parts "./a" = [".", "a"] ∧ Path.parts "out" = ["out"] ∧
      Path.parts "gone" = ["gone"] ∧ Path.parts "b" = ["b"] := by decide
  have hOpen : openAt (tree "S").disk "/site" = .ok d := by
    rw [openAt_eq_ok_iff]
    simp +decide [tree, d, FileTree.canonicalize, FileTree.base, FileTree.canonicalizeFrom,
      Entry.follow, Entry.at?, Entry.children?, List.lookup, Path.mostLinks, hSite]
  have hWays : (tree "S").canonicalizeFrom d.root "./a" = .ok ["site", "a"] ∧
      (tree "S").canonicalizeFrom d.root "out" = .ok ["site-old"] ∧
      (tree "S").canonicalizeFrom d.root "gone" = .error .notFound := by
    simp +decide [tree, d, FileTree.canonicalizeFrom, Entry.follow, Entry.at?, Entry.children?,
      List.lookup, Path.mostLinks, hNames, hUp]
  have hAskable : Askable "./a" ∧ Askable "out" ∧ Askable "gone" :=
    ⟨⟨rfl, by decide⟩, ⟨rfl, by decide⟩, ⟨rfl, by decide⟩⟩
  obtain ⟨hText, hInvalid, -, hMissing, -, hAgrees⟩ := content_is_confined hNamed hOpen
  refine ⟨hNamed, hOpen, ?_, ?_, ?_, ?_⟩
  · refine (hText "./a" "A").mpr ⟨hAskable.1, ["site", "a"], ?_, by decide, rfl⟩
    rw [canonicalize_join_root hNamed hOpen hAskable.1, hWays.1]
  · refine (hInvalid "out").mpr (.inr ⟨["site-old"], ?_, by decide⟩)
    rw [canonicalize_join_root hNamed hOpen hAskable.2.1, hWays.2.1]
  · refine (hMissing "gone" "gone").mpr ⟨rfl, hAskable.2.2, ?_⟩
    rw [← FileTree.canonicalize_eq_notFound_iff (by decide),
      canonicalize_join_root hNamed hOpen hAskable.2.2, hWays.2.2]
  · have hOutside : ¬ d.root <+: ["site-old"] := by decide
    refine (hAgrees (tree "T") (FileTree.agreesBelow_of_file rfl hOutside ⟨_, rfl⟩ ⟨_, rfl⟩ ?_)).2
    rintro (_ | ⟨name, names⟩) hOther
    · exact .inr ⟨⟨_, rfl⟩, ⟨_, rfl⟩⟩
    left
    by_cases hName : name = "site-old"
    · subst hName
      -- below the file that differs there is nothing
      obtain ⟨next, names, rfl⟩ : ∃ next rest, names = next :: rest :=
        List.exists_cons_of_ne_nil fun hNil => hOther (hNil ▸ rfl)
      rfl
    · simp only [tree, Entry.at?, List.lookup, beq_eq_false_iff_ne.mpr hName]

end Directory

end Stencil
