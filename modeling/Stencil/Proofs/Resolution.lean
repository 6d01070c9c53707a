import Mathlib.Logic.Relation
import Stencil.Files.Tree

/-!
# Stencil — where a path leads

A path is followed one part at a time, and links put new parts in front of those that are left, so
the way that a path takes can be much longer than the path. This module takes the way apart into
steps, and tells from its last step what came of the path.

* `Entry.Step`, `Entry.Halts` — one step on the way through a tree, and where the way ends. What
  comes of a path is what its way ends with (`walk_eq_iff`).
* `Entry.Stands` — something is there, and it is no link. Every place that a path leads to is such
  a place (`stands_of_follow`).
* `Entry.SameLayout` — two trees that differ in the bytes of their files at most. Paths lead to the
  same places in both (`follow_eq_of_sameLayout`).
* `Path.join` — the path of a place with more behind it. It leads where what is behind leads from
  the place (`FileTree.canonicalize_join`).
* `FileTree.Missing` — nothing is found at a path, since a directory on the way lacks the next name
  (`FileTree.canonicalize_eq_notFound_iff`).
-/

namespace Stencil

open Relation Text

-- ---------------------------------------------------------------------------
-- Names
-- ---------------------------------------------------------------------------

namespace Path

/-- A part that leads down, to the entry of that name. -/
structure Descends (part : String) : Prop where
  notHere : ¬ isHere part = true
  notUp   : ¬ isUp part = true
  short   : part.utf8ByteSize ≤ longestName

/-- A name that an entry of a directory may have. -/
structure IsFileName (name : String) : Prop extends Descends name where
  noSlash : '/' ∉ name.toList
  noNul   : '\x00' ∉ name.toList

instance (part : String) : Decidable (Descends part) :=
  decidable_of_iff
    (¬ isHere part = true ∧ ¬ isUp part = true ∧ part.utf8ByteSize ≤ longestName)
    ⟨fun ⟨h₁, h₂, h₃⟩ => ⟨h₁, h₂, h₃⟩, fun ⟨h₁, h₂, h₃⟩ => ⟨h₁, h₂, h₃⟩⟩

instance (name : String) : Decidable (IsFileName name) :=
  decidable_of_iff (Descends name ∧ '/' ∉ name.toList ∧ '\x00' ∉ name.toList)
    ⟨fun ⟨h₁, h₂, h₃⟩ => ⟨h₁, h₂, h₃⟩, fun ⟨h₁, h₂, h₃⟩ => ⟨h₁, h₂, h₃⟩⟩

end Path

namespace Entry

-- ---------------------------------------------------------------------------
-- What is at a place
-- ---------------------------------------------------------------------------

/-- There is a directory at the place. -/
def HasDirectory (root : Entry) (place : Place) : Prop :=
  ∃ children, root.at? place = some (.directory children)

/-- There is a file at the place. -/
def HasFile (root : Entry) (place : Place) : Prop :=
  ∃ bytes, root.at? place = some (.file bytes)

/-- There is something at the place that is not a link. -/
def Stands (root : Entry) (place : Place) : Prop :=
  ∃ e, root.at? place = some e ∧ ∀ target, e ≠ .link target

/-- Every place in the tree has names that entries may have. -/
def WellNamed (root : Entry) : Prop :=
  ∀ place e, root.at? place = some e → ∀ name ∈ place, Path.IsFileName name

/-- How far a path has been followed: the links that may still be followed, the place that has been
reached, and the parts that are left. -/
structure Walk where
  links : Nat
  here  : Place
  parts : List String

/-- One step on the way through a tree. -/
inductive Step (root : Entry) : Walk → Walk → Prop
  | stay {links here part parts} (there : root.HasDirectory here)
      (stays : Path.isHere part = true) : Step root ⟨links, here, part :: parts⟩ ⟨links, here, parts⟩
  | up {links here part parts} (there : root.HasDirectory here)
      (moves : ¬ Path.isHere part = true) (goesUp : Path.isUp part = true) :
      Step root ⟨links, here, part :: parts⟩ ⟨links, here.dropLast, parts⟩
  | down {links here part parts} (descends : Path.Descends part)
      (stands : root.Stands (here ++ [part])) :
      Step root ⟨links, here, part :: parts⟩ ⟨links, here ++ [part], parts⟩
  | link {links here part parts target} (descends : Path.Descends part)
      (leads : root.at? (here ++ [part]) = some (.link target)) :
      Step root ⟨links + 1, here, part :: parts⟩
        ⟨links, if Path.isAbsolute target then [] else here, Path.parts target ++ parts⟩

/-- There is a directory at `here`, and it has no entry of that name. -/
structure Lacks (root : Entry) (here : Place) (part : String) : Prop where
  there    : root.HasDirectory here
  descends : Path.Descends part
  absent   : root.at? (here ++ [part]) = none

/-- A walk goes no further, and what has come of it. -/
inductive Halts (root : Entry) : Walk → Except FileFault Place → Prop
  | done {links here} : Halts root ⟨links, here, []⟩ (.ok here)
  | nowhere {links here part parts} (notThere : ¬ root.HasDirectory here) :
      Halts root ⟨links, here, part :: parts⟩ (.error .notADirectory)
  | long {links here part parts} (there : root.HasDirectory here)
      (moves : ¬ Path.isHere part = true) (notUp : ¬ Path.isUp part = true)
      (long : Path.longestName < part.utf8ByteSize) :
      Halts root ⟨links, here, part :: parts⟩ (.error .nameTooLong)
  | lacks {links here part parts} (lacks : root.Lacks here part) :
      Halts root ⟨links, here, part :: parts⟩ (.error .notFound)
  | tired {here part parts target} (descends : Path.Descends part)
      (leads : root.at? (here ++ [part]) = some (.link target)) :
      Halts root ⟨0, here, part :: parts⟩ (.error .tooManyLinks)

/-- The place that a walk comes to. -/
def walk (root : Entry) (w : Walk) : Except FileFault Place := root.follow w.links w.here w.parts

variable {root root' : Entry} {here place : Place} {part : String} {parts : List String}
  {links : Nat}

theorem stands_iff : root.Stands place ↔ root.HasDirectory place ∨ root.HasFile place := by
  unfold Stands HasDirectory HasFile
  rcases root.at? place with _ | _ | _ | _ <;> simp

theorem at?_eq_none_iff :
    root.at? place = none ↔
      ¬ root.Stands place ∧ ∀ target, root.at? place ≠ some (.link target) := by
  unfold Stands
  rcases root.at? place with _ | _ | _ | _ <;> simp

theorem HasDirectory.stands (h : root.HasDirectory place) : root.Stands place :=
  stands_iff.mpr (.inl h)

theorem children?_at?_eq_some_iff {children : List (String × Entry)} :
    (root.at? here).bind children? = some children ↔ root.at? here = some (.directory children) := by
  cases root.at? here with
  | none => simp
  | some e => cases e <;> simp [children?]

theorem children?_at?_eq_none_iff :
    (root.at? here).bind children? = none ↔ ¬ root.HasDirectory here := by
  simp only [HasDirectory, ← children?_at?_eq_some_iff, Option.eq_none_iff_forall_ne_some,
    not_exists, ne_eq]

theorem at?_append (e : Entry) (front rest : Place) :
    e.at? (front ++ rest) = (e.at? front).bind (·.at? rest) := by
  induction front generalizing e with
  | nil => rfl
  | cons name names ih =>
    cases e with
    | file bytes => rfl
    | link target => rfl
    | directory children =>
      show (children.lookup name).bind (·.at? (names ++ rest)) =
        ((children.lookup name).bind (·.at? names)).bind (·.at? rest)
      cases children.lookup name with
      | none => rfl
      | some child => exact ih child

theorem wellNamed_file (bytes : ByteArray) : (file bytes).WellNamed := by
  rintro (_ | ⟨name, names⟩) e hAt
  · exact List.forall_mem_nil _
  · cases hAt

theorem wellNamed_link (target : String) : (link target).WellNamed := by
  rintro (_ | ⟨name, names⟩) e hAt
  · exact List.forall_mem_nil _
  · cases hAt

theorem wellNamed_directory {children : List (String × Entry)}
    (hChildren : ∀ c ∈ children, Path.IsFileName c.1 ∧ c.2.WellNamed) :
    (directory children).WellNamed := by
  rintro (_ | ⟨name, names⟩) e hAt
  · exact List.forall_mem_nil _
  · obtain ⟨child, hLookup, hBelow⟩ := Option.bind_eq_some_iff.mp hAt
    obtain ⟨before, after, rfl, -⟩ := List.lookup_eq_some_iff.mp hLookup
    obtain ⟨hName, hNamed⟩ := hChildren (name, child) (by simp)
    exact List.forall_mem_cons.mpr ⟨hName, hNamed names e hBelow⟩

/-- What is in a directory is what its names lead to. -/
theorem at?_concat {children : List (String × Entry)}
    (hHere : root.at? here = some (.directory children)) (name : String) :
    root.at? (here ++ [name]) = children.lookup name := by
  rw [at?_append, hHere]
  show (children.lookup name).bind (·.at? []) = _
  cases children.lookup name <;> rfl

/-- What is above something is a directory. -/
theorem hasDirectory_of_append {rest : Place} {e : Entry} (hRest : rest ≠ [])
    (hAt : root.at? (place ++ rest) = some e) : root.HasDirectory place := by
  obtain ⟨name, names, rfl⟩ := List.exists_cons_of_ne_nil hRest
  rw [at?_append] at hAt
  cases hPlace : root.at? place with
  | none => simp [hPlace] at hAt
  | some above =>
    cases above with
    | directory children => exact ⟨children, hPlace⟩
    | file bytes => simp [hPlace, at?] at hAt
    | link target => simp [hPlace, at?] at hAt

theorem HasDirectory.above {rest : Place} (h : root.HasDirectory (place ++ rest)) :
    root.HasDirectory place := by
  by_cases hRest : rest = []
  · rwa [hRest, List.append_nil] at h
  · obtain ⟨children, hAt⟩ := h
    exact hasDirectory_of_append hRest hAt

theorem HasDirectory.top (h : root.HasDirectory place) : root.HasDirectory [] := by
  rw [← List.nil_append place] at h
  exact h.above

theorem HasDirectory.dropLast (h : root.HasDirectory place) : root.HasDirectory place.dropLast := by
  obtain ⟨rest, hRest⟩ := List.dropLast_prefix place
  rw [← hRest] at h
  exact h.above

-- ---------------------------------------------------------------------------
-- Steps
-- ---------------------------------------------------------------------------

theorem Step.hasDirectory {w w' : Walk} (h : root.Step w w') : root.HasDirectory w.here := by
  cases h with
  | stay there => exact there
  | up there => exact there
  | down descends stands =>
    obtain ⟨e, hAt, -⟩ := stands
    exact hasDirectory_of_append (List.cons_ne_nil _ _) hAt
  | link descends leads => exact hasDirectory_of_append (List.cons_ne_nil _ _) leads

theorem Step.stands {w w' : Walk} (h : root.Step w w') : root.Stands w'.here := by
  have hThere := h.hasDirectory
  cases h with
  | stay => exact hThere.stands
  | up => exact hThere.dropLast.stands
  | down descends stands => exact stands
  | link descends leads =>
    -- a link leads on from the directory that it is in, or from the root
    dsimp only
    split
    · exact hThere.top.stands
    · exact hThere.stands

/-- Following goes on where a step has led. -/
theorem Step.walk_eq {w w' : Walk} (h : root.Step w w') : root.walk w = root.walk w' := by
  obtain ⟨children, hThere⟩ := h.hasDirectory
  have hChildren := children?_at?_eq_some_iff.mpr hThere
  have hLookup := at?_concat hThere
  cases h with
  | stay _ stays =>
    unfold walk
    rw [follow]
    simp only [hChildren, if_pos stays]
  | up _ moves goesUp =>
    unfold walk
    rw [follow]
    simp only [hChildren, if_neg moves, if_pos goesUp]
  | @down links here part parts descends stands =>
    obtain ⟨e, hAt, hNoLink⟩ := stands
    unfold walk
    rw [follow]
    simp only [hChildren, if_neg descends.notHere, if_neg descends.notUp,
      if_neg (Nat.not_lt.mpr descends.short), ← hLookup part, hAt]
  | @link links here part parts target descends leads =>
    unfold walk
    rw [follow]
    simp only [hChildren, if_neg descends.notHere, if_neg descends.notUp,
      if_neg (Nat.not_lt.mpr descends.short), ← hLookup part, leads]

theorem walk_eq_of_steps {w w' : Walk} (h : ReflTransGen root.Step w w') :
    root.walk w = root.walk w' := by
  induction h with
  | refl => rfl
  | tail _ hStep ih => exact ih.trans hStep.walk_eq

theorem Halts.walk_eq {w : Walk} {r : Except FileFault Place} (h : root.Halts w r) :
    root.walk w = r := by
  cases h with
  | done => rw [walk, follow]
  | nowhere notThere =>
    unfold walk
    rw [follow, children?_at?_eq_none_iff.mpr notThere]
  | long there moves notUp long =>
    obtain ⟨children, hThere⟩ := there
    unfold walk
    rw [follow]
    simp only [children?_at?_eq_some_iff.mpr hThere, if_neg moves, if_neg notUp, if_pos long]
  | @lacks links here part parts lacks =>
    obtain ⟨⟨children, hThere⟩, descends, absent⟩ := lacks
    unfold walk
    rw [follow]
    simp only [children?_at?_eq_some_iff.mpr hThere, if_neg descends.notHere,
      if_neg descends.notUp, if_neg (Nat.not_lt.mpr descends.short), ← at?_concat hThere part, absent]
  | @tired here part parts target descends leads =>
    obtain ⟨children, hThere⟩ := hasDirectory_of_append (List.cons_ne_nil _ _) leads
    unfold walk
    rw [follow]
    simp only [children?_at?_eq_some_iff.mpr hThere, if_neg descends.notHere,
      if_neg descends.notUp, if_neg (Nat.not_lt.mpr descends.short), ← at?_concat hThere part, leads]

/-- Every walk halts. -/
theorem exists_halts (root : Entry) (w : Walk) :
    ∃ last r, ReflTransGen root.Step w last ∧ root.Halts last r := by
  obtain ⟨links, here, parts⟩ := w
  -- along the recursion of `follow`: it calls itself after each step and returns where it halts
  induction links, here, parts using follow.induct root with
  | case1 links here => exact ⟨_, _, .refl, .done⟩
  | case2 links here part parts hNone =>
    exact ⟨_, _, .refl, .nowhere (children?_at?_eq_none_iff.mp hNone)⟩
  | case3 links here part parts children hSome hHere ih =>
    obtain ⟨last, r, hSteps, hHalts⟩ := ih
    have hThere := children?_at?_eq_some_iff.mp hSome
    exact ⟨last, r, .head (.stay ⟨children, hThere⟩ hHere) hSteps, hHalts⟩
  | case4 links here part parts children hSome hHere hUp ih =>
    obtain ⟨last, r, hSteps, hHalts⟩ := ih
    have hThere := children?_at?_eq_some_iff.mp hSome
    exact ⟨last, r, .head (.up ⟨children, hThere⟩ hHere hUp) hSteps, hHalts⟩
  | case5 links here part parts children hSome hHere hUp hLong =>
    have hThere := children?_at?_eq_some_iff.mp hSome
    exact ⟨_, _, .refl, .long ⟨children, hThere⟩ hHere hUp hLong⟩
  | case6 links here part parts children hSome hHere hUp hShort hLookup =>
    have hThere := children?_at?_eq_some_iff.mp hSome
    rw [← at?_concat hThere] at hLookup
    exact ⟨_, _, .refl,
      .lacks ⟨⟨children, hThere⟩, ⟨hHere, hUp, Nat.not_lt.mp hShort⟩, hLookup⟩⟩
  | case7 here part parts children hSome hHere hUp hShort target hLookup =>
    rw [← at?_concat (children?_at?_eq_some_iff.mp hSome)] at hLookup
    exact ⟨_, _, .refl, .tired ⟨hHere, hUp, Nat.not_lt.mp hShort⟩ hLookup⟩
  | case8 here part parts children hSome hHere hUp hShort target hLookup links ih =>
    obtain ⟨last, r, hSteps, hHalts⟩ := ih
    rw [← at?_concat (children?_at?_eq_some_iff.mp hSome)] at hLookup
    exact ⟨last, r, .head (.link ⟨hHere, hUp, Nat.not_lt.mp hShort⟩ hLookup) hSteps, hHalts⟩
  | case9 links here part parts children hSome hHere hUp hShort e hNoLink hLookup ih =>
    obtain ⟨last, r, hSteps, hHalts⟩ := ih
    rw [← at?_concat (children?_at?_eq_some_iff.mp hSome)] at hLookup
    exact ⟨last, r, .head (.down ⟨hHere, hUp, Nat.not_lt.mp hShort⟩ ⟨e, hLookup, hNoLink⟩) hSteps,
      hHalts⟩

/-- **What comes of a walk** is what it halts with. -/
theorem walk_eq_iff {w : Walk} {r : Except FileFault Place} :
    root.walk w = r ↔ ∃ last, ReflTransGen root.Step w last ∧ root.Halts last r := by
  constructor
  · rintro rfl
    obtain ⟨last, r, hSteps, hHalts⟩ := root.exists_halts w
    rw [walk_eq_of_steps hSteps, hHalts.walk_eq]
    exact ⟨last, hSteps, hHalts⟩
  · rintro ⟨last, hSteps, hHalts⟩
    rw [walk_eq_of_steps hSteps, hHalts.walk_eq]

/-- Where parts lead, there is something that is no link; and they need a directory to start from. -/
theorem stands_of_follow (hParts : parts ≠ []) (hFollow : root.follow links here parts = .ok place) :
    root.HasDirectory [] ∧ root.Stands place := by
  obtain ⟨last, hSteps, hHalts⟩ :=
    walk_eq_iff.mp (show root.walk ⟨links, here, parts⟩ = .ok place from hFollow)
  cases hHalts
  rcases ReflTransGen.cases_head hSteps with hSame | ⟨w, hFirst, -⟩
  · exact absurd (congrArg Walk.parts hSame) hParts
  refine ⟨hFirst.hasDirectory.top, ?_⟩
  rcases ReflTransGen.cases_tail hSteps with hSame | ⟨w', -, hLast⟩
  · exact absurd (congrArg Walk.parts hSame).symm hParts
  · exact hLast.stands

/-- The names of a place lead to it, whatever parts come after. -/
theorem follow_place (hNames : ∀ name ∈ place, Path.Descends name)
    (hStands : root.Stands (here ++ place)) :
    root.follow links here (place ++ parts) = root.follow links (here ++ place) parts := by
  induction place generalizing here with
  | nil => rw [List.nil_append, List.append_nil]
  | cons name names ih =>
    rw [List.append_cons] at hStands ⊢
    have hNext : root.Stands (here ++ [name]) := by
      by_cases hLast : names = []
      · rwa [hLast, List.append_nil] at hStands
      · obtain ⟨e, hAt, -⟩ := hStands
        exact (hasDirectory_of_append hLast hAt).stands
    have hStep : root.Step ⟨links, here, name :: (names ++ parts)⟩
        ⟨links, here ++ [name], names ++ parts⟩ := .down (hNames name List.mem_cons_self) hNext
    rw [List.cons_append]
    exact hStep.walk_eq.trans
      (ih (fun n hn => hNames n (List.mem_cons_of_mem _ hn)) hStands)

-- ---------------------------------------------------------------------------
-- Trees with the same layout
-- ---------------------------------------------------------------------------

/-- The trees have the same directories, links and files, by their places; the bytes of the files
may differ. -/
structure SameLayout (root root' : Entry) : Prop where
  directories : ∀ place, root.HasDirectory place ↔ root'.HasDirectory place
  files       : ∀ place, root.HasFile place ↔ root'.HasFile place
  links       : ∀ place target,
    root.at? place = some (.link target) ↔ root'.at? place = some (.link target)

theorem SameLayout.stands (h : root.SameLayout root') (hStands : root.Stands place) :
    root'.Stands place := by
  rw [stands_iff] at hStands ⊢
  exact hStands.imp (h.directories place).mp (h.files place).mp

theorem SameLayout.at?_eq_none (h : root.SameLayout root') (hNone : root.at? place = none) :
    root'.at? place = none := by
  rw [at?_eq_none_iff] at hNone ⊢
  obtain ⟨hStands, hLinks⟩ := hNone
  rw [stands_iff] at hStands ⊢
  rw [← h.directories place, ← h.files place]
  exact ⟨hStands, fun target hLink => hLinks target ((h.links place target).mpr hLink)⟩

theorem Step.of_sameLayout (h : root.SameLayout root') {w w' : Walk} (hStep : root.Step w w') :
    root'.Step w w' := by
  cases hStep with
  | stay there stays => exact .stay ((h.directories _).mp there) stays
  | up there moves goesUp => exact .up ((h.directories _).mp there) moves goesUp
  | down descends stands => exact .down descends (h.stands stands)
  | link descends leads => exact .link descends ((h.links _ _).mp leads)

theorem Halts.of_sameLayout (h : root.SameLayout root') {w : Walk} {r : Except FileFault Place}
    (hHalts : root.Halts w r) : root'.Halts w r := by
  cases hHalts with
  | done => exact .done
  | nowhere notThere => exact .nowhere (mt (h.directories _).mpr notThere)
  | long there moves notUp long => exact .long ((h.directories _).mp there) moves notUp long
  | lacks lacks =>
    exact .lacks ⟨(h.directories _).mp lacks.there, lacks.descends, h.at?_eq_none lacks.absent⟩
  | tired descends leads => exact .tired descends ((h.links _ _).mp leads)

/-- **Paths lead to the same places in trees with the same layout**, or to the same fault. -/
theorem follow_eq_of_sameLayout (h : root.SameLayout root') (links : Nat) (here : Place)
    (parts : List String) : root.follow links here parts = root'.follow links here parts := by
  obtain ⟨last, r, hSteps, hHalts⟩ := root.exists_halts ⟨links, here, parts⟩
  have hWalk : root.walk ⟨links, here, parts⟩ = r := walk_eq_iff.mpr ⟨last, hSteps, hHalts⟩
  have hSteps' : ReflTransGen root'.Step ⟨links, here, parts⟩ last :=
    hSteps.lift id fun _ _ hStep => hStep.of_sameLayout h
  have hWalk' : root'.walk ⟨links, here, parts⟩ = r :=
    walk_eq_iff.mpr ⟨last, hSteps', hHalts.of_sameLayout h⟩
  exact hWalk.trans hWalk'.symm

end Entry

-- ---------------------------------------------------------------------------
-- Paths below a place
-- ---------------------------------------------------------------------------

theorem segmentList_append_cons {p : Char → Bool} {c : Char} {cs : List Char}
    (hPlain : ∀ x ∈ cs, p x = false) (hCut : p c = true) (ds : List Char) :
    segmentList p (cs ++ c :: ds) = cs :: segmentList p ds := by
  induction cs with
  | nil => simp [segmentList, segments, hCut]
  | cons x xs ih =>
    obtain ⟨hx, hxs⟩ := List.forall_mem_cons.mp hPlain
    have hRest := ih hxs
    simp only [segmentList, List.cons.injEq] at hRest
    simp only [segmentList, List.cons_append, segments, hx, hRest]
    rfl

namespace Path

/-- The path of a place with more behind it. -/
def join (place : Place) (path : String) : String :=
  if place = [] then ofPlace place ++ path else ofPlace place ++ "/" ++ path

theorem toList_intercalate_slash {place : Place} (hPlace : place ≠ []) :
    ("/".intercalate place).toList ++ ['/'] = place.flatMap fun name => name.toList ++ ['/'] := by
  induction place with
  | nil => exact absurd rfl hPlace
  | cons name names ih =>
    cases names with
    | nil => simp
    | cons next names =>
      rw [String.intercalate_cons_cons, List.flatMap_cons, ← ih (List.cons_ne_nil _ _)]
      simp

theorem toList_join (place : Place) (path : String) :
    (join place path).toList =
      '/' :: ((place.flatMap fun name => name.toList ++ ['/']) ++ path.toList) := by
  unfold join
  split
  · next hRoot => simp [hRoot, ofPlace]
  · next hPlace => simp [← toList_intercalate_slash hPlace, ofPlace]

/-- The parts of a path below a place: an empty one for the root, the names of the place, and the
parts behind it. -/
theorem parts_join {place : Place} (hNames : ∀ name ∈ place, '/' ∉ name.toList) (path : String) :
    parts (join place path) = "" :: (place ++ parts path) := by
  have hSlash : ('/' == '/') = true := rfl
  have hCut : ∀ cs : List Char,
      segmentList (· == '/') ((place.flatMap fun name => name.toList ++ ['/']) ++ cs) =
        place.map String.toList ++ segmentList (· == '/') cs := by
    intro cs
    induction place with
    | nil => rfl
    | cons name names ih =>
      obtain ⟨hName, hRest⟩ := List.forall_mem_cons.mp hNames
      have hPlain : ∀ x ∈ name.toList, (x == '/') = false := by
        intro x hx
        refine beq_eq_false_iff_ne.mpr ?_
        rintro rfl
        exact hName hx
      rw [List.flatMap_cons, List.append_assoc, List.append_assoc, List.singleton_append,
        segmentList_append_cons hPlain hSlash, ih hRest]
      rfl
  have hRoot : ∀ cs : List Char,
      segmentList (· == '/') ([] ++ '/' :: cs) = [] :: segmentList (· == '/') cs :=
    segmentList_append_cons (by simp) hSlash
  unfold parts
  rw [toList_join, ← List.nil_append ('/' :: _), hRoot, hCut]
  simp [Function.comp_def]

theorem parts_ne_nil (path : String) : parts path ≠ [] := by
  simp [parts, segmentList]

end Path

namespace FileTree

variable {t : FileTree} {path : String} {place : Place}

/-- On the way along the path, a directory lacks the next name. -/
def Missing (t : FileTree) (path : String) : Prop :=
  '\x00' ∉ path.toList ∧ ∃ links here part parts,
    ReflTransGen t.root.Step ⟨Path.mostLinks, t.base path, Path.parts path⟩
      ⟨links, here, part :: parts⟩ ∧
    t.root.Lacks here part

/-- A path leads to something that is no link. -/
theorem stands_of_canonicalizeFrom {base : Place} (hPath : t.canonicalizeFrom base path = .ok place) :
    t.root.HasDirectory [] ∧ t.root.Stands place := by
  unfold canonicalizeFrom at hPath
  split at hPath
  · cases hPath
  · split at hPath
    · cases hPath
    · exact Entry.stands_of_follow (Path.parts_ne_nil path) hPath

/-- **A path that goes on from a place** leads where the rest of it leads from the place. -/
theorem canonicalize_join (hNamed : t.root.WellNamed) (hRoot : t.root.HasDirectory [])
    (hStands : t.root.Stands place) (hPath : path ≠ "") :
    t.canonicalize (Path.join place path) = t.canonicalizeFrom place path := by
  obtain ⟨e, hAt, hNoLink⟩ := hStands
  have hNames := hNamed place e hAt
  have hParts := Path.parts_join (fun name hName => (hNames name hName).noSlash) path
  have hNul : '\x00' ∈ (Path.join place path).toList ↔ '\x00' ∈ path.toList := by
    rw [Path.toList_join]
    simp only [List.mem_cons, List.mem_append, List.mem_flatMap]
    constructor
    · rintro (hSlash | ⟨name, hName, hIn | hSlash | hNil⟩ | hIn)
      · exact absurd hSlash (by decide)
      · exact absurd hIn (hNames name hName).noNul
      · exact absurd hSlash (by decide)
      · cases hNil
      · exact hIn
    · exact fun hIn => .inr (.inr hIn)
  have hJoin : (Path.join place path).toList ≠ [] := by simp [Path.toList_join]
  have hBase : t.base (Path.join place path) = [] := by
    simp [base, Path.isAbsolute, Path.toList_join]
  have hWay : t.root.follow Path.mostLinks [] ("" :: (place ++ Path.parts path)) =
      t.root.follow Path.mostLinks place (Path.parts path) := by
    have hFirst : t.root.Step ⟨Path.mostLinks, [], "" :: (place ++ Path.parts path)⟩
        ⟨Path.mostLinks, [], place ++ Path.parts path⟩ := .stay hRoot rfl
    exact hFirst.walk_eq.trans
      (Entry.follow_place (fun name hName => (hNames name hName).toDescends) ⟨e, hAt, hNoLink⟩)
  unfold canonicalize canonicalizeFrom
  rw [hBase, hParts, hWay]
  simp only [List.contains_iff_mem, hNul, String.isEmpty_iff, hPath, ← String.toList_eq_nil_iff,
    hJoin]

/-- Nothing is found at a path when a directory on the way lacks the next name. -/
theorem canonicalize_eq_notFound_iff (hPath : path ≠ "") :
    t.canonicalize path = .error .notFound ↔ t.Missing path := by
  unfold canonicalize canonicalizeFrom Missing
  by_cases hNul : '\x00' ∈ path.toList
  · simp [hNul]
  · simp only [List.contains_iff_mem, hNul, if_false, String.isEmpty_iff, hPath, not_false_iff,
      true_and]
    show t.root.walk ⟨Path.mostLinks, t.base path, Path.parts path⟩ = .error .notFound ↔ _
    rw [Entry.walk_eq_iff]
    constructor
    · rintro ⟨last, hSteps, hHalts⟩
      cases hHalts with
      | lacks lacks => exact ⟨_, _, _, _, hSteps, lacks⟩
    · rintro ⟨links, here, part, parts, hSteps, hLacks⟩
      exact ⟨_, hSteps, .lacks hLacks⟩

end FileTree

end Stencil
