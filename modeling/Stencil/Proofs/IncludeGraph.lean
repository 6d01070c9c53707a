import Mathlib
import Stencil.Proofs.Asked

/-!
# Stencil — the graph of includes

Templates refer to each other by their includes. What a template refers to can be read off its tree,
so the graph is there before anything is rendered: its nodes are names, and its edges lead from a
name to the names in the tree of the template behind it.

* `Renderer.includesOf` — the edges from a name; none from a name without a template that parses.
* `IncludePath.cons_iff`, `IncludePath.append` — paths from edge to edge, and put together.
* `Renderer.Reachable` — some path leads to a name.
* `nodup_path_iff` — no path has a name twice exactly when no name that can be reached can be
  reached from itself.
-/

namespace Stencil

namespace Renderer

variable (r : Renderer)

/-- The names in the includes of the template behind a name, if there is one and it parses. -/
def includesOf (name : String) : List String :=
  match r.source name with
  | .error _ => []
  | .ok template =>
    match r.parser.parseText template with
    | .error _ => []
    | .ok nodes => includeNames nodes

/-- There is a template behind the name, and it parses. -/
def Parses (name : String) : Prop :=
  ∃ template nodes, r.source name = .ok template ∧ r.parser.parseText template = .ok nodes

/-- Includes lead from some names to this one, in one step or more. -/
def Reachable (names : List String) (name : String) : Prop :=
  ∃ path, r.IncludePath names path ∧ path.getLast? = some name

variable {r} {names names' path path' : List String} {name : String}

theorem includesOf_eq {template : String} {nodes : List Node}
    (hSource : r.source name = .ok template) (hParse : r.parser.parseText template = .ok nodes) :
    r.includesOf name = includeNames nodes := by
  unfold includesOf
  rw [hSource]
  dsimp only
  rw [hParse]

theorem parses_of_mem_includesOf {inner : String} (hMem : inner ∈ r.includesOf name) :
    r.Parses name := by
  unfold includesOf at hMem
  cases hSource : r.source name with
  | error e =>
    rw [hSource] at hMem
    cases hMem
  | ok template =>
    rw [hSource] at hMem
    dsimp only at hMem
    cases hParse : r.parser.parseText template with
    | error e =>
      rw [hParse] at hMem
      cases hMem
    | ok nodes => exact ⟨template, nodes, hSource, hParse⟩

/-! ## Paths -/

namespace IncludePath

theorem ne_nil (hPath : r.IncludePath names path) : path ≠ [] := by
  cases hPath with
  | last hName => exact List.cons_ne_nil _ _
  | step hName hSource hParse hRest => exact List.cons_ne_nil _ _

theorem not_nil : ¬ r.IncludePath [] path := by
  intro hPath
  cases hPath with
  | last hName => cases hName
  | step hName hSource hParse hRest => cases hName

/-- A path starts with one of the names, and ends there or goes on along an edge. -/
theorem cons_iff :
    r.IncludePath names (name :: path) ↔
      name ∈ names ∧ (path = [] ∨ r.IncludePath (r.includesOf name) path) := by
  constructor
  · intro hPath
    cases hPath with
    | last hName => exact ⟨hName, .inl rfl⟩
    | step hName hSource hParse hRest =>
      rw [includesOf_eq hSource hParse]
      exact ⟨hName, .inr hRest⟩
  · rintro ⟨hName, rfl | hRest⟩
    · exact .last hName
    · -- the name has an edge, so there is a template behind it
      obtain ⟨first, rest, rfl⟩ := List.exists_cons_of_ne_nil hRest.ne_nil
      have hFirst : first ∈ r.includesOf name := by
        cases hRest with
        | last hMem => exact hMem
        | step hMem _ _ _ => exact hMem
      obtain ⟨template, nodes, hSource, hParse⟩ := parses_of_mem_includesOf hFirst
      rw [includesOf_eq hSource hParse] at hRest
      exact .step hName hSource hParse hRest

/-- It is up to the first name on it where a path starts. -/
theorem append_iff :
    r.IncludePath (names ++ names') path ↔
      r.IncludePath names path ∨ r.IncludePath names' path := by
  cases path with
  | nil =>
    constructor
    · exact fun hPath => absurd rfl hPath.ne_nil
    · rintro (hPath | hPath) <;> exact absurd rfl hPath.ne_nil
  | cons name path =>
    rw [cons_iff, cons_iff, cons_iff, List.mem_append, or_and_right]

theorem append (hPath : r.IncludePath names path) (hLast : path.getLast? = some name)
    (hOn : r.IncludePath (r.includesOf name) path') : r.IncludePath names (path ++ path') := by
  induction hPath with
  | last hName =>
    obtain rfl := Option.some.inj hLast
    exact cons_iff.mpr ⟨hName, .inr hOn⟩
  | @step names first template nodes path hName hSource hParse hRest ih =>
    obtain ⟨second, rest, rfl⟩ := List.exists_cons_of_ne_nil hRest.ne_nil
    rw [List.getLast?_cons_cons] at hLast
    exact .step hName hSource hParse (ih hLast)

/-- Each name on a path stands in an include: of the trees that it starts from, or of a template
behind a name on it. -/
theorem mem_includes (hPath : r.IncludePath names path) :
    ∀ inner ∈ path, inner ∈ names ∨ ∃ outer ∈ path.dropLast, inner ∈ r.includesOf outer := by
  induction hPath with
  | last hName =>
    intro inner hMem
    obtain rfl := List.mem_singleton.mp hMem
    exact .inl hName
  | @step names first template nodes path hName hSource hParse hRest ih =>
    intro inner hMem
    rw [List.dropLast_cons_of_ne_nil hRest.ne_nil]
    rcases List.mem_cons.mp hMem with rfl | hMem
    · exact .inl hName
    · rcases ih inner hMem with hHere | ⟨outer, hOuter, hInner⟩
      · refine .inr ⟨first, List.mem_cons_self, ?_⟩
        rwa [includesOf_eq hSource hParse]
      · exact .inr ⟨outer, List.mem_cons_of_mem _ hOuter, hInner⟩

theorem reachable_of_mem (hPath : r.IncludePath names path) : ∀ inner ∈ path,
    r.Reachable names inner := by
  induction hPath with
  | last hName =>
    intro inner hMem
    obtain rfl := List.mem_singleton.mp hMem
    exact ⟨[inner], .last hName, rfl⟩
  | step hName hSource hParse hRest ih =>
    intro inner hMem
    rcases List.mem_cons.mp hMem with rfl | hMem
    · exact ⟨[inner], .last hName, rfl⟩
    · obtain ⟨path, hPath, hLast⟩ := ih inner hMem
      obtain ⟨second, rest, rfl⟩ := List.exists_cons_of_ne_nil hPath.ne_nil
      exact ⟨_, .step hName hSource hParse hPath, hLast⟩

end IncludePath

/-! ## Names that can be reached -/

namespace Reachable

theorem of_mem (hMem : name ∈ names) : r.Reachable names name := ⟨[name], .last hMem, rfl⟩

theorem mono (hNames : names ⊆ names') (h : r.Reachable names name) : r.Reachable names' name := by
  obtain ⟨path, hPath, hLast⟩ := h
  exact ⟨path, hPath.mono hNames, hLast⟩

/-- What can be reached from a name that can be reached can be reached. -/
theorem trans {outer : String} (hOuter : r.Reachable names outer)
    (h : r.Reachable (r.includesOf outer) name) : r.Reachable names name := by
  obtain ⟨path, hPath, hLast⟩ := hOuter
  obtain ⟨path', hPath', hLast'⟩ := h
  refine ⟨path ++ path', hPath.append hLast hPath', ?_⟩
  rw [List.getLast?_append_of_ne_nil _ hPath'.ne_nil, hLast']

end Reachable

variable (r) in
/-- No name that can be reached can be reached from itself. -/
def Acyclic (names : List String) : Prop :=
  ∀ name, r.Reachable names name → ¬ r.Reachable (r.includesOf name) name

/-- **No name twice on a path, and no cycle**, are the same. -/
theorem nodup_path_iff :
    (∀ path, r.IncludePath names path → path.Nodup) ↔ r.Acyclic names := by
  constructor
  · rintro hNodup name ⟨path, hPath, hLast⟩ ⟨path', hPath', hLast'⟩
    -- to the name, and around to it once more
    have hTwice := hNodup _ (hPath.append hLast hPath')
    exact (List.nodup_append.mp hTwice).2.2 name (List.mem_of_getLast? hLast) name
      (List.mem_of_getLast? hLast') rfl
  · intro hAcyclic path hPath
    induction hPath with
    | last hName => exact List.nodup_singleton _
    | @step names first template nodes path hName hSource hParse hRest ih =>
      have hEdges := includesOf_eq hSource hParse
      rw [List.nodup_cons]
      constructor
      · -- a name that comes again is reached from itself
        intro hAgain
        have hCycle := hRest.reachable_of_mem first hAgain
        rw [← hEdges] at hCycle
        exact hAcyclic first (.of_mem hName) hCycle
      · refine ih fun name hName' => hAcyclic name ?_
        rw [← hEdges] at hName'
        exact (Reachable.of_mem hName).trans hName'

end Renderer

end Stencil
