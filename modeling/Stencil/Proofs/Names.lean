import Mathlib.Data.List.DropRight
import Stencil.Tag

/-!
# Stencil — the names that may be asked for

A name is checked where it comes up: that of an entry before anything else, and that of an include
as its tag is read. This module says what the check lets through.

* `TemplateName.Admissible` — something other than blanks, and no segment that leads upwards; just
  the names that pass the check (`check_eq_ok_iff`), while any other is refused as invalid.
* `includeTarget_eq_ok_iff` — an include tag asks for an admissible name without blanks around it.
* `trim_eq_self_iff` — a text is trimmed when neither end of it is a blank.
-/

namespace Stencil

open Text

/-! ## Trimmed texts -/

namespace Text

variable {cs : List Char}

theorem trimEnd_eq_self_iff : trimEnd cs = cs ↔ ∀ c ∈ cs.getLast?, isBlank c = false := by
  rw [show trimEnd cs = cs.rdropWhile isBlank from rfl, List.rdropWhile_eq_self_iff]
  constructor
  · intro hEnd c hLast
    obtain ⟨hNe, rfl⟩ := List.mem_getLast?_eq_getLast hLast
    simpa using hEnd hNe
  · intro hEnd hNe
    simpa using hEnd _ (List.getLast?_eq_some_getLast hNe)

theorem trimStart_eq_self_iff : trimStart cs = cs ↔ ∀ c ∈ cs.head?, isBlank c = false := by
  cases cs with
  | nil => simp [trimStart]
  | cons c rest =>
    rw [trimStart, List.dropWhile_eq_self_iff]
    simp

/-- A text is trimmed exactly when it neither starts nor ends with a blank. -/
theorem trim_eq_self_iff :
    trim cs = cs ↔
      (∀ c ∈ cs.head?, isBlank c = false) ∧ ∀ c ∈ cs.getLast?, isBlank c = false := by
  rw [← trimStart_eq_self_iff, ← trimEnd_eq_self_iff, trim]
  constructor
  · intro hTrim
    -- no blank can go at the start, for nothing comes back at the end
    have hLength : cs.length ≤ (trimStart cs).length := by
      have hPrefix : trimEnd (trimStart cs) <+: trimStart cs := List.rdropWhile_prefix _ _
      have hLe := hPrefix.length_le
      rwa [hTrim] at hLe
    have hSuffix : trimStart cs <:+ cs := List.dropWhile_suffix _
    have hStart : trimStart cs = cs :=
      hSuffix.eq_of_length (Nat.le_antisymm hSuffix.length_le hLength)
    exact ⟨hStart, by rwa [hStart] at hTrim⟩
  · rintro ⟨hStart, hEnd⟩
    rw [hStart, hEnd]

theorem trim_trim (cs : List Char) : trim (trim cs) = trim cs := by
  rw [trim_eq_self_iff]
  constructor
  · intro c hHead
    -- what is left at the end starts where it started
    obtain ⟨after, hAfter⟩ : trim cs <+: trimStart cs := List.rdropWhile_prefix _ _
    have hSame : c ∈ (trimStart cs).head? := by
      rw [← hAfter, List.head?_append, Option.mem_def.mp hHead]
      rfl
    exact trimStart_eq_self_iff.mp (List.dropWhile_idempotent _ _) c hSame
  · exact trimEnd_eq_self_iff.mp (List.rdropWhile_idempotent _ _)

end Text

/-! ## Template names -/

namespace TemplateName

/-- A name that may be asked for. -/
structure Admissible (name : String) : Prop where
  notBlank : trim name.toList ≠ []
  /-- No segment between slashes or backslashes is two dots. -/
  noClimb  : ['.', '.'] ∉ segmentList isSeparator name.toList

/-- There are no blanks around the name. -/
def Trimmed (name : String) : Prop := trim name.toList = name.toList

theorem check_eq_ok_iff {name : String} : check name = .ok () ↔ Admissible name := by
  unfold check isBlankName climbs
  by_cases hBlank : trim name.toList = []
  · simpa [hBlank] using fun h : Admissible name => h.notBlank hBlank
  · by_cases hClimb : ['.', '.'] ∈ segmentList isSeparator name.toList
    · simpa [hBlank, hClimb] using fun h : Admissible name => h.noClimb hClimb
    · simpa [hBlank, hClimb] using Admissible.mk hBlank hClimb

/-- A name that is refused is refused as invalid. -/
theorem check_eq_error {name : String} {e : Error} (hCheck : check name = .error e) :
    ∃ reason, e = .validation reason := by
  unfold check at hCheck
  split at hCheck
  · cases hCheck
    exact ⟨_, rfl⟩
  · split at hCheck
    · cases hCheck
      exact ⟨_, rfl⟩
    · cases hCheck

end TemplateName

/-- **What an include tag may ask for**: the name after the mark, trimmed, if it is admissible. -/
theorem includeTarget_eq_ok_iff {content name : String} :
    includeTarget content = .ok name ↔
      ∃ rest, content.toList = includeMark ++ rest ∧ name = String.ofList (trim rest) ∧
        TemplateName.Admissible name := by
  unfold includeTarget
  constructor
  · intro hTarget
    split at hTarget
    · next hMark =>
      obtain ⟨rest, hRest⟩ := List.isPrefixOf_iff_prefix.mp hMark
      simp only [← hRest, List.drop_left] at hTarget
      split at hTarget
      · next hCheck =>
        cases hTarget
        exact ⟨rest, hRest.symm, rfl, TemplateName.check_eq_ok_iff.mp hCheck⟩
      · cases hTarget
    · cases hTarget
  · rintro ⟨rest, hContent, rfl, hName⟩
    have hMark : includeMark.isPrefixOf (includeMark ++ rest) = true :=
      List.isPrefixOf_iff_prefix.mpr (List.prefix_append _ _)
    simp only [hContent, hMark, if_true, List.drop_left, TemplateName.check_eq_ok_iff.mpr hName]

/-- The name in an include tag is admissible and trimmed. -/
theorem admissible_of_includeTarget {content name : String}
    (hTarget : includeTarget content = .ok name) :
    TemplateName.Admissible name ∧ TemplateName.Trimmed name := by
  obtain ⟨rest, -, rfl, hName⟩ := includeTarget_eq_ok_iff.mp hTarget
  refine ⟨hName, ?_⟩
  rw [TemplateName.Trimmed, String.toList_ofList, trim_trim]

end Stencil
