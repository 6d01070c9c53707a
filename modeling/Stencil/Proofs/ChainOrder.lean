import Stencil.Proofs.Printing

/-!
# Stencil — the order of the constructs

A tag belongs to the first construct of the chain that claims it, so the order of a chain matters
for tags that more than one construct claims, and for nothing else. There is one form of such tags:
a path that starts with the loop word, as `format` does. A loop claims it for its first letters, and
a placeholder for all of them; as a path has no blanks in it, it is never the header of a loop.

* `Contested` — what is claimed twice. No include tag is (`eq_inclusion_of_claims`).
* `LoopFirst` — a chain that tries loops before placeholders. Beyond that, and beyond which
  constructs there are, nothing about a chain matters (`find?_claims_congr`).
* `Pass.run_eq_or_error` — two walks do the same up to a token that stops one of them.
* `Parser.order_decides_contested` — what the order can change: trying loops first makes an error of
  a contested tag, and is the same as trying placeholders first for all other templates.
-/

namespace Stencil

open Text

-- ---------------------------------------------------------------------------
-- Claims on one tag
-- ---------------------------------------------------------------------------

/-- A path that starts with the loop word. -/
structure Contested (content : String) : Prop where
  word : loopWord <+: content.toList
  path : isPath content.toList = true

namespace Construct

variable {k : Construct} {content : String}

theorem claims_loop_iff : loop.claims content = true ↔ loopWord <+: content.toList :=
  List.isPrefixOf_iff_prefix

theorem claims_inclusion_iff : inclusion.claims content = true ↔ includeMark <+: content.toList :=
  List.isPrefixOf_iff_prefix

/-- An include tag belongs to nothing else. -/
theorem eq_inclusion_of_claims (hMark : inclusion.claims content = true)
    (hClaims : k.claims content = true) : k = inclusion := by
  have hPrefix : includeMark <+: content.toList := claims_inclusion_iff.mp hMark
  cases k with
  | inclusion => rfl
  | loop =>
    -- the mark and the loop word differ in the first letter
    obtain ⟨rest, hRest⟩ := claims_loop_iff.mp hClaims
    rw [← hRest] at hPrefix
    exact absurd (List.cons_prefix_cons.mp hPrefix).1 (by decide)
  | placeholder =>
    have hPath : isPath content.toList = true := hClaims
    rw [isPath_eq_false_of_mark hPrefix] at hPath
    cases hPath

/-- **Only contested tags are claimed twice**, once for a loop and once for a placeholder. -/
theorem eq_or_contested {k' : Construct} (hClaims : k.claims content = true)
    (hClaims' : k'.claims content = true) :
    k = k' ∨ Contested content ∧
      (k = loop ∧ k' = placeholder ∨ k = placeholder ∧ k' = loop) := by
  cases k with
  | inclusion => exact .inl (eq_inclusion_of_claims hClaims hClaims').symm
  | loop =>
    cases k' with
    | inclusion => exact .inl (eq_inclusion_of_claims hClaims' hClaims)
    | loop => exact .inl rfl
    | placeholder => exact .inr ⟨⟨claims_loop_iff.mp hClaims, hClaims'⟩, .inl ⟨rfl, rfl⟩⟩
  | placeholder =>
    cases k' with
    | inclusion => exact .inl (eq_inclusion_of_claims hClaims' hClaims)
    | loop => exact .inr ⟨⟨claims_loop_iff.mp hClaims', hClaims⟩, .inr ⟨rfl, rfl⟩⟩
    | placeholder => exact .inl rfl

end Construct

-- ---------------------------------------------------------------------------
-- Chains
-- ---------------------------------------------------------------------------

/-- The chain tries loops before it tries placeholders. -/
def LoopFirst (chain : List Construct) : Prop :=
  chain.idxOf .loop < chain.idxOf .placeholder

instance (chain : List Construct) : Decidable (LoopFirst chain) :=
  inferInstanceAs (Decidable (_ < _))

/-- The first that is found is one that passes, and none that passes stands before it. -/
theorem find?_eq_some_iff_idxOf {α : Type} [DecidableEq α] {p : α → Bool} {as : List α} {a : α} :
    as.find? p = some a ↔
      p a = true ∧ a ∈ as ∧ ∀ b ∈ as, p b = true → as.idxOf a ≤ as.idxOf b := by
  induction as with
  | nil => simp
  | cons x xs ih =>
    by_cases hx : p x = true
    · rw [List.find?_cons_of_pos hx, Option.some.injEq]
      constructor
      · rintro rfl
        exact ⟨hx, List.mem_cons_self, fun b _ _ => by simp⟩
      · rintro ⟨-, -, hFirst⟩
        -- nothing stands before the head but the head itself
        have hHead := hFirst x List.mem_cons_self hx
        rw [List.idxOf_cons_self, Nat.le_zero] at hHead
        by_contra hNe
        simp [List.idxOf_cons_ne _ hNe] at hHead
    · have hNe : ∀ b, p b = true → x ≠ b := by
        rintro b hb rfl
        exact hx hb
      rw [List.find?_cons_of_neg hx, ih]
      refine and_congr_right fun ha => ?_
      have hMem : a ∈ x :: xs ↔ a ∈ xs := by simp [(hNe a ha).symm]
      rw [hMem]
      refine and_congr_right fun _ => ?_
      constructor
      · intro hFirst b hb hpb
        have hTail : b ∈ xs := (List.mem_cons.mp hb).resolve_left (hNe b hpb).symm
        rw [List.idxOf_cons_ne _ (hNe a ha), List.idxOf_cons_ne _ (hNe b hpb)]
        exact Nat.succ_le_succ (hFirst b hTail hpb)
      · intro hFirst b hb hpb
        have hAll := hFirst b (List.mem_cons_of_mem _ hb) hpb
        rw [List.idxOf_cons_ne _ (hNe a ha), List.idxOf_cons_ne _ (hNe b hpb)] at hAll
        exact Nat.le_of_succ_le_succ hAll

section Chains

variable {chain chain' : List Construct} {content : String}

/-- **A tag goes to the same construct in both chains** if they have the same ones and, should the
tag be contested, try them in the same order. -/
theorem find?_claims_congr (hSame : ∀ k, k ∈ chain ↔ k ∈ chain')
    (hOrder : Contested content → .loop ∈ chain → .placeholder ∈ chain →
      (LoopFirst chain ↔ LoopFirst chain')) :
    chain.find? (·.claims content) = chain'.find? (·.claims content) := by
  cases hFind : chain.find? (·.claims content) with
  | none =>
    have hNone := List.find?_eq_none.mp hFind
    exact (List.find?_eq_none.mpr fun k hk => hNone k ((hSame k).mpr hk)).symm
  | some k =>
    obtain ⟨hClaims, hMem, hFirst⟩ := find?_eq_some_iff_idxOf.mp hFind
    symm
    refine find?_eq_some_iff_idxOf.mpr ⟨hClaims, (hSame k).mp hMem, fun k' hMem' hClaims' => ?_⟩
    have hThere : k' ∈ chain := (hSame k').mpr hMem'
    have hBefore := hFirst k' hThere hClaims'
    rcases Construct.eq_or_contested hClaims hClaims' with
      rfl | ⟨hContested, ⟨rfl, rfl⟩ | ⟨rfl, rfl⟩⟩
    · exact Nat.le_refl _
    · -- the two do not stand at one place, so loops come first here, and there as well
      have hApart : chain.idxOf .loop ≠ chain.idxOf .placeholder :=
        fun hEq => nomatch (List.idxOf_inj hMem).mp hEq
      have hLoop : LoopFirst chain := Nat.lt_of_le_of_ne hBefore hApart
      exact Nat.le_of_lt ((hOrder hContested hMem hThere).mp hLoop)
    · have hLater : ¬ LoopFirst chain := Nat.not_lt.mpr hBefore
      exact Nat.not_lt.mp (mt (hOrder hContested hThere hMem).mpr hLater)

/-- Where loops are tried first, contested tags are loops. -/
theorem find?_claims_of_contested (hContested : Contested content) (hLoop : .loop ∈ chain)
    (hFirst : LoopFirst chain) : chain.find? (·.claims content) = some .loop := by
  have hClaims : Construct.loop.claims content = true :=
    Construct.claims_loop_iff.mpr hContested.word
  refine find?_eq_some_iff_idxOf.mpr ⟨hClaims, hLoop, fun k hMem hClaims' => ?_⟩
  rcases Construct.eq_or_contested hClaims hClaims' with rfl | ⟨-, ⟨-, rfl⟩ | ⟨h, -⟩⟩
  · exact Nat.le_refl _
  · exact Nat.le_of_lt hFirst
  · cases h

end Chains

-- ---------------------------------------------------------------------------
-- What tags mean
-- ---------------------------------------------------------------------------

/-- **A path is no header.** -/
theorem LoopHeader.read?_of_contested {content : String} (hContested : Contested content) :
    read? content = none := by
  have hPath : isPath content.toList = true := hContested.path
  rw [← Option.not_isSome_iff_eq_none]
  intro hRead
  rw [isPath_eq_false_of_read? hRead] at hPath
  cases hPath

namespace Parser

variable {limit depth : Nat} {chain chain' : List Construct} {content raw : String}
  {position : Position}

theorem meaning_congr
    (hFind : chain.find? (·.claims content) = chain'.find? (·.claims content)) :
    (Parser.mk chain limit).meaning depth (.tag content raw position) =
      (Parser.mk chain' limit).meaning depth (.tag content raw position) := by
  simp only [meaning, hFind]
  rfl

/-- Where loops are tried first, a contested tag is a malformed loop, however many are open. -/
theorem meaning_of_contested (hContested : Contested content) (hLoop : .loop ∈ chain)
    (hFirst : LoopFirst chain) :
    (Parser.mk chain limit).meaning depth (.tag content raw position) =
      .error (.grammar position (.malformedLoop content)) := by
  simp only [meaning, find?_claims_of_contested hContested hLoop hFirst, openLoop,
    LoopHeader.read?_of_contested hContested]
  rfl

end Parser

-- ---------------------------------------------------------------------------
-- Walks
-- ---------------------------------------------------------------------------

/-- **Two walks do the same up to a token that stops one of them.** A token may mean the same to
both, or be refused by the first, for a reason that `P` tells. -/
theorem Pass.run_eq_or_error {meaning meaning' : Nat → Token → Except Error Meaning}
    {P : Token → Error → Prop} {tokens : List Token} (pass : Pass)
    (hMeaning : ∀ t ∈ tokens, ∀ depth, meaning depth t = meaning' depth t ∨
      ∃ e, P t e ∧ meaning depth t = .error e) :
    run meaning tokens pass = run meaning' tokens pass ∨
      ∃ t ∈ tokens, ∃ e, P t e ∧ run meaning tokens pass = .error e := by
  induction tokens generalizing pass with
  | nil => exact .inl rfl
  | cons t ts ih =>
    obtain ⟨hHere, hLater⟩ := List.forall_mem_cons.mp hMeaning
    -- what becomes of the rest, once both have taken one step to the same place
    have hRest : ∀ next : Pass, run meaning ts next = run meaning' ts next ∨
        ∃ u ∈ t :: ts, ∃ e, P u e ∧ run meaning ts next = .error e := by
      intro next
      rcases ih next hLater with hSame | ⟨u, hMem, hStops⟩
      · exact .inl hSame
      · exact .inr ⟨u, List.mem_cons_of_mem _ hMem, hStops⟩
    rw [run, run]
    by_cases hClose : pass.Closes t
    · rw [step_close hClose, step_close hClose]
      exact hRest pass.close
    · rw [step_stay hClose, step_stay hClose]
      rcases hHere pass.loops.length with hSame | ⟨e, hReason, hRefused⟩
      · rw [hSame]
        cases meaning' pass.loops.length t with
        | error e => exact .inl rfl
        | ok m => exact hRest (pass.does t ts m)
      · rw [hRefused]
        exact .inr ⟨t, List.mem_cons_self, e, hReason, rfl⟩

namespace Parser

variable {chain chain' : List Construct}

/--
**What the order of the constructs decides.** Take any two chains of the same constructs, of any
length and with repetitions, any nesting limit and any tokens.

If both chains try loops and placeholders in the same order, or lack one of them, parsing gives the
same tree or the same error. If they know all constructs, the first tries loops first and the second
placeholders, then every tree that the first gives the second gives too; and where their results
differ, that of the first is the error of a malformed loop, at a tag that starts with the loop word
and is a path.
-/
theorem order_decides_contested (hSame : ∀ k, k ∈ chain ↔ k ∈ chain') (limit : Nat)
    (tokens : List Token) :
    ((.loop ∈ chain → .placeholder ∈ chain → (LoopFirst chain ↔ LoopFirst chain')) →
      (Parser.mk chain limit).parse tokens = (Parser.mk chain' limit).parse tokens) ∧
    ((∀ k, k ∈ chain) → LoopFirst chain → ¬ LoopFirst chain' →
      (∀ nodes, (Parser.mk chain limit).parse tokens = .ok nodes →
        (Parser.mk chain' limit).parse tokens = .ok nodes) ∧
      ((Parser.mk chain limit).parse tokens ≠ (Parser.mk chain' limit).parse tokens →
        ∃ content raw position, Token.tag content raw position ∈ tokens ∧
          loopWord <+: content.toList ∧ isPath content.toList = true ∧
          (Parser.mk chain limit).parse tokens =
            .error (.grammar position (.malformedLoop content)))) := by
  constructor
  · intro hOrder
    have hMeaning : (Parser.mk chain limit).meaning = (Parser.mk chain' limit).meaning := by
      funext depth t
      cases t with
      | text content position => rfl
      | tag content raw position =>
        exact meaning_congr (find?_claims_congr hSame fun _ => hOrder)
    rw [parse_eq_run, parse_eq_run, hMeaning]
  · intro hAll hFirst hLater
    -- a token means the same to both, unless it is a contested tag
    let Refused : Token → Error → Prop := fun t e => ∃ content raw position,
      t = .tag content raw position ∧ Contested content ∧
        e = .grammar position (.malformedLoop content)
    have hMeaning : ∀ t ∈ tokens, ∀ depth,
        (Parser.mk chain limit).meaning depth t = (Parser.mk chain' limit).meaning depth t ∨
          ∃ e, Refused t e ∧ (Parser.mk chain limit).meaning depth t = .error e := by
      intro t _ depth
      cases t with
      | text content position => exact .inl rfl
      | tag content raw position =>
        by_cases hContested : Contested content
        · exact .inr ⟨_, ⟨content, raw, position, rfl, hContested, rfl⟩,
            meaning_of_contested hContested (hAll .loop) hFirst⟩
        · exact .inl (meaning_congr (find?_claims_congr hSame fun h => absurd h hContested))
    rw [parse_eq_run, parse_eq_run]
    rcases Pass.run_eq_or_error {} hMeaning with
      hEqual | ⟨t, hMem, e, ⟨content, raw, position, rfl, hContested, rfl⟩, hError⟩
    · exact ⟨fun nodes hOk => hEqual.symm.trans hOk, fun hDiffer => absurd hEqual hDiffer⟩
    · refine ⟨fun nodes hOk => (nomatch hError.symm.trans hOk), fun _ => ?_⟩
      exact ⟨content, raw, position, hMem, hContested.word, hContested.path, hError⟩

set_option maxRecDepth 4000 in
/-- The theorem at a contested tag inside a loop. -/
theorem order_decides_contested_at_format :
    let loopsFirst : List Construct := [.inclusion, .loop, .placeholder]
    let alike : List Construct := [.loop, .placeholder, .loop, .inclusion]
    let pathsFirst : List Construct := [.placeholder, .inclusion, .loop]
    let tokens : List Token :=
      [.tag "for x in xs" "\x7b\x7bfor x in xs\x7d\x7d" ⟨1, 1⟩,
        .tag "format" "\x7b\x7bformat\x7d\x7d" ⟨1, 16⟩,
        .tag "/for" "\x7b\x7b/for\x7d\x7d" ⟨1, 26⟩]
    (∀ k, k ∈ loopsFirst ↔ k ∈ alike) ∧ (∀ k, k ∈ loopsFirst ↔ k ∈ pathsFirst) ∧
    LoopFirst loopsFirst ∧ LoopFirst alike ∧ ¬ LoopFirst pathsFirst ∧
    (Parser.mk loopsFirst 1).parse tokens = (Parser.mk alike 1).parse tokens ∧
    (Parser.mk pathsFirst 1).parse tokens =
      .ok [.loop "x" "xs" [.placeholder "format" ⟨1, 16⟩] ⟨1, 1⟩] ∧
    ∃ content raw position, Token.tag content raw position ∈ tokens ∧
      loopWord <+: content.toList ∧ isPath content.toList = true ∧
      (Parser.mk loopsFirst 1).parse tokens =
        .error (.grammar position (.malformedLoop content)) := by
  intro loopsFirst alike pathsFirst tokens
  have hAlike : ∀ k, k ∈ loopsFirst ↔ k ∈ alike := by rintro (_ | _ | _) <;> decide
  have hPaths : ∀ k, k ∈ loopsFirst ↔ k ∈ pathsFirst := by rintro (_ | _ | _) <;> decide
  have hAll : ∀ k, k ∈ loopsFirst := by rintro (_ | _ | _) <;> decide
  have hFirst : LoopFirst loopsFirst := by decide
  have hFirst' : LoopFirst alike := by decide
  have hLater : ¬ LoopFirst pathsFirst := by decide
  have hTree : (Parser.mk pathsFirst 1).parse tokens =
      .ok [.loop "x" "xs" [.placeholder "format" ⟨1, 16⟩] ⟨1, 1⟩] := by
    rw [parse_eq_run]
    rfl
  have hNoTree : ∃ e, (Parser.mk loopsFirst 1).parse tokens = .error e := by
    rw [parse_eq_run]
    exact ⟨_, rfl⟩
  have hDiffer : (Parser.mk loopsFirst 1).parse tokens ≠ (Parser.mk pathsFirst 1).parse tokens := by
    obtain ⟨e, hError⟩ := hNoTree
    rw [hError, hTree]
    exact nofun
  refine ⟨hAlike, hPaths, hFirst, hFirst', hLater, ?_, hTree, ?_⟩
  · exact (order_decides_contested hAlike 1 tokens).1 fun _ _ => iff_of_true hFirst hFirst'
  · exact ((order_decides_contested hPaths 1 tokens).2 hAll hFirst hLater).2 hDiffer

end Parser

end Stencil
