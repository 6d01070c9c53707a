import Stencil.Proofs.Nesting
import Stencil.Proofs.Walks

/-!
# Stencil — walks on top of each other

What a walk reads between two points at which the same loops are open, it reads as it would by
itself. How many loops are open can be told from the tokens alone, with the standard chain: a tag
that starts with the loop word opens one, and a closing tag closes one.

* `openAfter`, `levelAfter` — how many loops are open after some tokens, where a closing tag that
  closes none is a text, or puts an end to the count. A walk has so many open (`length_steps`).
* `Pass.on` — one walk on top of another. Tokens that close no loop but their own are read on top of
  any walk as they are read by themselves (`steps_on`).
-/

namespace Stencil

/-! ## Loops counted -/

/-- The token is a tag that starts with the loop word. -/
def Token.opens : Token → Bool
  | .text ..         => false
  | .tag content _ _ => loopWord.isPrefixOf content.toList

/-- How many loops are open after the token, where `depth` are before it; none, if it is a closing
tag and there is nothing to close. -/
def Token.level? (t : Token) (depth : Nat) : Option Nat :=
  if t.isTag loopEnd then if depth = 0 then none else some (depth - 1)
  else if t.opens then some (depth + 1)
  else some depth

/-- How many loops are open after the tokens, if each closing tag among them closes one. -/
def levelAfter (depth : Nat) (tokens : List Token) : Option Nat :=
  tokens.foldlM (fun depth t => t.level? depth) depth

/-- How many loops are open after the tokens. A closing tag that closes none is a text. -/
def openAfter (depth : Nat) (tokens : List Token) : Nat :=
  tokens.foldl (fun depth t => (t.level? depth).getD depth) depth

theorem Token.not_opens_of_isTag {t : Token} (hTag : t.isTag loopEnd = true) :
    ¬ t.opens = true := by
  cases t with
  | text content position => cases hTag
  | tag content raw position =>
    obtain rfl : content = loopEnd := beq_iff_eq.mp hTag
    have hWord : ¬ loopWord.isPrefixOf loopEnd.toList = true := by decide
    exact hWord

/-- What leaves texts alone, and does not ask where tags stand, comes to the same over the atoms. -/
theorem foldlM_atoms {m : Type → Type} [Monad m] [LawfulMonad m] {α : Type} {f : α → Token → m α}
    (hText : ∀ a content position, f a (.text content position) = pure a)
    (hTag : ∀ a content raw position,
      f a (.tag content raw .start) = f a (.tag content raw position))
    (a : α) (tokens : List Token) :
    (tokens.flatMap Token.atoms).foldlM f a = tokens.foldlM f a := by
  have hAtoms : ∀ a t, t.atoms.foldlM f a = f a t := by
    intro a t
    cases t with
    | tag content raw position =>
      rw [Token.atoms, List.foldlM_cons, hTag a content raw position]
      exact bind_pure _
    | text content position =>
      rw [Token.atoms, hText]
      induction content.toList with
      | nil => rfl
      | cons c cs ih => rw [List.map_cons, List.foldlM_cons, hText, pure_bind, ih]
  induction tokens generalizing a with
  | nil => rfl
  | cons t ts ih =>
    rw [List.flatMap_cons, List.foldlM_append, List.foldlM_cons, hAtoms]
    exact bind_congr fun next => ih next

theorem levelAfter_atoms (depth : Nat) (tokens : List Token) :
    levelAfter depth (tokens.flatMap Token.atoms) = levelAfter depth tokens :=
  foldlM_atoms (fun _ _ _ => rfl) (fun _ _ _ _ => rfl) depth tokens

theorem openAfter_atoms (depth : Nat) (tokens : List Token) :
    openAfter depth (tokens.flatMap Token.atoms) = openAfter depth tokens := by
  have hFold := foldlM_atoms (m := Id) (f := fun depth t => pure ((t.level? depth).getD depth))
    (fun _ _ _ => rfl) (fun _ _ _ _ => rfl) depth tokens
  rw [List.foldlM_pure, List.foldlM_pure] at hFold
  exact hFold

namespace Parser

open Pass

variable {p : Parser}

/-- Under the standard chain, the tags that start with the loop word open the loops. -/
theorem opens_of_meaning (hChain : p.constructs = Construct.standard) {depth : Nat} {t : Token}
    {m : Meaning} (hMeaning : p.meaning depth t = .ok m) :
    t.opens = true ↔ ∃ header, m = .loop header := by
  have hOpens : p.opensLoop t = t.opens := by
    cases t with
    | text content position => rfl
    | tag content raw position =>
      rw [opensLoop, hChain, Token.opens, Construct.standard, List.find?_cons, Construct.claims]
      by_cases hLoop : loopWord.isPrefixOf content.toList = true
      · rw [hLoop]
        rfl
      · rw [Bool.not_eq_true] at hLoop
        by_cases hInclude : includeMark.isPrefixOf content.toList = true
        · simp [hLoop, Construct.claims, hInclude]
        · cases hPath : isPath content.toList <;>
            simp [hLoop, Construct.claims, hInclude, hPath]
  have hLimits : p.withLimits { maxLoopNesting := p.maxLoopNesting } = p := rfl
  rw [← hOpens]
  exact p.opensLoop_of_meaning { maxLoopNesting := p.maxLoopNesting } (hLimits ▸ hMeaning)

theorem length_step (hChain : p.constructs = Construct.standard) {pass next : Pass} {t : Token}
    {rest : List Token} (hStep : pass.step p.meaning t rest = .ok next) :
    next.loops.length = (t.level? pass.loops.length).getD pass.loops.length := by
  obtain ⟨nodes, loops⟩ := pass
  unfold Token.level?
  by_cases hClose : Pass.Closes ⟨nodes, loops⟩ t
  · rw [step_close hClose] at hStep
    cases hStep
    obtain ⟨hTag, hOpen⟩ := hClose
    cases loops with
    | nil => exact absurd rfl hOpen
    | cons l ls =>
      rw [if_pos hTag]
      rfl
  · rw [step_stay hClose] at hStep
    cases hMeaning : p.meaning loops.length t with
    | error e => simp [hMeaning, Except.map] at hStep
    | ok m =>
      have hOpens := opens_of_meaning hChain hMeaning
      simp only [hMeaning, Except.map, Except.ok.injEq] at hStep
      subst hStep
      cases m with
      | loop header =>
        have hLoop : t.opens = true := hOpens.mpr ⟨header, rfl⟩
        rw [if_neg fun hTag => Token.not_opens_of_isTag hTag hLoop, if_pos hLoop]
        rfl
      | node node =>
        rw [if_neg (c := t.opens = true) (by simp [hOpens])]
        by_cases hTag : t.isTag loopEnd = true
        · -- there was nothing to close
          obtain rfl : loops = [] := Decidable.by_contra fun hOpen => hClose ⟨hTag, hOpen⟩
          rw [if_pos hTag]
          rfl
        · rw [if_neg hTag]
          rfl

theorem length_steps (hChain : p.constructs = Construct.standard) {tokens : List Token}
    {pass last : Pass} (hSteps : steps p.meaning tokens pass = .ok last) :
    last.loops.length = openAfter pass.loops.length tokens := by
  induction tokens generalizing pass with
  | nil =>
    cases hSteps
    rfl
  | cons t ts ih =>
    rw [steps] at hSteps
    cases hStep : pass.step p.meaning t [] with
    | error e => simp [hStep] at hSteps
    | ok next =>
      rw [hStep] at hSteps
      rw [ih hSteps, length_step hChain hStep]
      rfl

/-- What a token means where many loops are open, it means where fewer are. -/
theorem meaning_of_le {depth depth' : Nat} {t : Token} {m : Meaning} (hLe : depth ≤ depth')
    (hMeaning : p.meaning depth' t = .ok m) : p.meaning depth t = .ok m := by
  cases t with
  | text content position => exact hMeaning
  | tag content raw position =>
    simp only [meaning] at hMeaning ⊢
    cases hFind : p.constructs.find? (·.claims content) with
    | none => simpa only [hFind] using hMeaning
    | some construct =>
      simp only [hFind] at hMeaning ⊢
      cases construct with
      | placeholder => exact hMeaning
      | inclusion => exact hMeaning
      | loop =>
        simp only [openLoop] at hMeaning ⊢
        cases hRead : LoopHeader.read? content with
        | none => simp [hRead, Except.map] at hMeaning
        | some header =>
          simp only [hRead] at hMeaning ⊢
          by_cases hFull : p.maxLoopNesting ≤ depth'
          · rw [if_pos hFull] at hMeaning
            cases hMeaning
          · rw [if_neg hFull] at hMeaning
            rw [if_neg (by omega)]
            exact hMeaning

end Parser

/-! ## One walk on top of another -/

namespace Pass

/-- The frames `nodes` and `loops`, with those of `outer` around them: its innermost frame is in
front of the outermost of theirs. -/
def stack (outer : Pass) (nodes : List Node) : List OpenLoop → Pass
  | []      => { nodes := nodes ++ outer.nodes, loops := outer.loops }
  | l :: ls =>
    let below := stack outer l.before ls
    { nodes, loops := { l with before := below.nodes } :: below.loops }

/-- The walk `inner`, had it started where `outer` stands. -/
def on (inner outer : Pass) : Pass := stack outer inner.nodes inner.loops

variable {inner : Pass} (outer : Pass)

theorem on_of_closed (hClosed : inner.loops = []) :
    inner.on outer = outer.addAll inner.nodes.reverse := by
  rw [on, hClosed, stack, addAll, List.reverse_reverse]

theorem add_on (inner : Pass) (node : Node) :
    (inner.add node).on outer = (inner.on outer).add node := by
  obtain ⟨nodes, loops⟩ := inner
  cases loops <;> rfl

theorem does_on (t : Token) (rest : List Token) (m : Meaning) :
    (inner.does t rest m).on outer = (inner.on outer).does t rest m := by
  cases m with
  | node node => exact add_on outer inner node
  | loop header => rfl

theorem close_on (hOpen : inner.loops ≠ []) : inner.close.on outer = (inner.on outer).close := by
  obtain ⟨nodes, loops⟩ := inner
  cases loops with
  | nil => exact absurd rfl hOpen
  | cons l ls => exact add_on outer ⟨l.before, ls⟩ _

theorem length_loops_on (inner : Pass) :
    (inner.on outer).loops.length = inner.loops.length + outer.loops.length := by
  have hAll : ∀ loops nodes, (stack outer nodes loops).loops.length =
      loops.length + outer.loops.length := by
    intro loops
    induction loops with
    | nil => simp [stack]
    | cons l ls ih =>
      intro nodes
      show (stack outer l.before ls).loops.length + 1 = ls.length + 1 + outer.loops.length
      rw [ih]
      omega
  exact hAll inner.loops inner.nodes

end Pass

namespace Parser

open Pass

variable {p : Parser}

/-- A token that closes no loop of `outer` is read on top of it as by itself. -/
theorem step_on {inner outer last : Pass} {t : Token} {rest : List Token}
    (hOwn : t.isTag loopEnd = true → inner.loops ≠ [])
    (hStep : (inner.on outer).step p.meaning t rest = .ok last) :
    ∃ next, inner.step p.meaning t rest = .ok next ∧ last = next.on outer := by
  have hLength := length_loops_on outer inner
  by_cases hTag : t.isTag loopEnd = true
  · have hOpen := hOwn hTag
    have hOpen' : (inner.on outer).loops ≠ [] := by
      rw [← List.length_pos_iff] at hOpen ⊢
      omega
    rw [step_close ⟨hTag, hOpen'⟩] at hStep
    cases hStep
    exact ⟨inner.close, step_close ⟨hTag, hOpen⟩ rest, (close_on outer hOpen).symm⟩
  · rw [step_stay fun hClose => hTag hClose.1] at hStep
    cases hMeaning : p.meaning (inner.on outer).loops.length t with
    | error e => simp [hMeaning, Except.map] at hStep
    | ok m =>
      simp only [hMeaning, Except.map, Except.ok.injEq] at hStep
      refine ⟨inner.does t rest m, ?_, ?_⟩
      · rw [step_stay fun hClose => hTag hClose.1, meaning_of_le (by omega) hMeaning]
        rfl
      · rw [does_on, hStep]

/--
**Tokens that close no loop but their own are read on top of any walk as by themselves.** The loops
around them can only make for an error.
-/
theorem steps_on (hChain : p.constructs = Construct.standard) {tokens : List Token}
    {inner outer last : Pass} {depth : Nat}
    (hLevel : levelAfter inner.loops.length tokens = some depth)
    (hSteps : steps p.meaning tokens (inner.on outer) = .ok last) :
    ∃ next, steps p.meaning tokens inner = .ok next ∧ last = next.on outer ∧
      next.loops.length = depth := by
  induction tokens generalizing inner with
  | nil =>
    cases hSteps
    cases hLevel
    exact ⟨inner, rfl, rfl, rfl⟩
  | cons t ts ih =>
    rw [levelAfter, List.foldlM_cons] at hLevel
    rw [steps] at hSteps
    cases hFirst : t.level? inner.loops.length with
    | none => simp [hFirst] at hLevel
    | some level =>
      cases hStep : (inner.on outer).step p.meaning t [] with
      | error e => simp [hStep] at hSteps
      | ok between =>
        -- the token closes a loop only if one is open in `inner`
        have hOwn : t.isTag loopEnd = true → inner.loops ≠ [] := by
          intro hTag hNone
          simp [Token.level?, hTag, hNone] at hFirst
        obtain ⟨next, hNext, rfl⟩ := step_on hOwn hStep
        have hLength := length_step hChain hNext
        rw [hFirst, Option.getD_some] at hLength
        rw [hStep] at hSteps
        simp only [hFirst, Option.bind_eq_bind, Option.bind_some] at hLevel
        rw [← hLength] at hLevel
        obtain ⟨final, hFinal, hLast, hDepth⟩ := ih hLevel hSteps
        refine ⟨final, ?_, hLast, hDepth⟩
        rw [steps, hNext]
        exact hFinal

end Parser

end Stencil
