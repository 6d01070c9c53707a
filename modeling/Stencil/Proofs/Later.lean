import Mathlib
import Stencil.Proofs.Refine

/-!
# Stencil — rendering later

What is rendered leaves little behind for what is rendered after it: the chain of includes is as it
was, and so are the limits; only the loops that were charged stay charged. This module says what
becomes of a render that is made later, in a session to which more loops have been charged: it does
the same, as long as the budget has room for its loops on top of the earlier ones.

* `Session.later` — a session with so many more loops charged. Whatever keeps a session leaves it as
  it is some loops later (`eq_later_of_kept`).
* `Outcome.SameLater` — what a success is like when it comes later.
* `Session.evaluate_later` — trees that can be rendered can be rendered later.
* `Session.evaluate_append` — so trees put after one another are rendered one after the other.
* `Outcome.sequence_later` — steps that succeed from one session succeed one after the other, with
  the loops of all of them.
-/

namespace Stencil

-- ---------------------------------------------------------------------------
-- Sessions and outcomes, some loops later
-- ---------------------------------------------------------------------------

/-- The session with `n` more loops charged. -/
def Session.later (s : Session) (n : Nat) : Session := { s with loops := s.loops + n }

/-- The outcome with `n` more loops charged. -/
def Outcome.later (o : Outcome) (n : Nat) : Outcome := { o with session := o.session.later n }

namespace Session

variable {s s' : Session}

theorem later_later (s : Session) (m n : Nat) : (s.later m).later n = s.later (m + n) := by
  simp [later, Nat.add_assoc]

theorem room_later (s : Session) (n : Nat) : (s.later n).room = s.room := rfl

/-- A session that is kept is the same some loops later. -/
theorem eq_later_of_kept (hKept : s.Kept s') {n : Nat} (hLoops : s'.loops = s.loops + n) :
    s' = s.later n := by
  have hChain := hKept.chain
  have hLimits := hKept.limits
  obtain ⟨limits, chain, loops⟩ := s'
  dsimp only at hChain hLimits hLoops
  rw [later, hLoops, hChain, hLimits]

theorem recordLoop_later {n : Nat} (hRecord : s.recordLoop = .ok s')
    (hFits : s'.loops + n ≤ s.limits.maxLoopEvaluations) :
    (s.later n).recordLoop = .ok (s'.later n) := by
  obtain ⟨-, rfl⟩ := recordLoop_eq_ok_iff.mp hRecord
  have hCount : s.loops + 1 + n ≤ s.limits.maxLoopEvaluations := hFits
  refine recordLoop_eq_ok_iff.mpr ⟨?_, ?_⟩
  · show s.loops + n < s.limits.maxLoopEvaluations
    omega
  · simp only [later, Nat.add_right_comm]

/-- The chain does not know of loops. -/
theorem enterInclude_later {name : String} (hEnter : s.enterInclude name = .ok s') (n : Nat) :
    (s.later n).enterInclude name = .ok (s'.later n) := by
  obtain ⟨hNew, hRoom, rfl⟩ := enterInclude_eq_ok_iff.mp hEnter
  exact enterInclude_eq_ok_iff.mpr ⟨hNew, hRoom, rfl⟩

end Session

namespace Outcome

/-- `o'` is what becomes of `o` with `n` more loops charged before: the same, if `o` is a success
and the budget has room for its loops and these. -/
def SameLater (n : Nat) (o o' : Outcome) : Prop :=
  ∀ text, o.result = .ok text → o.session.loops + n ≤ o.session.limits.maxLoopEvaluations →
    o' = o.later n

variable {n : Nat} {o o' : Outcome} {next next' : Session → Outcome} {s : Session}

theorem sameLater_done (text : String) (s : Session) :
    SameLater n (done text s) (done text (s.later n)) :=
  fun _ _ _ => rfl

theorem sameLater_fail (e : Error) (s : Session) (o' : Outcome) : SameLater n (fail e s) o' :=
  fun _ hOk => nomatch hOk

theorem SameLater.andThen (hFirst : SameLater n o o')
    (hKept : o.session.Kept (next o.session).session)
    (hNext : SameLater n (next o.session) (next' (o.session.later n))) :
    SameLater n (o.andThen next) (o'.andThen next') := by
  intro all hOk hFits
  cases hResult : o.result with
  | error e =>
    rw [andThen_of_error hResult] at hOk
    exact nomatch hResult.symm.trans hOk
  | ok text =>
    rw [andThen_of_ok hResult] at hOk hFits
    dsimp only at hOk hFits
    -- what has been charged by the end was enough for the first part
    have hFitsFirst : o.session.loops + n ≤ o.session.limits.maxLoopEvaluations := by
      have hLoops := hKept.loops
      rw [hKept.limits] at hFits
      omega
    obtain rfl : o' = o.later n := hFirst text hResult hFitsFirst
    have hResult' : (o.later n).result = .ok text := hResult
    cases hRest : (next o.session).result with
    | error e => simp [hRest, Except.map] at hOk
    | ok text' =>
      have hSame : next' (o.later n).session = (next o.session).later n :=
        hNext text' hRest hFits
      rw [andThen_of_ok hResult, andThen_of_ok hResult', hSame]
      rfl

theorem SameLater.asking (h : SameLater n o o') (request : Request) :
    SameLater n (o.asking request) (o'.asking request) := by
  intro text hOk hFits
  rw [h text hOk hFits]
  rfl

theorem SameLater.leaving (h : SameLater n o o') : SameLater n o.leaving o'.leaving := by
  intro text hOk hFits
  rw [h text hOk hFits]
  rfl

theorem sameLater_sequence {α : Type} {step : α → Session → Outcome}
    (hKept : ∀ a (s : Session), s.Kept (step a s).session)
    (hStep : ∀ a s', s.Kept s' → SameLater n (step a s') (step a (s'.later n))) (as : List α) :
    ∀ s', s.Kept s' →
      SameLater n (sequence (as.map step) s') (sequence (as.map step) (s'.later n)) := by
  induction as with
  | nil => exact fun s' _ => sameLater_done "" s'
  | cons a as ih =>
    intro s' hBefore
    have hAfter := hBefore.trans (hKept a s')
    exact (hStep a s' hBefore).andThen (kept_sequence hKept as _) (ih _ hAfter)

end Outcome

-- ---------------------------------------------------------------------------
-- Rendering
-- ---------------------------------------------------------------------------

namespace Session

variable {r : Renderer} {c : Context} {n : Nat}

theorem loop_later {item collection : String} {body : List Node} (position : Position)
    {s : Session} (hBody : ∀ v s', s.Kept s' →
      (s'.evaluate r body (c.forItem item v)).SameLater n
        ((s'.later n).evaluate r body (c.forItem item v))) :
    (r.renderNode (r.renderInclude s.room) (.loop item collection body position) c s).SameLater n
      (r.renderNode (r.renderInclude s.room) (.loop item collection body position) c
        (s.later n)) := by
  rw [evaluate_loop, ← s.room_later n, evaluate_loop]
  cases hRecord : s.recordLoop with
  | error e => exact Outcome.sameLater_fail e s _
  | ok charged =>
    have hCharged := kept_recordLoop hRecord
    dsimp only
    cases hItems : (c.lookup? collection).bind Value.items? with
    | none =>
      intro text hOk hFits
      have hRoom : charged.loops + n ≤ s.limits.maxLoopEvaluations := hCharged.limits ▸ hFits
      rw [recordLoop_later hRecord hRoom]
      rfl
    | some items =>
      intro text hOk hFits
      have hStepKept : ∀ v (s : Session),
          s.Kept (s.evaluate r body (c.forItem item v)).session :=
        fun v s => s.kept_evaluate r body _
      have hKept := Outcome.kept_sequence hStepKept items charged
      -- the items have charged more than the loop itself
      have hRoom : charged.loops + n ≤ s.limits.maxLoopEvaluations := by
        have hLoops := hKept.loops
        dsimp only at hFits
        rw [hKept.limits, hCharged.limits] at hFits
        omega
      rw [recordLoop_later hRecord hRoom]
      exact Outcome.sameLater_sequence hStepKept hBody items charged hCharged text hOk hFits

theorem include_later {name : String} {s : Session}
    (hInside : ∀ entered template inner, s.enterInclude name = .ok entered →
      r.source name = .ok template → r.parser.parseText template = .ok inner →
      (entered.evaluate r inner c).SameLater n ((entered.later n).evaluate r inner c)) :
    (r.renderInclude s.room name c s).SameLater n
      (r.renderInclude s.room name c (s.later n)) := by
  rw [renderInclude_room, ← s.room_later n, renderInclude_room]
  cases hEnter : s.enterInclude name with
  | error e => exact Outcome.sameLater_fail e s _
  | ok entered =>
    rw [enterInclude_later hEnter n]
    dsimp only
    cases hSource : r.source name with
    | error e => exact fun _ hOk => nomatch hOk
    | ok template =>
      cases hParse : r.parser.parseText template with
      | error e =>
        simp only [r.parsed_of_error hParse]
        exact fun _ hOk => nomatch hOk
      | ok inner =>
        simp only [r.parsed_of_ok hParse]
        exact ((hInside entered template inner hEnter hSource hParse).asking _).leaving

/-- **Trees that can be rendered can be rendered later**, with as many loops, to the same text and
by the same questions, if the budget has room. -/
theorem evaluate_later (r : Renderer) (nodes : List Node) (c : Context) (s : Session) (n : Nat) :
    (s.evaluate r nodes c).SameLater n ((s.later n).evaluate r nodes c) := by
  refine evaluate_induction r
    (P := fun nodes c s => (s.evaluate r nodes c).SameLater n ((s.later n).evaluate r nodes c))
    ?nil ?text ?placeholder ?inclusion ?loop nodes c s
  case nil =>
    intro c s
    exact Outcome.sameLater_done "" s
  case text =>
    intro content position nodes c s ih
    rw [evaluate_cons, evaluate_cons]
    exact (Outcome.sameLater_done content s).andThen (s.kept_evaluate r nodes c) ih
  case placeholder =>
    intro path position nodes c s ih
    rw [evaluate_cons, evaluate_cons]
    exact (Outcome.sameLater_done (placeholderText c path) s).andThen
      (s.kept_evaluate r nodes c) ih
  case inclusion =>
    intro name position nodes c s hInside ih
    rw [evaluate_cons, evaluate_cons]
    have hKept := r.keeps_renderInclude s.room name c s
    exact (include_later hInside).andThen (kept_evaluate _ r nodes c) (ih _ hKept)
  case loop =>
    intro item collection body position nodes c s hBody ih
    rw [evaluate_cons, evaluate_cons]
    have hKept := r.kept_renderNode (r.keeps_renderInclude s.room)
      (.loop item collection body position) c s
    exact (loop_later position hBody).andThen (kept_evaluate _ r nodes c) (ih _ hKept)

/-- Trees put after one another are rendered one after the other. -/
theorem evaluate_append (s : Session) (r : Renderer) (nodes nodes' : List Node) (c : Context) :
    s.evaluate r (nodes ++ nodes') c =
      (s.evaluate r nodes c).andThen fun s => s.evaluate r nodes' c := by
  have hRoom := room_eq_of_kept (s.kept_evaluate r nodes c)
  rw [evaluate, r.renderNodes_append]
  exact Outcome.andThen_congr (renderNodes_room _ r c hRoom nodes')

end Session

/-- **Steps that succeed from one session succeed one after the other** from the same session some
loops later: to the texts of all of them and with the loops of all of them, if the budget has
room. -/
theorem Outcome.sequence_later {α : Type} {step : α → Session → Outcome} {s : Session}
    (hKept : ∀ a (s : Session), s.Kept (step a s).session)
    (hLater : ∀ a n, (step a s).SameLater n (step a (s.later n)))
    {as : List α} {outs : List (String × Nat)}
    (hOuts : List.Forall₂ (fun a out => (step a s).result = .ok out.1 ∧
      (step a s).session.loops = s.loops + out.2) as outs) :
    ∀ n, s.loops + n + (outs.map Prod.snd).sum ≤ s.limits.maxLoopEvaluations →
      (sequence (as.map step) (s.later n)).result = .ok (String.join (outs.map Prod.fst)) ∧
      (sequence (as.map step) (s.later n)).session = s.later (n + (outs.map Prod.snd).sum) := by
  induction hOuts with
  | nil => exact fun n _ => ⟨rfl, rfl⟩
  | @cons a out as outs hFirst hRest ih =>
    intro n hFits
    obtain ⟨text, k⟩ := out
    obtain ⟨hText, hLoops⟩ := hFirst
    simp only [List.map_cons, List.sum_cons, String.join_cons] at hFits hText hLoops ⊢
    -- the first step, `n` loops later
    have hSession : (step a s).session = s.later k := Session.eq_later_of_kept (hKept a s) hLoops
    have hRoom : (step a s).session.loops + n ≤
        (step a s).session.limits.maxLoopEvaluations := by
      rw [hLoops, (hKept a s).limits]
      omega
    have hStep : step a (s.later n) = (step a s).later n := hLater a n text hText hRoom
    have hThere : ((step a s).later n).session = s.later (n + k) := by
      rw [Outcome.later, hSession, Session.later_later, Nat.add_comm]
    obtain ⟨hTexts, hEnd⟩ := ih (n + k) (by omega)
    have hResult : ((step a s).later n).result = .ok text := hText
    show ((step a (s.later n)).andThen (sequence (as.map step))).result = _ ∧
      ((step a (s.later n)).andThen (sequence (as.map step))).session = _
    rw [hStep, andThen_of_ok hResult, hThere]
    constructor
    · dsimp only
      rw [hTexts]
      rfl
    · dsimp only
      rw [hEnd, Nat.add_assoc]

end Stencil
