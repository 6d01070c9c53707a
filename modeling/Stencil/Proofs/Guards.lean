import Mathlib.Data.List.Induction
import Stencil.Proofs.Asked

/-!
# Stencil — a session in use

Whoever enters an include gets a guard for it, and holds the guard for as long as the include is
active. Guards are dropped innermost first, and what a dropped guard does is to take the last name
off the chain, without a look at which name that is. In between loops are charged, other includes are
entered and left, and any of it may be refused. None of that may bring the guards and the chain out of
step.

* `SessionCall` — what is done with a session, and `SessionUse` — a session with its open guards and
  what has been done with it. `SessionUse.ofCalls` — a session after any number of calls.
* `SessionUse.Effect` — all that a call can do.
* `SessionUse.Sound` — guards and chain in step, within the limits. A call keeps it (`Sound.call`), so
  it is so after any calls (`sound_ofCalls`).
* `Session.chain_is_open_guards` — what a session is after any calls, and what it answers to the next.
-/

namespace Stencil

-- ---------------------------------------------------------------------------
-- Calls
-- ---------------------------------------------------------------------------

/-- What can be done with a session. -/
inductive SessionCall where
  | recordLoop
  | enterInclude (name : String)
  /-- The innermost of the open guards is dropped. When none is open, nothing happens. -/
  | dropGuard
  deriving DecidableEq

/-- A guard that was not dropped yet. -/
structure OpenGuard where
  name  : String
  /-- How many calls there had been before the one that opened the guard. -/
  since : Nat
  deriving DecidableEq

/-- A session and what has been done with it. -/
structure SessionUse where
  session : Session
  /-- The open guards, outermost first. -/
  guards  : List OpenGuard := []
  /-- The calls so far, each with the error that it failed with. -/
  log     : List (SessionCall × Option Error) := []

namespace SessionUse

/-- A session with which nothing has been done. -/
def start (limits : Limits) : SessionUse := { session := .start limits }

/-- The session after a call, unless the call is refused. -/
def answer (u : SessionUse) : SessionCall → Except Error Session
  | .recordLoop => u.session.recordLoop
  | .enterInclude name => u.session.enterInclude name
  | .dropGuard => .ok (if u.guards = [] then u.session else u.session.leaveInclude)

/-- The open guards after a call that is not refused. -/
def guardsAfter (u : SessionUse) : SessionCall → List OpenGuard
  | .recordLoop => u.guards
  | .enterInclude name => u.guards ++ [⟨name, u.log.length⟩]
  | .dropGuard => u.guards.dropLast

/-- The session in use after one more call. -/
def call (u : SessionUse) (call : SessionCall) : SessionUse :=
  match u.answer call with
  | .error e => { u with log := u.log ++ [(call, some e)] }
  | .ok session => { session, guards := u.guardsAfter call, log := u.log ++ [(call, none)] }

/-- A session after calls, one after the other. -/
def ofCalls (limits : Limits) (calls : List SessionCall) : SessionUse :=
  calls.foldl call (start limits)

/-- The loops that were charged, counted in a word of so many bits. Past its greatest number a word
starts over at zero. -/
def wordOfCharges (bits : Nat) (log : List (SessionCall × Option Error)) : BitVec bits :=
  log.foldl (fun count entry => if entry = (.recordLoop, none) then count + 1 else count) 0

theorem ofCalls_concat (limits : Limits) (calls : List SessionCall) (next : SessionCall) :
    ofCalls limits (calls ++ [next]) = (ofCalls limits calls).call next :=
  List.foldl_concat ..

/-- All that a call can do. -/
inductive Effect (u : SessionUse) : SessionCall → SessionUse → Prop
  | charged (room : u.session.loops < u.session.limits.maxLoopEvaluations) :
      Effect u .recordLoop
        { session := { u.session with loops := u.session.loops + 1 }
          guards  := u.guards
          log     := u.log ++ [(.recordLoop, none)] }
  | entered {name : String} {s : Session} (enters : u.session.enterInclude name = .ok s) :
      Effect u (.enterInclude name)
        { session := s
          guards  := u.guards ++ [⟨name, u.log.length⟩]
          log     := u.log ++ [(.enterInclude name, none)] }
  | dropped {outer : List OpenGuard} {g : OpenGuard} (innermost : u.guards = outer ++ [g]) :
      Effect u .dropGuard
        { session := u.session.leaveInclude
          guards  := outer
          log     := u.log ++ [(.dropGuard, none)] }
  | idle (noneOpen : u.guards = []) :
      Effect u .dropGuard { u with log := u.log ++ [(.dropGuard, none)] }
  | refused {call : SessionCall} {e : Error} (refusal : u.answer call = .error e) :
      Effect u call { u with log := u.log ++ [(call, some e)] }

variable {u : SessionUse}

theorem call_of_error {call : SessionCall} {e : Error} (h : u.answer call = .error e) :
    u.call call = { u with log := u.log ++ [(call, some e)] } := by
  rw [SessionUse.call, h]

theorem call_of_ok {call : SessionCall} {s : Session} (h : u.answer call = .ok s) :
    u.call call =
      { session := s, guards := u.guardsAfter call, log := u.log ++ [(call, none)] } := by
  rw [SessionUse.call, h]

theorem call_dropGuard {outer : List OpenGuard} {g : OpenGuard} (hGuards : u.guards = outer ++ [g]) :
    u.call .dropGuard =
      { session := u.session.leaveInclude
        guards  := outer
        log     := u.log ++ [(.dropGuard, none)] } := by
  have hOpen : u.guards ≠ [] := by simp [hGuards]
  have hAnswer : u.answer .dropGuard = .ok u.session.leaveInclude := by rw [answer, if_neg hOpen]
  rw [call_of_ok hAnswer, guardsAfter, hGuards, List.dropLast_concat]

theorem effect_call (u : SessionUse) (call : SessionCall) : u.Effect call (u.call call) := by
  cases hAnswer : u.answer call with
  | error e =>
    rw [call_of_error hAnswer]
    exact .refused hAnswer
  | ok s =>
    cases call with
    | recordLoop =>
      rw [call_of_ok hAnswer]
      obtain ⟨hRoom, rfl⟩ := Session.recordLoop_eq_ok_iff.mp hAnswer
      exact .charged hRoom
    | enterInclude name =>
      rw [call_of_ok hAnswer]
      exact .entered hAnswer
    | dropGuard =>
      rcases List.eq_nil_or_concat' u.guards with hNone | ⟨outer, g, hGuards⟩
      · have hSame : u.session = s := by
          rw [answer, if_pos hNone] at hAnswer
          exact Except.ok.inj hAnswer
        rw [call_of_ok hAnswer, guardsAfter, hNone, List.dropLast_nil, ← hSame, ← hNone]
        exact .idle hNone
      · rw [call_dropGuard hGuards]
        exact .dropped hGuards

-- ---------------------------------------------------------------------------
-- Guards and chain in step
-- ---------------------------------------------------------------------------

/-- What holds of a session after these calls. -/
structure Sound (limits : Limits) (calls : List SessionCall) (u : SessionUse) : Prop where
  within   : u.session.limits = limits
  made     : u.log.map Prod.fst = calls
  chain    : u.session.chain = u.guards.map OpenGuard.name
  distinct : u.session.chain.Nodup
  depth    : u.session.chain.length ≤ limits.maxIncludeDepth
  loops    : u.session.loops = u.log.count (.recordLoop, none)
  budget   : u.session.loops ≤ limits.maxLoopEvaluations
  order    : u.guards.Pairwise fun outer inner => outer.since < inner.since
  /-- A guard was opened when it says, over just the guards that are open around it now. -/
  since    : ∀ outer g inner, u.guards = outer ++ g :: inner →
    u.log[g.since]? = some (.enterInclude g.name, none) ∧
    (ofCalls limits (calls.take g.since)).guards = outer

theorem sound_start (limits : Limits) : Sound limits [] (start limits) where
  within   := rfl
  made     := rfl
  chain    := rfl
  distinct := List.nodup_nil
  depth    := Nat.zero_le _
  loops    := rfl
  budget   := Nat.zero_le _
  order    := List.Pairwise.nil
  since    := by
    intro outer g inner hGuards
    exact absurd hGuards (by simp [start])

namespace Sound

variable {limits : Limits} {calls : List SessionCall}

theorem length_log (h : Sound limits calls u) : u.log.length = calls.length := by
  rw [← h.made, List.length_map]

theorem since_lt (h : Sound limits calls u) {g : OpenGuard} (hOpen : g ∈ u.guards) :
    g.since < calls.length := by
  obtain ⟨outer, inner, hGuards⟩ := List.append_of_mem hOpen
  obtain ⟨hEntry, -⟩ := h.since outer g inner hGuards
  rw [← h.length_log]
  exact (List.getElem?_eq_some_iff.mp hEntry).1

/-- Guards that stay open keep their place as calls go on. -/
theorem since_concat (h : Sound limits calls u) {guards : List OpenGuard}
    (hOpen : guards <+: u.guards) (next : SessionCall) (failure : Option Error) :
    ∀ outer g inner, guards = outer ++ g :: inner →
      (u.log ++ [(next, failure)])[g.since]? = some (.enterInclude g.name, none) ∧
      (ofCalls limits ((calls ++ [next]).take g.since)).guards = outer := by
  intro outer g inner hGuards
  obtain ⟨others, hOthers⟩ := hOpen
  have hSplit : u.guards = outer ++ g :: (inner ++ others) := by
    rw [← hOthers, hGuards, List.append_assoc, List.cons_append]
  have hBefore : g.since < calls.length := h.since_lt (by simp [hSplit])
  obtain ⟨hEntry, hOuter⟩ := h.since outer g _ hSplit
  rw [List.getElem?_append_left (h.length_log ▸ hBefore), List.take_append_of_le_length hBefore.le]
  exact ⟨hEntry, hOuter⟩

theorem made_concat (h : Sound limits calls u) (next : SessionCall) (failure : Option Error) :
    (u.log ++ [(next, failure)]).map Prod.fst = calls ++ [next] := by
  rw [List.map_append, h.made]
  rfl

/-- The count is that of the log as long as no loop is charged. -/
theorem loops_concat (h : Sound limits calls u) {next : SessionCall} {failure : Option Error}
    (hOther : (next, failure) ≠ (.recordLoop, none)) :
    u.session.loops = (u.log ++ [(next, failure)]).count (.recordLoop, none) := by
  rw [List.count_append, List.count_singleton, h.loops]
  simp [hOther]

/-- A call that changes nothing but the log. -/
theorem logged (h : Sound limits calls u) {next : SessionCall} {failure : Option Error}
    (hOther : (next, failure) ≠ (.recordLoop, none)) :
    Sound limits (calls ++ [next]) { u with log := u.log ++ [(next, failure)] } where
  within   := h.within
  made     := h.made_concat _ _
  chain    := h.chain
  distinct := h.distinct
  depth    := h.depth
  loops    := h.loops_concat hOther
  budget   := h.budget
  order    := h.order
  since    := h.since_concat (List.prefix_refl _) next failure

theorem charged (h : Sound limits calls u)
    (hRoom : u.session.loops < u.session.limits.maxLoopEvaluations) :
    Sound limits (calls ++ [.recordLoop])
      { session := { u.session with loops := u.session.loops + 1 }
        guards  := u.guards
        log     := u.log ++ [(.recordLoop, none)] } where
  within   := h.within
  made     := h.made_concat _ _
  chain    := h.chain
  distinct := h.distinct
  depth    := h.depth
  loops    := by simp [List.count_append, h.loops]
  budget   := h.within ▸ hRoom
  order    := h.order
  since    := h.since_concat (List.prefix_refl _) .recordLoop none

/-- The guard of the include that is entered is the innermost one, as its name is the last one of the
chain. -/
theorem entered (h : Sound limits calls u) {name : String} {s : Session}
    (hEnter : u.session.enterInclude name = .ok s) (hSelf : ofCalls limits calls = u) :
    Sound limits (calls ++ [.enterInclude name])
      { session := s
        guards  := u.guards ++ [⟨name, u.log.length⟩]
        log     := u.log ++ [(.enterInclude name, none)] } where
  within   := by
    obtain ⟨-, -, rfl⟩ := Session.enterInclude_eq_ok_iff.mp hEnter
    exact h.within
  made     := h.made_concat _ _
  chain    := by
    obtain ⟨-, -, rfl⟩ := Session.enterInclude_eq_ok_iff.mp hEnter
    rw [List.map_append, ← h.chain]
    rfl
  distinct := Session.nodup_enterInclude hEnter h.distinct
  depth    := by
    obtain ⟨-, hRoom, rfl⟩ := Session.enterInclude_eq_ok_iff.mp hEnter
    have hWithin := h.within
    unfold Session.room at hRoom
    rw [List.length_append, List.length_singleton, ← hWithin]
    omega
  loops    := by
    obtain ⟨-, -, rfl⟩ := Session.enterInclude_eq_ok_iff.mp hEnter
    exact h.loops_concat (by simp)
  budget   := by
    obtain ⟨-, -, rfl⟩ := Session.enterInclude_eq_ok_iff.mp hEnter
    exact h.budget
  order    := by
    refine List.pairwise_append.mpr ⟨h.order, List.pairwise_singleton _ _, fun g hOpen g' hNew => ?_⟩
    rw [List.mem_singleton.mp hNew, h.length_log]
    exact h.since_lt hOpen
  since    := by
    intro outer g inner hGuards
    rcases List.eq_nil_or_concat' inner with rfl | ⟨inner', g', rfl⟩
    · -- it is the new guard
      obtain ⟨rfl, hNew⟩ := List.append_inj' hGuards rfl
      obtain rfl := List.singleton_inj.mp hNew
      refine ⟨List.getElem?_concat_length, ?_⟩
      rw [h.length_log, List.take_left, hSelf]
    · have hOpen : outer ++ g :: inner' = u.guards := by
        rw [← List.cons_append, ← List.append_assoc] at hGuards
        exact (List.append_inj' hGuards rfl).1.symm
      exact h.since_concat (List.prefix_refl _) _ none outer g inner' hOpen.symm

/-- The name that is taken off the chain is that of the guard that is dropped. -/
theorem dropped (h : Sound limits calls u) {outer : List OpenGuard} {g : OpenGuard}
    (hGuards : u.guards = outer ++ [g]) :
    Sound limits (calls ++ [.dropGuard])
      { session := u.session.leaveInclude
        guards  := outer
        log     := u.log ++ [(.dropGuard, none)] } where
  within   := h.within
  made     := h.made_concat _ _
  chain    := by
    show u.session.chain.dropLast = _
    rw [h.chain, hGuards, List.map_append, List.map_singleton, List.dropLast_concat]
  distinct := h.distinct.sublist (List.dropLast_sublist _)
  depth    := Nat.le_trans (List.dropLast_sublist _).length_le h.depth
  loops    := h.loops_concat (by simp)
  budget   := h.budget
  order    := h.order.sublist (hGuards ▸ List.sublist_append_left outer [g])
  since    := h.since_concat (hGuards ▸ List.prefix_append outer [g]) .dropGuard none

/-- **A call keeps guards and chain in step.** -/
theorem call (h : Sound limits calls u) (hSelf : ofCalls limits calls = u) (next : SessionCall) :
    Sound limits (calls ++ [next]) (u.call next) := by
  have hEffect := u.effect_call next
  generalize u.call next = after at hEffect ⊢
  cases hEffect with
  | charged hRoom => exact h.charged hRoom
  | entered hEnter => exact h.entered hEnter hSelf
  | dropped hGuards => exact h.dropped hGuards
  | idle hNone => exact h.logged (by simp)
  | refused hRefusal => exact h.logged (by simp)

end Sound

theorem sound_ofCalls (limits : Limits) (calls : List SessionCall) :
    Sound limits calls (ofCalls limits calls) := by
  induction calls using List.reverseRecOn with
  | nil => exact sound_start limits
  | append_singleton calls next ih =>
    rw [ofCalls_concat]
    exact ih.call rfl next

theorem wordOfCharges_eq (bits : Nat) (log : List (SessionCall × Option Error)) :
    wordOfCharges bits log = BitVec.ofNat bits (log.count (.recordLoop, none)) := by
  have hFrom : ∀ n : Nat,
      log.foldl (fun count entry => if entry = (.recordLoop, none) then count + 1 else count)
        (BitVec.ofNat bits n) = BitVec.ofNat bits (n + log.count (.recordLoop, none)) := by
    induction log with
    | nil => exact fun n => rfl
    | cons entry log ih =>
      intro n
      by_cases hCharge : entry = (.recordLoop, none)
      · have hNext : BitVec.ofNat bits n + 1 = BitVec.ofNat bits (n + 1) := (BitVec.ofNat_add ..).symm
        rw [List.foldl_cons, if_pos hCharge, hNext, ih, hCharge, List.count_cons_self,
          Nat.add_right_comm, Nat.add_assoc]
      · rw [List.foldl_cons, if_neg hCharge, ih, List.count_cons_of_ne hCharge]
  have hFromZero := hFrom 0
  rwa [Nat.zero_add] at hFromZero

/-- A word that holds the budget counts every loop and never starts over. -/
theorem Sound.toNat_wordOfCharges {limits : Limits} {calls : List SessionCall}
    (h : Sound limits calls u) {bits : Nat} (hHolds : limits.maxLoopEvaluations < 2 ^ bits) :
    (wordOfCharges bits u.log).toNat = u.session.loops := by
  rw [wordOfCharges_eq, ← h.loops, BitVec.toNat_ofNat]
  exact Nat.mod_eq_of_lt (Nat.lt_of_le_of_lt h.budget hHolds)

end SessionUse

-- ---------------------------------------------------------------------------
-- What a session answers
-- ---------------------------------------------------------------------------

namespace Session

open SessionUse

/--
**The chain is what the open guards say.** Do with a new session whatever there is to do: charge loops,
enter includes, drop guards, in any order and within any limits, zero among them. Then the chain is the
names of the open guards in the order in which they were opened, without repetitions and within its
limit. As many loops are on the count as were charged, within the budget, so that a word that holds the
budget could keep the count.

A call that is refused changes nothing. A loop is refused just when the budget is used up; a name that
is on the chain is a cycle, also when the chain is full; and another name is refused just when the chain
is full. When the innermost guard is dropped, the chain and the open guards are those from just before
that guard was opened, whatever there was in between.
-/
theorem chain_is_open_guards (limits : Limits) (calls : List SessionCall) :
    let u := ofCalls limits calls
    (u.session.chain = u.guards.map OpenGuard.name ∧
      (∀ g ∈ u.guards, u.log[g.since]? = some (.enterInclude g.name, none)) ∧
      (u.guards.Pairwise fun outer inner => outer.since < inner.since) ∧
      u.session.chain.Nodup ∧ u.session.chain.length ≤ limits.maxIncludeDepth) ∧
    (u.log.map Prod.fst = calls ∧
      u.session.loops = u.log.count (.recordLoop, none) ∧
      u.session.loops ≤ limits.maxLoopEvaluations ∧
      ∀ bits, limits.maxLoopEvaluations < 2 ^ bits →
        (wordOfCharges bits u.log).toNat = u.session.loops) ∧
    (∀ call e, (u.call call).log = u.log ++ [(call, some e)] →
      (u.call call).session = u.session ∧ (u.call call).guards = u.guards) ∧
    (∀ e, u.session.recordLoop = .error e ↔
      u.session.loops = limits.maxLoopEvaluations ∧ e = .loopLimit limits.maxLoopEvaluations) ∧
    (∀ name e, u.session.enterInclude name = .error e ↔
      (name ∈ u.session.chain ∧ e = .circularInclude (u.session.chain ++ [name])) ∨
      (name ∉ u.session.chain ∧ u.session.chain.length = limits.maxIncludeDepth ∧
        e = .depthExceeded limits.maxIncludeDepth)) ∧
    ∀ outer g, u.guards = outer ++ [g] →
      let before := ofCalls limits (calls.take g.since)
      (u.call .dropGuard).session.chain = before.session.chain ∧
      (u.call .dropGuard).guards = before.guards ∧ before.guards = outer ∧
      (u.call .dropGuard).session.loops = u.session.loops := by
  intro u
  have hSound : Sound limits calls u := sound_ofCalls limits calls
  have hWithin := hSound.within
  refine ⟨⟨hSound.chain, ?opened, hSound.order, hSound.distinct, hSound.depth⟩,
    ⟨hSound.made, hSound.loops, hSound.budget, fun bits => hSound.toNat_wordOfCharges⟩,
    ?refused, ?loop, ?enter, ?drop⟩
  case opened =>
    intro g hOpen
    obtain ⟨outer, inner, hGuards⟩ := List.append_of_mem hOpen
    exact (hSound.since outer g inner hGuards).1
  case refused =>
    intro call e hLog
    have hEffect := u.effect_call call
    generalize u.call call = after at hEffect hLog ⊢
    cases hEffect with
    | refused => exact ⟨rfl, rfl⟩
    | charged | entered | dropped | idle =>
      -- no other effect leaves an error in the log
      simp at hLog
  case loop =>
    intro e
    have hBudget := hSound.budget
    have hFull : limits.maxLoopEvaluations ≤ u.session.loops ↔
        u.session.loops = limits.maxLoopEvaluations := by
      omega
    rw [recordLoop_eq_error_iff, hWithin, hFull]
  case enter =>
    intro name e
    have hDepth := hSound.depth
    have hFull : u.session.room = 0 ↔ u.session.chain.length = limits.maxIncludeDepth := by
      unfold room
      rw [hWithin]
      omega
    rw [enterInclude_eq_error_iff, hFull, hWithin]
  case drop =>
    intro outer g hGuards before
    have hAfter : Sound limits _ (u.call .dropGuard) := hSound.call rfl .dropGuard
    have hBefore : Sound limits _ before := sound_ofCalls limits (calls.take g.since)
    have hOuter : before.guards = outer := (hSound.since outer g [] hGuards).2
    have hDropped : (u.call .dropGuard).guards = outer := by rw [call_dropGuard hGuards]
    refine ⟨?_, hDropped.trans hOuter.symm, hOuter, by rw [call_dropGuard hGuards]; rfl⟩
    rw [hAfter.chain, hBefore.chain, hDropped, hOuter]

/-- The theorem at a session with two includes active and room for no more, after refusals of all
three kinds. -/
theorem chain_is_open_guards_when_full :
    let limits : Limits := { maxIncludeDepth := 2, maxLoopEvaluations := 1 }
    let calls : List SessionCall := [.enterInclude "a", .recordLoop, .recordLoop, .enterInclude "b",
      .enterInclude "a", .enterInclude "c"]
    (ofCalls limits calls).guards = [⟨"a", 0⟩, ⟨"b", 3⟩] ∧
    (ofCalls limits calls).session.chain = ["a", "b"] ∧
    (ofCalls limits calls).session.recordLoop = .error (.loopLimit 1) ∧
    (ofCalls limits calls).session.enterInclude "b" = .error (.circularInclude ["a", "b", "b"]) ∧
    (ofCalls limits calls).session.enterInclude "c" = .error (.depthExceeded 2) ∧
    ((ofCalls limits calls).call .dropGuard).session.chain =
      (ofCalls limits (calls.take 3)).session.chain := by
  intro limits calls
  have hGuards : (ofCalls limits calls).guards = [⟨"a", 0⟩] ++ [⟨"b", 3⟩] := by decide
  have hLoops : (ofCalls limits calls).session.loops = limits.maxLoopEvaluations := by decide
  obtain ⟨⟨hChain, -⟩, -, -, hLoop, hEnter, hDrop⟩ := chain_is_open_guards limits calls
  have hNames : (ofCalls limits calls).session.chain = ["a", "b"] := by
    rw [hChain, hGuards]
    rfl
  have hCycle := (hEnter "b" (.circularInclude ["a", "b", "b"])).mpr
  have hDeep := (hEnter "c" (.depthExceeded 2)).mpr
  rw [hNames] at hCycle hDeep
  refine ⟨hGuards, hNames, (hLoop (.loopLimit 1)).mpr ⟨hLoops, rfl⟩, hCycle (.inl ⟨?_, rfl⟩),
    hDeep (.inr ⟨?_, rfl, rfl⟩), (hDrop _ _ hGuards).1⟩
  · decide
  · decide

end Session

end Stencil
