import ActionTree.Execution
import ActionTree.Proofs.Run

/-!
# Parts of execution

The limit on rounds of a loop, the cleanup of a block and the parts of a call, as computations of their
own.
-/

namespace ActionTree

/-- The parts of a block or of a script. -/
def Action.sections? : Action → Option (SectionsOf Action)
  | block _ sections _ | script _ sections => some sections
  | _ => none

/-- A loop that has made `count` rounds stops with a fault where the configuration limits it to these. -/
def checkRounds (count : Nat) : Run Session Unit := do
  let guard := (← get).config.maxLoopIterations
  if 0 < guard ∧ guard ≤ count then Run.failWith (.loopGuard guard)

theorem checkRounds_of_reached {count : Nat} {s : Session}
    (h : 0 < s.config.maxLoopIterations ∧ s.config.maxLoopIterations ≤ count) :
    checkRounds count s = some (.error (.runtime (.loopGuard s.config.maxLoopIterations)), s) := by
  unfold checkRounds
  rw [Run.get_bind_apply, if_pos h]
  rfl

theorem checkRounds_of_not_reached {count : Nat} {s : Session}
    (h : ¬(0 < s.config.maxLoopIterations ∧ s.config.maxLoopIterations ≤ count)) :
    checkRounds count s = some (.ok (), s) := by
  unfold checkRounds
  rw [Run.get_bind_apply, if_neg h]
  rfl

theorem checkRounds_inv {count : Nat} {s s' : Session} {r : Except ScriptError Unit}
    (h : checkRounds count s = some (r, s')) :
    s' = s ∧ (r = .ok () ∨ r = .error (.runtime (.loopGuard s.config.maxLoopIterations))) := by
  unfold checkRounds at h
  rw [Run.get_bind_apply] at h
  split at h
  · cases h
    exact ⟨rfl, .inr rfl⟩
  · cases h
    exact ⟨rfl, .inl rfl⟩

/-- A round of a loop: the tests come before the body, the limit of the loop before that of the
configuration. -/
theorem whileLoop_succ (exec : Executor) (n : Nat) (condition : Condition) (maxCount : Option Nat)
    (body : List Action) (steps count : Nat) :
    whileLoop exec n condition maxCount body (steps + 1) count = (do
      if !(← condition.test n) then return none
      else if maxCount.any (· ≤ count) then return none
      else
        checkRounds count
        match ← runAll exec body with
        | some .breakLoop => return none
        | some signal => return some signal
        | none => whileLoop exec n condition maxCount body steps (count + 1)) := by
  rw [whileLoop]
  simp only [checkRounds, bind_assoc]
  congr 1
  funext holds
  split
  · rfl
  · split
    · rfl
    · congr 1
      funext s
      split
      · rfl
      · rfl

namespace SectionsOf

variable {exec : Executor} {items : List Action} {x : Run Session Outcome} {s t u : Session}
  {resolved last : Except ScriptError Outcome}

theorem cleanedUp_of_none (h : x s = none) : cleanedUp exec (some items) x s = none := by
  change (x s).bind _ = _
  rw [h]
  rfl

theorem cleanedUp_of_cleanup_none (h : x s = some (resolved, t)) (hc : runAll exec items t = none) :
    cleanedUp exec (some items) x s = none := by
  change (x s).bind _ = _
  rw [h]
  change (runAll exec items t).map _ = _
  rw [hc]
  rfl

/-- A cleanup that ends with neither a signal nor an error leaves the result of the body. -/
theorem cleanedUp_of_ok (h : x s = some (resolved, t))
    (hc : runAll exec items t = some (.ok none, u)) :
    cleanedUp exec (some items) x s = some (resolved, u) := by
  change (x s).bind _ = _
  rw [h]
  change (runAll exec items t).map _ = _
  rw [hc]
  rfl

/-- A signal or an error of a cleanup takes the place of the result of the body. -/
theorem cleanedUp_of_ne (h : x s = some (resolved, t)) (hc : runAll exec items t = some (last, u))
    (hlast : last ≠ .ok none) : cleanedUp exec (some items) x s = some (last, u) := by
  change (x s).bind _ = _
  rw [h]
  change (runAll exec items t).map _ = _
  rw [hc]
  rcases last with e | _ | signal
  · rfl
  · exact absurd rfl hlast
  · rfl

/-- A cleanup comes after the body whatever that ended with. -/
theorem cleanedUp_inv {r : Except ScriptError Outcome}
    (h : cleanedUp exec (some items) x s = some (r, u)) :
    ∃ resolved t last, x s = some (resolved, t) ∧ runAll exec items t = some (last, u) ∧
      ((last = .ok none ∧ r = resolved) ∨ (last ≠ .ok none ∧ r = last)) := by
  obtain ⟨⟨resolved, t⟩, hbody, h⟩ := Option.bind_eq_some_iff.1 h
  obtain ⟨⟨last, u⟩, hcleanup, hback⟩ := Option.map_eq_some_iff.1 h
  refine ⟨resolved, t, last, hbody, ?_⟩
  dsimp only at hback hcleanup
  split at hback
  · cases hback
    exact ⟨hcleanup, .inl ⟨rfl, rfl⟩⟩
  · rename_i hlast
    cases hback
    exact ⟨hcleanup, .inr ⟨hlast, rfl⟩⟩

/-- Where the plain items end with neither a signal nor an error, the attempt and its cleanup follow. -/
theorem perform_of_items {sections : SectionsOf Action}
    (hitems : runAll exec sections.items s = some (.ok none, t)) :
    sections.perform exec s = cleanedUp exec sections.cleanup (sections.attempted exec) t :=
  Run.bind_of_ok _ hitems

end SectionsOf

/-! ## Calls -/

/-- A sub that was found for a call, with the values of its parameters. -/
structure BoundSub where
  identity : Nat
  signature : Signature
  body : List Action
  params : List (String × Value)

namespace Invocation

/-- Finds the sub and binds the arguments. -/
def resolve (n : Nat) (call : Invocation) : Run Session BoundSub := do
  match (← get).stack.nearest? call.sub Action.isSub with
  | some (.sub identity sig body) =>
    let params ← Session.withPhase .parsingArguments do
      sig.bind n (← expandArguments n call.arguments)
    return ⟨identity, sig, body, params⟩
  | _ => Run.failWith (.subNotFound call.sub)

/-- Runs the body of the sub in a frame of its own, on the variables that the isolation gives it. -/
def enter (exec : Executor) (call : Invocation) (b : BoundSub) : Run Session Outcome := do
  let isolation := call.isolation.getD (← get).config.defaultIsolation
  Session.withFrame .executing (.sub b.identity b.signature b.body)
    (Session.withIsolation isolation b.params (runAll exec b.body))

/-- Sets the output variable. -/
def deliver (call : Invocation) (outcome : Outcome) : Run Session Outcome := do
  match call.output with
  | some name => Session.setVar name outcome.result
  | none => pure ()
  return none

theorem perform_eq (exec : Executor) (n : Nat) (call : Invocation) :
    call.perform exec n = call.resolve n >>= fun b => call.enter exec b >>= call.deliver := by
  unfold perform resolve enter deliver
  rw [bind_assoc]
  congr 1
  funext s
  generalize s.stack.nearest? call.sub Action.isSub = found
  cases found with
  | none => rfl
  | some a =>
      cases a with
      | sub identity sig body =>
          refine (bind_congr fun params => ?_).trans (bind_assoc _ _ _).symm
          exact (bind_assoc _ _ _).symm.trans (pure_bind _ _).symm
      | _ => rfl

end Invocation

end ActionTree
