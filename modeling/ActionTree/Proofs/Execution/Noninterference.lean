import ActionTree.Proofs.Execution.Basic
import ActionTree.Proofs.Session.Scope

/-!
# High isolation hides the variables of the caller

A sub under high isolation runs on its parameters alone. From two sessions that differ in their variables
only, it ends with the same result, writes the same and leaves the same session, up to the variables: each
session keeps its own.
-/

namespace ActionTree

namespace Session

variable {α : Type} {s t : Session}

/-- The sessions agree in everything but their variables. -/
def SameApart (s t : Session) : Prop := ∃ vars, t = { s with store := vars }

/-- The same run up to variables: both end with the same result in sessions that differ in their variables
only, each with those that it started with; or none comes to an end. -/
inductive RunsAlike (s t : Session) :
    Option (Except ScriptError α × Session) → Option (Except ScriptError α × Session) → Prop where
  | unfinished : RunsAlike s t none none
  | ended {r : Except ScriptError α} {s' t' : Session} : s'.SameApart t' → s'.store = s.store →
      t'.store = t.store → RunsAlike s t (some (r, s')) (some (r, t'))

/-- What runs on other variables cannot see those that it replaces. -/
theorem onVariables_alike (vars : Store) (x : Run Session α) (h : s.SameApart t) :
    RunsAlike s t (onVariables vars x s) (onVariables vars x t) := by
  obtain ⟨own, rfl⟩ := h
  unfold onVariables
  cases x { s with store := vars } with
  | none => exact .unfinished
  | some p => exact .ended ⟨own, rfl⟩ rfl rfl

theorem withIsolation_high_alike (params : List (String × Value)) (x : Run Session α)
    (h : s.SameApart t) :
    RunsAlike s t (withIsolation .high params x s) (withIsolation .high params x t) :=
  onVariables_alike .empty _ h

/-- The trace that a frame gives to an error has nothing to do with variables. -/
theorem withFrame_alike {x : Run Session α} (phase : Phase) (a : Action)
    (hx : ∀ u v : Session, u.SameApart v → RunsAlike u v (x u) (x v)) (h : s.SameApart t) :
    RunsAlike s t (withFrame phase a x s) (withFrame phase a x t) := by
  obtain ⟨own, rfl⟩ := h
  unfold withFrame
  dsimp only
  split
  · exact .ended ⟨own, rfl⟩ rfl rfl
  · have hbody := hx { s with stack := s.stack.push phase a }
      { s with stack := s.stack.push phase a, store := own } ⟨own, rfl⟩
    generalize x { s with stack := s.stack.push phase a } = left at hbody ⊢
    generalize x { s with stack := s.stack.push phase a, store := own } = right at hbody ⊢
    cases hbody with
    | unfinished => exact .unfinished
    | ended hsame hleft hright =>
        obtain ⟨vars, rfl⟩ := hsame
        exact .ended ⟨vars, rfl⟩ hleft hright

end Session

/-- Runs the body of a sub; a result that it is left with is the value. -/
def invoke (exec : Executor) (body : List Action) : Run Session Value :=
  Outcome.result <$> runAll exec body

/-- Under high isolation nothing that a sub gives, raises, writes or leaves depends on a variable of the
caller: whatever its body and its parameters, it runs alike in sessions that differ in their variables only.
The same holds of a call with the frame that it opens for the sub. -/
theorem Invocation.high_isolation_noninterfering {s t : Session} (h : s.SameApart t) (exec : Executor) :
    (∀ (body : List Action) (params : List (String × Value)),
      Session.RunsAlike s t (Session.withIsolation .high params (invoke exec body) s)
        (Session.withIsolation .high params (invoke exec body) t)) ∧
    ∀ (call : Invocation) (b : BoundSub), call.isolation.getD s.config.defaultIsolation = .high →
      Session.RunsAlike s t (call.enter exec b s) (call.enter exec b t) := by
  refine ⟨fun body params => Session.withIsolation_high_alike params _ h, fun call b hhigh => ?_⟩
  have hconfig : t.config = s.config := by
    obtain ⟨vars, rfl⟩ := h
    rfl
  unfold Invocation.enter
  rw [Run.get_bind_apply, Run.get_bind_apply, hconfig, hhigh]
  exact Session.withFrame_alike _ _ (fun _ _ hsame => Session.withIsolation_high_alike _ _ hsame) h

/-- A session whose caller has a variable. -/
def secretive : Session :=
  { Session.start {} {} with store := Store.empty.put "secret" (.ofInt 1) }

/-- A body that asks for the variable runs as if the caller had none. -/
theorem Invocation.secretive_noninterfering :
    Session.RunsAlike (.start {} {}) secretive
      (Session.withIsolation .high [] (invoke (Action.execute 2) [.eval 0 "secret ?? 0" none])
        (.start {} {}))
      (Session.withIsolation .high [] (invoke (Action.execute 2) [.eval 0 "secret ?? 0" none])
        secretive) ∧
    Session.RunsAlike (.start {} {}) secretive
      (Invocation.enter (Action.execute 2) { sub := "f", isolation := some .high }
        ⟨1, ⟨"f", []⟩, [.eval 0 "secret ?? 0" none], []⟩ (.start {} {}))
      (Invocation.enter (Action.execute 2) { sub := "f", isolation := some .high }
        ⟨1, ⟨"f", []⟩, [.eval 0 "secret ?? 0" none], []⟩ secretive) :=
  have h := high_isolation_noninterfering ⟨secretive.store, rfl⟩ (Action.execute 2)
  ⟨h.1 _ _, h.2 _ _ rfl⟩

end ActionTree
