import ActionTree.Proofs.Execution.Termination

/-!
# Cleanup after an abort

A cleanup runs after an abort that was raised in the attempt or in the handlers. An abort that was only
requested there is raised by the first action of the cleanup, in place of that action.
-/

namespace ActionTree

namespace Action

/-- What an action does in its own frame, whether or not an abort is pending. -/
def start (n : Nat) (a : Action) : Run Session Outcome :=
  Session.withFrame .executing a (a.perform (execute n) n)

variable {n : Nat} {a : Action} {s s' : Session}

theorem execute_of_raised (h : s.abortRaised = true) : a.execute (n + 1) s = a.start n s :=
  Run.bind_of_ok _ (Session.checkAbort_of_raised h)

/-- A pending abort is raised in place of the action. -/
theorem execute_of_pending (requested : s.abortRequested = true) (fresh : s.abortRaised = false) :
    a.execute (n + 1) s = some (.error .terminated, { s with abortRaised := true }) :=
  Run.bind_of_error _ (Session.checkAbort_of_pending requested fresh)

/-- An abort that was raised stays raised. -/
theorem execute_raised {r : Except ScriptError Outcome} (h : a.execute n s = some (r, s'))
    (raised : s.abortRaised = true) : s'.abortRaised = true :=
  ((executeUntil_keeps n a h).of_raised raised).2.1

/-- After an abort was raised, every action is started in its turn. -/
theorem runAll_execute_of_raised (items : List Action) (h : s.abortRaised = true) :
    runAll (execute (n + 1)) items s = runAll (start n) items s := by
  induction items generalizing s with
  | nil => rfl
  | cons a rest ih =>
      cases hstart : a.start n s with
      | none =>
          have hexec : a.execute (n + 1) s = none := (execute_of_raised h).trans hstart
          exact (Run.bind_of_none _ hexec).trans (Run.bind_of_none _ hstart).symm
      | some p =>
          obtain ⟨result, t⟩ := p
          have hexec : a.execute (n + 1) s = some (result, t) := (execute_of_raised h).trans hstart
          cases result with
          | error e => exact (Run.bind_of_error _ hexec).trans (Run.bind_of_error _ hstart).symm
          | ok outcome =>
              refine (Run.bind_of_ok _ hexec).trans (Eq.trans ?_ (Run.bind_of_ok _ hstart).symm)
              cases outcome with
              | none => exact ih (execute_raised hexec h)
              | some signal => rfl

/-- An error that leaves an action has a trace. -/
theorem start_traced {e : ScriptError} (h : a.start n s = some (.error e, s')) : e.trace ≠ none :=
  Session.withFrame_traced h

theorem runAll_start_traced {items : List Action} {e : ScriptError}
    (h : runAll (start n) items s = some (.error e, s')) : e.trace ≠ none := by
  induction items generalizing s with
  | nil => cases h
  | cons a rest ih =>
      rcases Run.bind_inv h with ⟨outcome, t, _, hrest⟩ | ⟨e', hstart, he⟩
      · cases outcome with
        | none => exact ih hrest
        | some signal => cases hrest
      · cases he
        exact start_traced hstart

end Action

namespace SectionsOf

variable {n : Nat} {sections : SectionsOf Action} {items : List Action} {s s₁ t : Session}
  {resolved : Except ScriptError Outcome}

/-- A pending abort is raised before the first action of the cleanup. -/
theorem runAll_of_pending (requested : t.abortRequested = true) (fresh : t.abortRaised = false)
    (hne : items ≠ []) : runAll (Action.execute (n + 1)) items t =
      some (.error .terminated, { t with abortRaised := true }) := by
  cases items with
  | nil => exact absurd rfl hne
  | cons a rest => exact Run.bind_of_error _ (Action.execute_of_pending requested fresh)

/-- After an abort was requested, the actions of a cleanup are started as if it had not been exactly if it
was raised before, or there is nothing to clean up. Then the cleanup counts as it always does; else no
action of it is started, and the termination takes the place of what the attempt ended with. -/
theorem cleanup_started_iff
    (hitems : runAll (Action.execute (n + 1)) sections.items s = some (.ok none, s₁))
    (hattempted : sections.attempted (Action.execute (n + 1)) s₁ = some (resolved, t))
    (requested : t.abortRequested = true) (hcleanup : sections.cleanup = some items) :
    (runAll (Action.execute (n + 1)) items t = runAll (Action.start n) items t ↔
      t.abortRaised = true ∨ items = []) ∧
    (t.abortRaised = true → ∀ last u, runAll (Action.start n) items t = some (last, u) →
      sections.perform (Action.execute (n + 1)) s =
        match last with
        | .ok none => some (resolved, u)
        | last => some (last, u)) ∧
    (t.abortRaised = false → items ≠ [] → sections.perform (Action.execute (n + 1)) s =
      some (.error .terminated, { t with abortRaised := true })) := by
  refine ⟨⟨fun hsame => ?_, ?_⟩, fun raised last u hstarted => ?_, fun fresh hne => ?_⟩
  · refine Classical.byContradiction fun hnot => ?_
    rw [not_or, Bool.not_eq_true] at hnot
    rw [runAll_of_pending requested hnot.1 hnot.2] at hsame
    exact Action.runAll_start_traced hsame.symm rfl
  · rintro (raised | rfl)
    · exact Action.runAll_execute_of_raised items raised
    · rfl
  · rw [perform_of_items hitems, hcleanup]
    have hc := (Action.runAll_execute_of_raised items raised).trans hstarted
    rcases last with e | _ | signal
    · exact cleanedUp_of_ne hattempted hc (by simp)
    · exact cleanedUp_of_ok hattempted hc
    · exact cleanedUp_of_ne hattempted hc (by simp)
  · rw [perform_of_items hitems, hcleanup]
    exact cleanedUp_of_ne hattempted (runAll_of_pending requested fresh hne) (by simp)

/-- An attempt whose only action asks for an abort, and a cleanup. -/
def lateAbort : SectionsOf Action :=
  { items := [], attempt := some [.requestAbort 0], cleanup := some [.breakLoop 1] }

/-- The signal of the cleanup would take the place of any result of the attempt, but it is not started. -/
theorem lateAbort_not_cleaned_up :
    ∃ resolved t, lateAbort.attempted (Action.execute 1) (.start {} {}) = some (resolved, t) ∧
      t.abortRequested = true ∧ t.abortRaised = false ∧
      runAll (Action.execute 1) [.breakLoop 1] t ≠ runAll (Action.start 0) [.breakLoop 1] t ∧
      lateAbort.perform (Action.execute 1) (.start {} {}) =
        some (.error .terminated, { t with abortRaised := true }) := by
  have hends : (lateAbort.attempted (Action.execute 1) (.start {} {})).map
      (fun p => (p.2.abortRequested, p.2.abortRaised)) = some (true, false) := rfl
  obtain ⟨⟨resolved, t⟩, hattempted, hlatch⟩ := Option.map_eq_some_iff.1 hends
  have requested : t.abortRequested = true := congrArg Prod.fst hlatch
  have fresh : t.abortRaised = false := congrArg Prod.snd hlatch
  obtain ⟨hiff, _, hlate⟩ := cleanup_started_iff rfl hattempted requested rfl
  refine ⟨resolved, t, hattempted, requested, fresh, fun hsame => ?_, hlate fresh (by simp)⟩
  have hraised := hiff.1 hsame
  rw [fresh] at hraised
  simp at hraised

end SectionsOf

end ActionTree
