import ActionTree.Proofs.Run
import ActionTree.Proofs.Store
import ActionTree.Session.Scope

/-!
# What operations and scopes do to a session

For each operation on a session, how it may end and which session it leaves; for each scope, how the
body was started and what was made good after it. Later proofs use these and do not open the operations.
-/

namespace ActionTree

namespace Session

variable {α : Type} {s s' : Session}

/-! ## Operations -/

theorem parse_apply (kind : ExprKind) (text : String) (s : Session) :
    parse kind text s =
      Run.ofSyntax (s.cache.parse kind text).1 { s with cache := (s.cache.parse kind text).2 } := rfl

theorem parse_inv {kind : ExprKind} {text : String} {r : Except ScriptError Expr}
    (h : parse kind text s = some (r, s')) :
    (∃ cache, s' = { s with cache }) ∧ ((∃ e, r = .ok e) ∨ ∃ e, r = .error (.malformed e)) := by
  rw [parse_apply] at h
  cases hp : (s.cache.parse kind text).1 with
  | ok e =>
      rw [hp] at h
      cases h
      exact ⟨⟨_, rfl⟩, .inl ⟨e, rfl⟩⟩
  | error e =>
      rw [hp] at h
      cases h
      exact ⟨⟨_, rfl⟩, .inr ⟨e, rfl⟩⟩

theorem setVar_of_ok {name : String} {v : Value} {vars : Store} (h : s.store.set name v = .ok vars) :
    setVar name v s = some (.ok (), { s with store := vars }) := by
  change (Run.ofRuntime (s.store.set name v) >>= fun vars => set { s with store := vars }) s = _
  rw [h]
  rfl

theorem setVar_of_error {name : String} {v : Value} {fault : RuntimeFault}
    (h : s.store.set name v = .error fault) :
    setVar name v s = some (.error (.runtime fault), s) := by
  change (Run.ofRuntime (s.store.set name v) >>= fun vars => set { s with store := vars }) s = _
  rw [h]
  rfl

theorem setVar_inv {name : String} {v : Value} {r : Except ScriptError Unit}
    (h : setVar name v s = some (r, s')) :
    (∃ vars, s.store.set name v = .ok vars ∧ r = .ok () ∧ s' = { s with store := vars }) ∨
      ∃ fault, r = .error (.runtime fault) ∧ s' = s := by
  cases hv : s.store.set name v with
  | ok vars =>
      rw [setVar_of_ok hv] at h
      cases h
      exact .inl ⟨vars, rfl, rfl, rfl⟩
  | error fault =>
      rw [setVar_of_error hv] at h
      cases h
      exact .inr ⟨fault, rfl, rfl⟩

/-- A line goes to the console, or to the innermost output; a refused one goes nowhere. -/
theorem writeLine_inv {line : String} {r : Except ScriptError Unit}
    (h : writeLine line s = some (r, s')) :
    (∃ cause, r = .error (.runtime (.output cause)) ∧ s' = s) ∨ r = .ok () ∧
      ((∃ text, s' = { s with console := text }) ∨
        ∃ o o' rest, s.outputs = o :: rest ∧ o.writeLine line = .ok o' ∧
          s' = { s with outputs := o' :: rest }) := by
  unfold writeLine at h
  rw [Run.get_bind_apply] at h
  cases hs : s.outputs with
  | nil =>
      rw [hs] at h
      cases h
      exact .inr ⟨rfl, .inl ⟨_, rfl⟩⟩
  | cons o rest =>
      rw [hs] at h
      dsimp only at h
      cases ho : o.writeLine line with
      | ok o' =>
          rw [ho] at h
          cases h
          exact .inr ⟨rfl, .inr ⟨o, o', rest, rfl, ho, rfl⟩⟩
      | error cause =>
          rw [ho] at h
          cases h
          exact .inl ⟨cause, rfl, rfl⟩

/-- An abort that is pending is raised, and no other. -/
theorem checkAbort_of_pending (requested : s.abortRequested = true) (fresh : s.abortRaised = false) :
    checkAbort s = some (.error .terminated, { s with abortRaised := true }) := by
  unfold checkAbort
  rw [Run.get_bind_apply, requested, fresh]
  rfl

theorem checkAbort_of_raised (raised : s.abortRaised = true) : checkAbort s = some (.ok (), s) := by
  unfold checkAbort
  rw [Run.get_bind_apply, raised, Bool.not_true, Bool.and_false]
  rfl

theorem checkAbort_of_unrequested (unrequested : s.abortRequested = false) :
    checkAbort s = some (.ok (), s) := by
  unfold checkAbort
  rw [Run.get_bind_apply, unrequested, Bool.false_and]
  rfl

theorem checkAbort_inv {r : Except ScriptError Unit} (h : checkAbort s = some (r, s')) :
    (r = .error .terminated ∧ s.abortRequested = true ∧ s.abortRaised = false ∧
      s' = { s with abortRaised := true }) ∨ (r = .ok () ∧ s' = s) := by
  cases raised : s.abortRaised with
  | true =>
      rw [checkAbort_of_raised raised] at h
      cases h
      exact .inr ⟨rfl, rfl⟩
  | false =>
      cases requested : s.abortRequested with
      | true =>
          rw [checkAbort_of_pending requested raised] at h
          cases h
          exact .inl ⟨rfl, rfl, rfl, by rw [requested]⟩
      | false =>
          rw [checkAbort_of_unrequested requested] at h
          cases h
          exact .inr ⟨rfl, rfl⟩

/-! ## Overlays

A name that was bound is not refused when it is bound again, so that putting back what was there never
fails. -/

theorem refusal_of_set {vars bound : Store} {name : String} {v : Value}
    (h : vars.set name v = .ok bound) : Store.refusal? name = none := by
  unfold Store.set at h
  split at h
  · cases h
  · assumption

theorem set_of_refusal {name : String} (vars : Store) (v : Value)
    (h : Store.refusal? name = none) : vars.set name v = .ok (vars.put name v) := by
  unfold Store.set
  rw [h]

theorem bindOver_saved (namePrefix : String) (overlay : List (String × Value)) (vars : Store)
    {saved : List (String × Option Value)} (h : ∀ p ∈ saved, Store.refusal? p.1 = none) :
    ∀ p ∈ (bindOver namePrefix saved overlay vars).2.1, Store.refusal? p.1 = none := by
  induction overlay generalizing saved vars with
  | nil => exact h
  | cons item rest ih =>
      unfold bindOver
      dsimp only
      split
      · rename_i bound hset
        apply ih
        intro p hp
        rcases List.mem_cons.mp hp with rfl | hp
        · exact refusal_of_set hset
        · exact h p hp
      · exact h

theorem restore_eq {saved : List (String × Option Value)} (vars : Store)
    (h : ∀ p ∈ saved, Store.refusal? p.1 = none) : restore saved vars = (vars.resetAll saved, none) := by
  induction saved generalizing vars with
  | nil => rfl
  | cons p rest ih =>
      obtain ⟨name, before⟩ := p
      have hrest : ∀ p ∈ rest, Store.refusal? p.1 = none := fun p hp => h p (by simp [hp])
      cases before with
      | none => exact ih (vars.erase name) hrest
      | some v =>
          rw [restore, set_of_refusal vars v (h (name, some v) (by simp))]
          exact ih (vars.put name v) hrest

theorem putBack_eq {saved : List (String × Option Value)} (result : Except ScriptError α)
    (s : Session) (h : ∀ p ∈ saved, Store.refusal? p.1 = none) :
    putBack saved result s = (result, { s with store := s.store.resetAll saved }) := by
  rw [putBack, restore_eq s.store h]

/-- With an overlay the body runs on other variables, or a name is refused and nothing runs. Only the
variables are put back, and the result stands. -/
theorem withVars_inv {overlay : List (String × Value)} {namePrefix : String} {x : Run Session α}
    {r : Except ScriptError α} (h : withVars overlay namePrefix x s = some (r, s')) :
    ∃ t vars, s' = { t with store := vars } ∧
      ((∃ fault, r = .error (.runtime fault) ∧ t = s) ∨
        ∃ bound, x { s with store := bound } = some (r, t)) := by
  unfold withVars at h
  have hsaved : ∀ p ∈ (bindOver namePrefix [] overlay s.store).2.1, Store.refusal? p.1 = none :=
    bindOver_saved namePrefix overlay s.store (by simp)
  generalize bindOver namePrefix [] overlay s.store = bound at h hsaved
  obtain ⟨vars, saved, fault⟩ := bound
  cases fault with
  | some fault =>
      have hback := Option.some.inj h
      rw [putBack_eq _ _ hsaved] at hback
      cases hback
      exact ⟨s, _, rfl, .inl ⟨fault, rfl, rfl⟩⟩
  | none =>
      obtain ⟨⟨result, t⟩, hbody, hback⟩ := Option.map_eq_some_iff.1 h
      change putBack saved result t = (r, s') at hback
      rw [putBack_eq _ _ hsaved] at hback
      cases hback
      exact ⟨t, _, rfl, .inr ⟨vars, hbody⟩⟩

/-! ## Other scopes -/

theorem onVariables_inv {vars : Store} {x : Run Session α} {r : Except ScriptError α}
    (h : onVariables vars x s = some (r, s')) :
    ∃ t, x { s with store := vars } = some (r, t) ∧ s' = { t with store := s.store } := by
  obtain ⟨⟨result, t⟩, hbody, hback⟩ := Option.map_eq_some_iff.1 h
  cases hback
  exact ⟨t, hbody, rfl⟩

theorem withFrame_inv {phase : Phase} {a : Action} {x : Run Session α} {r : Except ScriptError α}
    (h : withFrame phase a x s = some (r, s')) :
    ((∃ fault, r = .error (.traced (.runtime fault) s.stack.trace)) ∧ s' = s) ∨
      ∃ result t, x { s with stack := s.stack.push phase a } = some (result, t) ∧
        r = result.mapError (fun e => e.traced t.stack.trace) ∧
        s' = { t with stack := t.stack.pop } := by
  unfold withFrame at h
  split at h
  · cases h
    exact .inl ⟨⟨_, rfl⟩, rfl⟩
  · obtain ⟨⟨result, t⟩, hbody, hback⟩ := Option.map_eq_some_iff.1 h
    cases hback
    exact .inr ⟨result, t, hbody, rfl, rfl⟩

/-- An error that leaves a frame has a trace. -/
theorem withFrame_traced {phase : Phase} {a : Action} {x : Run Session α} {e : ScriptError}
    (h : withFrame phase a x s = some (.error e, s')) : e.trace ≠ none := by
  rcases withFrame_inv h with ⟨⟨fault, he⟩, _⟩ | ⟨result, t, _, he, _⟩
  · cases he
    exact ScriptError.trace_traced_ne_none _ _
  · cases result with
    | ok v => cases he
    | error e =>
        cases he
        exact ScriptError.trace_traced_ne_none _ _

theorem withPhase_inv {phase : Phase} {x : Run Session α} {r : Except ScriptError α}
    (h : withPhase phase x s = some (r, s')) :
    ∃ t, x { s with stack := s.stack.setPhase phase } = some (r, t) ∧
      s' = match s.stack.top? with
        | some f => { t with stack := t.stack.setPhase f.phase }
        | none => t := by
  obtain ⟨⟨result, t⟩, hbody, hback⟩ := Option.map_eq_some_iff.1 h
  cases hback
  exact ⟨t, hbody, rfl⟩

theorem withException_inv {c : CaughtFault} {x : Run Session α} {r : Except ScriptError α}
    (h : withException c x s = some (r, s')) :
    ∃ t, x { s with currentException := some c } = some (r, t) ∧
      s' = { t with currentException := s.currentException } := by
  obtain ⟨⟨result, t⟩, hbody, hback⟩ := Option.map_eq_some_iff.1 h
  cases hback
  exact ⟨t, hbody, rfl⟩

end Session

end ActionTree
