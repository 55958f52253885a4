import ActionTree.Proofs.Execution.Frame

/-!
# Isolation of subs

A call finds its sub and binds the arguments, runs the body, and sets the output variable. Unless the call
goes without isolation, the body leaves the variables of the caller as the binding of arguments left them,
and only the output variable gets out of it.
-/

namespace ActionTree

namespace Session

variable {α : Type} {s s' : Session} {r : Except ScriptError α}

theorem withIsolation_store {isolation : CallIsolation} {params : List (String × Value)}
    {x : Run Session α} (hisolated : isolation ≠ .none)
    (h : withIsolation isolation params x s = some (r, s')) : s'.store = s.store := by
  cases isolation with
  | none => exact absurd rfl hisolated
  | default | high =>
      obtain ⟨t, _, rfl⟩ := onVariables_inv h
      rfl

/-- The variables that a sub starts with are those of the caller, and it differs from a sub without
isolation in the variables that it leaves only. -/
theorem withIsolation_default (params : List (String × Value)) (x : Run Session α) (s : Session) :
    withIsolation .default params x s =
      (withIsolation .none params x s).map fun (r, t) => (r, { t with store := s.store }) := rfl

end Session

namespace Invocation

variable {exec : Executor} {n : Nat} {call : Invocation} {s s₁ s' : Session}

theorem enter_store {b : BoundSub} {r : Except ScriptError Outcome}
    (hisolated : call.isolation.getD s.config.defaultIsolation ≠ .none)
    (h : call.enter exec b s = some (r, s')) : s'.store = s.store := by
  unfold enter at h
  rw [Run.get_bind_apply] at h
  rcases Session.withFrame_inv h with ⟨_, rfl⟩ | ⟨result, t, hbody, _, rfl⟩
  · rfl
  · have hstore := Session.withIsolation_store hisolated hbody
    exact hstore

/-- The output variable is set to the result, if there is one and its name is not refused. -/
theorem deliver_inv {outcome : Outcome} {r : Except ScriptError Outcome}
    (h : call.deliver outcome s = some (r, s')) :
    (∃ fault, r = .error (.runtime fault) ∧ s' = s) ∨
      r = .ok none ∧ match call.output with
        | some name => s.store.set name outcome.result = .ok s'.store
        | none => s'.store = s.store := by
  unfold deliver at h
  cases houtput : call.output with
  | none =>
      rw [houtput] at h
      cases h
      exact .inr ⟨rfl, rfl⟩
  | some name =>
      rw [houtput] at h
      rcases Run.bind_inv h with ⟨_, t, hset, hpure⟩ | ⟨e, hset, rfl⟩
      · cases hpure
        rcases Session.setVar_inv hset with ⟨vars, hv, _, rfl⟩ | ⟨fault, hok, _⟩
        · exact .inr ⟨rfl, hv⟩
        · cases hok
      · rcases Session.setVar_inv hset with ⟨_, _, hok, _⟩ | ⟨fault, he, rfl⟩
        · cases hok
        · cases he
          exact .inl ⟨fault, rfl, rfl⟩

/-- After a call with isolation the caller has the variables that the binding of arguments left, whatever
the body does and however it ends; only the result of the body is set as the output variable. -/
theorem perform_store {r : Except ScriptError Outcome}
    (hisolated : call.isolation.getD s.config.defaultIsolation ≠ .none)
    (h : call.perform exec n s = some (r, s')) :
    ∃ bound s₁, call.resolve n s = some (bound, s₁) ∧ (∀ e, r = .error e → s'.store = s₁.store) ∧
      ∀ outcome, r = .ok outcome → ∃ b result s₂, bound = .ok b ∧
        call.enter exec b s₁ = some (.ok result, s₂) ∧
        match call.output with
        | some name => s₁.store.set name result.result = .ok s'.store
        | none => s'.store = s₁.store := by
  rw [perform_eq] at h
  rcases Run.bind_inv h with ⟨b, s₁, hb, hrest⟩ | ⟨e, he, rfl⟩
  · refine ⟨.ok b, s₁, hb, ?_⟩
    have hconfig : s₁.config = s.config :=
      (Session.framed_effect.blockwise.resolve n call hb).config
    rw [← hconfig] at hisolated
    rcases Run.bind_inv hrest with ⟨result, s₂, henter, hdeliver⟩ | ⟨e, henter, rfl⟩
    · have hstore : s₂.store = s₁.store := enter_store hisolated henter
      rcases deliver_inv hdeliver with ⟨fault, rfl, rfl⟩ | ⟨rfl, hset⟩
      · refine ⟨fun _ _ => hstore, fun outcome hok => ?_⟩
        cases hok
      · refine ⟨fun e he => ?_, fun outcome _ => ⟨b, result, s₂, rfl, henter, ?_⟩⟩
        · cases he
        · rw [hstore] at hset
          exact hset
    · refine ⟨fun _ _ => enter_store hisolated henter, fun outcome hok => ?_⟩
      cases hok
  · refine ⟨.error e, s', he, fun _ _ => rfl, fun outcome hok => ?_⟩
    cases hok

/-- Isolation protects the variables of the caller, and the default isolation does nothing else. -/
theorem isolation_protects_caller (exec : Executor) (n : Nat) (call : Invocation) (s : Session) :
    (∀ r s', call.isolation.getD s.config.defaultIsolation ≠ .none →
      call.perform exec n s = some (r, s') →
      ∃ bound s₁, call.resolve n s = some (bound, s₁) ∧ (∀ e, r = .error e → s'.store = s₁.store) ∧
        ∀ outcome, r = .ok outcome → ∃ b result s₂, bound = .ok b ∧
          call.enter exec b s₁ = some (.ok result, s₂) ∧
          match call.output with
          | some name => s₁.store.set name result.result = .ok s'.store
          | none => s'.store = s₁.store) ∧
    ∀ (α : Type) (params : List (String × Value)) (x : Run Session α),
      Session.withIsolation .default params x s =
        (Session.withIsolation .none params x s).map fun (r, t) => (r, { t with store := s.store }) :=
  ⟨fun _ _ hisolated h => perform_store hisolated h,
    fun _ params x => Session.withIsolation_default params x s⟩

/-- A call without an output variable. -/
def plainCall : Invocation := { sub := "f", isolation := some .high }

/-- A session in an action that has the sub. -/
def caller : Session :=
  { Session.start {} {} with
    stack := [⟨.executing, .sequence ⟨0, none⟩ [.sub 1 ⟨"f", []⟩ [.breakLoop 2]]⟩] }

/-- The call comes to its end, and leaves the variables as they were after the arguments. -/
theorem plainCall_protects_caller :
    ∃ outcome s' bound s₁, plainCall.perform (Action.execute 1) 1 caller = some (.ok outcome, s') ∧
      plainCall.resolve 1 caller = some (bound, s₁) ∧ s'.store = s₁.store := by
  have hends : ((plainCall.perform (Action.execute 1) 1 caller).map fun p => p.1.isOk) = some true := rfl
  obtain ⟨⟨r, s'⟩, h, hr⟩ := Option.map_eq_some_iff.1 hends
  obtain ⟨bound, s₁, hbound, _, hok⟩ :=
    (isolation_protects_caller (Action.execute 1) 1 plainCall caller).1 r s' (by decide) h
  cases r with
  | error e => cases hr
  | ok outcome =>
      obtain ⟨_, _, _, _, _, hstore⟩ := hok outcome rfl
      exact ⟨outcome, s', bound, s₁, h, hbound, hstore⟩

end Invocation

end ActionTree
