import ActionTree.Proofs.Evaluation.Related

/-!
# The stack machine never fails

The machine pushes one value for each expression, the one that evaluation without a stack gives. Hence its
errors are those of the surroundings and of the operations, and never its own.
-/

namespace ActionTree

variable {σ : Type}

/-- Ends with no error of the evaluation itself. -/
def Run.Sound {α : Type} (x : Run σ α) : Prop :=
  ∀ ⦃s e s'⦄, x s = some (.error e, s') → e.isInternal = false

/-- Nothing that the surroundings are asked ends with an error of the evaluation itself. -/
structure Environment.Sound (env : Environment σ) : Prop where
  getVar (name : String) : (env.getVar name).Sound
  setVar (name : String) (v : Value) : (env.setVar name v).Sound
  call (name : String) (args : List Value) : (env.call name args).Sound
  callStatic (type name : String) (args : Option (List Value)) : (env.callStatic type name args).Sound

theorem Run.Sound.compatible : RunRel.Compatible fun _ (x _ : Run σ _) => x.Sound :=
  Run.Raising.compatible (p := fun e => e.isInternal = false) (fun _ => rfl) fun _ => rfl

theorem Environment.Sound.related {env : Environment σ} (E : env.Sound) :
    Environment.Related (fun _ x _ => x.Sound) env env where
  getVar := E.getVar
  setVar := E.setVar
  typeNamed name := by
    intro s e s' h
    exact Run.Sound.compatible.orFail (env.resolveType s name) (.unknownType name) h
  call := E.call
  callStatic := E.callStatic
  host := rfl

/-- On every stack, an expression that is evaluated to the end has pushed its value and nothing else;
evaluation from the empty stack is evaluation without a stack; and in sound surroundings it never ends with
an error of the machine. -/
theorem Expr.machine_computes_value (env : Environment σ) (e : Expr) :
    (∀ stack s stack' s', Machine.push env e stack s = some (.ok stack', s') →
      ∃ v, stack' = v :: stack ∧ e.value env s = some (.ok v, s')) ∧
    e.evaluate env = e.value env ∧
    (env.Sound → (e.evaluate env).Sound) := by
  refine ⟨fun stack s stack' s' h => ?_, e.evaluate_eq_value env, fun E => ?_⟩
  · rw [Machine.push_eq] at h
    rcases Run.bind_inv h with ⟨v, t, hv, hpushed⟩ | ⟨error, _, hr⟩
    · cases hpushed
      exact ⟨v, rfl, hv⟩
    · cases hr
  · exact Expr.evaluate_related Run.Sound.compatible.toSequential E.related e

/-- Surroundings without any variables and functions. -/
def Environment.bare : Environment Unit where
  getVar _ := pure none
  setVar name _ := Run.failWith (.computedVariable name)
  resolveType _ := ValueType.builtin?
  call name _ := Run.failWith (.unknownFunction name)
  callStatic _ _ _ := pure none
  host := .silent

theorem Environment.bare_sound : Environment.bare.Sound where
  getVar _ := Run.Sound.compatible.pure none
  setVar name _ := Run.Sound.compatible.failWith (.computedVariable name)
  call name _ := Run.Sound.compatible.failWith (.unknownFunction name)
  callStatic _ _ _ := Run.Sound.compatible.pure none

/-- A call of a function with a value and with a variable that is not set. -/
def Expr.unsetArgument : Expr := .call "f" [.literal .null, .var "x"]

/-- The call fails with the value of the first argument on the stack, and not because of that. -/
theorem Expr.machine_computes_value_unset :
    ∃ e, unsetArgument.evaluate Environment.bare () = some (.error e, ()) ∧ e.isInternal = false := by
  have hfails : unsetArgument.evaluate Environment.bare () =
      some (.error (.runtime (.undefinedVariable "x")), ()) := rfl
  have hsound := (machine_computes_value Environment.bare unsetArgument).2.2 Environment.bare_sound
  exact ⟨_, hfails, hsound hfails⟩

end ActionTree
