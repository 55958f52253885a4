import ActionTree.Evaluation.Basic

/-!
# Relations between computations

A property of computations, or a relation between two of them, that holds of results and errors and is
kept by sequencing holds of everything that is built from these. Later modules go through evaluation and
execution once, for any such relation.
-/

namespace ActionTree

namespace Run

variable {σ α β : Type}

theorem get_bind_apply (f : σ → Run σ α) (s : σ) : (get >>= f) s = f s s := rfl

theorem bind_of_ok {x : Run σ α} {s t : σ} {a : α} (f : α → Run σ β) (h : x s = some (.ok a, t)) :
    (x >>= f) s = f a t := by
  change (x s).bind _ = _
  rw [h]
  rfl

theorem bind_of_error {x : Run σ α} {s t : σ} {e : ScriptError} (f : α → Run σ β)
    (h : x s = some (.error e, t)) : (x >>= f) s = some (.error e, t) := by
  change (x s).bind _ = _
  rw [h]
  rfl

theorem bind_of_none {x : Run σ α} {s : σ} (f : α → Run σ β) (h : x s = none) :
    (x >>= f) s = none := by
  change (x s).bind _ = _
  rw [h]
  rfl

/-- A sequence ends where its second part ends, or with an error of its first part. -/
theorem bind_inv {x : Run σ α} {f : α → Run σ β} {s s' : σ} {r : Except ScriptError β}
    (h : (x >>= f) s = some (r, s')) :
    (∃ a t, x s = some (.ok a, t) ∧ f a t = some (r, s')) ∨
      ∃ e, x s = some (.error e, s') ∧ r = .error e := by
  cases hx : x s with
  | none =>
      rw [bind_of_none f hx] at h
      cases h
  | some p =>
      obtain ⟨result, t⟩ := p
      cases result with
      | ok a =>
          rw [bind_of_ok f hx] at h
          exact .inl ⟨a, t, rfl, h⟩
      | error e =>
          rw [bind_of_error f hx] at h
          cases h
          exact .inr ⟨e, rfl, rfl⟩

theorem map_eq_none_iff {x : Run σ α} (f : α → β) {s : σ} : (f <$> x) s = none ↔ x s = none := by
  rw [map_eq_pure_bind]
  cases hx : x s with
  | none => exact iff_of_true (bind_of_none _ hx) rfl
  | some p =>
      obtain ⟨r, t⟩ := p
      refine iff_of_false ?_ (Option.some_ne_none _)
      cases r with
      | ok a =>
          rw [bind_of_ok _ hx]
          exact Option.some_ne_none _
      | error e =>
          rw [bind_of_error _ hx]
          exact Option.some_ne_none _

/-- What a computation that is guarded against errors ends with. -/
theorem tryCatch_of_ok {x : Run σ α} {s t : σ} {a : α} (f : ScriptError → Run σ α)
    (h : x s = some (.ok a, t)) : (tryCatch x f) s = some (.ok a, t) := by
  change (x s).bind _ = _
  rw [h]
  rfl

theorem tryCatch_of_error {x : Run σ α} {s t : σ} {e : ScriptError} (f : ScriptError → Run σ α)
    (h : x s = some (.error e, t)) : (tryCatch x f) s = f e t := by
  change (x s).bind _ = _
  rw [h]
  rfl

theorem tryCatch_of_none {x : Run σ α} {s : σ} (f : ScriptError → Run σ α)
    (h : x s = none) : (tryCatch x f) s = none := by
  change (x s).bind _ = _
  rw [h]
  rfl

/-- To raise every error again is not to guard against any. -/
theorem tryCatch_throw (x : Run σ α) : tryCatch x throw = x := by
  funext s
  cases hx : x s with
  | none => exact tryCatch_of_none _ hx
  | some p =>
      obtain ⟨r, t⟩ := p
      cases r with
      | ok a => exact tryCatch_of_ok _ hx
      | error e => exact tryCatch_of_error _ hx

end Run

namespace ScriptError

/-- Is it a failure of the evaluation itself? -/
def isInternal (e : ScriptError) : Bool :=
  match e.cause with
  | .stack _ => true
  | _ => false

/-- The error of syntax, if it is one. -/
def malformed? (e : ScriptError) : Option SyntaxError :=
  match e.cause with
  | .malformed f => some f
  | _ => none

variable {e : ScriptError} {fault : Fault}

/-- What a script may catch is no termination. -/
theorem not_terminated_of_fault (h : e.fault? = some fault) : e.isTerminated = false := by
  obtain ⟨cause, trace⟩ := e
  cases cause with
  | terminated => cases h
  | malformed | fault | stack => rfl

theorem trace_traced (e : ScriptError) (text : String) :
    (e.traced text).trace = some (e.trace.getD text) := by
  obtain ⟨cause, _ | own⟩ := e <;> rfl

theorem trace_traced_ne_none (e : ScriptError) (text : String) : (e.traced text).trace ≠ none := by
  rw [trace_traced]
  exact Option.some_ne_none _

theorem traced_of_trace {text : String} (h : e.trace ≠ none) : e.traced text = e := by
  obtain ⟨cause, _ | own⟩ := e
  · exact absurd rfl h
  · rfl

theorem cause_traced (e : ScriptError) (text : String) : (e.traced text).cause = e.cause := by
  obtain ⟨cause, _ | own⟩ := e <;> rfl

theorem malformed?_traced (e : ScriptError) (text : String) : (e.traced text).malformed? = e.malformed? := by
  unfold malformed?
  rw [cause_traced]

end ScriptError

/-- Relations between computations with results of the same type. -/
abbrev RunRel (σ : Type) := ∀ ⦃α : Type⦄, Run σ α → Run σ α → Prop

namespace RunRel

/-- The relation holds of results and of faults that are raised, and is kept by sequencing. -/
structure Sequential {σ : Type} (R : RunRel σ) : Prop where
  pure {α : Type} (a : α) : R (pure a : Run σ α) (pure a)
  fault {α : Type} (f : Fault) : R (throw ⟨.fault f, none⟩ : Run σ α) (throw ⟨.fault f, none⟩)
  bind {α β : Type} {x y : Run σ α} {f g : α → Run σ β} :
    R x y → (∀ a, R (f a) (g a)) → R (x >>= f) (y >>= g)

/-- The relation also holds of errors of syntax, and so of all errors that scripts make. -/
structure Compatible {σ : Type} (R : RunRel σ) : Prop extends R.Sequential where
  malformed {α : Type} (f : SyntaxError) : R (throw (.malformed f) : Run σ α) (throw (.malformed f))

namespace Sequential

variable {σ α β : Type} {R : RunRel σ} (C : R.Sequential)

include C

theorem map (f : α → β) {x y : Run σ α} (h : R x y) : R (f <$> x) (f <$> y) := by
  rw [map_eq_pure_bind, map_eq_pure_bind]
  exact C.bind h fun a => C.pure (f a)

theorem failWith (f : RuntimeFault) : R (Run.failWith f : Run σ α) (Run.failWith f) :=
  C.fault (.runtime f)

theorem ofRuntime (r : Except RuntimeFault α) : R (Run.ofRuntime r : Run σ α) (Run.ofRuntime r) := by
  cases r with
  | ok a => exact C.pure a
  | error f => exact C.failWith _

theorem ofFault (r : Except Fault α) : R (Run.ofFault r : Run σ α) (Run.ofFault r) := by
  cases r with
  | ok a => exact C.pure a
  | error f => exact C.fault f

theorem ofConversion (r : Convert.Result α) :
    R (Run.ofConversion r : Run σ α) (Run.ofConversion r) := by
  cases r with
  | ok a => exact C.pure a
  | error f => exact C.failWith _

theorem orFail (v : Option α) (f : RuntimeFault) :
    R (Run.orFail v f : Run σ α) (Run.orFail v f) := by
  cases v with
  | some a => exact C.pure a
  | none => exact C.failWith f

end Sequential

theorem Compatible.ofSyntax {σ α : Type} {R : RunRel σ} (C : R.Compatible) (r : Except SyntaxError α) :
    R (Run.ofSyntax r : Run σ α) (Run.ofSyntax r) := by
  cases r with
  | ok a => exact C.pure a
  | error e => exact C.malformed e

end RunRel

/-- Every error that the computation ends with is such. -/
def Run.Raising {σ α : Type} (p : ScriptError → Prop) (x : Run σ α) : Prop :=
  ∀ ⦃s e t⦄, x s = some (.error e, t) → p e

namespace Run.Raising

variable {σ : Type} {p : ScriptError → Prop} (hfault : ∀ f, p ⟨.fault f, none⟩)

include hfault

theorem sequential : RunRel.Sequential fun _ (x _ : Run σ _) => x.Raising p where
  pure a := by
    intro s e t h
    cases h
  fault f := by
    intro s e t h
    cases h
    exact hfault f
  bind hx hf := by
    intro s e t h
    rcases bind_inv h with ⟨a, u, _, hfa⟩ | ⟨e', hxe, he⟩
    · exact hf a hfa
    · cases he
      exact hx hxe

theorem compatible (hmalformed : ∀ f, p (.malformed f)) :
    RunRel.Compatible fun _ (x _ : Run σ _) => x.Raising p where
  toSequential := sequential hfault
  malformed f := by
    intro s e t h
    cases h
    exact hmalformed f

end Run.Raising

end ActionTree
