import ActionTree.Proofs.Execution.Course

/-!
# More steps change nothing

What comes to an end within some number of steps ends in the same way within any larger number. So a run
that ends, be it with an error, is one of those that the course of execution is made of.
-/

namespace ActionTree

open Session (Extends)

theorem Scope.run_extends {α : Type} (scope : Scope) {x y : Run Session α} (h : Extends x y) :
    Extends (scope.run x) (scope.run y) := by
  intro s p hp
  cases henter : scope.enter s with
  | none =>
      obtain ⟨e, t, _, _, hrun⟩ := run_of_enter_none henter
      rw [hrun x] at hp
      rw [hrun y]
      exact hp
  | some t =>
      obtain ⟨leave, hrun, _⟩ := run_of_enter henter
      rw [hrun] at hp
      obtain ⟨q, hx, hq⟩ := Option.map_eq_some_iff.mp hp
      rw [hrun, h hx, ← hq]
      rfl

section

variable {exec exec' : Executor} {m n : Nat}

/-- Work ends as before if its calls do and evaluations have no fewer steps. -/
theorem Work.run_extends {α : Type} (w : Work α) {j k : Nat} (hmn : m ≤ n)
    (hcalls : ∀ c : Call, Extends (c.run exec m j) (c.run exec' n k)) :
    Extends (w.run exec m j) (w.run exec' n k) := by
  induction w with
  | step x steady => exact fun s p hp => hp
  | inquire q => exact q.run_extends hmn
  | call c => exact hcalls c
  | bind x f ihx ihf => exact Session.extends_evaluative.bind ihx ihf
  | settle x ih =>
      intro s p hp
      obtain ⟨q, hx, hq⟩ := Option.map_eq_some_iff.mp hp
      rw [← hq]
      exact Run.settled_of_some (ih hx)
  | within scope x ih => exact scope.run_extends ih

/-- A loop is run as before if it may make no fewer rounds, by induction on the rounds. -/
theorem Call.run_extends (hexec : ∀ a, Extends (exec a) (exec' a)) (hmn : m ≤ n) {j k : Nat} (hjk : j ≤ k)
    (c : Call) : Extends (c.run exec m j) (c.run exec' n k) := by
  induction j generalizing k c with
  | zero =>
      cases c with
      | action a => exact hexec a
      | rounds label condition maxCount body count =>
          intro s p hp
          cases (show (none : Option (Except ScriptError Outcome × Session)) = some p from hp)
  | succ j ih =>
      cases c with
      | action a => exact hexec a
      | rounds label condition maxCount body count =>
          obtain ⟨k, rfl⟩ : ∃ k', k = k' + 1 := ⟨k - 1, by omega⟩
          rw [run_rounds, run_rounds]
          exact Work.run_extends _ hmn fun c => ih (by omega) c

end

/-- By induction on the steps. -/
theorem Action.execute_extends {m n : Nat} (h : m ≤ n) (a : Action) : Extends (a.execute m) (a.execute n) := by
  induction m generalizing n a with
  | zero =>
      intro s p hp
      cases (show (none : Option (Except ScriptError Outcome × Session)) = some p from hp)
  | succ m ih =>
      obtain ⟨n, rfl⟩ : ∃ n', n = n' + 1 := ⟨n - 1, by omega⟩
      have hmn : m ≤ n := by omega
      have hwork := Work.run_extends (Call.action a).work hmn (Call.run_extends (fun b => ih hmn b) hmn hmn)
      rw [← Call.run_action a m 0, ← Call.run_action a n 0] at hwork
      exact hwork

/-- A run that comes to an end is how the work ends. -/
theorem Work.ends_of_run {α : Type} {w : Work α} {m n k : Nat} {s : Session}
    {p : Except ScriptError α × Session} (h : w.run (Action.execute m) n k s = some p) : w.Ends s p := by
  refine ⟨max m (max n k), fun n' k' hn hk => ?_⟩
  have hcalls : ∀ c : Call, Extends (c.run (Action.execute m) n k) (c.run (Action.execute n') n' k') :=
    fun c => Call.run_extends (fun a => Action.execute_extends (by omega) a) (by omega) (by omega) c
  exact w.run_extends (by omega) hcalls h

/-! ## How work ends by its parts -/

/-- Given enough steps, the computation ends so. -/
def Run.Ends {σ α : Type} (x : Nat → Run σ α) (s : σ) (p : Except ScriptError α × σ) : Prop :=
  ∃ n, x n s = some p

namespace Work

variable {α β : Type} {s : Session}

/-- Work ends as a computation that it describes does, within some number of steps. -/
theorem ends_iff {w : Work α} {x : Nat → Run Session α} (hrun : ∀ n, w.run (Action.execute n) n n = x n)
    {p : Except ScriptError α × Session} : w.Ends s p ↔ Run.Ends x s p := by
  constructor
  · rintro ⟨n, hn⟩
    exact ⟨n, (congrFun (hrun n) s).symm.trans (hn n n (Nat.le_refl n) (Nat.le_refl n))⟩
  · rintro ⟨n, hn⟩
    exact ends_of_run ((congrFun (hrun n) s).trans hn)

theorem ends_pure_iff {a : α} {p : Except ScriptError α × Session} :
    (pure a : Work α).Ends s p ↔ p = (.ok a, s) :=
  ends_step_iff.trans ⟨fun h => (Option.some.inj h).symm, fun h => h ▸ rfl⟩

theorem ends_bind_iff {x : Work α} {f : α → Work β} {p : Except ScriptError β × Session} :
    (x >>= f).Ends s p ↔
      (∃ a t, x.Ends s (.ok a, t) ∧ (f a).Ends t p) ∨ ∃ e t, x.Ends s (.error e, t) ∧ p = (.error e, t) := by
  constructor
  · rintro ⟨n, hn⟩
    rcases Run.bind_inv (hn n n (Nat.le_refl n) (Nat.le_refl n)) with ⟨a, t, hx, hf⟩ | ⟨e, hx, he⟩
    · exact .inl ⟨a, t, ends_of_run hx, ends_of_run hf⟩
    · exact .inr ⟨e, p.2, ends_of_run hx, Prod.ext he rfl⟩
  · rintro (⟨a, t, ⟨m, hm⟩, n, hn⟩ | ⟨e, t, ⟨n, hn⟩, rfl⟩)
    · refine ⟨max m n, fun j k hj hk => (Run.bind_of_ok _ (hm j k ?_ ?_)).trans (hn j k ?_ ?_)⟩
      all_goals omega
    · exact ⟨n, fun j k hj hk => Run.bind_of_error _ (hn j k hj hk)⟩

/-- A call ends exactly as its work does. -/
theorem ends_call_iff {c : Call} {p : Except ScriptError Outcome × Session} :
    (call c).Ends s p ↔ c.work.Ends s p := by
  refine ⟨fun ⟨n, hn⟩ => ?_, Call.ends_of_work⟩
  have h : c.run (Action.execute (n + 1)) (n + 1) (n + 1) s = some p :=
    hn (n + 1) (n + 1) (Nat.le_succ n) (Nat.le_succ n)
  cases c with
  | action a => exact ends_of_run ((congrFun (Call.run_action a n (n + 1)) s).symm.trans h)
  | rounds label condition maxCount body count =>
    rw [Call.run_rounds] at h
    exact ends_of_run h

end Work

end ActionTree
