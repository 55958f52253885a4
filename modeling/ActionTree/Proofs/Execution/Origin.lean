import ActionTree.Proofs.Execution.Built
import ActionTree.Proofs.Execution.Steps
import ActionTree.Proofs.Session.Syntax

/-!
# Where errors of syntax come from

No step of an execution ends with an error of syntax by itself. So if an execution ends with one, an
evaluation in its course did.
-/

namespace ActionTree

/-! ## Scopes -/

namespace Session

variable {α : Type} {x : Run Session α} {s : Session} {f : SyntaxError}

theorem withFrame_raises_iff {phase : Phase} {a : Action} : (withFrame phase a x).Raises f s ↔
    ¬s.config.maxCallDepth ≤ s.stack.depth ∧ x.Raises f { s with stack := s.stack.push phase a } := by
  by_cases hdeep : s.config.maxCallDepth ≤ s.stack.depth
  · have happly : withFrame phase a x s = some (.error ((ScriptError.runtime
        (.callDepth s.config.maxCallDepth)).traced s.stack.trace), s) := if_pos hdeep
    refine iff_of_false (fun h => ?_) fun h => h.1 hdeep
    obtain ⟨e, u, heq, he⟩ := h
    rw [happly] at heq
    cases heq
    rw [ScriptError.malformed?_traced] at he
    cases he
  · have happly : withFrame phase a x s = (x { s with stack := s.stack.push phase a }).map fun p =>
        (p.1.mapError fun e => e.traced p.2.stack.trace, { p.2 with stack := p.2.stack.pop }) := if_neg hdeep
    constructor
    · intro h
      obtain ⟨e, u, heq, he⟩ := h
      rw [happly] at heq
      obtain ⟨⟨result, t⟩, hbody, hback⟩ := Option.map_eq_some_iff.mp heq
      cases result with
      | ok a => cases hback
      | error e' =>
          cases hback
          rw [ScriptError.malformed?_traced] at he
          exact ⟨hdeep, e', t, hbody, he⟩
    · intro h
      obtain ⟨_, e, t, hbody, he⟩ := h
      refine ⟨e.traced t.stack.trace, { t with stack := t.stack.pop }, ?_, ?_⟩
      · rw [happly, hbody]
        rfl
      · rw [ScriptError.malformed?_traced, he]

theorem withVars_raises {overlay : List (String × Value)} {namePrefix : String}
    (h : (withVars overlay namePrefix x).Raises f s) :
    ∃ vars saved, bindOver namePrefix [] overlay s.store = (vars, saved, none) ∧
      x.Raises f { s with store := vars } := by
  obtain ⟨e, u, heq, he⟩ := h
  unfold withVars at heq
  have hsaved := bindOver_saved namePrefix overlay s.store (List.forall_mem_nil _)
  generalize bindOver namePrefix [] overlay s.store = bound at heq hsaved
  obtain ⟨vars, saved, fault⟩ := bound
  cases fault with
  | some fault =>
      have hback := Option.some.inj heq
      rw [putBack_eq _ _ hsaved] at hback
      cases hback
      cases he
  | none =>
      obtain ⟨⟨result, t⟩, hbody, hback⟩ := Option.map_eq_some_iff.mp heq
      change putBack saved result t = _ at hback
      rw [putBack_eq _ _ hsaved] at hback
      cases hback
      exact ⟨vars, saved, rfl, e, t, hbody, he⟩

end Session

/-- A scope ends with an error of syntax only if its body does. -/
theorem Scope.raises_of_run {α : Type} {scope : Scope} {x : Run Session α} {s : Session} {f : SyntaxError}
    (h : (scope.run x).Raises f s) : ∃ t, scope.enter s = some t ∧ x.Raises f t := by
  cases scope with
  | frame phase a =>
      obtain ⟨hroom, hbody⟩ := Session.withFrame_raises_iff.mp h
      exact ⟨_, if_neg hroom, hbody⟩
  | rephased phase =>
      obtain ⟨e, u, heq, he⟩ := h
      obtain ⟨t, hx, _⟩ := Session.withPhase_inv heq
      exact ⟨_, rfl, e, t, hx, he⟩
  | overlaid overlay namePrefix =>
      obtain ⟨vars, saved, hbound, hbody⟩ := Session.withVars_raises h
      exact ⟨_, by simp only [enter, hbound], hbody⟩
  | onVariables vars =>
      obtain ⟨e, u, heq, he⟩ := h
      obtain ⟨t, hx, _⟩ := Session.onVariables_inv heq
      exact ⟨_, rfl, e, t, hx, he⟩
  | handling caught =>
      obtain ⟨e, u, heq, he⟩ := h
      obtain ⟨t, hx, _⟩ := Session.withException_inv heq
      exact ⟨_, rfl, e, t, hx, he⟩

/-! ## Work -/

/-- What happens at the moment ends with this error of syntax. -/
def Event.Raises (n k : Nat) (f : SyntaxError) (u : Session) : Event → Prop
  | .step => False
  | .inquiry q => (q.run n).Raises f u
  | .call c => (c.run (Action.execute n) n k).Raises f u

namespace Work

variable {α β : Type}

/-- Every error of syntax with which the work ends is the end of an inquiry or a call that it makes, or
one of those given. -/
def Relays (given : SyntaxError → Prop) (w : Work α) : Prop := ∀ ⦃n k s f⦄,
  (w.run (Action.execute n) n k).Raises f s → given f ∨ ∃ e u, w.Meets s e u ∧ e.Raises n k f u

/-- A step that raises no error of syntax. -/
def NoSyntax : RunRel Session := fun _ x _ => x.Raising fun e => e.malformed? = none

theorem noSyntax_watchful : NoSyntax.Watchful := Session.raising_watchful (fun _ => rfl) rfl

section

variable {given : SyntaxError → Prop}

theorem relays_step {x : Run Session α} {steady : x.Steady} (h : NoSyntax x x) :
    Relays given (.step x steady) := by
  intro n k s f hraises
  obtain ⟨e, t, heq, he⟩ := hraises
  rw [h heq] at he
  cases he

theorem relays_bind {x : Work α} {g : α → Work β} (hx : Relays given x) (hg : ∀ a, Relays given (g a)) :
    Relays given (x >>= g) := by
  intro n k s f h
  rcases Run.raises_bind_iff.mp h with h | ⟨a, t, hxa, h⟩
  · rcases hx h with hf | ⟨e, u, hmeets, he⟩
    · exact .inl hf
    · exact .inr ⟨e, u, .inl hmeets, he⟩
  · rcases hg a h with hf | ⟨e, u, hmeets, he⟩
    · exact .inl hf
    · exact .inr ⟨e, u, .inr ⟨a, t, ends_of_run hxa, hmeets⟩, he⟩

/-- What follows a settled end may end in the same way. -/
theorem relays_settle_bind {x : Work α} {g : Except ScriptError α → Work β} (hx : Relays given x)
    (hg : ∀ r, Relays (fun f => given f ∨ ∃ e, r = .error e ∧ e.malformed? = some f) (g r)) :
    Relays given (.settle x >>= g) := by
  intro n k s f h
  rcases Run.raises_bind_iff.mp h with ⟨e, t, heq, _⟩ | ⟨r, t, hr, h⟩
  · obtain ⟨p, _, hp⟩ := Option.map_eq_some_iff.mp heq
    cases hp
  · obtain ⟨p, hp, heq⟩ := Option.map_eq_some_iff.mp hr
    cases heq
    rcases hg p.1 h with (hf | ⟨e, he, hf⟩) | ⟨e, u, hmeets, he⟩
    · exact .inl hf
    · have hraises : (x.run (Action.execute n) n k).Raises f s := ⟨e, p.2, by rw [hp, ← he], hf⟩
      rcases hx hraises with hf | ⟨e, u, hmeets, he⟩
      · exact .inl hf
      · exact .inr ⟨e, u, .inl hmeets, he⟩
    · exact .inr ⟨e, u, .inr ⟨p.1, p.2, ends_of_run hr, hmeets⟩, he⟩

theorem relays_within {scope : Scope} {x : Work α} (hx : Relays given x) : Relays given (.within scope x) := by
  intro n k s f h
  obtain ⟨t, henter, h⟩ := Scope.raises_of_run h
  rcases hx h with hf | ⟨e, u, hmeets, he⟩
  · exact .inl hf
  · exact .inr ⟨e, u, ⟨t, henter, hmeets⟩, he⟩

/-- An error that is raised again was given. -/
theorem relays_again {x : Work α} {e : ScriptError}
    (hx : ∀ exec n k s, x.run exec n k s = some (.error e, s)) (hgiven : ∀ f, e.malformed? = some f → given f) :
    Relays given x := by
  intro n k s f h
  obtain ⟨e', t, heq, he⟩ := h
  rw [hx] at heq
  cases heq
  exact .inl (hgiven f he)

theorem Asking.relays {w : Work α} (h : Asking NoSyntax w) : Relays given w := by
  induction h with
  | step hx => exact relays_step hx
  | inquire q => exact fun n k s f h => .inr ⟨.inquiry q, s, ⟨rfl, rfl⟩, h⟩
  | bind _ _ ihx ihf => exact relays_bind ihx ihf
  | reading _ _ ih => exact relays_bind (relays_step noSyntax_watchful.get) ih

end

/-- Handlers and cleanups leave an error of syntax alone. -/
theorem Built.relays {phase : Phase} {cleans : Prop} {w : Work α} (h : Built NoSyntax phase cleans w)
    (given : SyntaxError → Prop) : Relays given w := by
  have hpure {γ : Type} {given : SyntaxError → Prop} (a : γ) : Relays given (pure a) :=
    relays_step (noSyntax_watchful.pure a)
  induction h generalizing given with
  | asking h => exact h.relays
  | call c => exact fun n k s f h => .inr ⟨.call c, s, ⟨rfl, rfl⟩, h⟩
  | bind _ _ ihx ihf => exact relays_bind (ihx given) fun a => ihf a given
  | reading _ _ ih => exact relays_bind (relays_step noSyntax_watchful.get) fun s => ih s given
  | rephased other h => exact relays_within h.relays
  | frame a _ ih => exact relays_within (ih given)
  | overlaid overlay namePrefix _ ih => exact relays_within (ih given)
  | onVariables vars _ ih => exact relays_within (ih given)
  | @guarded handlers items _ _ ihitems ihcaught =>
      refine relays_settle_bind (ihitems given) fun r => ?_
      cases r with
      | ok outcome => exact hpure outcome
      | error e =>
          have hagain (f : SyntaxError) (hf : e.malformed? = some f) :
              given f ∨ ∃ e', Except.error (α := Outcome) e = .error e' ∧ e'.malformed? = some f :=
            .inr ⟨e, rfl, hf⟩
          dsimp only
          unfold handle
          split
          · refine relays_bind (relays_step noSyntax_watchful.freshIdentity) fun identity => ?_
            exact relays_within (ihcaught _ rfl _)
          · exact relays_again (fun _ _ _ _ => rfl) hagain
  | @cleanedUp items x _ _ _ ihx ihitems =>
      refine relays_settle_bind (ihx given) fun r => relays_bind (ihitems _) fun outcome => ?_
      cases outcome with
      | some signal => exact hpure _
      | none =>
          cases r with
          | ok outcome => exact relays_step (noSyntax_watchful.pure outcome)
          | error e => exact relays_again (fun _ _ _ _ => rfl) fun f hf => .inr ⟨e, rfl, hf⟩

end Work

/-! ## Calls -/

namespace Call

/-- An evaluation in the course of the call ends with the error. -/
def Meets (c : Call) (s : Session) (f : SyntaxError) : Prop :=
  ∃ (γ : Type) (q : Inquiry γ) (u : Session) (n : Nat), Course c s (.inquiry q) u ∧ (q.run n).Raises f u

/-- One call deeper, or one round further. -/
theorem meets_of_work {c : Call} {n k : Nat} {s : Session} {f : SyntaxError}
    (hinside : ∀ d u, (Call.run (Action.execute n) n k d).Raises f u → d.Meets u f)
    (h : (c.work.run (Action.execute n) n k).Raises f s) : c.Meets s f := by
  have hbuilt : Work.Built Work.NoSyntax .executing True c.work :=
    c.built_work Work.noSyntax_watchful.toActing fun _ _ _ _ => .inr trivial
  have hrelays := hbuilt.relays fun _ => False
  rcases hrelays h with hfalse | ⟨e, u, hmeets, he⟩
  · exact hfalse.elim
  · cases e with
    | step => exact he.elim
    | inquiry q => exact ⟨_, q, u, n, .here hmeets, he⟩
    | call d =>
        obtain ⟨γ, q, v, m, hcourse, hq⟩ := hinside d u he
        exact ⟨γ, q, v, m, .inside hmeets hcourse, hq⟩

/-- By induction on the rounds that a loop may still make. -/
theorem meets_of_raises {n : Nat} {f : SyntaxError}
    (hexec : ∀ a s, (Action.execute n a).Raises f s → (action a).Meets s f) {k : Nat} {c : Call}
    {s : Session} (h : (c.run (Action.execute n) n k).Raises f s) : c.Meets s f := by
  induction k generalizing c s with
  | zero =>
      cases c with
      | action a => exact hexec a s h
      | rounds label condition maxCount body count => exact (Run.Clean.unfinished s f h).elim
  | succ k ih =>
      cases c with
      | action a => exact hexec a s h
      | rounds label condition maxCount body count =>
          rw [run_rounds] at h
          exact meets_of_work (fun d u => ih) h

end Call

/-- If an execution ends with an error of syntax, an evaluation in its course did; by induction on the
steps. -/
theorem Action.meets_of_execute {n : Nat} {a : Action} {s : Session} {f : SyntaxError}
    (h : (a.execute n).Raises f s) : (Call.action a).Meets s f := by
  induction n generalizing a s with
  | zero => exact (Run.Clean.unfinished s f h).elim
  | succ n ih =>
      have hwork : ((Call.action a).work.run (execute n) n n).Raises f s := by
        rw [← Call.run_action a n 0]
        exact h
      exact Call.meets_of_work (fun d u => Call.meets_of_raises fun b t => ih) hwork

end ActionTree
