import ActionTree.Proofs.Execution.Decomposition
import ActionTree.Proofs.Session.Nesting

/-!
# The course of execution

The moments of a piece of work, and of all that it calls: which step is taken, what is asked and what is
called, in which session. From the moments of each piece follows what holds at every moment of an
execution, and whether it comes to an end.
-/

namespace ActionTree

/-- What happens at a moment. -/
inductive Event where
  | step
  | inquiry {α : Type} (q : Inquiry α)
  | call (c : Call)

namespace Work

variable {α β : Type}

/-- Given enough steps, the work ends so. -/
def Ends (w : Work α) (s : Session) (p : Except ScriptError α × Session) : Prop :=
  ∃ N, ∀ n k, N ≤ n → N ≤ k → w.run (Action.execute n) n k s = some p

/-- In the course of the work that begins in the first session, this happens in the second. What is called
is not part of it. -/
def Meets : {α : Type} → Work α → Session → Event → Session → Prop
  | _, step _ _, s, e, u => e = .step ∧ u = s
  | _, inquire q, s, e, u => e = .inquiry q ∧ u = s
  | _, call c, s, e, u => e = .call c ∧ u = s
  | _, bind x f, s, e, u => x.Meets s e u ∨ ∃ a t, x.Ends s (.ok a, t) ∧ (f a).Meets t e u
  | _, settle x, s, e, u => x.Meets s e u
  | _, within scope x, s, e, u => ∃ t, scope.enter s = some t ∧ x.Meets t e u

end Work

/-- This happens in the course of a call, there or in what it calls. -/
inductive Course : Call → Session → Event → Session → Prop where
  | here {c : Call} {s u : Session} {e : Event} : c.work.Meets s e u → Course c s e u
  | inside {c d : Call} {s t u : Session} {e : Event} :
      c.work.Meets s (.call d) t → Course d t e u → Course c s e u

/-- What happens in the course of a call that is made in the course of another. -/
theorem Course.of_call {c d : Call} {s t u : Session} {e : Event} (h : Course c s (.call d) t)
    (h' : Course d t e u) : Course c s e u := by
  generalize he : Event.call d = e' at h
  induction h with
  | here hmeets =>
      subst he
      exact .inside hmeets h'
  | inside hmeets _ ih => exact .inside hmeets (ih h' he)

/-- This happens in the course of the work, there or in what it calls. -/
def Work.Leads {α : Type} (w : Work α) (s : Session) (e : Event) (u : Session) : Prop :=
  w.Meets s e u ∨ ∃ c t, w.Meets s (.call c) t ∧ Course c t e u

/-! ## What work leaves alone -/

/-- Frames and configuration are the same. -/
def Session.SameFrames (s t : Session) : Prop := t.stack = s.stack ∧ t.config = s.config

theorem Session.Framed.sameFrames {s t : Session} (h : s.Framed t) : s.SameFrames t := ⟨h.stack, h.config⟩

theorem Inquiry.run_framed {α : Type} (q : Inquiry α) (n : Nat) :
    Session.Within Session.Framed (q.run n) :=
  q.run_related (R := fun _ x _ => Session.Within Session.Framed x) Session.framed_effect.blockwise.toEvaluative n

theorem Call.run_framed (c : Call) (m n k : Nat) :
    Session.Within Session.Framed (c.run (Action.execute m) n k) :=
  have E := Session.framed_effect.blockwise
  c.run_related (R := fun _ x _ => Session.Within Session.Framed x) E.toExecutive (E.execute m) n k

namespace Work

variable {α β : Type}

theorem run_sameFrames (w : Work α) {m n k : Nat} {s t : Session} {r : Except ScriptError α}
    (h : w.run (Action.execute m) n k s = some (r, t)) : s.SameFrames t := by
  induction w generalizing s t with
  | step x steady =>
      obtain ⟨r', t', hx, hsame⟩ := steady s
      cases hx.symm.trans h
      exact hsame
  | inquire q => exact (q.run_framed n h).sameFrames
  | call c => exact (c.run_framed m n k h).sameFrames
  | bind x f ihx ihf =>
      rcases Run.bind_inv h with ⟨a, u, hx, hf⟩ | ⟨e, hx, _⟩
      · have hxu := ihx hx
        have hut := ihf a hf
        exact ⟨hut.1.trans hxu.1, hut.2.trans hxu.2⟩
      · exact ihx hx
  | settle x ih =>
      obtain ⟨p, hx, hp⟩ := Option.map_eq_some_iff.mp h
      cases hp
      exact ih hx
  | within scope x ih =>
      cases henter : scope.enter s with
      | none =>
          obtain ⟨e, u, hstack, hconfig, hrun⟩ := Scope.run_of_enter_none henter
          cases (hrun _).symm.trans h
          exact ⟨hstack, hconfig⟩
      | some u =>
          obtain ⟨leave, hrun, hleave⟩ := Scope.run_of_enter henter
          obtain ⟨⟨r', v⟩, hx, hp⟩ := Option.map_eq_some_iff.mp ((hrun _ _).symm.trans h)
          have hv := ih hx
          have hback := hleave _ r' v hv.1 hv.2
          rw [hp] at hback
          exact hback

theorem Ends.sameFrames {w : Work α} {s : Session} {p : Except ScriptError α × Session} (h : w.Ends s p) :
    s.SameFrames p.2 := by
  obtain ⟨N, hN⟩ := h
  exact w.run_sameFrames (hN N N (Nat.le_refl N) (Nat.le_refl N))

theorem ends_step_iff {x : Run Session α} {steady : x.Steady} {s : Session}
    {p : Except ScriptError α × Session} : (step x steady).Ends s p ↔ x s = some p := by
  constructor
  · rintro ⟨N, hN⟩
    exact hN N N (Nat.le_refl N) (Nat.le_refl N)
  · intro h
    exact ⟨0, fun _ _ _ _ => h⟩

end Work

/-! ## Depth -/

namespace Session

/-- From the first session to the second the configuration stays, frames may be opened, and not too many
are. -/
structure Deeper (s u : Session) : Prop where
  config : u.config = s.config
  depth : s.stack.depth ≤ u.stack.depth
  bounded : s.stack.depth ≤ s.config.maxCallDepth → u.stack.depth ≤ s.config.maxCallDepth

theorem Deeper.refl (s : Session) : s.Deeper s := ⟨rfl, Nat.le_refl _, id⟩

theorem Deeper.trans {s t u : Session} (h : s.Deeper t) (h' : t.Deeper u) : s.Deeper u where
  config := h'.config.trans h.config
  depth := Nat.le_trans h.depth h'.depth
  bounded hs := h.config ▸ h'.bounded (h.config.symm ▸ h.bounded hs)

theorem SameFrames.deeper {s t : Session} (h : s.SameFrames t) : s.Deeper t where
  config := h.2
  depth := Nat.le_of_eq (congrArg CallStack.depth h.1.symm)
  bounded hs := h.1.symm ▸ hs

end Session

theorem CallStack.depth_setPhase (stack : CallStack) (phase : Phase) :
    (stack.setPhase phase).depth = stack.depth := by
  cases stack <;> rfl

/-- Only a frame takes a scope deeper, and only where there is room for it. -/
theorem Scope.enter_deeper {scope : Scope} {s t : Session} (h : scope.enter s = some t) : s.Deeper t := by
  cases scope with
  | frame phase a =>
      dsimp only [enter] at h
      split at h
      · cases h
      · rename_i hroom
        cases h
        exact ⟨rfl, Nat.le_succ _, fun _ => Nat.lt_of_not_le hroom⟩
  | rephased phase =>
      cases h
      have hdepth := CallStack.depth_setPhase s.stack phase
      exact ⟨rfl, Nat.le_of_eq hdepth.symm, fun hs => Nat.le_trans (Nat.le_of_eq hdepth) hs⟩
  | overlaid overlay namePrefix =>
      dsimp only [enter] at h
      split at h
      · cases h
        exact ⟨rfl, Nat.le_refl _, id⟩
      · cases h
  | onVariables vars | handling caught =>
      cases h
      exact ⟨rfl, Nat.le_refl _, id⟩

theorem Work.Meets.deeper {α : Type} {w : Work α} {s u : Session} {e : Event} (h : w.Meets s e u) :
    s.Deeper u := by
  induction w generalizing s with
  | step x steady | inquire q | call c =>
      obtain ⟨_, rfl⟩ := h
      exact .refl _
  | bind x f ihx ihf =>
      rcases h with h | ⟨a, t, hx, h⟩
      · exact ihx h
      · exact hx.sameFrames.deeper.trans (ihf a h)
  | settle x ih => exact ih h
  | within scope x ih =>
      obtain ⟨t, henter, h⟩ := h
      exact (Scope.enter_deeper henter).trans (ih h)

theorem Course.deeper {c : Call} {s u : Session} {e : Event} (h : Course c s e u) : s.Deeper u := by
  induction h with
  | here h => exact h.deeper
  | inside h _ ih => exact h.deeper.trans ih

theorem Work.Leads.deeper {α : Type} {w : Work α} {s u : Session} {e : Event} (h : w.Leads s e u) :
    s.Deeper u := by
  rcases h with h | ⟨c, t, h, hc⟩
  · exact h.deeper
  · exact h.deeper.trans hc.deeper

/-! ## Coming to an end -/

namespace Inquiry

variable {α : Type}

/-- The evaluation that answers the question comes to an end. -/
def Returns (q : Inquiry α) (s : Session) : Prop := ∃ n r, q.run n s = some r

theorem run_extends (q : Inquiry α) {m n : Nat} (h : m ≤ n) : Session.Extends (q.run m) (q.run n) := by
  have C := Session.extends_evaluative
  cases q with
  | evaluate text => exact C.evaluateBy (Session.lookUp_extends h) .single text
  | transform rules text =>
      refine C.reading (fun _ _ h => by simp only [Session.environment, h.surroundings, and_self]) fun s => ?_
      exact TransformRules.apply_related C.toCompatible
        (C.environmentBy (Session.lookUp_extends h) s.surroundings.host) rules [] (.str text)
  | isSet name => exact C.isSetBy (Session.lookUp_extends h) name

end Inquiry

namespace Work

variable {α β : Type}

/-- Work comes to an end if its evaluations return and its calls come to an end. -/
theorem exists_ends (w : Work α) {s : Session}
    (hinquiry : ∀ {β : Type} (q : Inquiry β) u, w.Meets s (.inquiry q) u → q.Returns u)
    (hcall : ∀ c u, w.Meets s (.call c) u → ∃ p, (call c).Ends u p) : ∃ p, w.Ends s p := by
  induction w generalizing s with
  | step x steady =>
      obtain ⟨r, t, hx, _⟩ := steady s
      exact ⟨(r, t), ends_step_iff.mpr hx⟩
  | inquire q =>
      obtain ⟨N, p, hN⟩ := hinquiry q s ⟨rfl, rfl⟩
      exact ⟨p, N, fun n k hn _ => q.run_extends hn hN⟩
  | call c => exact hcall c s ⟨rfl, rfl⟩
  | bind x f ihx ihf =>
      obtain ⟨⟨r, t⟩, N, hN⟩ := ihx (fun q u h => hinquiry q u (.inl h)) fun c u h => hcall c u (.inl h)
      cases r with
      | error e => exact ⟨(.error e, t), N, fun n k hn hk => Run.bind_of_error _ (hN n k hn hk)⟩
      | ok a =>
          have hx : x.Ends s (.ok a, t) := ⟨N, hN⟩
          obtain ⟨p, M, hM⟩ := ihf a (fun q u h => hinquiry q u (.inr ⟨a, t, hx, h⟩))
            fun c u h => hcall c u (.inr ⟨a, t, hx, h⟩)
          refine ⟨p, max N M, fun n k hn hk => ?_⟩
          refine (Run.bind_of_ok _ (hN n k (by omega) (by omega))).trans ?_
          exact hM n k (by omega) (by omega)
  | settle x ih =>
      obtain ⟨p, N, hN⟩ := ih hinquiry hcall
      exact ⟨(.ok p.1, p.2), N, fun n k hn hk => Run.settled_of_some (hN n k hn hk)⟩
  | within scope x ih =>
      cases henter : scope.enter s with
      | none =>
          obtain ⟨e, t, _, _, hrun⟩ := Scope.run_of_enter_none henter
          exact ⟨(.error e, t), 0, fun n k _ _ => hrun _⟩
      | some t =>
          obtain ⟨leave, hrun, _⟩ := Scope.run_of_enter henter
          obtain ⟨p, N, hN⟩ := ih (fun q u h => hinquiry q u ⟨t, henter, h⟩)
            fun c u h => hcall c u ⟨t, henter, h⟩
          refine ⟨leave _ p, N, fun n k hn hk => ?_⟩
          refine (hrun _ _).trans ?_
          rw [hN n k hn hk]
          rfl

end Work

/-- A call comes to an end as its work does. -/
theorem Call.ends_of_work {c : Call} {s : Session} {p : Except ScriptError Outcome × Session}
    (h : c.work.Ends s p) : (Work.call c).Ends s p := by
  obtain ⟨N, hN⟩ := h
  refine ⟨N + 1, fun n k hn hk => ?_⟩
  change c.run (Action.execute n) n k s = some p
  cases c with
  | action a =>
      obtain ⟨n, rfl⟩ : ∃ m, n = m + 1 := ⟨n - 1, by omega⟩
      rw [run_action]
      exact hN n n (by omega) (by omega)
  | rounds label condition maxCount body count =>
      obtain ⟨k, rfl⟩ : ∃ m, k = m + 1 := ⟨k - 1, by omega⟩
      rw [run_rounds]
      exact hN n k (by omega) (by omega)

end ActionTree
