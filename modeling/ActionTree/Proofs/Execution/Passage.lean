import ActionTree.Proofs.Execution.Built
import ActionTree.Proofs.Execution.Log

/-!
# The way of an error

An error leaves the open scopes one after the other and is not changed on its way, but for the trace that
it gets where it leaves the innermost of the frames that were open when it was raised.
-/

namespace ActionTree

/-! ## Errors and frames -/

/-- Its trace is still to come, or a frame that is one too many gave it that of the frames open then. -/
def ScriptError.Arises (e : ScriptError) (s : Session) : Prop :=
  e.trace = none ∨ e = (ScriptError.runtime (.callDepth s.config.maxCallDepth)).traced s.stack.trace

namespace CallStack

theorem setPhase_setPhase_last (k : CallStack) (first last : Phase) :
    (k.setPhase first).setPhase last = k.setPhase last := by
  cases k with
  | nil => rfl
  | cons f rest => rfl

theorem setPhase_push (k : CallStack) (first last : Phase) (a : Action) :
    (k.push first a).setPhase last = k.push last a := rfl

theorem depth_push (k : CallStack) (phase : Phase) (a : Action) : (k.push phase a).depth = k.depth + 1 := rfl

/-- A phase that was changed can be put back. -/
theorem exists_setPhase (k : CallStack) (phase : Phase) : ∃ before, (k.setPhase phase).setPhase before = k := by
  cases k with
  | nil => exact ⟨phase, rfl⟩
  | cons f rest => exact ⟨f.phase, rfl⟩

end CallStack

/-! ## Errors without a trace -/

/-- Computations whose errors have no trace. -/
def Untraced : RunRel Session := fun _ x _ => x.Raising fun e => e.trace = none

theorem untraced_watchful : Untraced.Watchful := Session.raising_watchful (fun _ => rfl) rfl

theorem untraced_evaluative : Untraced.Evaluative := Session.raising_evaluative (fun _ => rfl) fun _ => rfl

/-! ## Scopes -/

namespace Scope

variable {scope : Scope} {s t u : Session} {α : Type}

/-- An error as it leaves the scope, whose body ended in this session. -/
def pass (u : Session) (e : ScriptError) : Scope → ScriptError
  | frame .. => e.traced u.stack.trace
  | _ => e

/-- A scope that is entered ends as its body does, but for the trace. -/
theorem run_entered (henter : scope.enter s = some t) {x : Run Session α} {r : Except ScriptError α}
    (hx : x t = some (r, u)) : ∃ v, scope.run x s = some (r.mapError fun e => scope.pass u e, v) := by
  have hsame : (r.mapError fun e : ScriptError => e) = r := by cases r <;> rfl
  cases scope with
  | frame phase a =>
      dsimp only [enter] at henter
      split at henter
      · cases henter
      · rename_i hroom
        cases henter
        refine ⟨{ u with stack := u.stack.pop }, (if_neg hroom).trans ?_⟩
        rw [hx]
        rfl
  | overlaid overlay namePrefix =>
      have hsaved := @Session.bindOver_saved namePrefix overlay s.store [] (List.forall_mem_nil _)
      dsimp only [enter] at henter
      change ∃ v, Session.withVars overlay namePrefix x s = some (r.mapError fun e => e, v)
      rw [hsame]
      unfold Session.withVars
      generalize Session.bindOver namePrefix [] overlay s.store = bound at henter hsaved
      obtain ⟨vars, saved, fault⟩ := bound
      cases fault with
      | some fault => cases henter
      | none =>
          cases henter
          dsimp only
          rw [hx]
          exact ⟨_, congrArg some (Session.putBack_eq _ _ hsaved)⟩
  | rephased phase | onVariables vars | handling caught =>
      cases henter
      change ∃ v, (x _).map _ = some (r.mapError fun e => e, v)
      rw [hsame, hx]
      exact ⟨_, rfl⟩

/-- A scope that is not entered ends with an error that arises there. -/
theorem run_refused (henter : scope.enter s = none) (x : Run Session α) :
    ∃ e t, scope.run x s = some (.error e, t) ∧ e.Arises t ∧ t.stack = s.stack := by
  cases scope with
  | frame phase a =>
      dsimp only [enter] at henter
      split at henter
      · rename_i hdeep
        exact ⟨_, s, if_pos hdeep, .inr rfl, rfl⟩
      · cases henter
  | overlaid overlay namePrefix =>
      have hsaved := @Session.bindOver_saved namePrefix overlay s.store [] (List.forall_mem_nil _)
      dsimp only [enter] at henter
      change ∃ e t, Session.withVars overlay namePrefix x s = some (.error e, t) ∧ _
      unfold Session.withVars
      generalize Session.bindOver namePrefix [] overlay s.store = bound at henter hsaved
      obtain ⟨vars, saved, fault⟩ := bound
      cases fault with
      | none => cases henter
      | some fault =>
          exact ⟨.runtime fault, _, congrArg some (Session.putBack_eq _ _ hsaved), .inl rfl, rfl⟩
  | rephased _ | onVariables _ | handling _ => cases henter

end Scope

/-- A scope is refused, or its body does not come to an end, or it does and the scope is left. -/
theorem Work.log_within_cases {m n k : Nat} {calls : Call → Session → List LogEntry} {α : Type} {x : Work α}
    {scope : Scope} {s : Session} {motive : List LogEntry → Option (Except ScriptError α × Session) → Prop}
    (hrefused : ∀ e t, e.Arises t → t.stack = s.stack → motive [.raised e t] (some (.error e, t)))
    (hrunning : ∀ t, scope.enter s = some t → x.run (Action.execute m) n k t = none →
      motive (.entered scope t :: x.log (Action.execute m) n k calls t) none)
    (hended : ∀ t r u v, scope.enter s = some t → x.run (Action.execute m) n k t = some (r, u) →
      u.stack = t.stack → v.stack = s.stack →
      motive (.entered scope t ::
          (x.log (Action.execute m) n k calls t ++ LogEntry.leaving scope (some (r, u))))
        (some (r.mapError fun e => scope.pass u e, v))) :
    motive ((within scope x).log (Action.execute m) n k calls s)
      ((within scope x).run (Action.execute m) n k s) := by
  cases henter : scope.enter s with
  | none =>
      obtain ⟨e, t, hrun, he, hstack⟩ := Scope.run_refused henter (x.run (Action.execute m) n k)
      have hrun : (within scope x).run (Action.execute m) n k s = some (.error e, t) := hrun
      rw [log_within_refused henter, hrun]
      exact hrefused e t he hstack
  | some t =>
      rw [log_within henter]
      cases hend : x.run (Action.execute m) n k t with
      | none =>
          obtain ⟨leave, hrun, _⟩ := Scope.run_of_enter henter
          have hnone : (within scope x).run (Action.execute m) n k s = none := by
            refine (hrun _ _).trans ?_
            rw [hend]
            rfl
          rw [hnone, LogEntry.leaving, List.append_nil]
          exact hrunning t henter hend
      | some p =>
          obtain ⟨r, u⟩ := p
          obtain ⟨v, hrun⟩ := Scope.run_entered henter hend
          have hrun : (within scope x).run (Action.execute m) n k s = _ := hrun
          rw [hrun]
          exact hended t r u v henter hend (x.run_sameFrames hend).1 ((within scope x).run_sameFrames hrun).1

/-! ## The way of an error -/

/-- The error `e`, raised while the frames `k` are open, has come through all this and is now `e'`, with the
frames `k'` open. Where the log has a cleanup on the way, which ends without a word, nothing that was open
is left meanwhile. -/
inductive Passage (phase : Phase) (cleans : Prop) (e : ScriptError) (k : CallStack) :
    List LogEntry → ScriptError → CallStack → Prop where
  | raised : Passage phase cleans e k [] e k
  | frame {log : List LogEntry} {e' : ScriptError} {k' : CallStack} {a : Action} {u : Session} :
      Passage phase cleans e k log e' (k'.push phase a) → u.stack = k'.push phase a →
      Passage phase cleans e k (log ++ [.left (.frame phase a) (some e') u]) (e'.traced u.stack.trace) k'
  | rephased {log : List LogEntry} {e' : ScriptError} {k' : CallStack} {other : Phase} {u : Session}
      (before : Phase) : Passage phase cleans e k log e' k' → u.stack = k' → e'.trace = none →
      Passage phase cleans e k (log ++ [.left (.rephased other) (some e') u]) e' (k'.setPhase before)
  | other {log : List LogEntry} {e' : ScriptError} {k' : CallStack} {scope : Scope} {u : Session} :
      Passage phase cleans e k log e' k' → u.stack = k' →
      (∀ phase a, scope ≠ .frame phase a) → (∀ phase, scope ≠ .rephased phase) →
      Passage phase cleans e k (log ++ [.left scope (some e') u]) e' k'
  | again {log : List LogEntry} {e' : ScriptError} {k' : CallStack} {u : Session} :
      Passage phase cleans e k log e' k' → u.stack = k' →
      Passage phase cleans e k (log ++ [.raised e' u]) e' k'
  | cleanedUp {log between : List LogEntry} {e' : ScriptError} {k' : CallStack} {u : Session} : cleans →
      Passage phase cleans e k log e' k' → (∀ entry ∈ between, k'.depth ≤ entry.session.stack.depth) →
      u.stack = k' → Passage phase cleans e k (log ++ between ++ [.raised e' u]) e' k'

namespace Passage

variable {phase : Phase} {cleans : Prop} {e e' : ScriptError} {k k' : CallStack} {log : List LogEntry}

theorem cause_eq (h : Passage phase cleans e k log e' k') : e'.cause = e.cause := by
  induction h with
  | raised => rfl
  | frame _ _ ih => exact (ScriptError.cause_traced _ _).trans ih
  | rephased _ _ _ _ ih => exact ih
  | other _ _ _ _ ih => exact ih
  | again _ _ ih => exact ih
  | cleanedUp _ _ _ _ ih => exact ih

/-- As long as no frame is left, the error is as it was raised; the first one that is left gives it the
trace of the frames that were open, if it has none, and then nothing changes it. -/
theorem split (h : Passage phase cleans e k log e' k') :
    (e' = e ∧ k'.depth = k.depth ∧ k'.setPhase phase = k.setPhase phase ∧ (e.trace ≠ none → k' = k)) ∨
      e' = e.traced (k.setPhase phase).trace ∧ k'.depth < k.depth ∧
        (e.trace ≠ none → k.setPhase phase = k) := by
  induction h with
  | raised => exact .inl ⟨rfl, rfl, rfl, fun _ => rfl⟩
  | @frame log e' k' a u _ hu ih =>
      rw [CallStack.depth_push, CallStack.setPhase_push] at ih
      rcases ih with ⟨rfl, hdepth, hphase, htraced⟩ | ⟨rfl, hdepth, htraced⟩
      · refine .inr ⟨by rw [hu, hphase], by omega, fun htrace => ?_⟩
        rw [← hphase]
        exact htraced htrace
      · refine .inr ⟨ScriptError.traced_of_trace ?_, by omega, htraced⟩
        rw [ScriptError.trace_traced]
        exact Option.some_ne_none _
  | @rephased log e' k' other u before _ _ hbare ih =>
      rcases ih with ⟨rfl, hdepth, hphase, htraced⟩ | ⟨rfl, -, -⟩
      · refine .inl ⟨rfl, ?_, ?_, fun htrace => absurd hbare htrace⟩
        · rw [CallStack.depth_setPhase, hdepth]
        · rw [CallStack.setPhase_setPhase_last, hphase]
      · rw [ScriptError.trace_traced] at hbare
        cases hbare
  | other _ _ _ _ ih => exact ih
  | again _ _ ih => exact ih
  | cleanedUp _ _ _ _ ih => exact ih

/-- An error that has left a frame has the trace of the frames that were open when it was raised, be it
that it got it then. -/
theorem error_eq (h : Passage phase cleans e k log e' k') :
    e' = if k'.depth < k.depth then e.traced (k.setPhase phase).trace else e := by
  rcases h.split with ⟨he, hdepth, -, -⟩ | ⟨he, hdepth, -⟩
  · rw [if_neg (by omega), he]
  · rw [if_pos hdepth, he]

/-- An error that has left a frame has left the innermost one that was open first; the frames that are
open now were around that one. -/
theorem innermost (h : Passage phase cleans e k log e' k') (hdepth : k'.depth < k.depth) :
    ∃ way a w outer, way ++ [.left (.frame phase a) (some e) w] <+: log ∧ w.stack = k.setPhase phase ∧
      w.stack = CallStack.push outer phase a ∧ k' <:+ outer ∧ Passage phase cleans e k way e w.stack := by
  induction h with
  | raised => omega
  | @frame log e' k' a u hway hu ih =>
      rcases hway.split with ⟨rfl, -, hphase, -⟩ | ⟨-, hpush, -⟩
      · have hstack : u.stack = k.setPhase phase := by rw [hu, ← hphase, CallStack.setPhase_push]
        exact ⟨log, a, u, k', List.prefix_refl _, hstack, hu, List.suffix_refl _, hu ▸ hway⟩
      · obtain ⟨way, b, w, outer, hprefix, hw, houter, hsuffix, hinner⟩ := ih hpush
        have hopen : k' <:+ k'.push phase a := List.suffix_cons _ _
        exact ⟨way, b, w, outer, hprefix.trans (List.prefix_append _ _), hw, houter, hopen.trans hsuffix, hinner⟩
  | @rephased log e' k' other u before hway _ hbare _ =>
      -- With a frame left the error has a trace, and then it is not in a changed phase.
      rw [CallStack.depth_setPhase] at hdepth
      rw [hway.error_eq, if_pos hdepth, ScriptError.trace_traced] at hbare
      cases hbare
  | other _ _ _ _ ih | again _ _ ih =>
      obtain ⟨way, b, w, outer, hprefix, hw⟩ := ih hdepth
      exact ⟨way, b, w, outer, hprefix.trans (List.prefix_append _ _), hw⟩
  | @cleanedUp log between e' k' u _ _ _ _ ih =>
      obtain ⟨way, b, w, outer, hprefix, hw⟩ := ih hdepth
      have hlater := (List.prefix_append log between).trans (List.prefix_append _ [.raised e' u])
      exact ⟨way, b, w, outer, hprefix.trans hlater, hw⟩

/-- An error leaves a scope that fits its work. -/
theorem leave {scope : Scope} {s t u : Session} (h : Passage phase cleans e k log e' u.stack)
    (henter : scope.enter s = some t) (hstack : u.stack = t.stack)
    (hframe : ∀ other a, scope = .frame other a → other = phase)
    (hrephased : ∀ other, scope = .rephased other → e'.trace = none) :
    Passage phase cleans e k (log ++ [.left scope (some e') u]) (scope.pass u e') s.stack := by
  cases scope with
  | frame other a =>
      cases hframe other a rfl
      dsimp only [Scope.enter] at henter
      split at henter
      · cases henter
      · cases henter
        have hstack : u.stack = s.stack.push phase a := hstack
        rw [hstack] at h
        exact .frame h hstack
  | rephased other =>
      cases henter
      obtain ⟨before, hbefore⟩ := s.stack.exists_setPhase other
      have hback : u.stack.setPhase before = s.stack :=
        (congrArg (fun stack => CallStack.setPhase stack before) hstack).trans hbefore
      rw [← hback]
      exact .rephased before h rfl (hrephased other rfl)
  | overlaid overlay namePrefix =>
      dsimp only [Scope.enter] at henter
      split at henter
      · cases henter
        exact hstack ▸ .other h rfl nofun nofun
      · cases henter
  | onVariables vars | handling caught =>
      cases henter
      exact hstack ▸ .other h rfl nofun nofun

end Passage

end ActionTree
