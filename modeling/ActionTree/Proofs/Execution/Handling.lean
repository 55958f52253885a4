import ActionTree.Proofs.Execution.Passage
import Mathlib.Data.List.Induction

/-!
# The exception that handlers see

While the handlers of a block run, the current exception is the one that they are for. Around all handlers
it is the one that there was before.
-/

namespace ActionTree

/-- The exception that the actions in the scope are to handle. -/
def Scope.caught : Scope → Option CaughtFault
  | handling c => some c
  | _ => none

theorem Scope.enter_currentException {scope : Scope} {s t : Session} (h : scope.enter s = some t) :
    t.currentException = scope.caught.or s.currentException := by
  cases scope with
  | frame phase a =>
      dsimp only [enter] at h
      split at h
      · cases h
      · cases h
        rfl
  | overlaid overlay namePrefix =>
      dsimp only [enter] at h
      split at h
      · cases h
        rfl
      · cases h
  | rephased phase | onVariables vars | handling caught =>
      cases h
      rfl

namespace LogEntry

/-- The exceptions whose handlers are running, the innermost first. -/
def handling (handled : List CaughtFault) : LogEntry → List CaughtFault
  | entered scope _ => scope.caught.toList ++ handled
  | left scope _ _ => handled.drop scope.caught.toList.length
  | _ => handled

variable {α : Type} {scope : Scope} {r? : Option (Except ScriptError α × Session)}

theorem event_not_mem_leaving {x : Event} {s : Session} : event x s ∉ leaving scope r? := by
  rcases r? with _ | ⟨_ | _, _⟩ <;> simp [leaving]

/-- Handlers that are running were entered. -/
theorem exists_entered {log : List LogEntry} {c : CaughtFault} (h : c ∈ log.foldl handling []) :
    ∃ before t after, log = before ++ .entered (.handling c) t :: after := by
  induction log using List.reverseRecOn with
  | nil => cases h
  | append_singleton log entry ih =>
      have hearlier (hc : c ∈ log.foldl handling []) :
          ∃ before t after, log ++ [entry] = before ++ .entered (.handling c) t :: after := by
        obtain ⟨before, t, after, rfl⟩ := ih hc
        exact ⟨before, t, after ++ [entry], by simp⟩
      rw [List.foldl_append, List.foldl_cons, List.foldl_nil] at h
      cases entry with
      | entered scope t =>
          rcases List.mem_append.mp h with hc | hc
          · cases scope with
            | handling caught =>
                cases List.mem_singleton.mp hc
                exact ⟨log, t, [], rfl⟩
            | frame | rephased | overlaid | onVariables => cases hc
          · exact hearlier hc
      | left scope e t => exact hearlier (List.mem_of_mem_drop h)
      | event | raised => exact hearlier h

theorem foldl_leaving {r : Except ScriptError α × Session} (handled : List CaughtFault) :
    (leaving scope (some r)).foldl handling (scope.caught.toList ++ handled) = handled := by
  obtain ⟨e | a, s⟩ := r <;> exact List.drop_left

end LogEntry

open LogEntry (handling)

/-- In a log of something that began in this session, whatever happens sees the exception of the innermost
handlers that run there, and at the end the handlers that run are those that ran at the begin. -/
structure Attends (s : Session) {ε : Type} (log : List LogEntry) (r? : Option ε) : Prop where
  visible : ∀ ⦃before x u after⦄, log = before ++ .event x u :: after →
    ∃ own, (∀ handled, before.foldl handling handled = own ++ handled) ∧
      u.currentException = own.head?.or s.currentException
  balanced : ∀ r, r? = some r → ∀ handled, log.foldl handling handled = handled

namespace Attends

variable {s t : Session} {log l₁ l₂ : List LogEntry} {ε ε' : Type} {r? : Option ε} {r₁? : Option ε'}

theorem nil : Attends s [] r? where
  visible before x u after h := by cases before <;> cases h
  balanced _ _ _ := rfl

theorem event (x : Event) : Attends s [.event x s] r? where
  visible before y u after h := by
    obtain ⟨rfl, hevent, _⟩ := LogEntry.singleton_split h
    cases hevent
    exact ⟨[], fun _ => rfl, rfl⟩
  balanced _ _ _ := rfl

theorem raised (e : ScriptError) (t : Session) : Attends s [.raised e t] r? where
  visible before x u after h := by
    obtain ⟨_, hevent, _⟩ := LogEntry.singleton_split h
    cases hevent
  balanced _ _ _ := rfl

theorem raising {α : Type} (r? : Option (Except ScriptError α × Session)) :
    Attends s (LogEntry.raising r?) r? := by
  rcases r? with _ | ⟨e | a, t⟩
  · exact nil
  · exact raised e t
  · exact nil

/-- Something else goes on after the end of the first part. -/
theorem append {r : ε'} (h₁ : Attends s l₁ (some r)) (h₂ : Attends t l₂ r?)
    (hsame : t.currentException = s.currentException) : Attends s (l₁ ++ l₂) r? where
  visible before x u after hsplit := by
    rcases LogEntry.append_cases hsplit with ⟨rest, hl₁, _⟩ | ⟨front, rfl, hl₂⟩
    · exact h₁.visible hl₁
    · obtain ⟨own, hown, hu⟩ := h₂.visible hl₂
      refine ⟨own, fun handled => ?_, hsame ▸ hu⟩
      rw [List.foldl_append, h₁.balanced r rfl, hown]
  balanced r' hr handled := by
    rw [List.foldl_append, h₁.balanced r rfl, h₂.balanced r' hr]

theorem ended (h : Attends s log r₁?) (hr : ∀ r, r? = some r → ∃ r', r₁? = some r') : Attends s log r? where
  visible := h.visible
  balanced r hend := by
    obtain ⟨r', hend'⟩ := hr r hend
    exact h.balanced r' hend'

theorem scope {α : Type} {scope : Scope} {r? : Option (Except ScriptError α × Session)}
    (h : Attends t log r?) (hentered : t.currentException = scope.caught.or s.currentException) :
    Attends s (.entered scope t :: (log ++ LogEntry.leaving scope r?)) r? where
  visible before x u after hsplit := by
    cases before with
    | nil => cases hsplit
    | cons first before =>
        obtain ⟨rfl, hrest⟩ := List.cons.inj hsplit
        rcases LogEntry.append_cases hrest with ⟨rest, hlog, _⟩ | ⟨front, _, hleaving⟩
        · -- The handlers of the scope are around those that were entered in it.
          obtain ⟨own, hown, hu⟩ := h.visible hlog
          refine ⟨own ++ scope.caught.toList, fun handled => ?_, ?_⟩
          · rw [List.foldl_cons, hown, List.append_assoc]
            rfl
          · rw [hu, hentered, List.head?_append, Option.head?_toList, Option.or_assoc]
        · have hmem : .event x u ∈ LogEntry.leaving scope r? := by
            rw [hleaving]
            simp
          exact (LogEntry.event_not_mem_leaving hmem).elim
  balanced r hend handled := by
    subst hend
    rw [List.foldl_cons, List.foldl_append, h.balanced r rfl]
    exact LogEntry.foldl_leaving handled

/-! ### Work -/

variable {α β : Type} {m n k : Nat} {calls : Call → Session → List LogEntry} {x : Work α}

theorem bind {f : α → Work β}
    (hx : Attends s (x.log (Action.execute m) n k calls s) (x.run (Action.execute m) n k s))
    (hf : ∀ a t, x.run (Action.execute m) n k s = some (.ok a, t) →
      t.currentException = s.currentException ∧
        Attends t ((f a).log (Action.execute m) n k calls t) ((f a).run (Action.execute m) n k t)) :
    Attends s ((x >>= f).log (Action.execute m) n k calls s) ((x >>= f).run (Action.execute m) n k s) := by
  refine Work.log_bind_cases (motive := Attends s) (fun _ => ?_) (fun e t hend => ?_) fun a t hend => ?_
  · exact hx.ended fun _ h => by cases h
  · exact hx.ended fun _ _ => ⟨_, hend⟩
  · rw [hend] at hx
    exact hx.append (hf a t hend).2 (hf a t hend).1

theorem settle (hx : Attends s (x.log (Action.execute m) n k calls s) (x.run (Action.execute m) n k s)) :
    Attends s ((Work.settle x).log (Action.execute m) n k calls s)
      ((Work.settle x).run (Action.execute m) n k s) :=
  hx.ended fun _ hend => (Option.map_eq_some_iff.mp hend).imp fun _ h => h.1

theorem within {scope : Scope}
    (hx : ∀ t, scope.enter s = some t →
      Attends t (x.log (Action.execute m) n k calls t) (x.run (Action.execute m) n k t)) :
    Attends s ((Work.within scope x).log (Action.execute m) n k calls s)
      ((Work.within scope x).run (Action.execute m) n k s) := by
  refine Work.log_within_cases (motive := Attends s) (fun e t _ _ => raised e t) (fun t henter hend => ?_)
    fun t r u v henter hend _ _ => ?_
  · have hscope := (hx t henter).scope (Scope.enter_currentException henter)
    rw [hend, LogEntry.leaving, List.append_nil] at hscope
    exact hscope.ended fun _ h => by cases h
  · have hscope := (hx t henter).scope (Scope.enter_currentException henter)
    rw [hend] at hscope
    exact hscope.ended fun _ _ => ⟨_, rfl⟩

end Attends

/-! ## Work -/

/-- Computations that leave frames and the current exception as they were. -/
def Framing : RunRel Session := fun _ x _ => Session.Within Session.Framed x

theorem framing_blockwise : Framing.Blockwise := Session.framed_effect.blockwise

theorem framing_watchful : Framing.Watchful where
  toActing := framing_blockwise.toActing
  get := by
    intro s r t h
    cases h
    exact .refl s

namespace Work

variable {phase : Phase} {cleans : Prop} {α : Type} {m n k : Nat}
  {calls : Call → Session → List LogEntry}

theorem Built.run_framed {w : Work α} (h : Built Framing phase cleans w) :
    Session.Within Session.Framed (w.run (Action.execute m) n k) :=
  h.run_related framing_blockwise (framing_blockwise.execute m) n k

theorem Asking.attends {w : Work α} (h : Asking Framing w) (s : Session) :
    Attends s (w.log (Action.execute m) n k calls s) (w.run (Action.execute m) n k s) := by
  induction h generalizing s with
  | @step _ x steady _ =>
      rw [log, run]
      rcases x s with _ | ⟨e | a, t⟩
      · exact .event _
      · exact .raised e t
      · exact .event _
  | inquire q =>
      have hevent : Attends s [.event (.inquiry q) s] (some ()) := .event _
      exact hevent.append (.raising _) rfl
  | bind hx _ ihx ihf =>
      exact .bind (ihx s) fun a t hend =>
        ⟨(hx.run_related framing_blockwise.toEvaluative _ n k hend).currentException, ihf a t⟩
  | reading _ _ ih =>
      exact .bind (.event _) fun a t hend => ⟨(framing_watchful.get hend).currentException, ih a t⟩

/-- What happens in the course of work sees the right exception, if what happens in its calls does. -/
theorem Built.attends {w : Work α} (h : Built Framing phase cleans w) (s : Session)
    (hcalls : ∀ c u, Attends u (calls c u) (c.run (Action.execute m) n k u)) :
    Attends s (w.log (Action.execute m) n k calls s) (w.run (Action.execute m) n k s) := by
  induction h generalizing s with
  | asking h => exact h.attends s
  | call c =>
      have hevent : Attends s [.event (.call c) s] (some ()) := .event _
      exact hevent.append (hcalls c s) rfl
  | bind hx _ ihx ihf => exact .bind (ihx s) fun a t hend => ⟨(hx.run_framed hend).currentException, ihf a t⟩
  | reading _ _ ih =>
      exact .bind (.event _) fun a t hend => ⟨(framing_watchful.get hend).currentException, ih a t⟩
  | rephased other h => exact .within fun t _ => h.attends t
  | frame | overlaid | onVariables =>
      rename_i ih
      exact .within fun t _ => ih t
  | @guarded handlers items hitems _ ihitems ihcaught =>
      refine .bind (.settle (ihitems s)) fun r t hend => ⟨?_, ?_⟩
      · obtain ⟨p, hitem, hp⟩ := Option.map_eq_some_iff.mp hend
        cases hp
        exact (hitems.run_framed hitem).currentException
      · cases r with
        | ok outcome => exact (asking_pure framing_watchful.toSequential outcome).attends t
        | error e =>
            dsimp only
            unfold handle
            split
            · have hfresh : Asking Framing (step Session.freshIdentity .freshIdentity) :=
                .step framing_watchful.freshIdentity
              refine .bind (hfresh.attends t) fun identity u hend => ⟨?_, .within fun v _ => ihcaught _ rfl v⟩
              cases hend
              rfl
            · exact .raised e t
  | @cleanedUp items x _ hx hitems ihx ihitems =>
      refine .bind (.settle (ihx s)) fun r t hend => ⟨?_, ?_⟩
      · obtain ⟨p, hbody, hp⟩ := Option.map_eq_some_iff.mp hend
        cases hp
        exact (hx.run_framed hbody).currentException
      · refine .bind (ihitems t) fun outcome u hend => ⟨(hitems.run_framed hend).currentException, ?_⟩
        cases outcome with
        | some signal => exact (asking_pure framing_watchful.toSequential _).attends u
        | none =>
            cases r with
            | ok outcome => exact .event _
            | error e => exact .raised e u

end Work

/-! ## Executions -/

theorem Call.attends (n k : Nat) (c : Call) (s : Session) :
    Attends s (c.log n k s) (c.run (Action.execute n) n k s) :=
  log_induction (P := fun _ s log r? => Attends s log r?) (fun _ _ => .nil)
    (fun c _ _ s ih =>
      (c.built_work framing_watchful.toActing fun _ _ _ _ => .inr trivial).attends s ih) n k c s

end ActionTree
