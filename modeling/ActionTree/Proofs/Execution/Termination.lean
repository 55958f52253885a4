import ActionTree.Proofs.Execution.Related
import ActionTree.Proofs.Session.Scope

/-!
# Termination

An abort is raised once, as a termination, and nothing catches it. On its way out only the cleanup of a
block or of a script can take its place, with a signal or an error of its own; no other execution in
which an abort was raised ends with anything else.
-/

namespace ActionTree

/-- The result is a termination. -/
def Terminated {α : Type} (r : Except ScriptError α) : Prop :=
  ∃ e, r = .error e ∧ e.isTerminated = true

namespace Terminated

variable {α : Type}

theorem not_ok (a : α) : ¬ Terminated (.ok a : Except ScriptError α) := by
  rintro ⟨e, he, _⟩
  cases he

theorem error_iff (e : ScriptError) :
    Terminated (.error e : Except ScriptError α) ↔ e.isTerminated = true := by
  constructor
  · rintro ⟨e', he, ht⟩
    cases he
    exact ht
  · intro ht
    exact ⟨e, rfl, ht⟩

theorem not_error {e : ScriptError} (h : e.isTerminated = false) :
    ¬ Terminated (.error e : Except ScriptError α) := by
  rw [error_iff, h]
  exact Bool.false_ne_true

instance (r : Except ScriptError α) : Decidable (Terminated r) :=
  match r with
  | .ok a => isFalse (not_ok a)
  | .error e => decidable_of_iff _ (error_iff e).symm

theorem traced_iff (r : Except ScriptError α) (trace : String) :
    Terminated (r.mapError fun e => e.traced trace) ↔ Terminated r := by
  cases r with
  | ok a => exact iff_of_false (not_ok a) (not_ok a)
  | error e =>
      change Terminated (.error (e.traced trace)) ↔ _
      rw [error_iff, error_iff]
      unfold ScriptError.traced
      split <;> rfl

end Terminated

/-! ## Execution that stops short -/

/-- What can be said of an action that is about to do its work, in its frame and with so many steps
left. -/
abbrev Situation := Nat → Action → Session → Prop

open Classical in
/-- A computation that does not come to its end where the condition holds at its start. -/
noncomputable def Run.unless {σ α : Type} (halt : σ → Prop) (x : Run σ α) : Run σ α := fun s =>
  if halt s then none else x s

namespace Run

variable {σ α β : Type} {halt : σ → Prop} {s : σ}

theorem unless_of (x : Run σ α) (h : halt s) : Run.unless halt x s = none := if_pos h

theorem unless_of_not (x : Run σ α) (h : ¬ halt s) : Run.unless halt x s = x s := if_neg h

theorem unless_bind (x : Run σ α) (f : α → Run σ β) :
    Run.unless halt (x >>= f) = Run.unless halt x >>= f := by
  funext s
  by_cases h : halt s
  · rw [unless_of _ h, bind_of_none f (unless_of x h)]
  · rw [unless_of_not _ h]
    change (x s).bind _ = (Run.unless halt x s).bind _
    rw [unless_of_not x h]

end Run

namespace Action

/-- Execution that comes to no end once an action is in the situation. -/
noncomputable def executeUntil (halt : Situation) : Nat → Executor
  | 0, _ => Run.unfinished
  | n + 1, a => do
    Session.checkAbort
    Session.withFrame .executing a (Run.unless (halt n a) (perform (executeUntil halt n) n a))

/-- Prepares and executes a tree, but not beyond an action that is in the situation. -/
noncomputable def runUntil (halt : Situation) (n : Nat) (root : Action) : Run Session Value := do
  root.prepare
  return (← root.executeUntil halt n).result

end Action

/-- The attempt or the handlers end with a termination, and then the cleanup ends with a signal or an
error of its own. -/
def SectionsOf.LosesTermination (exec : Executor) (sections : SectionsOf Action) (s : Session) : Prop :=
  ∃ s₁ resolved s₂ items last s₃,
    runAll exec sections.items s = some (.ok none, s₁) ∧
    sections.attempted exec s₁ = some (resolved, s₂) ∧ Terminated resolved ∧
    sections.cleanup = some items ∧ runAll exec items s₂ = some (last, s₃) ∧ last ≠ .ok none

/-- A block or a script is about to lose a termination to its cleanup. -/
def losesTermination : Situation := fun n a s =>
  ∃ sections, a.sections? = some sections ∧ sections.LosesTermination (Action.execute n) s

/-! ## The course of an abort -/

/-- What becomes of an abort in a run from `s` to `s'` with the result `r`, beside a run that stops where
the termination is lost: the run raises none, ends with the one that it raised, or has lost it. -/
inductive AbortCourse {α : Type} (s : Session) (stopped : Option (Except ScriptError α × Session))
    (r : Except ScriptError α) (s' : Session) : Prop where
  | unraised : stopped = some (r, s') → s'.abortRaised = s.abortRaised → ¬ Terminated r →
    AbortCourse s stopped r s'
  | kept : stopped = some (r, s') → s.abortRaised = false → s'.abortRaised = true → Terminated r →
    AbortCourse s stopped r s'
  | lost : stopped = none → s.abortRaised = false → s'.abortRaised = true → ¬ Terminated r →
    AbortCourse s stopped r s'

namespace AbortCourse

variable {α β : Type} {s t s' t' : Session} {stopped : Option (Except ScriptError α × Session)}
  {stopped' : Option (Except ScriptError β × Session)} {r : Except ScriptError α}
  {r' : Except ScriptError β}

theorem of_eq (h : AbortCourse t stopped r s') (ht : t.abortRaised = s.abortRaised) :
    AbortCourse s stopped r s' := by
  cases h with
  | unraised hs hl hr => exact .unraised hs (hl.trans ht) hr
  | kept hs hf hl hr => exact .kept hs (ht ▸ hf) hl hr
  | lost hs hf hl hr => exact .lost hs (ht ▸ hf) hl hr

/-- A run that goes on after an abort was raised keeps it raised, and raises no other. -/
theorem of_raised (h : AbortCourse s stopped r s') (hs : s.abortRaised = true) :
    stopped = some (r, s') ∧ s'.abortRaised = true ∧ ¬ Terminated r := by
  cases h with
  | unraised hstop hl hr => exact ⟨hstop, hl.trans hs, hr⟩
  | kept _ hf _ _ | lost _ hf _ _ =>
      rw [hs] at hf
      cases hf

/-- A run that ends where another did takes its course, with the same latch and as much of a
termination. -/
theorem transfer (h : AbortCourse s stopped r t) (hr : Terminated r' ↔ Terminated r)
    (ht : t'.abortRaised = t.abortRaised) (hsome : stopped = some (r, t) → stopped' = some (r', t'))
    (hnone : stopped = none → stopped' = none) : AbortCourse s stopped' r' t' := by
  cases h with
  | unraised hs hl hn => exact .unraised (hsome hs) (ht.trans hl) (mt hr.1 hn)
  | kept hs hf hl hk => exact .kept (hsome hs) hf (ht.trans hl) (hr.2 hk)
  | lost hs hf hl hn => exact .lost (hnone hs) hf (ht.trans hl) (mt hr.1 hn)

/-- A run that goes on where another ended without a termination takes the course of what follows, unless
the termination was lost before. -/
theorem followed {next : Option (Except ScriptError β × Session)} (h : AbortCourse s stopped r t)
    (hr : ¬ Terminated r) (hnext : AbortCourse t next r' s')
    (hsome : stopped = some (r, t) → stopped' = next) (hnone : stopped = none → stopped' = none) :
    AbortCourse s stopped' r' s' := by
  cases h with
  | unraised hs hl _ =>
      rw [hsome hs]
      exact hnext.of_eq hl
  | kept _ _ _ hk => exact absurd hk hr
  | lost hs hf hl _ =>
      obtain ⟨_, hl', hn⟩ := hnext.of_raised hl
      exact .lost (hnone hs) hf hl' hn

/-- A termination is what a run ends with exactly if it raised an abort and did not lose it. -/
theorem terminated_iff (h : AbortCourse s stopped r s') :
    Terminated r ↔ s.abortRaised = false ∧ s'.abortRaised = true ∧ stopped ≠ none := by
  cases h with
  | unraised _ hl hr =>
      rw [hl]
      cases s.abortRaised <;> simp [hr]
  | kept hs hf hl hr => simp [hs, hf, hl, hr]
  | lost hs _ _ hr => simp [hs, hr]

end AbortCourse

/-- Every run of the second computation takes the course of an abort beside the first. -/
def Run.Keeps {α : Type} (x y : Run Session α) : Prop :=
  ∀ ⦃s r s'⦄, y s = some (r, s') → AbortCourse s (x s) r s'

namespace Run.Keeps

variable {α β : Type} {x y : Run Session α}

/-- Computations that leave the latch alone and raise no termination. -/
theorem of_unraised {x : Run Session α} (h : ∀ ⦃s r s'⦄, x s = some (r, s') →
    s'.abortRaised = s.abortRaised ∧ ¬ Terminated r) : Keeps x x := by
  intro s r s' hx
  exact .unraised hx (h hx).1 (h hx).2

/-- What follows in a sequence need only keep an abort where the first part leads. -/
theorem bind_at {f g : α → Run Session β} {s s' : Session} {r : Except ScriptError β} (h : Keeps x y)
    (hf : ∀ a t, y s = some (.ok a, t) → g a t = some (r, s') → AbortCourse t (f a t) r s')
    (hrun : (y >>= g) s = some (r, s')) : AbortCourse s ((x >>= f) s) r s' := by
  rcases Run.bind_inv hrun with ⟨a, t, hy, hg⟩ | ⟨e, hy, rfl⟩
  · exact (h hy).followed (Terminated.not_ok a) (hf a t hy hg) (Run.bind_of_ok f) (Run.bind_of_none f)
  · refine (h hy).transfer ?_ rfl (Run.bind_of_error f) (Run.bind_of_none f)
    rw [Terminated.error_iff, Terminated.error_iff]

theorem bind {f g : α → Run Session β} (h : Keeps x y) (hf : ∀ a, Keeps (f a) (g a)) :
    Keeps (x >>= f) (y >>= g) := fun _ _ _ hrun => h.bind_at (fun a _ _ hg => hf a hg) hrun

/-- A scope keeps an abort if its body does, where it changes neither the latch nor whether the result is
a termination. -/
theorem scope {s t s' : Session} {r : Except ScriptError β}
    {f : Except ScriptError α × Session → Except ScriptError β × Session} (h : Keeps x y)
    (hrun : (y t).map f = some (r, s')) (ht : t.abortRaised = s.abortRaised)
    (hf : ∀ result u, (Terminated (f (result, u)).1 ↔ Terminated result) ∧
      (f (result, u)).2.abortRaised = u.abortRaised) : AbortCourse s ((x t).map f) r s' := by
  obtain ⟨⟨result, u⟩, hbody, hback⟩ := Option.map_eq_some_iff.1 hrun
  obtain ⟨hr, hu⟩ := hf result u
  rw [hback] at hr hu
  refine ((h hbody).of_eq ht).transfer hr hu (fun hx => ?_) fun hx => ?_
  · rw [hx, Option.map_some, hback]
  · rw [hx, Option.map_none]

theorem checkAbort : Keeps Session.checkAbort Session.checkAbort := by
  intro s r s' h
  rcases Session.checkAbort_inv h with ⟨rfl, _, hfresh, rfl⟩ | ⟨rfl, rfl⟩
  · exact .kept h hfresh rfl ⟨.terminated, rfl, rfl⟩
  · exact .unraised h rfl (Terminated.not_ok ())

theorem withVars (overlay : List (String × Value)) (namePrefix : String) (h : Keeps x y) :
    Keeps (Session.withVars overlay namePrefix x) (Session.withVars overlay namePrefix y) := by
  intro s r s' hrun
  unfold Session.withVars at hrun ⊢
  have hsaved : ∀ p ∈ (Session.bindOver namePrefix [] overlay s.store).2.1,
      Store.refusal? p.1 = none := Session.bindOver_saved namePrefix overlay s.store (by simp)
  generalize Session.bindOver namePrefix [] overlay s.store = bound at hrun hsaved ⊢
  obtain ⟨vars, saved, fault⟩ := bound
  cases fault with
  | some fault =>
      have hback := Option.some.inj hrun
      rw [Session.putBack_eq _ _ hsaved] at hback
      cases hback
      exact .unraised hrun rfl (Terminated.not_error rfl)
  | none =>
      refine h.scope hrun rfl fun result u => ?_
      dsimp only
      rw [Session.putBack_eq _ _ hsaved]
      exact ⟨Iff.rfl, rfl⟩

theorem withFrame (phase : Phase) (a : Action) (h : Keeps x y) :
    Keeps (Session.withFrame phase a x) (Session.withFrame phase a y) := by
  intro s r s' hrun
  unfold Session.withFrame at hrun ⊢
  split at hrun
  · rename_i hdeep
    rw [if_pos hdeep]
    cases hrun
    exact .unraised rfl rfl (Terminated.not_error rfl)
  · rename_i hdeep
    rw [if_neg hdeep]
    exact h.scope hrun rfl fun result u => ⟨Terminated.traced_iff result _, rfl⟩

theorem withPhase (phase : Phase) (h : Keeps x y) :
    Keeps (Session.withPhase phase x) (Session.withPhase phase y) := by
  intro s r s' hrun
  refine h.scope hrun rfl fun result u => ⟨Iff.rfl, ?_⟩
  dsimp only
  split <;> rfl

/-- Handlers that leave alone what is not a fault keep a termination. -/
theorem tryFault {handler handler' : ScriptError → Run Session α} (h : Keeps x y)
    (hfault : ∀ e fault, e.fault? = some fault → Keeps (handler e) (handler' e))
    (hrest : ∀ e, e.fault? = none →
      handler e = MonadExcept.throw e ∧ handler' e = MonadExcept.throw e) :
    Keeps (tryCatch x handler) (tryCatch y handler') := by
  intro s r s' hrun
  cases hy : y s with
  | none =>
      rw [Run.tryCatch_of_none handler' hy] at hrun
      cases hrun
  | some p =>
      obtain ⟨result, t⟩ := p
      have hbody := h hy
      cases result with
      | ok a =>
          rw [Run.tryCatch_of_ok handler' hy] at hrun
          cases hrun
          exact hbody.transfer Iff.rfl rfl (Run.tryCatch_of_ok handler) (Run.tryCatch_of_none handler)
      | error e =>
          rw [Run.tryCatch_of_error handler' hy] at hrun
          cases he : e.fault? with
          | some fault =>
              have hcaught := ScriptError.not_terminated_of_fault he
              exact hbody.followed (Terminated.not_error hcaught) (hfault e fault he hrun)
                (Run.tryCatch_of_error handler) (Run.tryCatch_of_none handler)
          | none =>
              obtain ⟨hthrow, hthrow'⟩ := hrest e he
              rw [hthrow'] at hrun
              cases hrun
              refine hbody.transfer Iff.rfl rfl (fun hx => ?_) (Run.tryCatch_of_none handler)
              rw [Run.tryCatch_of_error handler hx, hthrow]
              rfl

/-- Only sections are left to keep an abort or to lose it. -/
theorem executive : RunRel.Executive fun _ x y => Keeps x y where
  pure a := of_unraised fun s r s' h => by
    cases h
    exact ⟨rfl, Terminated.not_ok a⟩
  fault _ := of_unraised fun s r s' h => by
    cases h
    exact ⟨rfl, Terminated.not_error rfl⟩
  malformed _ := of_unraised fun s r s' h => by
    cases h
    exact ⟨rfl, Terminated.not_error rfl⟩
  bind := bind
  unfinished := by
    intro α s r s' h
    cases h
  read f _ := of_unraised fun s r s' h => by
    cases h
    exact ⟨rfl, Terminated.not_ok _⟩
  parse kind text := of_unraised fun s r s' h => by
    obtain ⟨⟨cache, rfl⟩, ⟨e, rfl⟩ | ⟨e, rfl⟩⟩ := Session.parse_inv h
    · exact ⟨rfl, Terminated.not_ok e⟩
    · exact ⟨rfl, Terminated.not_error rfl⟩
  setVar name v := of_unraised fun s r s' h => by
    rcases Session.setVar_inv h with ⟨vars, _, rfl, rfl⟩ | ⟨fault, rfl, rfl⟩
    · exact ⟨rfl, Terminated.not_ok ()⟩
    · exact ⟨rfl, Terminated.not_error rfl⟩
  freshIdentity := of_unraised fun s r s' h => by
    cases h
    exact ⟨rfl, Terminated.not_ok _⟩
  erase name := of_unraised fun s r s' h => by
    cases h
    exact ⟨rfl, Terminated.not_ok _⟩
  writeLine line := of_unraised fun s r s' h => by
    rcases Session.writeLine_inv h with ⟨cause, rfl, rfl⟩ | ⟨rfl, ⟨text, rfl⟩ | ⟨o, o', rest, _, _, rfl⟩⟩
    · exact ⟨rfl, Terminated.not_error rfl⟩
    · exact ⟨rfl, Terminated.not_ok ()⟩
    · exact ⟨rfl, Terminated.not_ok ()⟩
  requestAbort := of_unraised fun s r s' h => by
    cases h
    exact ⟨rfl, Terminated.not_ok _⟩
  checkAbort := checkAbort
  checkRounds count := of_unraised fun s r s' h => by
    obtain ⟨rfl, rfl | rfl⟩ := checkRounds_inv h
    · exact ⟨rfl, Terminated.not_ok ()⟩
    · exact ⟨rfl, Terminated.not_error rfl⟩
  withVars := withVars
  onVariables vars h := by
    intro s r s' hrun
    exact h.scope hrun rfl fun result u => ⟨Iff.rfl, rfl⟩
  withFrame := withFrame
  withPhase := withPhase
  withException c h := by
    intro s r s' hrun
    exact h.scope hrun rfl fun result u => ⟨Iff.rfl, rfl⟩
  tryFault := tryFault

end Run.Keeps

/-! ## Blocks -/

namespace SectionsOf

variable {exec exec' : Executor} {s s' : Session} {r : Except ScriptError Outcome}

/-- A cleanup keeps an abort unless it takes the place of the termination. -/
theorem cleanedUp_course {items : List Action} {x y : Run Session Outcome} (hbody : Run.Keeps x y)
    (hcleanup : Run.Keeps (runAll exec' items) (runAll exec items))
    (hkept : ∀ resolved t last, y s = some (resolved, t) → Terminated resolved →
      runAll exec items t = some (last, s') → last = .ok none)
    (hrun : cleanedUp exec (some items) y s = some (r, s')) :
    AbortCourse s (cleanedUp exec' (some items) x s) r s' := by
  obtain ⟨resolved, t, last, hy, hc, hresult⟩ := cleanedUp_inv hrun
  cases hbody hy with
  | unraised hx hl hn =>
      -- No abort was raised before the cleanup, which may raise one.
      have hcourse := (hcleanup hc).of_eq hl
      rcases hresult with ⟨rfl, rfl⟩ | ⟨hlast, rfl⟩
      · exact hcourse.transfer (iff_of_false hn (Terminated.not_ok none)) rfl (cleanedUp_of_ok hx)
          (cleanedUp_of_cleanup_none hx)
      · exact hcourse.transfer Iff.rfl rfl (fun hx' => cleanedUp_of_ne hx hx' hlast)
          (cleanedUp_of_cleanup_none hx)
  | kept hx hfresh hl hr =>
      obtain ⟨hx', hl', _⟩ := (hcleanup hc).of_raised hl
      rcases hresult with ⟨rfl, rfl⟩ | ⟨hlast, _⟩
      · exact .kept (cleanedUp_of_ok hx hx') hfresh hl' hr
      · exact absurd (hkept resolved t last hy hr hc) hlast
  | lost hx hfresh hl hn =>
      obtain ⟨_, hl', hn'⟩ := (hcleanup hc).of_raised hl
      refine .lost (cleanedUp_of_none hx) hfresh hl' ?_
      rcases hresult with ⟨_, rfl⟩ | ⟨_, rfl⟩
      · exact hn
      · exact hn'

/-- Sections that lose a termination end with something else, after the abort was raised. -/
theorem lost_course {sections : SectionsOf Action} (hexec : ∀ a, Run.Keeps (exec' a) (exec a))
    (hlost : sections.LosesTermination exec s) (hrun : sections.perform exec s = some (r, s')) :
    AbortCourse s none r s' := by
  obtain ⟨s₁, resolved, s₂, items, last, s₃, hitems, hattempted, hterm, hcleanup, hlast, hne⟩ := hlost
  have hperform : sections.perform exec s = some (last, s₃) := by
    rw [perform_of_items hitems, hcleanup]
    exact cleanedUp_of_ne hattempted hlast hne
  rw [hperform] at hrun
  cases hrun
  have hfirst := Run.Keeps.executive.runAll hexec sections.items hitems
  cases Run.Keeps.executive.attempted hexec sections hattempted with
  | unraised _ _ hn | lost _ _ _ hn => exact absurd hterm hn
  | kept _ hfresh hl _ =>
      obtain ⟨_, hl', hn⟩ := (Run.Keeps.executive.runAll hexec items hlast).of_raised hl
      cases hfirst with
      | unraised _ heq _ => exact .lost rfl (heq ▸ hfresh) hl' hn
      | kept _ _ hraised _ | lost _ _ hraised _ =>
          rw [hfresh] at hraised
          cases hraised

/-- Sections that stop where they lose a termination keep an abort, if the executors do. -/
theorem performUntil_keeps (hexec : ∀ a, Run.Keeps (exec' a) (exec a)) (sections : SectionsOf Action) :
    Run.Keeps (Run.unless (sections.LosesTermination exec) (sections.perform exec'))
      (sections.perform exec) := by
  intro s r s' hrun
  have C := Run.Keeps.executive
  by_cases hlost : sections.LosesTermination exec s
  · rw [Run.unless_of _ hlost]
    exact lost_course hexec hlost hrun
  · rw [Run.unless_of_not _ hlost]
    refine (C.runAll hexec sections.items).bind_at (fun outcome t hitems hrest => ?_) hrun
    cases outcome with
    | some signal => exact C.pure _ hrest
    | none =>
        dsimp only at hrest ⊢
        cases hc : sections.cleanup with
        | none =>
            rw [hc] at hrest
            exact C.attempted hexec sections hrest
        | some items =>
            rw [hc] at hrest
            refine cleanedUp_course (C.attempted hexec sections) (C.runAll hexec items) ?_ hrest
            intro resolved u last hattempted hterm hlast
            refine Classical.byContradiction fun hne => ?_
            exact hlost ⟨t, resolved, u, items, last, s', hitems, hattempted, hterm, hc, hlast, hne⟩

end SectionsOf

/-! ## Execution -/

namespace Action

theorem losesTermination_iff {n : Nat} {a : Action} {sections : SectionsOf Action} {s : Session}
    (h : a.sections? = some sections) :
    losesTermination n a s ↔ sections.LosesTermination (execute n) s := by
  constructor
  · rintro ⟨sections', h', hlost⟩
    rw [h] at h'
    cases h'
    exact hlost
  · intro hlost
    exact ⟨sections, h, hlost⟩

/-- Every node keeps an abort, if the actions below it do and it stops where its sections lose one. -/
theorem performUntil_keeps {exec' : Executor} {n : Nat}
    (hexec : ∀ a, Run.Keeps (exec' a) (execute n a)) (a : Action) :
    Run.Keeps (Run.unless (losesTermination n a) (a.perform exec' n)) (a.perform (execute n) n) := by
  have C := Run.Keeps.executive
  cases hsections : a.sections? with
  | none =>
      have hnever : ∀ s, ¬ losesTermination n a s := by
        rintro s ⟨sections, h, _⟩
        rw [hsections] at h
        cases h
      intro s r s' hrun
      rw [Run.unless_of_not _ (hnever s)]
      refine C.perform hexec n a (fun sections h => ?_) hrun
      rw [hsections] at h
      cases h
  | some sections =>
      have hlost : losesTermination n a = sections.LosesTermination (execute n) :=
        funext fun s => propext (losesTermination_iff hsections)
      rw [hlost]
      have hkeeps := SectionsOf.performUntil_keeps hexec sections
      cases a with
      | block label own allowOrphans =>
          cases hsections
          exact hkeeps
      | script label own =>
          cases hsections
          unfold perform
          rw [Run.unless_bind]
          refine C.bind hkeeps ?_
          rintro (_ | _ | v) <;> exact C.pure _
      | _ => cases hsections

theorem executeUntil_keeps (n : Nat) (a : Action) :
    Run.Keeps (a.executeUntil losesTermination n) (a.execute n) := by
  induction n generalizing a with
  | zero => exact Run.Keeps.executive.unfinished
  | succ n ih => exact Run.Keeps.checkAbort.bind fun _ => (performUntil_keeps ih a).withFrame _ a

/-- Nothing is raised while a tree is prepared. -/
theorem prepare_keeps (root : Action) : Run.Keeps root.prepare root.prepare := by
  refine Run.Keeps.executive.toFramewise.prepare (.of_unraised fun s r s' h => ?_) (.of_unraised fun s r s' h => ?_)
  · cases h
    exact ⟨rfl, Terminated.not_ok _⟩
  · cases h
    exact ⟨rfl, Terminated.not_ok _⟩

theorem runUntil_keeps (n : Nat) (root : Action) :
    Run.Keeps (root.runUntil losesTermination n) (root.run n) :=
  (prepare_keeps root).bind fun _ => (executeUntil_keeps n root).bind fun _ =>
    Run.Keeps.executive.pure _

/-- Executing or running a tree ends with a termination exactly if an abort was raised meanwhile and no
cleanup took its place. -/
theorem ends_terminated_iff (n : Nat) (a : Action) (s : Session) :
    (∀ r s', a.execute n s = some (r, s') →
      (Terminated r ↔ s.abortRaised = false ∧ s'.abortRaised = true ∧
        a.executeUntil losesTermination n s ≠ none)) ∧
    ∀ r s', a.run n s = some (r, s') →
      (Terminated r ↔ s.abortRaised = false ∧ s'.abortRaised = true ∧
        a.runUntil losesTermination n s ≠ none) := by
  constructor
  · intro r s' h
    exact (executeUntil_keeps n a h).terminated_iff
  · intro r s' h
    exact (runUntil_keeps n a h).terminated_iff

/-- An attempt that asks for an abort and goes on, with handlers that would catch a fault. -/
def abortedAttempt (cleanup : Option (List Action)) : Action :=
  .block ⟨0, none⟩
    { items := [], attempt := some [.requestAbort 1, .breakLoop 2], handlers := some [], cleanup } false

/-- The handlers do not catch the termination. -/
theorem abortedAttempt_terminated :
    ∃ r s', (abortedAttempt none).execute 3 (.start {} {}) = some (r, s') ∧ Terminated r ∧
      s'.abortRaised = true ∧
      (abortedAttempt none).executeUntil losesTermination 3 (.start {} {}) ≠ none := by
  have hends : ((abortedAttempt none).execute 3 (.start {} {})).map (fun p => decide (Terminated p.1))
      = some true := rfl
  obtain ⟨⟨r, s'⟩, h, hr⟩ := Option.map_eq_some_iff.1 hends
  have hterm : Terminated r := of_decide_eq_true hr
  obtain ⟨_, hkept⟩ := ((ends_terminated_iff 3 _ _).1 r s' h).1 hterm
  exact ⟨r, s', h, hterm, hkept⟩

/-- A cleanup that ends with a signal takes the place of the termination. -/
theorem abortedAttempt_not_terminated :
    ¬ ∀ (n : Nat) (a : Action) (s s' : Session) (r : Except ScriptError Outcome),
      a.execute n s = some (r, s') → s.abortRaised = false → s'.abortRaised = true → Terminated r := by
  intro hall
  have hends : ((abortedAttempt (some [.breakLoop 3])).execute 3 (.start {} {})).map
      (fun p => (decide (Terminated p.1), p.2.abortRaised)) = some (false, true) := rfl
  obtain ⟨⟨r, s'⟩, h, hr⟩ := Option.map_eq_some_iff.1 hends
  have hterm := hall 3 _ _ s' r h rfl (congrArg Prod.snd hr)
  exact of_decide_eq_false (congrArg Prod.fst hr) hterm

end Action

end ActionTree
