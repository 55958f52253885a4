import ActionTree.Proofs.Execution.Decomposition
import ActionTree.Proofs.Session.Raising

/-!
# What work is built from

The work of an action takes steps and asks questions, makes calls and opens scopes, and in two ways only it
goes on after an error: a block guards its attempt, and it cleans up. What is kept by each of these holds of
all work.
-/

namespace ActionTree

/-- If all faults and the end of a script are such, then so is every error of what actions do with a
session. -/
theorem Session.raising_watchful {p : ScriptError → Prop} (hfault : ∀ f, p ⟨.fault f, none⟩)
    (hterminated : p .terminated) : RunRel.Watchful fun _ x _ => x.Raising p where
  toAttentive := raising_attentive hfault
  erase name := by
    intro s e t h
    cases h
  writeLine line := by
    intro s e t h
    rcases writeLine_inv h with ⟨cause, hr, _⟩ | ⟨hr, _⟩
    · cases hr
      exact hfault _
    · cases hr
  requestAbort := by
    intro s e t h
    cases h
  checkAbort := by
    intro s e t h
    rcases checkAbort_inv h with ⟨hr, _⟩ | ⟨hr, _⟩
    · cases hr
      exact hterminated
    · cases hr
  checkRounds count := by
    intro s e t h
    obtain ⟨_, hr | hr⟩ := checkRounds_inv h
    · cases hr
    · cases hr
      exact hfault _
  get := by
    intro s e t h
    cases h

namespace Work

/-- Runs the actions and handles their errors. -/
def guarded (handlers : Option (List Action)) (items : List Action) : Work Outcome := do
  match ← settle (runAll items) with
  | .ok outcome => return outcome
  | .error e => handle handlers e

theorem attempted_eq (s : SectionsOf Action) : attempted s = match s.attempt with
    | none => pure none
    | some items => guarded s.handlers items := by
  unfold attempted
  cases s.attempt <;> rfl

section

variable (R : RunRel Session)

/-- Steps that are related to themselves, looks at what scripts can see of a session, and questions, one
after another. -/
inductive Asking : {α : Type} → Work α → Prop where
  | step {α : Type} {x : Run Session α} {steady : x.Steady} : R x x → Asking (.step x steady)
  | inquire {α : Type} (q : Inquiry α) : Asking (.inquire q)
  | bind {α β : Type} {x : Work α} {f : α → Work β} :
      Asking x → (∀ a, Asking (f a)) → Asking (.bind x f)
  | reading {α : Type} {f : Session → Work α} :
      (∀ s t, Session.Alike s t → f s = f t) → (∀ s, Asking (f s)) → Asking (.bind read f)

/-- Work as actions do it, in frames of this phase. Where something only asks, no frame is opened; and
cleanups come in only if `cleans` says so. -/
inductive Built (phase : Phase) (cleans : Prop) : {α : Type} → Work α → Prop where
  | asking {α : Type} {x : Work α} : Asking R x → Built phase cleans x
  | call (c : Call) : Built phase cleans (.call c)
  | bind {α β : Type} {x : Work α} {f : α → Work β} :
      Built phase cleans x → (∀ a, Built phase cleans (f a)) → Built phase cleans (.bind x f)
  | reading {α : Type} {f : Session → Work α} :
      (∀ s t, Session.Alike s t → f s = f t) → (∀ s, Built phase cleans (f s)) →
      Built phase cleans (.bind read f)
  | rephased {α : Type} {x : Work α} (other : Phase) :
      Asking R x → Built phase cleans (.within (.rephased other) x)
  | frame {α : Type} {x : Work α} (a : Action) :
      Built phase cleans x → Built phase cleans (.within (.frame phase a) x)
  | overlaid {α : Type} {x : Work α} (overlay : List (String × Value)) (namePrefix : String) :
      Built phase cleans x → Built phase cleans (.within (.overlaid overlay namePrefix) x)
  | onVariables {α : Type} {x : Work α} (vars : Store) :
      Built phase cleans x → Built phase cleans (.within (.onVariables vars) x)
  | guarded {handlers : Option (List Action)} {items : List Action} :
      Built phase cleans (runAll items) → (∀ caught ∈ handlers, Built phase cleans (runAll caught)) →
      Built phase cleans (guarded handlers items)
  | cleanedUp {items : List Action} {x : Work Outcome} :
      cleans → Built phase cleans x → Built phase cleans (runAll items) →
      Built phase cleans (cleanedUp (some items) x)

end

variable {R : RunRel Session} {phase : Phase} {cleans : Prop} {α β : Type}

theorem asking_bind {x : Work α} {f : α → Work β} (hx : Asking R x) (hf : ∀ a, Asking R (f a)) :
    Asking R (x >>= f) := .bind hx hf

theorem built_bind {x : Work α} {f : α → Work β} (hx : Built R phase cleans x)
    (hf : ∀ a, Built R phase cleans (f a)) : Built R phase cleans (x >>= f) := .bind hx hf

theorem asking_reading {f : Session → Work β} (alike : ∀ s t, Session.Alike s t → f s = f t)
    (hf : ∀ s, Asking R (f s)) : Asking R (read >>= f) := .reading alike hf

theorem built_reading {f : Session → Work β} (alike : ∀ s t, Session.Alike s t → f s = f t)
    (hf : ∀ s, Built R phase cleans (f s)) : Built R phase cleans (read >>= f) := .reading alike hf

theorem asking_pure (C : R.Sequential) (a : α) : Asking R (pure a) := .step (C.pure a)

theorem built_pure (C : R.Sequential) (a : α) : Built R phase cleans (pure a) := .asking (asking_pure C a)

/-! ## Asking -/

/-- What only asks is related to itself, as evaluations are. -/
theorem Asking.run_related {w : Work α} (C : R.Evaluative) (h : Asking R w) (exec : Executor) (n k : Nat) :
    R (w.run exec n k) (w.run exec n k) := by
  induction h with
  | step hx => exact hx
  | inquire q => exact q.run_related C n
  | bind _ _ ihx ihf => exact C.bind ihx ihf
  | reading alike _ ih => exact C.reading (fun s t h => by simp only [alike s t h, and_self]) ih

section

variable (C : R.Working)

include C

theorem asking_fail (f : RuntimeFault) : Asking R (fail f : Work α) := .step (C.failWith f)

theorem asking_ofRuntime (r : Except RuntimeFault α) : Asking R (ofRuntime r) := .step (C.ofRuntime r)

theorem asking_probe (text : String) (p : Probe) : Asking R (probe text p) := by
  have hexpand : Asking R (expand text) := .inquire _
  cases p with
  | isSet => exact asking_bind hexpand fun v => .inquire _
  | isNotSet =>
      exact asking_bind hexpand fun v => asking_bind (.inquire _) fun _ => asking_pure C.toSequential _
  | holds => exact asking_bind (.inquire _) fun _ => asking_pure C.toSequential _
  | _ => exact asking_bind hexpand fun v => .step (verdict_related C.toAttentive v _)

theorem asking_test (c : Condition) : Asking R (test c) := by
  unfold test
  generalize (c.all || c.probes.isEmpty) = undecided
  induction c.probes with
  | nil => exact asking_pure C.toSequential _
  | cons p rest ih =>
      refine asking_bind (asking_probe C p.2 p.1) fun hit => ?_
      split
      · exact ih
      · exact asking_pure C.toSequential _

theorem asking_rows (head : LoopHead) : Asking R (rows head) := by
  unfold rows
  split
  · refine asking_reading (fun _ _ h => by simp only [h.stack]) fun s => ?_
    split
    · exact asking_fail C _
    · exact asking_ofRuntime C _
    · exact asking_fail C _
  · exact asking_bind (.inquire _) fun _ => asking_pure C.toSequential _

theorem asking_arguments (args : List Argument) : Asking R (arguments args) := by
  induction args with
  | nil => exact asking_pure C.toSequential _
  | cons a rest ih =>
      exact asking_bind (.inquire _) fun v => asking_bind ih fun _ => asking_pure C.toSequential _

theorem asking_parameter (sig : Signature) (p : Parameter) (given : Option Value) :
    Asking R (parameter sig p given) := by
  unfold parameter
  cases given with
  | some v => exact asking_pure C.toSequential _
  | none =>
      cases p.default with
      | some text => exact asking_bind (.inquire _) fun _ => asking_pure C.toSequential _
      | none =>
          dsimp only
          split
          · exact asking_fail C _
          · exact asking_pure C.toSequential _

theorem asking_complete (sig : Signature) (slots : List (Parameter × Option Value)) :
    Asking R (complete sig slots) := by
  induction slots with
  | nil => exact asking_pure C.toSequential _
  | cons slot rest ih =>
      refine asking_bind (asking_parameter C sig slot.1 slot.2) fun v? => asking_bind ih fun others => ?_
      cases v? with
      | none => exact asking_pure C.toSequential _
      | some v => exact asking_pure C.toSequential _

end

/-! ## Actions -/

section

variable (C : R.Working)

include C

theorem built_runAll (items : List Action) : Built R phase cleans (runAll items) := by
  induction items with
  | nil => exact built_pure C.toSequential _
  | cons a rest ih =>
      refine built_bind (.call _) fun outcome => ?_
      cases outcome with
      | some signal => exact built_pure C.toSequential _
      | none => exact ih

theorem built_forRows (namePrefix : String) (body : List Action) (rows : List Row) :
    Built R phase cleans (forRows namePrefix body rows) := by
  induction rows with
  | nil => exact built_pure C.toSequential _
  | cons row rest ih =>
      refine built_bind (.overlaid row namePrefix (built_runAll C body)) fun outcome => ?_
      rcases outcome with _ | _ | v
      · exact ih
      · exact built_pure C.toSequential _
      · exact built_pure C.toSequential _

theorem built_sections (s : SectionsOf Action) (hcleans : s.cleanup = none ∨ cleans) :
    Built R phase cleans (sections s) := by
  refine built_bind (built_runAll C s.items) fun outcome => ?_
  cases outcome with
  | some signal => exact built_pure C.toSequential _
  | none =>
      have hattempted : Built R phase cleans (attempted s) := by
        rw [attempted_eq]
        cases s.attempt with
        | none => exact built_pure C.toSequential _
        | some items => exact .guarded (built_runAll C items) fun caught _ => built_runAll C caught
      dsimp only
      cases hcleanup : s.cleanup with
      | none => exact hattempted
      | some items =>
          rw [hcleanup] at hcleans
          exact .cleanedUp (hcleans.resolve_left nofun) hattempted (built_runAll C items)

theorem built_isolated (isolation : CallIsolation) (params : List (String × Value)) {x : Work α}
    (hx : Built R phase cleans x) : Built R phase cleans (isolated isolation params x) := by
  have hbound : Built R phase cleans (step (Session.bindAll params) (.bindAll params) >>= fun _ => x) :=
    built_bind (.asking (.step (C.bindAll params))) fun _ => hx
  cases isolation with
  | none => exact hbound
  | default =>
      exact built_reading (fun _ _ h => by simp only [h.store]) fun s => .onVariables s.store hbound
  | high => exact .onVariables .empty hbound

theorem built_invoke (call : Invocation) : Built R .executing cleans (invoke call) := by
  refine built_reading (fun _ _ h => by simp only [h.stack]) fun s => ?_
  split
  · rename_i identity sig body heq
    have hbound : Asking R (arguments call.arguments >>= bound sig) :=
      asking_bind (asking_arguments C call.arguments) fun args =>
        asking_bind (asking_ofRuntime C _) fun slots => asking_complete C sig _
    refine built_bind (.rephased .parsingArguments hbound) fun params => built_bind ?_ fun outcome => ?_
    · refine built_reading (fun _ _ h => by simp only [h.defaultIsolation]) fun s => .frame _ ?_
      exact built_isolated C _ _ (built_runAll C _)
    · exact .asking (.step (C.deliver call outcome))
  · exact .asking (asking_fail C _)

/-- The work of an action is built from steps that the relation is kept by; with a cleanup only if the
action has one. The relation need not be kept by a request for an abort if the action makes none. -/
theorem built_perform (a : Action)
    (hrequest : (∃ identity, a = .requestAbort identity) →
      R (modify Session.requestAbort : Run Session Unit) (modify Session.requestAbort))
    (hcleans : ∀ s, a.sections? = some s → s.cleanup = none ∨ cleans) :
    Built R .executing cleans (perform a) := by
  have hwrite (line : String) : Asking R (step (Session.writeLine line) (.writeLine line)) :=
    .step (C.writeLine line)
  cases a with
  | sequence label items => exact built_runAll C items
  | block label s allowOrphans => exact built_sections C s (hcleans s rfl)
  | script label s =>
      refine built_bind (built_sections C s (hcleans s rfl)) fun outcome => ?_
      rcases outcome with _ | _ | v
      · exact built_pure C.toSequential _
      · exact built_pure C.toSequential _
      · exact built_pure C.toSequential _
  | returnWith identity value =>
      cases value with
      | none => exact built_pure C.toSequential _
      | some text => exact .asking (asking_bind (.inquire _) fun _ => asking_pure C.toSequential _)
  | assign identity name value rules =>
      cases value with
      | none => exact .asking (asking_bind (.step (C.erase name)) fun _ => asking_pure C.toSequential _)
      | some text =>
          refine .asking (asking_bind (.inquire _) fun v => ?_)
          exact asking_bind (.step (C.setVar name v)) fun _ => asking_pure C.toSequential _
  | print identity text rules =>
      refine .asking (asking_bind (.inquire _) fun v => ?_)
      exact asking_bind (hwrite v.text) fun _ => asking_pure C.toSequential _
  | eval identity expr output =>
      refine .asking (asking_bind (.inquire _) fun v => ?_)
      cases output with
      | none => exact asking_pure C.toSequential _
      | some name => exact asking_bind (.step (C.setVar name v)) fun _ => asking_pure C.toSequential _
  | throw identity message => exact .asking (asking_bind (.inquire _) fun text => .step (C.fault _))
  | branch label condition body otherwise =>
      refine built_bind (.asking (asking_test C condition)) fun holds => ?_
      split
      · exact built_runAll C _
      · exact built_runAll C _
  | forEach label head body =>
      exact built_bind (.asking (asking_rows C head)) fun rows => built_forRows C _ body _
  | repeatWhile label condition maxCount body => exact .call _
  | call label invocation => exact built_invoke C invocation
  | breakLoop | rowSet | sub => exact built_pure C.toSequential _
  | requestAbort identity =>
      exact .asking (asking_bind (.step (hrequest ⟨identity, rfl⟩)) fun _ => asking_pure C.toSequential _)
  | writeTrace | writeFound =>
      refine .asking (asking_reading (fun _ _ h => by simp only [h.stack]) fun s => ?_)
      exact asking_bind (hwrite _) fun _ => asking_pure C.toSequential _

end

end Work

/-- So is the work of a round of a loop, -/
theorem Call.built_round {R : RunRel Session} {cleans : Prop} (C : R.Working) (label : Label)
    (condition : Condition) (maxCount : Option Nat) (body : List Action) (count : Nat) :
    Work.Built R .executing cleans (rounds label condition maxCount body count).work := by
  refine Work.built_bind (.asking (Work.asking_test C condition)) fun holds => ?_
  split
  · exact Work.built_pure C.toSequential _
  · split
    · exact Work.built_pure C.toSequential _
    · refine Work.built_bind (.asking (.step (C.checkRounds count))) fun _ => ?_
      refine Work.built_bind (Work.built_runAll C body) fun outcome => ?_
      rcases outcome with _ | _ | v
      · exact .call _
      · exact Work.built_pure C.toSequential _
      · exact Work.built_pure C.toSequential _

/-- and so that of every call. -/
theorem Call.built_work {R : RunRel Session} {cleans : Prop} (C : R.Acting) (c : Call)
    (hcleans : ∀ a, c = action a → ∀ s, a.sections? = some s → s.cleanup = none ∨ cleans) :
    Work.Built R .executing cleans c.work := by
  cases c with
  | action a =>
      refine Work.built_bind (.asking (.step C.checkAbort)) fun _ => .frame a ?_
      exact Work.built_perform C.toWorking a (fun _ => C.requestAbort) (hcleans a rfl)
  | rounds label condition maxCount body count => exact built_round C.toWorking label condition maxCount body count

/-- What is built from steps that are related to themselves is related to itself, if the relation is kept
by scopes and by blocks. -/
theorem Work.Built.run_related {R : RunRel Session} (C : R.Blockwise) {phase : Phase} {cleans : Prop}
    {α : Type} {w : Work α} (h : Work.Built R phase cleans w) {exec : Executor}
    (hexec : ∀ a, R (exec a) (exec a)) (n k : Nat) : R (w.run exec n k) (w.run exec n k) := by
  induction h with
  | asking h => exact h.run_related C.toEvaluative exec n k
  | call c => exact c.run_related C.toExecutive hexec n k
  | bind _ _ ihx ihf => exact C.bind ihx ihf
  | reading alike _ ih => exact C.reading (fun s t h => by simp only [alike s t h, and_self]) ih
  | rephased other h => exact C.withPhase other (h.run_related C.toEvaluative exec n k)
  | frame a _ ih => exact C.withFrame _ a ih
  | overlaid overlay namePrefix _ ih => exact C.withVars overlay namePrefix ih
  | onVariables vars _ ih => exact C.onVariables vars ih
  | @guarded handlers items _ _ _ _ =>
      have hattempted := C.attempted hexec ⟨[], some items, handlers, none⟩
      rw [← Work.run_attempted exec n k, Work.attempted_eq] at hattempted
      exact hattempted
  | cleanedUp _ _ _ ihx ihitems =>
      rw [Work.run_cleanedUp]
      rw [Work.run_runAll] at ihitems
      exact C.cleanedUp _ ihx ihitems

/-! ## Checking and compiling -/

section

variable {R : RunRel Session} (C : R.Observant) {cleans : Prop}

include C

theorem Work.built_forEach {β : Type} {phase : Phase} {f : β → Work PUnit} {items : List β}
    (h : ∀ b ∈ items, Work.Built R phase cleans (f b)) : Work.Built R phase cleans (Work.forEach f items) := by
  induction items with
  | nil => exact Work.built_pure C.toSequential _
  | cons b rest ih => exact Work.built_bind (h b (by simp)) fun _ => ih fun b hb => h b (by simp [hb])

theorem Action.built_checking (a : Action) : Work.Built R .initializing cleans a.checking := by
  rw [checking]
  refine .frame a (Work.built_bind (.asking (.step (C.ofSyntax _))) fun _ => ?_)
  exact Work.built_forEach C fun c _ => built_checking c.1
termination_by sizeOf a
decreasing_by exact sizeOf_lt_of_mem_children c.2

theorem Action.built_compiling (a : Action) : Work.Built R .compiling cleans a.compiling := by
  refine Work.built_forEach C fun b _ => .frame b (Work.built_forEach C fun text _ => ?_)
  exact Work.built_bind (.asking (.step (C.parse .single text))) fun _ => Work.built_pure C.toSequential _

end

end ActionTree
