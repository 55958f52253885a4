import ActionTree.Proofs.Execution.Work

/-!
# Doing the work is executing

Each construct of the engine does what running its work does. Hence the work of an action describes its
execution, and that of a tree how it is checked, compiled, prepared and run.
-/

namespace ActionTree

namespace Work

variable {α β : Type} (exec : Executor) (n k : Nat)

theorem run_bind (x : Work α) (f : α → Work β) :
    (x >>= f).run exec n k = x.run exec n k >>= fun a => (f a).run exec n k := rfl

theorem run_runAll (items : List Action) : (runAll items).run exec n k = ActionTree.runAll exec items := by
  induction items with
  | nil => rfl
  | cons a rest ih =>
      unfold runAll
      rw [run_bind]
      refine bind_congr fun outcome => ?_
      cases outcome with
      | none => exact ih
      | some signal => rfl

theorem run_probe (text : String) (p : Probe) : (probe text p).run exec n k = p.test n text := by
  cases p <;> rfl

theorem run_test (c : Condition) : (test c).run exec n k = c.test n := by
  unfold test Condition.test
  generalize (c.all || c.probes.isEmpty) = undecided
  induction c.probes with
  | nil => rfl
  | cons p rest ih =>
      unfold probeAll Condition.testAll
      rw [run_bind, run_probe]
      refine bind_congr fun hit => ?_
      split
      · exact ih
      · rfl

theorem run_rows (head : LoopHead) : (rows head).run exec n k = head.rows n := by
  unfold rows LoopHead.rows
  cases head.source with
  | value text => rfl
  | rows id =>
      dsimp only
      rw [run_bind]
      refine bind_congr fun s => ?_
      generalize (s.stack.nearest? id fun _ => true) = found
      cases found with
      | none => rfl
      | some a => cases a <;> rfl

theorem run_forRows (namePrefix : String) (body : List Action) (rows : List Row) :
    (forRows namePrefix body rows).run exec n k = ActionTree.forRows exec namePrefix body rows := by
  induction rows with
  | nil => rfl
  | cons row rest ih =>
      unfold forRows ActionTree.forRows
      rw [run_bind]
      change Session.withVars row namePrefix ((runAll body).run exec n k) >>= _ = _
      rw [run_runAll]
      refine bind_congr fun outcome => ?_
      rcases outcome with _ | _ | v
      · exact ih
      · rfl
      · rfl

theorem run_handle (handlers : Option (List Action)) (e : ScriptError) :
    (handle handlers e).run exec n k = SectionsOf.handle exec handlers e := by
  unfold handle SectionsOf.handle
  cases handlers with
  | none => rfl
  | some items =>
      cases e.fault? with
      | none => rfl
      | some fault =>
          dsimp only
          rw [run_bind]
          refine bind_congr fun identity => ?_
          change Session.withException _ ((runAll items).run exec n k) = _
          rw [run_runAll]

theorem run_attempted (s : SectionsOf Action) :
    (attempted s).run exec n k = s.attempted exec := by
  unfold attempted SectionsOf.attempted
  cases s.attempt with
  | none => rfl
  | some items =>
      dsimp only
      rw [run_bind]
      change ((runAll items).run exec n k).settled >>= _ = _
      rw [run_runAll, ← Run.settled_bind]
      refine bind_congr fun r => ?_
      cases r with
      | ok outcome => rfl
      | error e => exact run_handle exec n k s.handlers e

theorem run_cleanedUp (cleanup : Option (List Action)) (body : Work Outcome) :
    (cleanedUp cleanup body).run exec n k = SectionsOf.cleanedUp exec cleanup (body.run exec n k) := by
  cases cleanup with
  | none => rfl
  | some items =>
      unfold cleanedUp
      dsimp only
      rw [run_bind]
      funext s
      cases hbody : body.run exec n k s with
      | none =>
          rw [SectionsOf.cleanedUp_of_none hbody]
          exact Run.bind_of_none _ (Run.settled_of_none hbody)
      | some p =>
          refine (Run.bind_of_ok _ (Run.settled_of_some hbody)).trans ?_
          rw [run_bind, run_runAll]
          cases hlast : ActionTree.runAll exec items p.2 with
          | none =>
              rw [SectionsOf.cleanedUp_of_cleanup_none hbody hlast]
              exact Run.bind_of_none _ hlast
          | some q =>
              obtain ⟨last, u⟩ := q
              rcases last with e | _ | signal
              · rw [SectionsOf.cleanedUp_of_ne hbody hlast (by simp)]
                exact Run.bind_of_error _ hlast
              · rw [SectionsOf.cleanedUp_of_ok hbody hlast]
                exact Run.bind_of_ok _ hlast
              · rw [SectionsOf.cleanedUp_of_ne hbody hlast (by simp)]
                exact Run.bind_of_ok _ hlast

theorem run_sections (s : SectionsOf Action) : (sections s).run exec n k = s.perform exec := by
  unfold sections SectionsOf.perform
  rw [run_bind, run_runAll]
  refine bind_congr fun outcome => ?_
  cases outcome with
  | some signal => rfl
  | none =>
      dsimp only
      rw [run_cleanedUp, run_attempted]

theorem run_arguments (args : List Argument) :
    (arguments args).run exec n k = Invocation.expandArguments n args := by
  induction args with
  | nil => rfl
  | cons a rest ih =>
      unfold arguments Invocation.expandArguments
      rw [← ih]
      rfl

theorem run_complete (sig : Signature) (slots : List (Parameter × Option Value)) :
    (complete sig slots).run exec n k = sig.complete n slots := by
  induction slots with
  | nil => rfl
  | cons slot rest ih =>
      obtain ⟨p, given⟩ := slot
      unfold complete Signature.complete parameter
      dsimp only
      have hrest (f : List (String × Value) → List (String × Value)) :
          (complete sig rest >>= fun others => pure (f others)).run exec n k =
            sig.complete n rest >>= fun others => pure (f others) := by
        rw [run_bind, ih]
        rfl
      -- however the value is found, the rest is completed alike
      cases given <;> cases p.default <;> dsimp only <;> try split
      all_goals
        refine bind_congr fun v? => ?_
        cases v? with
        | none => exact hrest id
        | some v => exact hrest ((p.name, v) :: ·)

theorem run_bound (sig : Signature) (args : List (Option String × Value)) :
    (bound sig args).run exec n k = sig.bind n args := by
  unfold bound Signature.bind
  rw [run_bind]
  exact bind_congr fun slots => run_complete exec n k sig _

theorem run_isolated (isolation : CallIsolation) (params : List (String × Value)) (body : Work α) :
    (isolated isolation params body).run exec n k =
      Session.withIsolation isolation params (body.run exec n k) := by
  cases isolation <;> rfl

theorem run_enter (call : Invocation) (b : BoundSub) :
    (enter call b).run exec n k = call.enter exec b := by
  unfold enter Invocation.enter
  rw [run_bind]
  refine bind_congr fun s => ?_
  change Session.withFrame _ _ ((isolated _ b.params (runAll b.body)).run exec n k) = _
  rw [run_isolated, run_runAll]

theorem run_invoke (call : Invocation) : (invoke call).run exec n k = call.perform exec n := by
  rw [Invocation.perform_eq]
  unfold invoke Invocation.resolve
  rw [run_bind, bind_assoc]
  refine bind_congr fun s => ?_
  generalize s.stack.nearest? call.sub Action.isSub = found
  cases found with
  | none => rfl
  | some a =>
      cases a with
      | sub identity sig body =>
          dsimp only
          rw [bind_assoc]
          change Session.withPhase _ ((arguments call.arguments).run exec n k >>= fun args =>
            (bound sig args).run exec n k) >>= _ = _
          simp only [run_arguments, run_bound, pure_bind]
          refine bind_congr fun params => ?_
          rw [run_bind, run_enter]
          rfl
      | _ => rfl

/-- Doing the work of an action in its frame is performing it. -/
theorem run_perform (a : Action) : (perform a).run exec n n = a.perform exec n := by
  cases a with
  | sequence label items => exact run_runAll exec n n items
  | block label s allowOrphans => exact run_sections exec n n s
  | script label s =>
      change (sections s).run exec n n >>= _ = _
      rw [run_sections]
      refine bind_congr fun outcome => ?_
      rcases outcome with _ | _ | v <;> rfl
  | returnWith identity value => cases value <;> rfl
  | assign identity name value rules => cases value <;> rfl
  | eval identity expr output => cases output <;> rfl
  | branch label condition body otherwise =>
      change (test condition).run exec n n >>= _ = _
      rw [run_test]
      refine bind_congr fun holds => ?_
      cases holds with
      | true => exact run_runAll exec n n body
      | false => exact run_runAll exec n n (otherwise.getD [])
  | forEach label head body =>
      change (rows head).run exec n n >>= _ = _
      rw [run_rows]
      exact bind_congr fun rows => run_forRows exec n n _ body _
  | call label invocation => exact run_invoke exec n n invocation
  | breakLoop | print | throw | repeatWhile | rowSet | sub | requestAbort | writeTrace | writeFound => rfl

theorem run_forEach (f : β → Work PUnit) (g : β → Run Session PUnit) (items : List β)
    (h : ∀ b ∈ items, (f b).run exec n k = g b) : (forEach f items).run exec n k = items.forM g := by
  induction items with
  | nil => rfl
  | cons b rest ih =>
      change (f b).run exec n k >>= _ = _
      rw [h b (by simp)]
      exact bind_congr fun _ => ih fun b hb => h b (by simp [hb])

end Work

/-- An action is executed by doing its work, with one step less for what it calls. -/
theorem Call.run_action (a : Action) (n k : Nat) :
    (action a).run (Action.execute (n + 1)) (n + 1) k = (action a).work.run (Action.execute n) n n := by
  change (Session.checkAbort >>= fun _ => Session.withFrame .executing a _) =
    Session.checkAbort >>= fun _ => Session.withFrame .executing a ((Work.perform a).run _ n n)
  rw [Work.run_perform]

/-- A loop goes on with the work of its next round. -/
theorem Call.run_rounds (exec : Executor) (n k : Nat) (label : Label) (condition : Condition)
    (maxCount : Option Nat) (body : List Action) (count : Nat) :
    (rounds label condition maxCount body count).run exec n (k + 1) =
      (rounds label condition maxCount body count).work.run exec n k := by
  change whileLoop exec n condition maxCount body (k + 1) count = (Work.test condition).run exec n k >>= _
  rw [whileLoop_succ, Work.run_test]
  refine bind_congr fun holds => ?_
  dsimp only
  split
  · rfl
  · split
    · rfl
    · change _ = checkRounds count >>= fun _ => (Work.runAll body).run exec n k >>= _
      rw [Work.run_runAll]
      refine bind_congr fun _ => bind_congr fun outcome => ?_
      rcases outcome with _ | _ | v <;> rfl

namespace Action

variable (exec : Executor) (n k : Nat)

theorem run_checking (a : Action) : a.checking.run exec n k = a.check := by
  rw [checking, check]
  change Session.withFrame _ a (Run.ofSyntax a.validate >>= fun _ =>
    (Work.forEach (fun c => checking c.1) a.children.attach).run exec n k) = _
  rw [Work.run_forEach exec n k _ (fun c => check c.1) _ fun c _ => run_checking c.1]
termination_by sizeOf a
decreasing_by exact sizeOf_lt_of_mem_children c.2

theorem run_compiling (root : Action) : root.compiling.run exec n k = root.compile := by
  refine Work.run_forEach exec n k _ _ _ fun a _ => ?_
  change Session.withFrame _ a ((Work.forEach _ a.expressions).run exec n k) = _
  rw [Work.run_forEach exec n k _ _ _ fun text _ => rfl]
  rfl

theorem run_preparing (root : Action) : root.preparing.run exec n k = root.prepare := by
  unfold preparing prepare
  rw [Work.run_bind]
  refine bind_congr fun s => ?_
  split
  · rfl
  · rw [Work.run_bind, run_checking]
    refine bind_congr fun _ => ?_
    rw [Work.run_bind, run_compiling]
    rfl

theorem run_running (root : Action) : root.running.run (execute n) n k = root.run n := by
  unfold running run
  rw [Work.run_bind, run_preparing]
  rfl

end Action

end ActionTree
