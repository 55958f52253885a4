import ActionTree.Proofs.Execution.Accounts
import ActionTree.Proofs.Execution.Handling

/-!
# The traces of errors

An error gets its trace once, where it leaves the innermost of the frames that were open when it was raised,
and keeps it: through all other scopes, through calls, loops and blocks, in the handlers for its fault, and
to the end.
-/

namespace ActionTree

/-! ## One trace -/

namespace ScriptError

theorem traced_eq {e : ScriptError} {text : String} (h : e.trace = none ∨ e.trace = some text) :
    e.traced text = ⟨e.cause, some text⟩ := by
  obtain ⟨cause, own⟩ := e
  rcases h with h | h <;> cases h <;> rfl

end ScriptError

/-- At the end of the log this error is on its way out, with these frames open, and has its trace. It was
raised without one and the trace is of the frames that were open when it left the innermost of those that
were open when it was raised; or a frame that was one too many gave it that of the frames open then. -/
def TracedFrom (phase : Phase) (log : List LogEntry) (e : ScriptError) (k : CallStack) : Prop :=
  ∃ before e₀ v way, log = before ++ .raised e₀ v :: way ∧ e₀.Arises v ∧
    Passage phase True e₀ v.stack way e k ∧
    ((e = e₀ ∧ e.trace = some v.stack.trace ∧ k = v.stack) ∨
      ∃ inner a w outer, inner ++ [.left (.frame phase a) (some e₀) w] <+: way ∧
        Passage phase True e₀ v.stack inner e₀ w.stack ∧ w.stack = v.stack.setPhase phase ∧
        w.stack = CallStack.push outer phase a ∧ k <:+ outer ∧ e = ⟨e₀.cause, some w.stack.trace⟩)

theorem Underway.tracedFrom {phase : Phase} {log : List LogEntry} {e : ScriptError} {k : CallStack}
    (h : Underway phase log e k) (he : e.trace ≠ none) : TracedFrom phase log e k := by
  obtain ⟨before, e₀, v, way, rfl, harises, hway⟩ := h
  refine ⟨before, e₀, v, way, rfl, harises, hway, ?_⟩
  rcases hway.split with ⟨rfl, -, -, hsame⟩ | ⟨hraised, hdepth, hsame⟩
  · have hdeep := harises.resolve_left he
    refine .inl ⟨rfl, ?_, hsame he⟩
    rw [hdeep]
    rfl
  · obtain ⟨inner, a, w, outer, hprefix, hw, houter, hsuffix, hinner⟩ := hway.innermost hdepth
    refine .inr ⟨inner, a, w, outer, hprefix, hinner, hw, houter, hsuffix, ?_⟩
    rw [hraised, hw]
    refine ScriptError.traced_eq (harises.imp id fun hdeep => ?_)
    have htrace : e₀.trace = some v.stack.trace := by
      rw [hdeep]
      rfl
    rw [hsame (by simp [htrace])]
    exact htrace

/-- What a log that began in this session says about traces: an error that is raised again with a trace, one
that leaves a scope with a trace, every error that has left a frame, and every error whose fault is handled,
has the trace that it was given once; and whatever happens sees the exception of the innermost handlers that
run there, or the one that there was at the begin. -/
structure TracesOnce (phase : Phase) (s : Session) (log : List LogEntry) : Prop where
  raised : ∀ ⦃before e u after⦄, log = before ++ .raised e u :: after → e.trace ≠ none →
    TracedFrom phase (before ++ [.raised e u]) e u.stack
  left : ∀ ⦃before scope e u after⦄, log = before ++ .left scope (some e) u :: after → e.trace ≠ none →
    TracedFrom phase before e u.stack
  frame : ∀ ⦃before other a e u after⦄, log = before ++ .left (.frame other a) (some e) u :: after →
    TracedFrom phase (before ++ [.left (.frame other a) (some e) u]) (e.traced u.stack.trace) u.stack.pop
  handled : ∀ ⦃before c t after⦄, log = before ++ .entered (.handling c) t :: after →
    ∃ earlier e w, before = earlier ++ [.event .step w] ∧ e.fault? = some c.fault ∧ e.trace = c.trace ∧
      TracedFrom phase earlier e t.stack
  visible : ∀ ⦃before x u after⦄, log = before ++ .event x u :: after →
    u.currentException = (before.foldl LogEntry.handling []).head?.or s.currentException ∧
      ∀ c ∈ before.foldl LogEntry.handling [], ∃ first t rest, before = first ++ .entered (.handling c) t :: rest

theorem Accounts.tracesOnce {phase : Phase} {s : Session} {log : List LogEntry} {α β : Type}
    {r? : Option (Except ScriptError α × Session)} {p? : Option β} (h : Accounts phase [] s log r?)
    (hattends : Attends s log p?) : TracesOnce phase s log where
  raised before e u after hlog he := by
    have hentry := h.accounted hlog
    exact Underway.tracedFrom hentry he
  left before scope e u after hlog he := by
    have hentry := h.accounted hlog
    exact hentry.1.tracedFrom he
  frame before other a e u after hlog := by
    have hentry := h.accounted hlog
    exact (hentry.2 other a rfl).tracedFrom (ScriptError.trace_traced_ne_none e _)
  handled before c t after hlog := by
    obtain ⟨earlier, e, w, hbefore, hunderway, hfault, htrace, he⟩ := h.accounted hlog
    exact ⟨earlier, e, w, hbefore, hfault, htrace, hunderway.tracedFrom he⟩
  visible before x u after hlog := by
    obtain ⟨own, hown, hu⟩ := hattends.visible hlog
    refine ⟨?_, fun c hc => LogEntry.exists_entered hc⟩
    rw [hown, List.append_nil]
    exact hu

/-! ## Executions, checks and compilations -/

theorem Call.accounts (n k : Nat) (c : Call) (s : Session) :
    Accounts .executing [] s (c.log n k s) (c.run (Action.execute n) n k s) :=
  log_induction (P := fun _ s log r? => Accounts .executing [] s log r?) (fun _ _ => .nil (by simp))
    (fun c _ _ s ih =>
      (c.built_work untraced_watchful.toActing fun _ _ _ _ => .inr trivial).accounts s ih) n k c s

namespace Action

variable {root : Action} {n : Nat} {s t : Session} {e : ScriptError}

/-- While a tree is checked or compiled, nothing is called. -/
theorem tracesOnce_of_built {phase : Phase} {x : Work Unit}
    (h : ∀ {R : RunRel Session}, R.Observant → Work.Built R phase True x) (s : Session) :
    Accounts phase [] s (x.log (execute 0) 0 0 (Call.log 0 0) s) (x.run (execute 0) 0 0 s) ∧
      TracesOnce phase s (x.log (execute 0) 0 0 (Call.log 0 0) s) := by
  have hcalls (c : Call) (u : Session) :
      Accounts phase [] u (Call.log 0 0 c u) (c.run (execute 0) 0 0 u) := by
    cases c <;> exact .nil fun _ _ hend => by cases hend
  have haccounts := (h untraced_evaluative.toObservant).accounts s hcalls
  have hattends := (h framing_blockwise.toObservant).attends s (Call.attends 0 0)
  exact ⟨haccounts, haccounts.tracesOnce hattends⟩

/-- An error that leaves an execution has a trace, or is a termination in place of the execution. -/
theorem execute_traced (h : root.execute n s = some (.error e, t)) :
    e.trace ≠ none ∨ e = .terminated ∧ root.log n s = [.raised e t] := by
  cases n with
  | zero => cases h
  | succ n =>
      rcases Run.bind_inv h with ⟨_, u, _, hframe⟩ | ⟨e', habort, he⟩
      · exact .inl (Session.withFrame_traced hframe)
      · cases he
        have hlog : root.log (n + 1) s = (Work.step Session.checkAbort .checkAbort).log (execute n) n n
            (Call.logBy (execute n) (log n) n n) s := Work.log_bind_of_error _ habort
        rcases Session.checkAbort_inv habort with ⟨hterminated, _⟩ | ⟨hok, _⟩
        · cases hterminated
          refine .inr ⟨rfl, hlog.trans ?_⟩
          rw [Work.log, habort]
        · cases hok

theorem check_traced (h : root.check s = some (.error e, t)) : e.trace ≠ none := by
  rw [check] at h
  exact Session.withFrame_traced h

theorem compile_traced (h : root.compile s = some (.error e, t)) : e.trace ≠ none := by
  unfold compile at h
  generalize root.breadthFirst = nodes at h
  induction nodes generalizing s with
  | nil => cases h
  | cons a rest ih =>
      rcases Run.bind_inv h with ⟨_, u, _, hrest⟩ | ⟨e', ha, he⟩
      · exact ih hrest
      · cases he
        exact Session.withFrame_traced ha

/-- However a tree is executed, checked or compiled, and whatever is open, under way or to be handled then:
each error that leaves a frame has its trace from the innermost frame that was open when it was raised, or
from one that was one too many, and so has each fault that is handled, each exception that handlers see but
for one that there was before, and each error at the end, but for a termination in place of the execution. -/
theorem traces_attached_once (root : Action) (n : Nat) (s : Session) :
    TracesOnce .executing s (root.log n s) ∧ TracesOnce .initializing s (root.checkLog s) ∧
    TracesOnce .compiling s (root.compileLog s) ∧
    (∀ e t, root.execute n s = some (.error e, t) →
      TracedFrom .executing (root.log n s) e s.stack ∨ e = .terminated ∧ root.log n s = [.raised e t]) ∧
    (∀ e t, root.check s = some (.error e, t) → TracedFrom .initializing (root.checkLog s) e s.stack) ∧
    ∀ e t, root.compile s = some (.error e, t) → TracedFrom .compiling (root.compileLog s) e s.stack := by
  have hexecute := Call.accounts n 0 (.action root) s
  obtain ⟨hchecked, hcheck⟩ := tracesOnce_of_built (fun C => root.built_checking C) s
  obtain ⟨hcompiled, hcompile⟩ := tracesOnce_of_built (fun C => root.built_compiling C) s
  refine ⟨hexecute.tracesOnce (Call.attends n 0 (.action root) s), hcheck, hcompile, fun e t hend => ?_,
    fun e t hend => ?_, fun e t hend => ?_⟩
  · have hstack : t.stack = s.stack := ((Call.action root).run_framed n n 0 hend).stack
    refine (execute_traced hend).imp (fun he => ?_) id
    rw [← hstack]
    exact (hexecute.sourced e t hend).tracedFrom he
  · have hrun : root.checking.run (execute 0) 0 0 s = some (.error e, t) := by
      rw [run_checking, hend]
    have hstack : t.stack = s.stack := (root.checking.run_sameFrames hrun).1
    rw [← hstack]
    exact (hchecked.sourced e t hrun).tracedFrom (check_traced hend)
  · have hrun : root.compiling.run (execute 0) 0 0 s = some (.error e, t) := by
      rw [run_compiling, hend]
    have hstack : t.stack = s.stack := (root.compiling.run_sameFrames hrun).1
    rw [← hstack]
    exact (hcompiled.sourced e t hrun).tracedFrom (compile_traced hend)

/-- An error in a sub has the trace of the sub and of its call. -/
example :
    ((script ⟨0, none⟩ { items := [.sub 1 ⟨"fails", []⟩ [.throw 2 "bad"],
        .call ⟨3, some "caller"⟩ { sub := "fails" }] }).execute 5 (.start {} {})).map (fun p =>
      match p.1 with
      | .error e => e.trace
      | .ok _ => none) =
      some (some ("   at Throw (Executing)\n   at Sub 'fails' (Executing)\n" ++
        "   at Call 'caller' (Executing)\n   at Script (Executing)")) := by
  decide +kernel

end Action

end ActionTree
