import ActionTree.Proofs.Execution.Passage
import ActionTree.Proofs.Execution.Steps
import ActionTree.Proofs.Execution.Watch

/-!
# Errors that scripts may not catch

Handlers are for faults. Any other error, once it is raised, leaves everything that is open on its way out:
where there is no cleanup nothing else happens, and the execution ends with it.
-/

namespace ActionTree

/-- Once an error is raised that is no fault, the log only says which way it takes, and at the end of it is
the end of the run. -/
def Unwinds (phase : Phase) {α : Type} (log : List LogEntry)
    (r? : Option (Except ScriptError α × Session)) : Prop :=
  ∀ ⦃before e u after⦄, log = before ++ .raised e u :: after → e.fault? = none →
    ∃ e' t, r? = some (.error e', t) ∧ Passage phase False e u.stack after e' t.stack

namespace Unwinds

variable {phase : Phase} {α β : Type} {log l₁ l₂ : List LogEntry}
  {r? : Option (Except ScriptError α × Session)}

theorem nil : Unwinds phase [] r? := by
  intro before e u after h
  cases before <;> cases h

theorem cons {entry : LogEntry} (h : Unwinds phase log r?) (hentry : ∀ e u, entry ≠ .raised e u) :
    Unwinds phase (entry :: log) r? := by
  intro before e u after hsplit he
  cases before with
  | nil => exact absurd (List.cons.inj hsplit).1 (hentry e u)
  | cons first before => exact h (List.cons.inj hsplit).2 he

theorem raised (e : ScriptError) (t : Session) :
    Unwinds phase [.raised e t] (some (.error e, t) : Option (Except ScriptError α × Session)) := by
  intro before e' u after hsplit _
  obtain ⟨_, hraised, rfl⟩ := LogEntry.singleton_split hsplit
  cases hraised
  exact ⟨e, t, rfl, .raised⟩

theorem raising (r? : Option (Except ScriptError α × Session)) : Unwinds phase (LogEntry.raising r?) r? := by
  rcases r? with _ | ⟨e | a, t⟩
  · exact nil
  · exact raised e t
  · exact nil

/-- What ended with a result has let no such error pass. -/
theorem append {a : β} {t : Session}
    (h₁ : Unwinds phase l₁ (some (.ok a, t) : Option (Except ScriptError β × Session)))
    (h₂ : Unwinds phase l₂ r?) : Unwinds phase (l₁ ++ l₂) r? := by
  intro before e u after hsplit he
  rcases LogEntry.append_cases hsplit with ⟨rest, hl₁, _⟩ | ⟨front, _, hl₂⟩
  · obtain ⟨e', t', hend, _⟩ := h₁ hl₁ he
    cases hend
  · exact h₂ hl₂ he

/-- Nothing goes on after the first part. -/
theorem ended {r₁? : Option (Except ScriptError β × Session)} (h : Unwinds phase log r₁?)
    (hr : ∀ e t, r₁? = some (.error e, t) → r? = some (.error e, t)) : Unwinds phase log r? := by
  intro before e u after hsplit he
  obtain ⟨e', t, hend, hway⟩ := h hsplit he
  exact ⟨e', t, hr e' t hend, hway⟩

/-! ### Work -/

variable {m n k : Nat} {calls : Call → Session → List LogEntry} {s : Session} {x : Work α}

theorem bind {f : α → Work β}
    (hx : Unwinds phase (x.log (Action.execute m) n k calls s) (x.run (Action.execute m) n k s))
    (hf : ∀ a t, x.run (Action.execute m) n k s = some (.ok a, t) →
      Unwinds phase ((f a).log (Action.execute m) n k calls t) ((f a).run (Action.execute m) n k t)) :
    Unwinds phase ((x >>= f).log (Action.execute m) n k calls s)
      ((x >>= f).run (Action.execute m) n k s) := by
  refine Work.log_bind_cases (motive := Unwinds phase) (fun hend => ?_) (fun e t hend => ?_)
    fun a t hend => ?_
  · rw [hend] at hx
    exact hx.ended fun _ _ h => by cases h
  · rw [hend] at hx
    refine hx.ended fun _ _ h => ?_
    cases h
    rfl
  · rw [hend] at hx
    exact hx.append (hf a t hend)

/-- What follows a settled end, and raises again what is no fault. -/
theorem settle_bind {g : Except ScriptError α → Work β}
    (hx : Unwinds phase (x.log (Action.execute m) n k calls s) (x.run (Action.execute m) n k s))
    (hg : ∀ r t, x.run (Action.execute m) n k s = some (r, t) →
      Unwinds phase ((g r).log (Action.execute m) n k calls t) ((g r).run (Action.execute m) n k t))
    (hagain : ∀ e t, x.run (Action.execute m) n k s = some (.error e, t) → e.fault? = none →
      (g (.error e)).log (Action.execute m) n k calls t = [.raised e t] ∧
        (g (.error e)).run (Action.execute m) n k t = some (.error e, t)) :
    Unwinds phase ((Work.settle x >>= g).log (Action.execute m) n k calls s)
      ((Work.settle x >>= g).run (Action.execute m) n k s) := by
  refine Work.log_bind_cases (motive := Unwinds phase) (fun hend => ?_) (fun e t hend => ?_)
    fun r t hend => ?_
  · refine hx.ended fun e t h => ?_
    cases (Run.settled_of_some h).symm.trans hend
  · obtain ⟨p, _, hp⟩ := Option.map_eq_some_iff.mp hend
    cases hp
  · obtain ⟨⟨r, t⟩, hbody, hp⟩ := Option.map_eq_some_iff.mp hend
    cases hp
    intro before e u after hsplit he
    -- An error that is raised before the end was settled is the one there, and is no fault.
    rcases LogEntry.append_cases hsplit with ⟨rest, hlog, rfl⟩ | ⟨front, _, hlog⟩
    · obtain ⟨e', t', hend', hway⟩ := hx hlog he
      rw [hbody] at hend'
      cases hend'
      have hfault : e'.fault? = none := by
        unfold ScriptError.fault? at he ⊢
        rw [hway.cause_eq]
        exact he
      obtain ⟨hglog, hgrun⟩ := hagain e' t hbody hfault
      exact ⟨e', t, hgrun, hglog ▸ .again hway rfl⟩
    · exact hg r t hbody hlog he

theorem within {scope : Scope}
    (hx : ∀ t, scope.enter s = some t →
      Unwinds phase (x.log (Action.execute m) n k calls t) (x.run (Action.execute m) n k t))
    (hframe : ∀ other a, scope = .frame other a → other = phase)
    (hrephased : ∀ other, scope = .rephased other →
      (x.run (Action.execute m) n k).Raising fun e => e.trace = none) :
    Unwinds phase ((Work.within scope x).log (Action.execute m) n k calls s)
      ((Work.within scope x).run (Action.execute m) n k s) := by
  refine Work.log_within_cases (motive := Unwinds phase) (fun e t _ _ => raised e t)
    (fun t henter hend => ?_) fun t r v w henter hend hstack hback => ?_
  · have hbody := hx t henter
    rw [hend] at hbody
    exact hbody.cons (by simp)
  · refine Unwinds.cons (fun before e u after hsplit he => ?_) (by simp)
    rcases LogEntry.append_cases hsplit with ⟨rest, hlog, rfl⟩ | ⟨front, _, hlog⟩
    · obtain ⟨e', v', hend', hway⟩ := hx t henter hlog he
      cases hend.symm.trans hend'
      have hleft := hway.leave henter hstack hframe fun other h => hrephased other h hend
      rw [← hback] at hleft
      exact ⟨_, w, rfl, hleft⟩
    · have hmem : .raised e u ∈ LogEntry.leaving scope (some (r, v)) := by
        rw [hlog]
        simp
      exact (LogEntry.raised_not_mem_leaving hmem).elim

end Unwinds

/-! ## Work -/

namespace Work

variable {phase : Phase} {α : Type} {m n k : Nat} {calls : Call → Session → List LogEntry}

theorem Asking.unwinds {w : Work α} (h : Asking Untraced w) (s : Session) :
    Unwinds phase (w.log (Action.execute m) n k calls s) (w.run (Action.execute m) n k s) := by
  induction h generalizing s with
  | @step _ x steady _ =>
      rw [log, run]
      rcases x s with _ | ⟨e | a, t⟩
      · exact Unwinds.nil.cons (by simp)
      · exact .raised e t
      · exact Unwinds.nil.cons (by simp)
  | inquire q => exact (Unwinds.raising _).cons (by simp)
  | bind _ _ ihx ihf => exact .bind (ihx s) fun a t _ => ihf a t
  | reading _ _ ih => exact .bind (Unwinds.nil.cons (by simp)) fun a t _ => ih a t

/-- Work without cleanups lets such an error through, if all that it calls does. -/
theorem Built.unwinds {w : Work α} (h : Built Untraced phase False w) {s : Session}
    (hcalls : ∀ c u, w.Meets s (.call c) u →
      Unwinds phase (calls c u) (c.run (Action.execute m) n k u)) :
    Unwinds phase (w.log (Action.execute m) n k calls s) (w.run (Action.execute m) n k s) := by
  induction h generalizing s with
  | asking h => exact h.unwinds s
  | call c => exact (hcalls c s ⟨rfl, rfl⟩).cons (by simp)
  | bind _ _ ihx ihf =>
      refine .bind (ihx fun c u h => hcalls c u (.inl h)) fun a t hend => ihf a fun c u h => ?_
      exact hcalls c u (.inr ⟨a, t, ends_of_run hend, h⟩)
  | reading _ _ ih =>
      refine .bind (Unwinds.nil.cons (by simp)) fun a t hend => ih a fun c u h => ?_
      exact hcalls c u (.inr ⟨a, t, ends_of_run hend, h⟩)
  | rephased other h =>
      exact .within (fun t _ => h.unwinds t) nofun fun _ _ => h.run_related untraced_evaluative _ n k
  | frame a _ ih =>
      refine .within (fun t ht => ih fun c u h => hcalls c u ⟨t, ht, h⟩) (fun other b h => ?_) nofun
      cases h
      rfl
  | overlaid overlay namePrefix _ ih =>
      exact .within (fun t ht => ih fun c u h => hcalls c u ⟨t, ht, h⟩) nofun nofun
  | onVariables vars _ ih =>
      exact .within (fun t ht => ih fun c u h => hcalls c u ⟨t, ht, h⟩) nofun nofun
  | @guarded handlers items _ _ ihitems ihcaught =>
      refine .settle_bind (ihitems fun c u h => hcalls c u (.inl h)) (fun r t hend => ?_)
        fun e t _ hfault => ?_
      · have hends : (settle (runAll items)).Ends s (.ok r, t) := by
          refine ends_of_run (m := m) (n := n) (k := k) ?_
          exact Run.settled_of_some hend
        cases r with
        | ok outcome => exact Unwinds.nil.cons (by simp)
        | error e =>
            have hhandle (c : Call) (u : Session) (h : (handle handlers e).Meets t (.call c) u) :
                Unwinds phase (calls c u) (c.run (Action.execute m) n k u) :=
              hcalls c u (.inr ⟨.error e, t, hends, h⟩)
            dsimp only at hhandle ⊢
            unfold handle at hhandle ⊢
            split at hhandle
            · refine .bind (Unwinds.nil.cons (by simp)) fun identity v hfresh => ?_
              refine .within (fun w hw => ihcaught _ rfl fun c u h => hhandle c u ?_) nofun nofun
              exact .inr ⟨identity, v, ends_of_run hfresh, w, hw, h⟩
            · exact .raised e t
      · dsimp only
        unfold handle
        rw [hfault]
        cases handlers <;> exact ⟨rfl, rfl⟩
  | cleanedUp h => exact h.elim

end Work

/-! ## Executions -/

/-- A block or a script without a cleanup, or anything else. -/
def Action.Uncleaned (a : Action) : Prop := ∀ sections, a.sections? = some sections → sections.cleanup = none

namespace CallStack

theorem nearest?_setPhase (stack : CallStack) (phase : Phase) (id : String) (accept : Action → Bool) :
    (stack.setPhase phase).nearest? id accept = stack.nearest? id accept := by
  rcases stack with _ | ⟨f, _ | ⟨g, rest⟩⟩ <;> rfl

/-- What is found with one more frame stands in the tree of that frame, or is found without it. -/
theorem nearest?_push {p : Action → Prop} {stack : CallStack} {phase : Phase} {a b : Action} {id : String}
    {accept : Action → Bool} (ha : a.Everywhere p)
    (h : (stack.push phase a).nearest? id accept = some b) :
    b.Everywhere p ∨ stack.nearest? id accept = some b := by
  rcases Option.or_eq_some_iff.mp h with h | ⟨hnone, h⟩
  · unfold find? push at h
    rw [List.flatMap_cons, List.find?_append] at h
    rcases Option.or_eq_some_iff.mp h with h | ⟨-, h⟩
    · rcases List.mem_cons.mp (List.mem_of_find?_eq_some h) with rfl | hb
      · exact .inl ha
      · exact .inl (ha.child hb)
    · exact .inr (Option.or_eq_some_iff.mpr (.inl h))
  · cases stack with
    | nil =>
        refine .inl (Action.everywhere_levels (fun c hc => ?_) (List.mem_of_find?_eq_some h))
        rw [List.mem_singleton.mp hc]
        exact ha
    | cons f rest =>
        unfold find? push at hnone
        rw [List.flatMap_cons, List.find?_append] at hnone
        exact .inr (Option.or_eq_some_iff.mpr (.inr ⟨(Option.or_eq_none_iff.mp hnone).2, h⟩))

end CallStack

/-- Calls of actions without cleanups, and frames from which no sub with a cleanup is found. -/
def Watch.uncleaned : Watch where
  frames stack := ∀ id sub, stack.nearest? id Action.isSub = some sub → sub.Everywhere Action.Uncleaned
  events
    | .call c => c.Everywhere Action.Uncleaned
    | _ => True
  frames_setPhase phase h id sub hfound := h id sub (CallStack.nearest?_setPhase _ phase id _ ▸ hfound)
  step := trivial

theorem Watch.uncleaned_follows : Watch.uncleaned.Follows Action.Uncleaned where
  asks _ _ := trivial
  calls h := h
  push hstack ha id sub hfound := (CallStack.nearest?_push ha hfound).elim (fun h => h) (hstack id sub)
  found hstack hfound := hstack _ _ hfound

theorem Call.unwinds (n k : Nat) {c : Call} {s : Session} (hc : c.Everywhere Action.Uncleaned)
    (hs : Watch.uncleaned.frames s.stack) :
    Unwinds .executing (c.log n k s) (c.run (Action.execute n) n k s) := by
  revert hc hs
  refine log_induction (P := fun c s log r? => c.Everywhere Action.Uncleaned →
    Watch.uncleaned.frames s.stack → Unwinds .executing log r?) ?_ ?_ n k c s
  · intro c s _ _
    exact .nil
  intro c n k s ih hc hs
  have hbuilt : Work.Built Untraced .executing False c.work := by
    refine c.built_work untraced_watchful.toActing fun a ha sections hsections => .inl ?_
    subst ha
    exact hc.self sections hsections
  refine hbuilt.unwinds fun d u hmeets => ?_
  obtain ⟨hu, hd⟩ := Watch.covers_work Watch.uncleaned_follows hc hs hmeets
  exact ih d u hd hu

/-- The entry says only that an error of this cause is on its way out. -/
def LogEntry.PassesOn (cause : ErrorCause) : LogEntry → Prop
  | left _ (some e) _ | raised e _ => e.cause = cause
  | _ => False

theorem Passage.passesOn {phase : Phase} {e e' : ScriptError} {k k' : CallStack} {log : List LogEntry}
    (h : Passage phase False e k log e' k') : ∀ entry ∈ log, entry.PassesOn e.cause := by
  induction h with
  | raised => simp
  | frame h _ ih | rephased _ h _ _ ih | other h _ _ _ ih | again h _ ih =>
      have hcause := h.cause_eq
      simp only [List.mem_append, List.mem_singleton]
      rintro entry (hentry | rfl)
      · exact ih entry hentry
      · exact hcause
  | cleanedUp h => exact h.elim

/-- Where no block and no script has a cleanup, neither in the tree nor in a sub that is found from the
frames that are open at the start, an error that is no fault ends the execution: after it is raised nothing
is done but to leave what is open, without a look at handlers; the execution ends with this error, and with
the current exception that there was before. If the error has no trace, it gets it where it leaves the
innermost of the frames that the execution has open, and it is the trace of these frames. -/
theorem Action.execute_unwinds {root : Action} {n : Nat} {s u : Session} {e : ScriptError}
    {before after : List LogEntry} (hroot : root.Everywhere Uncleaned)
    (hopen : ∀ id sub, s.stack.nearest? id isSub = some sub → sub.Everywhere Uncleaned)
    (hlog : root.log n s = before ++ .raised e u :: after) (he : e.fault? = none) :
    (∀ entry ∈ after, entry.PassesOn e.cause) ∧
    ∃ e' t, root.execute n s = some (.error e', t) ∧ t.currentException = s.currentException ∧
      e'.cause = e.cause ∧
      (u.stack.depth ≤ s.stack.depth → e' = e) ∧
      (s.stack.depth < u.stack.depth →
        e' = e.traced (u.stack.setPhase .executing).trace ∧
        ∃ way a w, way ++ [.left (.frame .executing a) (some e) w] <+: after ∧
          w.stack = u.stack.setPhase .executing) := by
  have hunwinds := Call.unwinds n 0 (c := .action root) hroot hopen
  obtain ⟨e', t, hend, hway⟩ := hunwinds hlog he
  have hframed := (Call.action root).run_framed n n 0 hend
  rw [hframed.stack] at hway
  refine ⟨hway.passesOn, e', t, hend, hframed.currentException, hway.cause_eq, fun hdepth => ?_,
    fun hdepth => ?_⟩
  · rw [hway.error_eq, if_neg (by omega)]
  · obtain ⟨way, a, w, -, hprefix, hw, -⟩ := hway.innermost hdepth
    refine ⟨?_, way, a, w, hprefix, hw⟩
    rw [hway.error_eq, if_pos hdepth]

/-! ### An error of syntax that no handler sees, and one that a cleanup does not let through -/

def LogEntry.raisesNoFault : LogEntry → Bool
  | raised e _ => e.fault?.isNone
  | _ => false

def LogEntry.startsAction : LogEntry → Bool
  | event (.call (.action _)) _ => true
  | _ => false

theorem LogEntry.startsAction_iff {entry : LogEntry} :
    entry.startsAction = true ↔ ∃ a v, entry = .event (.call (.action a)) v := by
  constructor
  · intro h
    unfold startsAction at h
    split at h
    · exact ⟨_, _, rfl⟩
    · cases h
  · rintro ⟨a, v, rfl⟩
    rfl

/-- What comes after the first error that is no fault. -/
theorem LogEntry.exists_raised {log : List LogEntry} {p : LogEntry → Bool}
    (h : (log.dropWhile fun entry => !entry.raisesNoFault).tail.any p = true) :
    ∃ before e u after, log = before ++ .raised e u :: after ∧ e.fault? = none ∧ ∃ entry ∈ after, p entry := by
  have hsplit := List.takeWhile_append_dropWhile (p := fun entry => !raisesNoFault entry) (l := log)
  cases hdrop : log.dropWhile fun entry => !entry.raisesNoFault with
  | nil =>
      rw [hdrop] at h
      cases h
  | cons entry after =>
      have hne : log.dropWhile (fun entry => !entry.raisesNoFault) ≠ [] := by simp [hdrop]
      have hentry := List.head_dropWhile_not (fun entry => !raisesNoFault entry) hne
      simp only [hdrop, List.head_cons, Bool.not_eq_false'] at hentry
      rw [hdrop] at h hsplit
      cases entry with
      | raised e u => exact ⟨_, e, u, after, hsplit.symm, Option.isNone_iff_eq_none.mp hentry, List.any_eq_true.mp h⟩
      | event | entered | left => cases hentry

namespace Action

/-- A text that cannot be read, between handlers for faults. -/
def unreadableAttempt : Action :=
  .sequence ⟨0, none⟩
    [.block ⟨1, none⟩ ⟨[], some [.eval 2 "1+" none], some [.print 3 "caught" .standard], none⟩ false,
      .print 4 "after" .standard]

theorem unreadableAttempt_uncleaned : unreadableAttempt.Everywhere Uncleaned := by
  have hleaf {a : Action} (hsections : a.sections? = none) (hchildren : a.children = []) :
      a.Everywhere Uncleaned := .node (by simp [Uncleaned, hsections]) (by simp [hchildren])
  refine .node nofun fun c hc => ?_
  rcases List.mem_cons.mp hc with rfl | hc
  · refine .node (fun sections h => ?_) fun d hd => ?_
    · cases h
      rfl
    · rcases List.mem_cons.mp hd with rfl | hd
      · exact hleaf rfl rfl
      · cases List.mem_singleton.mp hd
        exact hleaf rfl rfl
  · cases List.mem_singleton.mp hc
    exact hleaf rfl rfl

/-- Neither the handler nor the last action runs. -/
theorem unreadableAttempt_unwinds : ∃ before e u after,
    unreadableAttempt.log 3 (.start {} {}) = before ++ .raised e u :: after ∧ e.fault? = none ∧
      (∀ entry ∈ after, entry.PassesOn e.cause) ∧
      ∃ e' t, unreadableAttempt.execute 3 (.start {} {}) = some (.error e', t) ∧ e'.cause = e.cause := by
  have hraised : ((unreadableAttempt.log 3 (.start {} {})).dropWhile fun entry =>
    !entry.raisesNoFault).tail.any (fun _ => true) = true := by decide +kernel
  obtain ⟨before, e, u, after, hlog, he, -⟩ := LogEntry.exists_raised hraised
  have hopen : ∀ id sub, (Session.start {} {}).stack.nearest? id isSub = some sub → sub.Everywhere Uncleaned :=
    fun id sub h => by cases h
  obtain ⟨hafter, e', t, hend, -, hcause, -⟩ :=
    execute_unwinds unreadableAttempt_uncleaned hopen hlog he
  exact ⟨before, e, u, after, hlog, he, hafter, e', t, hend, hcause⟩

/-- A sub in which a text that cannot be read stands before a cleanup. -/
def cleaningSub : Action :=
  .sub 1 ⟨"f", []⟩
    [.block ⟨2, none⟩ ⟨[], some [.eval 3 "1+" none], none, some [.print 4 "x" .standard]⟩ false]

/-- A call from a frame in which the sub is found. -/
def callFrom : Session :=
  { Session.start {} {} with stack := [⟨.executing, .sequence ⟨0, none⟩ [cleaningSub]⟩] }

/-- The tree has no cleanup, but the sub that it calls has one, which starts an action after the error is
raised. -/
theorem call_cleaningSub_not_unwinds :
    (Action.call ⟨5, none⟩ { sub := "f" }).Everywhere Uncleaned ∧
    ∃ before e u after, (Action.call ⟨5, none⟩ { sub := "f" }).log 6 callFrom = before ++ .raised e u :: after ∧
      e.fault? = none ∧ ∃ a v, .event (.call (.action a)) v ∈ after := by
  have hraised : (((Action.call ⟨5, none⟩ { sub := "f" }).log 6 callFrom).dropWhile fun entry =>
    !entry.raisesNoFault).tail.any LogEntry.startsAction = true := by decide +kernel
  obtain ⟨before, e, u, after, hlog, he, entry, hmem, hentry⟩ := LogEntry.exists_raised hraised
  obtain ⟨a, v, rfl⟩ := LogEntry.startsAction_iff.mp hentry
  exact ⟨.node nofun nofun, before, e, u, after, hlog, he, a, v, hmem⟩

end Action

end ActionTree
