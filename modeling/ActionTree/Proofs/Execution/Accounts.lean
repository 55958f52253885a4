import ActionTree.Proofs.Execution.Cleanup
import ActionTree.Proofs.Execution.Passage

/-!
# Where errors come from

Every error in the log of an execution was raised without a trace, or by a frame that was one too many, and
all that happened to it since is in the log: where an error leaves a scope, where it is raised again, where
its fault is handled, and at the end.
-/

namespace ActionTree

/-- At the end of the log the error is on its way out, and these frames are open. -/
def Underway (phase : Phase) (log : List LogEntry) (e : ScriptError) (k : CallStack) : Prop :=
  ∃ before e₀ v way, log = before ++ .raised e₀ v :: way ∧ e₀.Arises v ∧
    Passage phase True e₀ v.stack way e k

namespace Underway

variable {phase : Phase} {log : List LogEntry} {e : ScriptError} {k : CallStack} {u : Session}

theorem raised (he : e.Arises u) : Underway phase (log ++ [.raised e u]) e u.stack :=
  ⟨log, e, u, [], rfl, he, .raised⟩

theorem prepend (h : Underway phase log e k) (before : List LogEntry) :
    Underway phase (before ++ log) e k := by
  obtain ⟨earlier, e₀, v, way, rfl, he, hway⟩ := h
  exact ⟨before ++ earlier, e₀, v, way, by simp, he, hway⟩

theorem leave {scope : Scope} {s t : Session} (h : Underway phase log e u.stack)
    (henter : scope.enter s = some t) (hstack : u.stack = t.stack)
    (hframe : ∀ other a, scope = .frame other a → other = phase)
    (hrephased : ∀ other, scope = .rephased other → e.trace = none) :
    Underway phase (log ++ [.left scope (some e) u]) (scope.pass u e) s.stack := by
  obtain ⟨before, e₀, v, way, rfl, he, hway⟩ := h
  exact ⟨before, e₀, v, way ++ [.left scope (some e) u], by simp, he,
    hway.leave henter hstack hframe hrephased⟩

theorem again (h : Underway phase log e k) (hu : u.stack = k) :
    Underway phase (log ++ [.raised e u]) e k := by
  obtain ⟨before, e₀, v, way, rfl, he, hway⟩ := h
  exact ⟨before, e₀, v, way ++ [.raised e u], by simp, he, hway.again hu⟩

theorem cleanedUp {between : List LogEntry} (h : Underway phase log e k)
    (hbetween : ∀ entry ∈ between, k.depth ≤ entry.session.stack.depth) (hu : u.stack = k) :
    Underway phase (log ++ between ++ [.raised e u]) e k := by
  obtain ⟨before, e₀, v, way, rfl, he, hway⟩ := h
  exact ⟨before, e₀, v, way ++ between ++ [.raised e u], by simp, he, .cleanedUp trivial hway hbetween hu⟩

end Underway

/-! ## Accounts -/

/-- What the log before an entry tells about it: where the error comes from that is raised, or that leaves a
scope, and where the one comes from whose fault is handled. -/
def LogEntry.Accounted (phase : Phase) (before : List LogEntry) : LogEntry → Prop
  | raised e u => Underway phase (before ++ [raised e u]) e u.stack
  | left scope (some e) u => Underway phase before e u.stack ∧
      ∀ other a, scope = .frame other a →
        Underway phase (before ++ [left scope (some e) u]) (e.traced u.stack.trace) u.stack.pop
  | entered (.handling c) t => ∃ earlier e w, before = earlier ++ [.event .step w] ∧
      Underway phase earlier e t.stack ∧ e.fault? = some c.fault ∧ e.trace = c.trace ∧ e.trace ≠ none
  | _ => True

theorem LogEntry.Accounted.prepend {phase : Phase} {before : List LogEntry} {entry : LogEntry}
    (h : entry.Accounted phase before) (first : List LogEntry) : entry.Accounted phase (first ++ before) := by
  unfold Accounted at h ⊢
  split at h
  · rw [List.append_assoc]
    exact Underway.prepend h first
  · refine ⟨h.1.prepend first, fun other a hscope => ?_⟩
    rw [List.append_assoc]
    exact (h.2 other a hscope).prepend first
  · obtain ⟨earlier, e, w, rfl, hway, he⟩ := h
    exact ⟨first ++ earlier, e, w, by simp, hway.prepend first, he⟩
  · trivial

/-- All entries of the log are accounted for, after what came first. -/
def AccountedFrom (phase : Phase) (first log : List LogEntry) : Prop :=
  ∀ ⦃before entry after⦄, log = before ++ entry :: after → entry.Accounted phase (first ++ before)

namespace AccountedFrom

variable {phase : Phase} {first log l₁ l₂ : List LogEntry} {entry : LogEntry}

theorem nil : AccountedFrom phase first [] := by
  intro before entry after h
  cases before <;> cases h

theorem cons (hentry : entry.Accounted phase first) (h : AccountedFrom phase (first ++ [entry]) log) :
    AccountedFrom phase first (entry :: log) := by
  intro before other after hsplit
  cases before with
  | nil =>
      cases hsplit
      rwa [List.append_nil]
  | cons own before =>
      obtain ⟨rfl, hrest⟩ := List.cons.inj hsplit
      simpa using h hrest

theorem append (h₁ : AccountedFrom phase first l₁) (h₂ : AccountedFrom phase (first ++ l₁) l₂) :
    AccountedFrom phase first (l₁ ++ l₂) := by
  intro before entry after hsplit
  rcases LogEntry.append_cases hsplit with ⟨rest, hl₁, _⟩ | ⟨front, rfl, hl₂⟩
  · exact h₁ hl₁
  · simpa using h₂ hl₂

theorem prepend (h : AccountedFrom phase [] log) (first : List LogEntry) :
    AccountedFrom phase first log :=
  fun _ _ _ hsplit => (h hsplit).prepend first

end AccountedFrom

/-- The log of something that began in this session, after what came first: nothing that was open at its
begin is left before the end; all its entries are accounted for; and so is the error at the end. -/
structure Accounts (phase : Phase) (first : List LogEntry) (s : Session) {α : Type} (log : List LogEntry)
    (r? : Option (Except ScriptError α × Session)) : Prop where
  inside : ∀ entry ∈ log, s.stack.depth ≤ entry.session.stack.depth
  accounted : AccountedFrom phase first log
  sourced : ∀ e t, r? = some (.error e, t) → Underway phase (first ++ log) e t.stack

namespace Accounts

variable {phase : Phase} {first log l₁ l₂ : List LogEntry} {s t : Session} {α β : Type}
  {r? : Option (Except ScriptError α × Session)}

theorem nil (hr : ∀ e t, r? ≠ some (.error e, t)) : Accounts phase first s [] r? where
  inside := by simp
  accounted := .nil
  sourced e t hend := absurd hend (hr e t)

theorem prepend (h : Accounts phase [] s log r?) (first : List LogEntry) :
    Accounts phase first s log r? where
  inside := h.inside
  accounted := h.accounted.prepend first
  sourced e t hend := (h.sourced e t hend).prepend first

theorem event (e : Event) (hr : ∀ e' t, r? ≠ some (.error e', t)) :
    Accounts phase first s [.event e s] r? where
  inside := by simp [LogEntry.session]
  accounted := .cons trivial .nil
  sourced e' t hend := absurd hend (hr e' t)

/-- A question that is asked, or a call that is made; the answer is still to come. -/
theorem asked (e : Event) :
    Accounts phase first s [.event e s] (none : Option (Except ScriptError Unit × Session)) :=
  event e (by simp)

theorem raised {e : ScriptError} (he : Underway phase (first ++ [.raised e t]) e t.stack)
    (hstack : t.stack = s.stack) :
    Accounts phase first s [.raised e t] (some (.error e, t) : Option (Except ScriptError α × Session)) where
  inside := by simp [LogEntry.session, hstack]
  accounted := .cons he .nil
  sourced e' t' hend := by
    cases hend
    exact he

/-- What ends in errors that arise. -/
theorem raising (h : ∀ e t, r? = some (.error e, t) → e.Arises t ∧ t.stack = s.stack) :
    Accounts phase first s (LogEntry.raising r?) r? := by
  rcases r? with _ | ⟨e | a, t⟩
  · exact nil (by simp)
  · obtain ⟨he, hstack⟩ := h e t rfl
    exact raised (.raised he) hstack
  · exact nil (by simp)

/-- Something else goes on after the first part, no less deep. -/
theorem append {r₁? : Option (Except ScriptError β × Session)} (h₁ : Accounts phase first s l₁ r₁?)
    (h₂ : Accounts phase (first ++ l₁) t l₂ r?) (hdepth : s.stack.depth ≤ t.stack.depth) :
    Accounts phase first s (l₁ ++ l₂) r? where
  inside entry hentry := by
    rcases List.mem_append.mp hentry with hentry | hentry
    · exact h₁.inside entry hentry
    · exact Nat.le_trans hdepth (h₂.inside entry hentry)
  accounted := h₁.accounted.append h₂.accounted
  sourced e u hend := by
    rw [← List.append_assoc]
    exact h₂.sourced e u hend

/-- Nothing goes on after the first part. -/
theorem ended {r₁? : Option (Except ScriptError β × Session)} (h : Accounts phase first s log r₁?)
    (hr : ∀ e t, r? = some (.error e, t) → r₁? = some (.error e, t)) : Accounts phase first s log r? where
  inside := h.inside
  accounted := h.accounted
  sourced e t hend := h.sourced e t (hr e t hend)

/-- The end of what ran in a scope. -/
theorem leaving {scope : Scope} {r : Except ScriptError α} {u v : Session}
    (henter : scope.enter s = some t) (hstack : u.stack = t.stack) (hback : v.stack = s.stack)
    (hunderway : ∀ e, r = .error e → Underway phase first e u.stack)
    (hframe : ∀ other a, scope = .frame other a → other = phase)
    (hrephased : ∀ other, scope = .rephased other → ∀ e, r = .error e → e.trace = none) :
    Accounts phase first s (LogEntry.leaving scope (some (r, u)))
      (some (r.mapError fun e => scope.pass u e, v)) := by
  have hdepth : s.stack.depth ≤ u.stack.depth := hstack ▸ (Scope.enter_deeper henter).depth
  cases r with
  | ok a =>
      refine ⟨by simpa [LogEntry.leaving, LogEntry.session] using hdepth, .cons trivial .nil, fun e w hend => ?_⟩
      cases hend
  | error e =>
      have hleft := (hunderway e rfl).leave henter hstack hframe fun other h => hrephased other h e rfl
      refine ⟨by simpa [LogEntry.leaving, LogEntry.session] using hdepth,
        .cons ⟨hunderway e rfl, fun other a hscope => ?_⟩ .nil, fun e' w hend => ?_⟩
      · subst hscope
        have hpop : u.stack.pop = s.stack := by
          dsimp only [Scope.enter] at henter
          split at henter
          · cases henter
          · cases henter
            rw [hstack]
            rfl
        rw [hpop]
        exact hleft
      · cases hend
        rw [hback]
        exact hleft

/-! ### Work -/

variable {m n k : Nat} {calls : Call → Session → List LogEntry} {x : Work α}

theorem bind {f : α → Work β}
    (hx : Accounts phase first s (x.log (Action.execute m) n k calls s) (x.run (Action.execute m) n k s))
    (hf : ∀ a t, x.run (Action.execute m) n k s = some (.ok a, t) →
      Accounts phase (first ++ x.log (Action.execute m) n k calls s) t
        ((f a).log (Action.execute m) n k calls t) ((f a).run (Action.execute m) n k t)) :
    Accounts phase first s ((x >>= f).log (Action.execute m) n k calls s)
      ((x >>= f).run (Action.execute m) n k s) := by
  refine Work.log_bind_cases (motive := Accounts phase first s) (fun _ => ?_) (fun e t hend => ?_)
    fun a t hend => ?_
  · exact hx.ended fun _ _ h => by cases h
  · refine hx.ended fun _ _ h => ?_
    cases h
    exact hend
  · exact hx.append (hf a t hend) (x.run_sameFrames hend).deeper.depth

/-- What follows a settled end knows of the error there. -/
theorem settle_bind {g : Except ScriptError α → Work β}
    (hx : Accounts phase [] s (x.log (Action.execute m) n k calls s) (x.run (Action.execute m) n k s))
    (hg : ∀ r t, x.run (Action.execute m) n k s = some (r, t) →
      Accounts phase (x.log (Action.execute m) n k calls s) t
        ((g r).log (Action.execute m) n k calls t) ((g r).run (Action.execute m) n k t)) :
    Accounts phase [] s ((Work.settle x >>= g).log (Action.execute m) n k calls s)
      ((Work.settle x >>= g).run (Action.execute m) n k s) := by
  have hsettle : Accounts phase [] s ((Work.settle x).log (Action.execute m) n k calls s)
      ((Work.settle x).run (Action.execute m) n k s) := by
    refine hx.ended fun e t h => ?_
    obtain ⟨p, _, hp⟩ := Option.map_eq_some_iff.mp h
    cases hp
  refine hsettle.bind fun r t hend => ?_
  obtain ⟨p, hx, hp⟩ := Option.map_eq_some_iff.mp hend
  cases hp
  exact hg _ _ hx

theorem within {scope : Scope}
    (hentered : ∀ t, scope.enter s = some t → (LogEntry.entered scope t).Accounted phase first)
    (hx : ∀ t, scope.enter s = some t → Accounts phase [] t (x.log (Action.execute m) n k calls t)
      (x.run (Action.execute m) n k t))
    (hframe : ∀ other a, scope = .frame other a → other = phase)
    (hrephased : ∀ other, scope = .rephased other →
      (x.run (Action.execute m) n k).Raising fun e => e.trace = none) :
    Accounts phase first s ((Work.within scope x).log (Action.execute m) n k calls s)
      ((Work.within scope x).run (Action.execute m) n k s) := by
  have hinside (t : Session) (henter : scope.enter s = some t) :
      Accounts phase first s (.entered scope t :: x.log (Action.execute m) n k calls t)
        (x.run (Action.execute m) n k t) := by
    have hdeeper := (Scope.enter_deeper henter).depth
    have hentry : Accounts phase first s [.entered scope t]
        (none : Option (Except ScriptError α × Session)) :=
      ⟨by simpa [LogEntry.session] using hdeeper, .cons (hentered t henter) .nil, by simp⟩
    exact hentry.append ((hx t henter).prepend _) hdeeper
  refine Work.log_within_cases (motive := Accounts phase first s) (fun e t he hstack => ?_)
    (fun t henter hend => ?_) fun t r u v henter hend hstack hback => ?_
  · exact raised (.raised he) hstack
  · exact hend ▸ hinside t henter
  · refine (hinside t henter).append ?_ (Nat.le_refl _)
    refine leaving henter hstack hback (fun e he => ?_) hframe fun other h e he => ?_
    · subst he
      exact (hinside t henter).sourced e u hend
    · subst he
      exact hrephased other h hend

end Accounts

/-! ## Work -/

/-- Of the errors of actions, those that handlers are for have a trace. -/
theorem runAll_execute_traced {n : Nat} {items : List Action} {s t : Session} {e : ScriptError}
    (h : runAll (Action.execute n) items s = some (.error e, t)) (he : e.fault?.isSome) : e.trace ≠ none := by
  induction items generalizing s with
  | nil => cases h
  | cons a rest ih =>
      rcases Run.bind_inv h with ⟨outcome, u, _, hrest⟩ | ⟨e', ha, he'⟩
      · cases outcome with
        | none => exact ih hrest
        | some signal => cases hrest
      · cases he'
        cases n with
        | zero => cases ha
        | succ n =>
            rcases Run.bind_inv ha with ⟨_, u, _, hframe⟩ | ⟨e', habort, he'⟩
            · exact Session.withFrame_traced hframe
            · cases he'
              rcases Session.checkAbort_inv habort with ⟨hterminated, _⟩ | ⟨hok, _⟩
              · cases hterminated
                cases he
              · cases hok

namespace Work

variable {phase : Phase} {first : List LogEntry} {α : Type} {m n k : Nat}
  {calls : Call → Session → List LogEntry}

theorem Asking.accounts {w : Work α} (h : Asking Untraced w) (s : Session) :
    Accounts phase first s (w.log (Action.execute m) n k calls s) (w.run (Action.execute m) n k s) := by
  induction h generalizing first s with
  | @step _ x steady hx =>
      rw [log, run]
      obtain ⟨r, t, hend, hstack, -⟩ := steady s
      rw [hend]
      cases r with
      | error e => exact .raised (.raised (.inl (hx hend))) hstack
      | ok a => exact .event _ (by simp)
  | inquire q =>
      refine (Accounts.asked _).append (.raising fun e t hend => ⟨.inl ?_, ?_⟩) (Nat.le_refl _)
      · exact q.run_related untraced_evaluative n hend
      · exact (q.run_framed n hend).stack
  | bind _ _ ihx ihf => exact .bind (ihx s) fun a t _ => ihf a t
  | reading _ _ ih => exact .bind (.event _ fun _ _ h => by cases h) fun a t _ => ih a t

/-- The handlers of a block, after the error that they may be for. -/
theorem handle_accounts {handlers : Option (List Action)} {e : ScriptError} {t : Session}
    (hunderway : Underway phase first e t.stack) (htraced : e.fault?.isSome → e.trace ≠ none)
    (hcaught : ∀ caught ∈ handlers, ∀ u, Accounts phase [] u
      ((runAll caught).log (Action.execute m) n k calls u) ((runAll caught).run (Action.execute m) n k u)) :
    Accounts phase first t ((handle handlers e).log (Action.execute m) n k calls t)
      ((handle handlers e).run (Action.execute m) n k t) := by
  unfold handle
  split
  · rename_i caught fault hfault
    have hfresh : Asking Untraced (step Session.freshIdentity .freshIdentity) :=
      .step untraced_watchful.freshIdentity
    refine .bind (hfresh.accounts t) fun identity u hend => ?_
    cases hend
    refine .within (fun v hv => ?_) (fun v _ => hcaught caught rfl v) nofun nofun
    cases hv
    exact ⟨first, e, t, rfl, hunderway, hfault, rfl, htraced (Option.isSome_iff_exists.mpr ⟨fault, hfault⟩)⟩
  · exact .raised (hunderway.again rfl) rfl

/-- All that happens in the course of work is accounted for, if all that happens in its calls is. -/
theorem Built.accounts {w : Work α} (h : Built Untraced phase True w) (s : Session)
    (hcalls : ∀ c u, Accounts phase [] u (calls c u) (c.run (Action.execute m) n k u)) :
    Accounts phase [] s (w.log (Action.execute m) n k calls s) (w.run (Action.execute m) n k s) := by
  induction h generalizing s with
  | asking h => exact h.accounts s
  | call c =>
      exact (Accounts.asked _).append ((hcalls c s).prepend _) (Nat.le_refl _)
  | bind _ _ ihx ihf => exact .bind (ihx s) fun a t _ => (ihf a t).prepend _
  | reading _ _ ih => exact .bind (.event _ fun _ _ h => by cases h) fun a t _ => (ih a t).prepend _
  | rephased other h =>
      exact .within (fun t _ => trivial) (fun t _ => h.accounts t) nofun fun _ _ =>
        h.run_related untraced_evaluative _ n k
  | frame a _ ih =>
      refine .within (fun t _ => trivial) (fun t _ => ih t) (fun other b h => ?_) nofun
      cases h
      rfl
  | overlaid overlay namePrefix _ ih => exact .within (fun t _ => trivial) (fun t _ => ih t) nofun nofun
  | onVariables vars _ ih => exact .within (fun t _ => trivial) (fun t _ => ih t) nofun nofun
  | @guarded handlers items _ _ ihitems ihcaught =>
      refine .settle_bind (ihitems s) fun r t hend => ?_
      cases r with
      | ok outcome => exact (asking_pure untraced_watchful.toSequential outcome).accounts t
      | error e =>
          -- The items are actions in frames of their own, so that their faults have left a frame.
          refine handle_accounts ((ihitems s).sourced e t hend) (fun he => ?_) ihcaught
          rw [run_runAll] at hend
          exact runAll_execute_traced hend he
  | cleanedUp _ _ _ ihx ihitems =>
      refine .settle_bind (ihx s) fun r t hend => ?_
      refine .bind ((ihitems t).prepend _) fun outcome u hcleanup => ?_
      have hstack : u.stack = t.stack := (run_sameFrames _ hcleanup).1
      cases outcome with
      | some signal => exact (asking_pure untraced_watchful.toSequential _).accounts u
      | none =>
          cases r with
          | ok outcome => exact .event _ (by simp [resume, run])
          | error e =>
              -- Nothing that was open after the body is left in the cleanup.
              refine .raised ?_ rfl
              have hunderway := ((ihx s).sourced e t hend).cleanedUp (ihitems t).inside hstack
              rwa [← hstack] at hunderway

end Work

end ActionTree
