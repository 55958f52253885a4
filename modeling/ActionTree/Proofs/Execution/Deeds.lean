import ActionTree.Proofs.Execution.Latch

/-!
# An abort is raised once

Whatever is done with a session, an abort that was asked for is raised at the first look for it, no action is
started in between, and it is not raised again until it is forgotten.
-/

namespace ActionTree

open AbortMoment (latchAfter Tracked tracked_append)

/-! ## What is done with a session -/

/-- Something that is done with a session. Execution is given a number of steps. -/
inductive Deed where
  | requestAbort
  | checkAbort
  | resetAbort
  | execute (n : Nat) (a : Action)
  | run (n : Nat) (root : Action)

namespace Deed

/-- The moments of it that matter for an abort. -/
def moments (s : Session) : Deed → List AbortMoment
  | requestAbort => [.request]
  | checkAbort => [.check s]
  | resetAbort => [.reset]
  | execute n a => .call a s :: LogEntry.moments (a.log n s)
  | run n root => match root.prepare s with
    | some (.ok _, t) => .call root t :: LogEntry.moments (root.log n t)
    | _ => []

/-- The session after it, if it comes to an end. -/
def after (s : Session) : Deed → Option Session
  | requestAbort => some s.requestAbort
  | checkAbort => (Session.checkAbort s).map Prod.snd
  | resetAbort => some s.resetAbort
  | execute n a => (a.execute n s).map Prod.snd
  | run n root => (root.run n s).map Prod.snd

/-- It ends with a termination. -/
def Terminates (s : Session) : Deed → Prop
  | requestAbort | resetAbort => False
  | checkAbort => ∃ r t, Session.checkAbort s = some (r, t) ∧ Terminated r
  | execute n a => ∃ r t, a.execute n s = some (r, t) ∧ Terminated r
  | run n root => ∃ r t, root.run n s = some (r, t) ∧ Terminated r

/-- The moments of a history, up to something that does not come to an end. -/
def history (s : Session) : List Deed → List AbortMoment
  | [] => []
  | d :: deeds => d.moments s ++ match d.after s with
    | some t => history t deeds
    | none => []

/-- The session after all of it. -/
def afterAll (s : Session) : List Deed → Option Session
  | [] => some s
  | d :: deeds => (d.after s).bind fun t => afterAll t deeds

variable {s t : Session}

theorem latching_call (n : Nat) (a : Action) (s : Session) :
    Latching s.latch (.call a s :: LogEntry.moments (a.log n s)) ((a.execute n s).map Prod.snd) := by
  have hcall := Call.latched n 0 (.action a) s
  rw [Call.Latched, Call.log_action] at hcall
  refine .cons (fun t ht => ?_) hcall
  cases ht
  rfl

theorem prepare_latch (root : Action) : Unlatching root.prepare root.prepare := by
  refine unlatching_framewise.prepare (fun s r t h => ?_) fun s r t h => ?_
  · cases h
    rfl
  · cases h
    rfl

/-- A look for an abort changes the latch as its moment says. -/
theorem checkAbort_latch {r : Except ScriptError Unit} (h : Session.checkAbort s = some (r, t)) :
    t.latch = latchAfter s.latch (.check s) := by
  rw [latchAfter, AbortMoment.mark?]
  cases hraises : s.raises with
  | true =>
      rw [Session.checkAbort_of_raises hraises] at h
      cases h
      rfl
  | false =>
      rw [Session.checkAbort_of_not_raises hraises] at h
      cases h
      rfl

/-- The result of a tree is made of how it ends, in the session in which it ends. -/
theorem run_of_prepared {n : Nat} {root : Action} (h : root.prepare s = some (.ok (), t)) :
    (root.run n s).map Prod.snd = (root.execute n t).map Prod.snd := by
  rw [Action.run, Run.bind_of_ok _ h]
  cases hends : root.execute n t with
  | none =>
      rw [Run.bind_of_none _ hends]
      rfl
  | some p =>
      obtain ⟨e | outcome, u⟩ := p
      · rw [Run.bind_of_error _ hends]
        rfl
      · rw [Run.bind_of_ok _ hends]
        rfl

theorem latching (d : Deed) (s : Session) : Latching s.latch (d.moments s) (d.after s) := by
  cases d with
  | requestAbort | resetAbort =>
      refine .cons (fun _ ht => nomatch ht) (.nil fun t ht => ?_)
      cases Option.some.inj ht
      rfl
  | checkAbort =>
      refine .cons (fun t ht => Option.some.inj ht ▸ rfl) (.nil fun t ht => ?_)
      obtain ⟨⟨r, u⟩, hcheck, rfl⟩ := Option.map_eq_some_iff.mp ht
      exact checkAbort_latch hcheck
  | execute n a => exact latching_call n a s
  | run n root =>
      rw [moments, after]
      cases hprepare : root.prepare s with
      | none =>
          rw [Action.run, Run.bind_of_none _ hprepare]
          exact .nil fun _ ht => nomatch ht
      | some p =>
          obtain ⟨e | u, t⟩ := p
          · rw [Action.run, Run.bind_of_error _ hprepare]
            exact .nil fun u hu => Option.some.inj hu ▸ prepare_latch root hprepare
          · rw [run_of_prepared hprepare, ← prepare_latch root hprepare]
            exact latching_call n root t

theorem latching_history (s : Session) (deeds : List Deed) :
    Latching s.latch (history s deeds) (afterAll s deeds) := by
  induction deeds generalizing s with
  | nil =>
      refine .nil fun t ht => ?_
      cases ht
      rfl
  | cons d deeds ih =>
      have hd := d.latching s
      rw [history, afterAll]
      cases hafter : d.after s with
      | none =>
          rw [hafter] at hd
          simpa using hd
      | some t =>
          rw [hafter] at hd
          exact hd.append (ih t)

end Deed

/-! ## Between two resets -/

namespace AbortMoment

variable {l : Latch} {m : AbortMoment} {moments : List AbortMoment}

/-- An abort is raised where someone looks. -/
theorem exists_session_of_raised (h : m.mark? = some .raised) : ∃ s, m.session? = some s ∧ s.raises = true := by
  cases m with
  | request | reset => cases h
  | check s =>
      cases hraises : s.raises with
      | true => exact ⟨s, rfl, hraises⟩
      | false => rw [mark?, hraises] at h; cases h
  | call a s =>
      cases hraises : s.raises with
      | true => exact ⟨s, rfl, hraises⟩
      | false =>
          rw [mark?, hraises] at h
          cases hrequests : a.requests s <;> rw [hrequests] at h <;> cases h

/-- As long as it is not forgotten, an abort is raised once, and not again if it was before. -/
theorem countP_raised_le (htracked : Tracked l moments) (hkept : ∀ m ∈ moments, m.mark? ≠ some .forgotten) :
    moments.countP (fun m => m.mark? = some .raised) ≤ if l.raised then 0 else 1 := by
  induction moments generalizing l with
  | nil => exact Nat.zero_le _
  | cons m moments ih =>
      obtain ⟨hlooks, htracked⟩ := htracked
      have hrest := ih htracked fun m hm => hkept m (List.mem_cons_of_mem _ hm)
      rw [List.countP_cons]
      cases hmark : m.mark? with
      | none => simpa [latchAfter, hmark] using hrest
      | some mark =>
          cases mark with
          | requested => simpa [latchAfter, hmark, Latch.mark] using hrest
          | forgotten => exact absurd hmark (hkept m List.mem_cons_self)
          | raised =>
              obtain ⟨s, hs, hraises⟩ := exists_session_of_raised hmark
              have hl : l = ⟨true, false⟩ := (hlooks s hs).symm.trans (Session.raises_iff.mp hraises)
              subst hl
              simpa [latchAfter, hmark, Latch.mark] using hrest

/-- Whoever finds an abort raised that was not raised before finds the moment at which it was. -/
theorem exists_raised (hbefore : l.raised = false) (hafter : (moments.foldl latchAfter l).raised = true) :
    ∃ m ∈ moments, m.mark? = some .raised := by
  induction moments generalizing l with
  | nil => exact absurd hafter (by simp [hbefore])
  | cons m moments ih =>
      by_cases hraised : m.mark? = some .raised
      · exact ⟨m, List.mem_cons_self, hraised⟩
      · have hpass : (m.latchAfter l).raised = false := by
          rw [latchAfter]
          rcases hmark : m.mark? with _ | _ | _ | _
          · exact hbefore
          · exact hbefore
          · exact absurd hmark hraised
          · rfl
        obtain ⟨m', hm', hmark⟩ := ih hpass hafter
        exact ⟨m', List.mem_cons_of_mem _ hm', hmark⟩

/-- Where an abort is neither raised nor forgotten, it stays asked for. -/
theorem foldl_latchAfter_of_requested (hbefore : l.raised = false)
    (hquiet : ∀ m ∈ moments, m.mark? ≠ some .raised ∧ m.mark? ≠ some .forgotten)
    (hrequested : l.requested = true ∨ ∃ m ∈ moments, m.mark? = some .requested) :
    moments.foldl latchAfter l = ⟨true, false⟩ := by
  induction moments generalizing l with
  | nil =>
      obtain ⟨requested, raised⟩ := l
      obtain rfl : raised = false := hbefore
      obtain rfl : requested = true := hrequested.resolve_right (by simp)
      rfl
  | cons m moments ih =>
      have hrest (m' : AbortMoment) (hm' : m' ∈ moments) := hquiet m' (List.mem_cons_of_mem _ hm')
      rw [List.foldl_cons]
      rcases hmark : m.mark? with _ | _ | _ | _
      · rw [latchAfter, hmark]
        refine ih hbefore hrest (hrequested.imp_right ?_)
        rintro ⟨m', hm', h⟩
        rcases List.mem_cons.mp hm' with rfl | hm'
        · cases hmark.symm.trans h
        · exact ⟨m', hm', h⟩
      · rw [latchAfter, hmark]
        exact ih hbefore hrest (.inl rfl)
      · exact absurd hmark (hquiet m List.mem_cons_self).1
      · exact absurd hmark (hquiet m List.mem_cons_self).2

end AbortMoment

/-- An abort was asked for since the last reset, or since the start if there was none, and was not raised. -/
def AbortDue (s : Session) (moments : List AbortMoment) : Prop :=
  ∃ earlier since, moments = earlier ++ since ∧
    (earlier = [] ∧ s.abortRaised = false ∨ ∃ old, earlier = old ++ [.reset]) ∧
    (∀ m ∈ since, m.mark? ≠ some .raised ∧ m.mark? ≠ some .forgotten) ∧
    ∃ m ∈ since, m.mark? = some .requested

theorem AbortDue.foldl_latchAfter {s : Session} {moments : List AbortMoment} (h : AbortDue s moments) :
    moments.foldl latchAfter s.latch = ⟨true, false⟩ := by
  obtain ⟨earlier, since, rfl, hstart, hquiet, hrequested⟩ := h
  rw [List.foldl_append]
  refine AbortMoment.foldl_latchAfter_of_requested ?_ hquiet (.inr hrequested)
  rcases hstart with ⟨rfl, hfresh⟩ | ⟨old, rfl⟩
  · exact hfresh
  · rw [List.foldl_append]
    rfl

namespace Action

/-- An abort is raised in place of the action: nothing is done but that. -/
def AbortsFirst (a : Action) (s : Session) : Prop :=
  ∀ n, a.execute (n + 1) s = some (.error .terminated, { s with abortRaised := true }) ∧
    a.log (n + 1) s = [.raised .terminated { s with abortRaised := true }]

theorem abortsFirst_of_latch {a : Action} {s : Session} (h : s.latch = ⟨true, false⟩) : a.AbortsFirst s := by
  have hrequested : s.abortRequested = true := congrArg Latch.requested h
  have hraised : s.abortRaised = false := congrArg Latch.raised h
  intro n
  refine ⟨execute_of_pending hrequested hraised, ?_⟩
  have hcheck : (Work.step Session.checkAbort .checkAbort).run (execute n) n n s = _ :=
    Session.checkAbort_of_pending hrequested hraised
  rw [log, Call.work, Work.log_bind_of_error _ hcheck, Work.log, Session.checkAbort_of_pending hrequested hraised]

end Action

namespace Deed

variable {d : Deed} {s : Session}

/-- A run that ends with a termination raises the latch. -/
theorem exists_raised_of_terminated {α : Type} {x y : Run Session α} (hkeeps : Run.Keeps x y)
    (h : ∃ r t, y s = some (r, t) ∧ Terminated r) :
    ∃ t, (y s).map Prod.snd = some t ∧ s.abortRaised = false ∧ t.abortRaised = true := by
  obtain ⟨r, t, hends, hr⟩ := h
  obtain ⟨hbefore, hafter, _⟩ := (hkeeps hends).terminated_iff.mp hr
  exact ⟨t, congrArg (Option.map Prod.snd) hends, hbefore, hafter⟩

theorem Terminates.raises (h : d.Terminates s) :
    ∃ t, d.after s = some t ∧ s.abortRaised = false ∧ t.abortRaised = true := by
  cases d with
  | requestAbort | resetAbort => exact h.elim
  | checkAbort => exact exists_raised_of_terminated Run.Keeps.checkAbort h
  | execute n a => exact exists_raised_of_terminated (Action.executeUntil_keeps n a) h
  | run n root => exact exists_raised_of_terminated (Action.runUntil_keeps n root) h

/-- However often an abort is asked for, it is raised no more than once until it is forgotten; what ends with
a termination raised it. Once it was asked for and before it is raised, the next action that is called or
executed does not start but raises it. -/
theorem abort_fires_once (deeds : List Deed) (s : Session) :
    (∀ before between after, history s deeds = before ++ between ++ after →
      (∀ m ∈ between, m.mark? ≠ some .forgotten) →
      between.countP (fun m => m.mark? = some .raised) ≤ 1) ∧
    (∀ (d : Deed) (t : Session), d.Terminates t → ∃ m ∈ d.moments t, m.mark? = some .raised) ∧
    (∀ before a t after, history s deeds = before ++ .call a t :: after → AbortDue s before → a.AbortsFirst t) ∧
    ∀ t, afterAll s deeds = some t → AbortDue s (history s deeds) → ∀ a : Action, a.AbortsFirst t := by
  have hlatching := latching_history s deeds
  refine ⟨fun before between after hmoments hkept => ?_, fun d t hends => ?_,
    fun before a t after hmoments hdue => ?_, fun t hends hdue a => ?_⟩
  · have htracked := hlatching.tracked
    rw [hmoments] at htracked
    have hbetween := (tracked_append.mp (tracked_append.mp htracked).1).2
    have hcount := AbortMoment.countP_raised_le hbetween hkept
    split at hcount <;> omega
  · obtain ⟨u, hafter, hbefore, hraised⟩ := hends.raises
    refine AbortMoment.exists_raised (l := t.latch) hbefore ?_
    rw [← (d.latching t).latch_end u hafter]
    exact hraised
  · have htracked := hlatching.tracked
    rw [hmoments] at htracked
    have hlooks := (tracked_append.mp htracked).2.1 t rfl
    exact Action.abortsFirst_of_latch (hlooks.trans hdue.foldl_latchAfter)
  · exact Action.abortsFirst_of_latch ((hlatching.latch_end t hends).trans hdue.foldl_latchAfter)

/-- In a sequence, an abort that the first action asks for is raised in place of the second. -/
theorem abort_fires_once_in_sequence :
    let sequence : Action := .sequence ⟨0, none⟩ [.requestAbort 1, .breakLoop 2]
    ∃ before t, history (.start {} {}) [.execute 3 sequence] = before ++ [.call (.breakLoop 2) t] ∧
      AbortDue (.start {} {}) before ∧ (Action.breakLoop 2).AbortsFirst t := by
  intro sequence
  let started : Session := .start {} {}
  let inside : Session := { started with stack := started.stack.push .executing sequence }
  have hhistory : history started [.execute 3 sequence] =
      [.call sequence started, .call (.requestAbort 1) inside] ++
        [.call (.breakLoop 2) { inside with abortRequested := true }] := rfl
  have hdue : AbortDue started [.call sequence started, .call (.requestAbort 1) inside] := by
    refine ⟨[], _, rfl, .inl ⟨rfl, rfl⟩, ?_, _, List.mem_cons_of_mem _ List.mem_cons_self, rfl⟩
    refine List.forall_mem_cons.mpr ⟨⟨?_, ?_⟩, List.forall_mem_singleton.mpr ⟨?_, ?_⟩⟩ <;> decide
  exact ⟨_, _, hhistory, hdue, (abort_fires_once [.execute 3 sequence] started).2.2.1 _ _ _ [] hhistory hdue⟩

end Deed

end ActionTree
