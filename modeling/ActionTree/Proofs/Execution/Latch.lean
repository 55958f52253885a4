import ActionTree.Proofs.Execution.Cleanup
import ActionTree.Proofs.Execution.Passage

/-!
# The latch of an abort

An abort is asked for and raised by bits of the session that are set in different places. In the course of an
execution, they are what the moments tell at which an abort was asked for or raised.
-/

namespace ActionTree

/-! ## The bits -/

/-- Was an abort asked for, and was it raised? -/
structure Latch where
  requested : Bool
  raised : Bool

/-- What becomes of an abort. -/
inductive AbortMark where
  | requested | raised | forgotten
  deriving DecidableEq

def Latch.mark (l : Latch) : AbortMark → Latch
  | .requested => { l with requested := true }
  | .raised => { l with raised := true }
  | .forgotten => ⟨false, false⟩

namespace Session

def latch (s : Session) : Latch := ⟨s.abortRequested, s.abortRaised⟩

/-- Does a look for an abort raise one? -/
def raises (s : Session) : Bool := match checkAbort s with
  | some (.error _, _) => true
  | _ => false

variable {s : Session}

theorem raises_iff : s.raises = true ↔ s.latch = ⟨true, false⟩ := by
  rw [raises, latch]
  cases hraised : s.abortRaised with
  | true =>
      rw [checkAbort_of_raised hraised]
      simp
  | false =>
      cases hrequested : s.abortRequested with
      | true =>
          rw [checkAbort_of_pending hrequested hraised]
          simp
      | false =>
          rw [checkAbort_of_unrequested hrequested]
          simp

theorem checkAbort_of_raises (h : s.raises = true) :
    checkAbort s = some (.error .terminated, { s with abortRaised := true }) :=
  checkAbort_of_pending (congrArg Latch.requested (raises_iff.mp h)) (congrArg Latch.raised (raises_iff.mp h))

theorem checkAbort_of_not_raises (h : s.raises = false) : checkAbort s = some (.ok (), s) := by
  cases hraised : s.abortRaised with
  | true => exact checkAbort_of_raised hraised
  | false =>
      cases hrequested : s.abortRequested with
      | true =>
          rw [raises, checkAbort_of_pending hrequested hraised] at h
          cases h
      | false => exact checkAbort_of_unrequested hrequested

end Session

/-! ## The moments -/

/-- A moment that matters for an abort: it is asked for or forgotten from outside, or someone looks for it,
from outside or when an action is called. -/
inductive AbortMoment where
  | request
  | reset
  | check (s : Session)
  | call (a : Action) (s : Session)

/-- Does the action ask for an abort, when it comes to it? -/
def Action.requests (a : Action) (s : Session) : Bool := match a, a.start 0 s with
  | .requestAbort _, some (.ok _, _) => true
  | _, _ => false

namespace AbortMoment

/-- What becomes of the abort at the moment. An action that is called in place of which an abort is raised
does nothing more. -/
def mark? : AbortMoment → Option AbortMark
  | request => some .requested
  | reset => some .forgotten
  | check s => if s.raises then some .raised else none
  | call a s => if s.raises then some .raised else if a.requests s then some .requested else none

/-- The session then, where someone looks at it. -/
def session? : AbortMoment → Option Session
  | request | reset => none
  | check s | call _ s => some s

/-- The latch after the moment. -/
def latchAfter (l : Latch) (m : AbortMoment) : Latch := match m.mark? with
  | some mark => l.mark mark
  | none => l

/-- Whoever looks at the session sees what the moments before tell. -/
def Tracked (l : Latch) : List AbortMoment → Prop
  | [] => True
  | m :: moments => (∀ s, m.session? = some s → s.latch = l) ∧ Tracked (m.latchAfter l) moments

theorem tracked_append {l : Latch} {front rest : List AbortMoment} :
    Tracked l (front ++ rest) ↔ Tracked l front ∧ Tracked (front.foldl latchAfter l) rest := by
  induction front generalizing l with
  | nil => exact (and_iff_right trivial).symm
  | cons m front ih => rw [List.cons_append, Tracked, Tracked, ih, and_assoc, List.foldl_cons]

end AbortMoment

open AbortMoment (latchAfter Tracked tracked_append)

/-- From a latch on, whoever looks sees what the moments tell; and so does the session at the end, if there
is one. -/
structure Latching (l : Latch) (moments : List AbortMoment) (end? : Option Session) : Prop where
  tracked : Tracked l moments
  latch_end : ∀ t, end? = some t → t.latch = moments.foldl latchAfter l

namespace Latching

variable {l : Latch} {moments front rest : List AbortMoment} {s t : Session} {end? : Option Session}

theorem nil (h : ∀ t, end? = some t → t.latch = l) : Latching l [] end? := ⟨trivial, h⟩

theorem append (hfront : Latching l front (some t)) (hrest : Latching t.latch rest end?) :
    Latching l (front ++ rest) end? := by
  have ht := hfront.latch_end t rfl
  refine ⟨tracked_append.mpr ⟨hfront.tracked, ht ▸ hrest.tracked⟩, fun u hu => ?_⟩
  rw [List.foldl_append, ← ht]
  exact hrest.latch_end u hu

/-- Nothing is known to come to an end. -/
theorem unended (h : Latching l moments end?) : Latching l moments none := ⟨h.tracked, fun _ ht => nomatch ht⟩

theorem cons {m : AbortMoment} (hm : ∀ s, m.session? = some s → s.latch = l)
    (h : Latching (m.latchAfter l) moments end?) : Latching l (m :: moments) end? :=
  ⟨⟨hm, h.tracked⟩, h.latch_end⟩

end Latching

/-! ## Work that leaves the latch alone -/

/-- Computations that leave the latch as it was. -/
def Unlatching : RunRel Session := fun _ x _ => Session.Within (fun s t => t.latch = s.latch) x

theorem unlatching_quiet : Session.Quiet fun s t => t.latch = s.latch where
  refl _ := rfl
  trans h h' := h'.trans h
  store _ _ := rfl
  cache _ _ := rfl
  nextIdentity _ _ := rfl
  console _ _ := rfl
  output _ _ := rfl
  framed h := h
  rephased {s t phase} h := by
    have hlatch : t.latch = s.latch := h
    split
    · exact hlatch
    · exact hlatch
  caught h := h

theorem unlatching_working : Unlatching.Working := unlatching_quiet.working

theorem unlatching_framewise : Unlatching.Framewise := unlatching_quiet.framewise

namespace Scope

variable {scope : Scope} {s t v : Session} {α : Type} {x : Run Session α} {r : Except ScriptError α}

theorem enter_latch (h : scope.enter s = some t) : t.latch = s.latch := by
  cases scope with
  | frame phase a =>
      dsimp only [enter] at h
      split at h
      · cases h
      · cases h
        rfl
  | overlaid overlay namePrefix =>
      dsimp only [enter] at h
      split at h
      · cases h
        rfl
      · cases h
  | rephased phase | onVariables vars | handling caught =>
      cases h
      rfl

/-- The latch at the end of a scope is that at the end of its body. -/
theorem run_latch (henter : scope.enter s = some t) (hrun : scope.run x s = some (r, v)) :
    ∃ r' u, x t = some (r', u) ∧ v.latch = u.latch := by
  cases scope with
  | frame phase a =>
      dsimp only [enter] at henter
      split at henter
      · cases henter
      · rename_i hroom
        cases henter
        obtain ⟨⟨r', u⟩, hbody, hback⟩ := Option.map_eq_some_iff.1 ((if_neg hroom).symm.trans hrun)
        cases hback
        exact ⟨r', u, hbody, rfl⟩
  | overlaid overlay namePrefix =>
      have hsaved := @Session.bindOver_saved namePrefix overlay s.store [] (List.forall_mem_nil _)
      dsimp only [enter] at henter
      change Session.withVars overlay namePrefix x s = _ at hrun
      unfold Session.withVars at hrun
      generalize Session.bindOver namePrefix [] overlay s.store = bound at henter hrun hsaved
      obtain ⟨vars, saved, fault⟩ := bound
      cases fault with
      | some fault => cases henter
      | none =>
          cases henter
          obtain ⟨⟨r', u⟩, hbody, hback⟩ := Option.map_eq_some_iff.1 hrun
          have hback : Session.putBack saved r' u = (r, v) := hback
          rw [Session.putBack_eq _ _ hsaved] at hback
          cases hback
          exact ⟨_, u, hbody, rfl⟩
  | rephased phase =>
      cases henter
      obtain ⟨u, hbody, rfl⟩ := Session.withPhase_inv hrun
      refine ⟨r, u, hbody, ?_⟩
      split <;> rfl
  | onVariables vars =>
      cases henter
      obtain ⟨u, hbody, rfl⟩ := Session.onVariables_inv hrun
      exact ⟨r, u, hbody, rfl⟩
  | handling caught =>
      cases henter
      obtain ⟨u, hbody, rfl⟩ := Session.withException_inv hrun
      exact ⟨r, u, hbody, rfl⟩

/-- A scope that is refused ends without its body. -/
theorem run_refused_latch (henter : scope.enter s = none) (hrun : scope.run x s = some (r, v)) :
    v.latch = s.latch := by
  obtain ⟨e, u, _, _, hall⟩ := run_of_enter_none henter
  cases (hall x).symm.trans hrun
  have hunfinished : Unlatching (Run.unfinished : Run Session α) Run.unfinished := unlatching_framewise.unfinished
  cases scope with
  | frame phase a => exact unlatching_quiet.within_withFrame phase a hunfinished (hall _)
  | overlaid overlay namePrefix => exact unlatching_quiet.within_withVars overlay namePrefix hunfinished (hall _)
  | rephased _ | onVariables _ | handling _ => cases henter

end Scope

/-! ## Logs -/

namespace LogEntry

/-- An action that is called. -/
def moment? : LogEntry → Option AbortMoment
  | event (.call (.action a)) s => some (.call a s)
  | _ => none

/-- The actions that are called, in order. -/
def moments (log : List LogEntry) : List AbortMoment := log.filterMap moment?

theorem moments_append (front rest : List LogEntry) : moments (front ++ rest) = moments front ++ moments rest :=
  List.filterMap_append

theorem moments_raising {α : Type} (r? : Option (Except ScriptError α × Session)) :
    moments (raising r?) = [] := by
  rcases r? with _ | ⟨_ | _, _⟩ <;> rfl

theorem moments_leaving {α : Type} (scope : Scope) (r? : Option (Except ScriptError α × Session)) :
    moments (leaving scope r?) = [] := by
  rcases r? with _ | ⟨_ | _, _⟩ <;> rfl

end LogEntry

open LogEntry (moments moments_append moments_raising moments_leaving)

namespace Work

variable {phase : Phase} {cleans : Prop} {α β : Type} {m n k : Nat}
  {calls : Call → Session → List LogEntry} {x : Work α} {s : Session}

/-- The latch in the course of the work. -/
abbrev Latched (m n k : Nat) (calls : Call → Session → List LogEntry) (x : Work α) (s : Session) : Prop :=
  Latching s.latch (moments (x.log (Action.execute m) n k calls s))
    ((x.run (Action.execute m) n k s).map Prod.snd)

theorem Latched.bind {f : α → Work β} (hx : Latched m n k calls x s)
    (hf : ∀ a t, x.run (Action.execute m) n k s = some (.ok a, t) → Latched m n k calls (f a) t) :
    Latched m n k calls (x >>= f) s := by
  refine log_bind_cases (motive := fun log r? => Latching s.latch (moments log) (r?.map Prod.snd))
    (fun hend => ?_) (fun e t hend => ?_) fun a t hend => ?_
  · exact hx.unended
  · rw [Latched, hend] at hx
    exact hx
  · rw [Latched, hend] at hx
    rw [moments_append]
    exact hx.append (hf a t hend)

theorem Latched.settle (hx : Latched m n k calls x s) : Latched m n k calls (Work.settle x) s := by
  refine ⟨hx.tracked, fun t hend => hx.latch_end t ?_⟩
  obtain ⟨p, hsettled, rfl⟩ := Option.map_eq_some_iff.mp hend
  obtain ⟨q, hq, hp⟩ := Option.map_eq_some_iff.mp hsettled
  rw [hq, ← hp]
  rfl

theorem moments_within {scope : Scope} {t : Session} (henter : scope.enter s = some t) :
    moments ((Work.within scope x).log (Action.execute m) n k calls s) =
      moments (x.log (Action.execute m) n k calls t) := by
  rw [log_within henter]
  change moments (_ ++ LogEntry.leaving scope _) = _
  rw [moments_append, moments_leaving, List.append_nil]

theorem moments_within_refused {scope : Scope} (henter : scope.enter s = none) :
    moments ((Work.within scope x).log (Action.execute m) n k calls s) = [] := by
  rw [log_within_refused henter, moments_raising]

theorem Latched.within {scope : Scope} (hx : ∀ t, scope.enter s = some t → Latched m n k calls x t) :
    Latched m n k calls (Work.within scope x) s := by
  cases henter : scope.enter s with
  | none =>
      rw [Latched, moments_within_refused henter]
      refine .nil fun t hend => ?_
      obtain ⟨⟨r, u⟩, hrun, rfl⟩ := Option.map_eq_some_iff.mp hend
      exact Scope.run_refused_latch henter hrun
  | some t =>
      have hbody := hx t henter
      rw [Latched, moments_within henter, ← Scope.enter_latch henter]
      refine ⟨hbody.tracked, fun v hend => ?_⟩
      obtain ⟨⟨r, w⟩, hrun, rfl⟩ := Option.map_eq_some_iff.mp hend
      obtain ⟨r', u, hends, hlatch⟩ := Scope.run_latch henter hrun
      rw [hlatch]
      exact hbody.latch_end u (congrArg (Option.map Prod.snd) hends)

/-- No action is called by what only asks. -/
theorem Asking.moments_log {R : RunRel Session} (h : Asking R x) (s : Session) :
    moments (x.log (Action.execute m) n k calls s) = [] := by
  induction h generalizing s with
  | @step _ x steady _ =>
      rw [log]
      rcases x s with _ | ⟨_ | _, _⟩ <;> rfl
  | inquire q => exact moments_raising _
  | @bind _ _ x f _ _ ihx ihf =>
      refine log_bind_cases (motive := fun log _ => moments log = []) (fun _ => ihx s) (fun _ _ _ => ihx s)
        fun a t _ => ?_
      rw [moments_append, ihx, ihf]
      rfl
  | @reading _ f _ _ ih => exact ih s s

theorem Asking.latched (h : Asking Unlatching x) (s : Session) : Latched m n k calls x s := by
  rw [Latched, h.moments_log]
  refine .nil fun t hend => ?_
  obtain ⟨⟨r, u⟩, hrun, rfl⟩ := Option.map_eq_some_iff.mp hend
  exact h.run_related unlatching_framewise.toEvaluative _ n k hrun

end Work

/-- The latch that a call finds after the moment at which it is made. -/
def Call.latchAfter (s : Session) : Call → Latch
  | action a => AbortMoment.latchAfter s.latch (.call a s)
  | rounds .. => s.latch

/-- The latch in the course of a call. -/
abbrev Call.Latched (m n k : Nat) (calls : Call → Session → List LogEntry) (c : Call) (s : Session) : Prop :=
  Latching (c.latchAfter s) (moments (calls c s)) ((c.run (Action.execute m) n k s).map Prod.snd)

namespace Work

variable {phase : Phase} {cleans : Prop} {α : Type} {m n k : Nat} {calls : Call → Session → List LogEntry}

/-- Work that is built from steps that leave the latch alone changes it in its calls only. -/
theorem Built.latched {w : Work α} (h : Built Unlatching phase cleans w) (s : Session)
    (hcalls : ∀ c u, Call.Latched m n k calls c u) : Latched m n k calls w s := by
  induction h generalizing s with
  | asking h => exact h.latched s
  | call c =>
      cases c with
      | action a =>
          refine .cons (fun t ht => ?_) (hcalls (.action a) s)
          cases ht
          rfl
      | rounds label condition maxCount body count => exact hcalls (.rounds label condition maxCount body count) s
  | bind _ _ ihx ihf => exact .bind (ihx s) fun a t _ => ihf a t
  | reading _ _ ih =>
      refine .bind (.nil fun t hend => ?_) fun a t _ => ih a t
      cases hend
      rfl
  | rephased other h => exact .within fun t _ => h.latched t
  | frame | overlaid | onVariables =>
      rename_i ih
      exact .within fun t _ => ih t
  | guarded _ _ ihitems ihcaught =>
      refine .bind (.settle (ihitems s)) fun r t _ => ?_
      cases r with
      | ok outcome => exact (asking_pure unlatching_working.toSequential outcome).latched t
      | error e =>
          dsimp only
          unfold handle
          split
          · have hfresh : Asking Unlatching (step Session.freshIdentity .freshIdentity) :=
              .step unlatching_working.freshIdentity
            exact .bind (hfresh.latched t) fun _ u _ => .within fun v _ => ihcaught _ rfl v
          · exact .nil fun u hend => by cases hend; rfl
  | cleanedUp _ _ _ ihx ihitems =>
      refine .bind (.settle (ihx s)) fun r t _ => .bind (ihitems t) fun outcome u _ => ?_
      cases outcome with
      | some signal => exact (asking_pure unlatching_working.toSequential _).latched u
      | none => cases r <;> exact .nil fun v hend => by cases hend; rfl

end Work

/-! ## Calls -/

namespace Action

variable {identity : Nat} {a : Action} {s t : Session}

/-- A request is made, if it is come to. -/
theorem start_requestAbort_latch {r : Except ScriptError Outcome}
    (h : (requestAbort identity).start 0 s = some (r, t)) :
    t.latch = if (requestAbort identity).requests s then s.latch.mark .requested else s.latch := by
  unfold requests
  rw [h]
  rcases Session.withFrame_inv h with ⟨⟨f, rfl⟩, rfl⟩ | ⟨result, u, hbody, rfl, rfl⟩
  · rfl
  · cases hbody
    rfl

theorem requests_eq_false (h : ∀ identity, a ≠ requestAbort identity) : a.requests s = false := by
  unfold requests
  split
  · exact absurd rfl (h _)
  · rfl

end Action

namespace Call

variable {a : Action} {s : Session}

theorem latchAfter_of_raises (h : s.raises = true) : (action a).latchAfter s = s.latch.mark .raised := by
  rw [latchAfter, AbortMoment.latchAfter, AbortMoment.mark?, if_pos h]

theorem latchAfter_of_not_raises (h : s.raises = false) :
    (action a).latchAfter s = if a.requests s then s.latch.mark .requested else s.latch := by
  rw [latchAfter, AbortMoment.latchAfter, AbortMoment.mark?, h]
  cases a.requests s <;> rfl

/-- What an action does after it was called changes the latch as the moment of its call says. -/
theorem latched_frame {n k : Nat} {calls : Call → Session → List LogEntry} (a : Action) (s : Session)
    (hcalls : ∀ c u, Latched n n k calls c u) (hraises : s.raises = false) :
    Latching ((action a).latchAfter s)
      (moments ((Work.within (.frame .executing a) (Work.perform a)).log (Action.execute n) n k calls s))
      (((Work.within (.frame .executing a) (Work.perform a)).run (Action.execute n) n k s).map Prod.snd) := by
  rw [latchAfter_of_not_raises hraises]
  by_cases hrequest : ∃ identity, a = .requestAbort identity
  · obtain ⟨identity, rfl⟩ := hrequest
    have hasks : Work.Asking (fun _ _ _ => True) (Work.perform (.requestAbort identity)) :=
      .bind (.step trivial) fun _ => .step trivial
    have hmoments : moments ((Work.within (.frame .executing (.requestAbort identity))
        (Work.perform (.requestAbort identity))).log (Action.execute n) n k calls s) = [] := by
      cases henter : (Scope.frame .executing (.requestAbort identity)).enter s with
      | none => exact Work.moments_within_refused henter
      | some t => exact (Work.moments_within henter).trans (hasks.moments_log t)
    rw [hmoments]
    refine .nil fun t hend => ?_
    obtain ⟨⟨r, u⟩, hrun, rfl⟩ := Option.map_eq_some_iff.mp hend
    exact Action.start_requestAbort_latch hrun
  · have hnever : ∀ identity, a ≠ .requestAbort identity := fun identity ha => hrequest ⟨identity, ha⟩
    rw [Action.requests_eq_false hnever]
    have hbuilt : Work.Built Unlatching .executing True (Work.perform a) :=
      Work.built_perform unlatching_working a (fun h => absurd h hrequest) fun _ _ => .inr trivial
    exact Work.Latched.within fun t _ => hbuilt.latched t hcalls

end Call

theorem Call.latched (n k : Nat) (c : Call) (s : Session) : Latched n n k (Call.log n k) c s := by
  refine log_induction (P := fun c s log r? => Latching (c.latchAfter s) (moments log) (r?.map Prod.snd))
    (fun _ _ => .nil fun _ ht => nomatch ht) (fun c n k s ih => ?_) n k c s
  cases c with
  | rounds label condition maxCount body count =>
      have hbuilt : Work.Built Unlatching .executing True (rounds label condition maxCount body count).work :=
        built_round unlatching_working label condition maxCount body count
      exact hbuilt.latched s ih
  | action a =>
      cases hraises : s.raises with
      | true =>
          have hcheck : (Work.step Session.checkAbort .checkAbort).run (Action.execute n) n k s = _ :=
            Session.checkAbort_of_raises hraises
          rw [work, Work.log_bind_of_error _ hcheck, Work.run_bind, Run.bind_of_error _ hcheck, Work.log,
            Session.checkAbort_of_raises hraises, latchAfter_of_raises hraises]
          refine .nil fun t hend => ?_
          cases hend
          rfl
      | false =>
          have hcheck : (Work.step Session.checkAbort .checkAbort).run (Action.execute n) n k s = _ :=
            Session.checkAbort_of_not_raises hraises
          rw [work, Work.log_bind_of_ok _ hcheck, Work.run_bind, Run.bind_of_ok _ hcheck, Work.log,
            Session.checkAbort_of_not_raises hraises, moments_append]
          exact latched_frame a s ih hraises

end ActionTree
