import ActionTree.Proofs.Execution.Built
import ActionTree.Proofs.Execution.Log

/-!
# Looser limits

The limits of a configuration, on open frames and on rounds of a loop, do nothing until one of them is hit.
An execution that hits none goes the same way under all looser limits. The faults of limits that are caught
count as well, since they may change what comes after them.
-/

namespace ActionTree

/-! ## Limits -/

/-- These limits on open frames and on rounds allow all that the configuration allows. -/
structure Config.Loosened (c : Config) (depth rounds : Nat) : Prop where
  depth : c.maxCallDepth ≤ depth
  rounds : rounds = 0 ∨ 0 < c.maxLoopIterations ∧ c.maxLoopIterations ≤ rounds

theorem Config.loosened_self (c : Config) : c.Loosened c.maxCallDepth c.maxLoopIterations where
  depth := Nat.le_refl _
  rounds := (Nat.eq_zero_or_pos c.maxLoopIterations).imp id fun h => ⟨h, Nat.le_refl _⟩

namespace Session

/-- The session with other limits. -/
def withLimits (depth rounds : Nat) (s : Session) : Session :=
  { s with config := { s.config with maxCallDepth := depth, maxLoopIterations := rounds } }

variable (depth rounds : Nat) (s : Session)

@[simp] theorem withLimits_store : (s.withLimits depth rounds).store = s.store := rfl

@[simp] theorem withLimits_stack : (s.withLimits depth rounds).stack = s.stack := rfl

@[simp] theorem withLimits_outputs : (s.withLimits depth rounds).outputs = s.outputs := rfl

@[simp] theorem withLimits_maxCallDepth : (s.withLimits depth rounds).config.maxCallDepth = depth := rfl

@[simp] theorem withLimits_maxLoopIterations :
    (s.withLimits depth rounds).config.maxLoopIterations = rounds := rfl

/-- Scripts cannot see the limits. -/
theorem alike_withLimits : s.Alike (s.withLimits depth rounds) :=
  ⟨rfl, rfl, rfl, rfl, rfl, rfl, rfl⟩

theorem putBack_withLimits {α : Type} (saved : List (String × Option Value)) (r : Except ScriptError α) :
    putBack saved r (s.withLimits depth rounds) =
      Prod.map id (withLimits depth rounds) (putBack saved r s) := by
  unfold putBack
  rw [withLimits_store]
  generalize restore saved s.store = restored
  obtain ⟨vars, _ | fault⟩ := restored
  · rfl
  · rfl

end Session

/-- Is it the fault of a limit? -/
def ScriptError.isLimit (e : ScriptError) : Bool :=
  match e.cause with
  | .fault (.runtime (.callDepth _)) | .fault (.runtime (.loopGuard _)) => true
  | _ => false

theorem ScriptError.isLimit_traced (e : ScriptError) (text : String) :
    (e.traced text).isLimit = e.isLimit := by
  unfold isLimit
  rw [cause_traced]

/-- A limit is hit at this moment, or the fault of a limit is raised again. -/
def LogEntry.HitsLimit : LogEntry → Prop
  | raised e _ => e.isLimit = true
  | _ => False

instance : (entry : LogEntry) → Decidable entry.HitsLimit
  | .raised e _ => inferInstanceAs (Decidable (e.isLimit = true))
  | .event .. | .entered .. | .left .. => inferInstanceAs (Decidable False)

/-! ## Computations -/

/-- Computations that do the same under looser limits, unless they end with the fault of a limit. -/
def Lenient : RunRel Session := fun _ x _ =>
  ∀ s depth rounds, s.config.Loosened depth rounds →
    (∀ e t, x s = some (.error e, t) → ¬e.isLimit) →
    x (s.withLimits depth rounds) = (x s).map (Prod.map id (Session.withLimits depth rounds))

namespace Lenient

variable {α β : Type} {x : Run Session α} {s t : Session} {depth rounds : Nat}

/-- So are computations that take no notice of limits. -/
theorem of_blind (h : ∀ s depth rounds, x (Session.withLimits depth rounds s) =
    (x s).map (Prod.map id (Session.withLimits depth rounds))) : Lenient x x :=
  fun s depth rounds _ _ => h s depth rounds

/-- They leave the limits alone: among the looser limits are those of the session itself. -/
theorem loosened {r : Except ScriptError α} (hx : Lenient x x) (hend : x s = some (r, t))
    (hfree : ∀ e t, x s = some (.error e, t) → ¬e.isLimit) (hloose : s.config.Loosened depth rounds) :
    t.config.Loosened depth rounds := by
  have hself := hx s _ _ s.config.loosened_self hfree
  change x s = _ at hself
  rw [hend] at hself
  have ht : t = t.withLimits s.config.maxCallDepth s.config.maxLoopIterations :=
    (Prod.mk.inj (Option.some.inj hself)).2
  rw [ht]
  exact ⟨hloose.depth, hloose.rounds⟩

theorem bind {f : α → Run Session β} (hx : Lenient x x) (hf : ∀ a, Lenient (f a) (f a)) :
    Lenient (x >>= f) (x >>= f) := by
  intro s depth rounds hloose hfree
  have hxfree : ∀ e t, x s = some (.error e, t) → ¬e.isLimit := fun e t hend =>
    hfree e t (Run.bind_of_error f hend)
  have hsame := hx s depth rounds hloose hxfree
  cases hend : x s with
  | none =>
      rw [hend] at hsame
      rw [Run.bind_of_none f hend, Run.bind_of_none f hsame]
      rfl
  | some p =>
      rw [hend] at hsame
      obtain ⟨e | a, t⟩ := p
      · rw [Run.bind_of_error f hend, Run.bind_of_error f hsame]
        rfl
      · have hloose' := hx.loosened hend hxfree hloose
        rw [Run.bind_of_ok f hend] at hfree ⊢
        rw [Run.bind_of_ok f hsame]
        exact hf a t depth rounds hloose' hfree

theorem setVar (name : String) (v : Value) : Lenient (Session.setVar name v) (Session.setVar name v) := by
  refine of_blind fun s depth rounds => ?_
  cases hv : s.store.set name v with
  | ok vars =>
      have hv' : (s.withLimits depth rounds).store.set name v = .ok vars := hv
      rw [Session.setVar_of_ok hv, Session.setVar_of_ok hv']
      rfl
  | error fault =>
      have hv' : (s.withLimits depth rounds).store.set name v = .error fault := hv
      rw [Session.setVar_of_error hv, Session.setVar_of_error hv']
      rfl

theorem parse (kind : ExprKind) (text : String) :
    Lenient (Session.parse kind text) (Session.parse kind text) := by
  refine of_blind fun s depth rounds => ?_
  rw [Session.parse_apply, Session.parse_apply]
  change Run.ofSyntax (s.cache.parse kind text).1 _ = _
  cases (s.cache.parse kind text).1 <;> rfl

theorem writeLine (line : String) : Lenient (Session.writeLine line) (Session.writeLine line) := by
  refine of_blind fun s depth rounds => ?_
  unfold Session.writeLine
  rw [Run.get_bind_apply, Run.get_bind_apply, Session.withLimits_outputs]
  cases s.outputs with
  | nil => rfl
  | cons o rest =>
      dsimp only
      cases o.writeLine line <;> rfl

theorem checkAbort : Lenient Session.checkAbort Session.checkAbort := by
  refine of_blind fun s depth rounds => ?_
  obtain ⟨_, _, _, _, _, _, _, requested, raised⟩ := s
  cases requested <;> cases raised <;> rfl

/-- A loop that goes on under its limit goes on under a looser one. -/
theorem checkRounds (count : Nat) : Lenient (checkRounds count) (checkRounds count) := by
  intro s depth rounds hloose hfree
  have hrounds := hloose.rounds
  unfold ActionTree.checkRounds at hfree ⊢
  rw [Run.get_bind_apply] at hfree
  rw [Run.get_bind_apply, Run.get_bind_apply, Session.withLimits_maxLoopIterations]
  by_cases hhit : 0 < s.config.maxLoopIterations ∧ s.config.maxLoopIterations ≤ count
  · rw [if_pos hhit] at hfree
    exact (hfree _ _ rfl rfl).elim
  · have hgoes : ¬(0 < rounds ∧ rounds ≤ count) := by omega
    rw [if_neg hhit, if_neg hgoes]
    rfl

theorem acting : Lenient.Acting where
  pure _ := of_blind fun _ _ _ => rfl
  fault _ := of_blind fun _ _ _ => rfl
  bind := bind
  read f alike := of_blind fun s depth rounds => by
    change some (Except.ok (f (s.withLimits depth rounds)), _) = _
    rw [← alike s _ (s.alike_withLimits depth rounds)]
    rfl
  setVar := setVar
  freshIdentity := of_blind fun _ _ _ => rfl
  erase _ := of_blind fun _ _ _ => rfl
  writeLine := writeLine
  requestAbort := of_blind fun _ _ _ => rfl
  checkAbort := checkAbort
  checkRounds := checkRounds

theorem evaluative : Lenient.Evaluative where
  toAttentive := acting.toAttentive
  malformed _ := of_blind fun _ _ _ => rfl
  parse := parse
  unfinished := of_blind fun _ _ _ => rfl

end Lenient

/-! ## Scopes -/

/-- A scope does nothing else under looser limits if its body does nothing else, unless it is a frame that
is one too many. -/
theorem Scope.run_withLimits {scope : Scope} {s : Session} {depth rounds : Nat} {α : Type}
    {x : Run Session α} (hdepth : s.config.maxCallDepth ≤ depth)
    (hroom : ∀ phase a, scope = .frame phase a → s.stack.depth < s.config.maxCallDepth)
    (hx : ∀ t, scope.enter s = some t → x (t.withLimits depth rounds) =
      (x t).map (Prod.map id (Session.withLimits depth rounds))) :
    scope.run x (s.withLimits depth rounds) =
      (scope.run x s).map (Prod.map id (Session.withLimits depth rounds)) := by
  cases scope with
  | frame phase a =>
      have hopen : ¬s.config.maxCallDepth ≤ s.stack.depth := Nat.not_le_of_lt (hroom phase a rfl)
      have hopen' : ¬depth ≤ s.stack.depth := fun h => hopen (Nat.le_trans hdepth h)
      have hbody := hx { s with stack := s.stack.push phase a } (if_neg hopen)
      dsimp only [run]
      unfold Session.withFrame
      rw [if_neg hopen, Session.withLimits_maxCallDepth, Session.withLimits_stack, if_neg hopen']
      change (x (Session.withLimits depth rounds { s with stack := s.stack.push phase a })).map _ = _
      rw [hbody, Option.map_map, Option.map_map]
      rfl
  | rephased phase =>
      have hbody := hx { s with stack := s.stack.setPhase phase } rfl
      dsimp only [run]
      unfold Session.withPhase
      change (x (Session.withLimits depth rounds { s with stack := s.stack.setPhase phase })).map _ = _
      rw [hbody, Option.map_map, Option.map_map, Session.withLimits_stack]
      cases s.stack.top? <;> rfl
  | overlaid overlay namePrefix =>
      dsimp only [enter] at hx
      dsimp only [run]
      unfold Session.withVars
      rw [Session.withLimits_store]
      generalize Session.bindOver namePrefix [] overlay s.store = bound at hx
      obtain ⟨vars, saved, fault⟩ := bound
      cases fault with
      | some fault =>
          exact congrArg some (Session.putBack_withLimits depth rounds { s with store := vars } _ _)
      | none =>
          have hbody := hx { s with store := vars } rfl
          change (x (Session.withLimits depth rounds { s with store := vars })).map _ = _
          rw [hbody, Option.map_map, Option.map_map]
          congr 1
          funext p
          exact Session.putBack_withLimits depth rounds p.2 saved p.1
  | onVariables vars =>
      have hbody := hx { s with store := vars } rfl
      change (x (Session.withLimits depth rounds { s with store := vars })).map _ = ((x _).map _).map _
      rw [hbody, Option.map_map, Option.map_map]
      rfl
  | handling caught =>
      have hbody := hx { s with currentException := some caught } rfl
      change (x (Session.withLimits depth rounds { s with currentException := some caught })).map _ =
        ((x _).map _).map _
      rw [hbody, Option.map_map, Option.map_map]
      rfl

/-! ## Work -/

/-- What begins in this session goes the same way under these limits, if its log hits no limit. -/
def Lockstep (depth rounds : Nat) (log : Session → List LogEntry) {α : Type} (x : Run Session α)
    (s : Session) : Prop :=
  (∀ entry ∈ log s, ¬entry.HitsLimit) →
    x (s.withLimits depth rounds) = (x s).map (Prod.map id (Session.withLimits depth rounds))

namespace Lockstep

variable {depth rounds m n k : Nat} {calls : Call → Session → List LogEntry} {α β : Type} {s : Session}

theorem of_lenient {log : Session → List LogEntry} {x : Run Session α} (hx : Lenient x x)
    (hloose : s.config.Loosened depth rounds)
    (hraised : ∀ e t, x s = some (.error e, t) → .raised e t ∈ log s) : Lockstep depth rounds log x s :=
  fun hfree => hx s depth rounds hloose fun e t hend => hfree _ (hraised e t hend)

theorem bind {x : Work α} {f : α → Work β}
    (hx : Lockstep depth rounds (x.log (Action.execute m) n k calls) (x.run (Action.execute m) n k) s)
    (hf : ∀ a t, x.run (Action.execute m) n k s = some (.ok a, t) →
      Lockstep depth rounds ((f a).log (Action.execute m) n k calls) ((f a).run (Action.execute m) n k) t) :
    Lockstep depth rounds ((x >>= f).log (Action.execute m) n k calls)
      ((x >>= f).run (Action.execute m) n k) s := by
  refine Work.log_bind_cases (motive := fun log r? => (∀ entry ∈ log, ¬entry.HitsLimit) →
    (x >>= f).run (Action.execute m) n k (s.withLimits depth rounds) = r?.map _)
    (fun hend hfree => ?_) (fun e t hend hfree => ?_) fun a t hend hfree => ?_
  · have hsame := hx hfree
    rw [hend] at hsame
    exact Run.bind_of_none _ hsame
  · have hsame := hx hfree
    rw [hend] at hsame
    exact Run.bind_of_error _ hsame
  · have hsame := hx fun entry hentry => hfree entry (List.mem_append_left _ hentry)
    rw [hend] at hsame
    refine (Run.bind_of_ok _ hsame).trans ?_
    exact hf a t hend fun entry hentry => hfree entry (List.mem_append_right _ hentry)

/-- A look sees the same. -/
theorem reading {f : Session → Work α} (alike : ∀ s t, Session.Alike s t → f s = f t)
    (hf : Lockstep depth rounds ((f s).log (Action.execute m) n k calls)
      ((f s).run (Action.execute m) n k) s) :
    Lockstep depth rounds ((Work.read >>= f).log (Action.execute m) n k calls)
      ((Work.read >>= f).run (Action.execute m) n k) s := by
  intro hfree
  change (f (s.withLimits depth rounds)).run (Action.execute m) n k (s.withLimits depth rounds) = _
  rw [← alike s _ (s.alike_withLimits depth rounds)]
  exact hf fun entry hentry => hfree entry (List.mem_append_right _ hentry)

theorem settle {x : Work α}
    (hx : Lockstep depth rounds (x.log (Action.execute m) n k calls) (x.run (Action.execute m) n k) s) :
    Lockstep depth rounds ((Work.settle x).log (Action.execute m) n k calls)
      ((Work.settle x).run (Action.execute m) n k) s := by
  intro hfree
  change (x.run (Action.execute m) n k (s.withLimits depth rounds)).map _ =
    ((x.run (Action.execute m) n k s).map _).map _
  rw [hx hfree, Option.map_map, Option.map_map]
  rfl

/-- A frame that is one too many hits the limit; in all other scopes it is up to the body. -/
theorem within {scope : Scope} {x : Work α} (hdepth : s.config.maxCallDepth ≤ depth)
    (hx : ∀ t, scope.enter s = some t →
      Lockstep depth rounds (x.log (Action.execute m) n k calls) (x.run (Action.execute m) n k) t) :
    Lockstep depth rounds ((Work.within scope x).log (Action.execute m) n k calls)
      ((Work.within scope x).run (Action.execute m) n k) s := by
  intro hfree
  refine Scope.run_withLimits hdepth (fun phase a hframe => ?_) fun t henter => hx t henter ?_
  · subst hframe
    refine Nat.lt_of_not_le fun hdeep => ?_
    have hrefused : (Scope.frame phase a).enter s = none := if_pos hdeep
    have hend : (Work.within (.frame phase a) x).run (Action.execute m) n k s = some (_, s) := if_pos hdeep
    rw [Work.log_within_refused hrefused, hend] at hfree
    exact hfree _ (List.mem_singleton.mpr rfl) (ScriptError.isLimit_traced _ s.stack.trace)
  · rw [Work.log_within henter] at hfree
    exact fun entry hentry => hfree entry (List.mem_cons_of_mem _ (List.mem_append_left _ hentry))

end Lockstep

namespace Work

variable {depth rounds m n k : Nat} {calls : Call → Session → List LogEntry} {α : Type} {s : Session}

theorem Asking.lockstep {w : Work α} (h : Asking Lenient w) (hloose : s.config.Loosened depth rounds) :
    Lockstep depth rounds (w.log (Action.execute m) n k calls) (w.run (Action.execute m) n k) s := by
  induction h generalizing s with
  | @step _ x steady hx =>
      refine .of_lenient hx hloose fun e t hend => ?_
      have hend : x s = some (.error e, t) := hend
      rw [log, hend]
      exact List.mem_singleton.mpr rfl
  | inquire q =>
      refine .of_lenient (q.run_related Lenient.evaluative n) hloose fun e t hend => ?_
      have hend : q.run n s = some (.error e, t) := hend
      rw [log, hend]
      exact List.mem_cons_of_mem _ (List.mem_singleton.mpr rfl)
  | bind _ _ ihx ihf =>
      exact .bind (ihx hloose) fun a t hend => ihf a ((run_sameFrames _ hend).2 ▸ hloose)
  | reading alike _ ih => exact .reading alike (ih s hloose)

/-- Work goes the same way under looser limits, if what it calls does. -/
theorem Built.lockstep {phase : Phase} {cleans : Prop} {w : Work α} (h : Built Lenient phase cleans w)
    (hloose : s.config.Loosened depth rounds)
    (hcalls : ∀ c u, u.config.Loosened depth rounds →
      Lockstep depth rounds (calls c) (c.run (Action.execute m) n k) u) :
    Lockstep depth rounds (w.log (Action.execute m) n k calls) (w.run (Action.execute m) n k) s := by
  induction h generalizing s with
  | asking h => exact h.lockstep hloose
  | call c => exact fun hfree => hcalls c s hloose fun entry hentry => hfree entry (.tail _ hentry)
  | bind _ _ ihx ihf =>
      exact .bind (ihx hloose) fun a t hend => ihf a ((run_sameFrames _ hend).2 ▸ hloose)
  | reading alike _ ih => exact .reading alike (ih s hloose)
  | rephased other h =>
      exact .within hloose.depth fun t henter => h.lockstep ((Scope.enter_deeper henter).config ▸ hloose)
  | frame | overlaid | onVariables =>
      rename_i ih
      exact .within hloose.depth fun t henter => ih ((Scope.enter_deeper henter).config ▸ hloose)
  | @guarded handlers items _ _ ihitems ihcaught =>
      -- The handlers get the same error, so that those run under both limits or under neither.
      refine .bind (.settle (ihitems hloose)) fun r t hend => ?_
      have ht : t.config.Loosened depth rounds := (run_sameFrames _ hend).2 ▸ hloose
      cases r with
      | ok outcome => exact (asking_pure Lenient.acting.toSequential outcome).lockstep ht
      | error e =>
          dsimp only
          unfold handle
          split
          · have hfresh : Asking Lenient (step Session.freshIdentity .freshIdentity) :=
              .step Lenient.acting.freshIdentity
            refine .bind (hfresh.lockstep ht) fun identity u hend => ?_
            have hu : u.config.Loosened depth rounds := (run_sameFrames _ hend).2 ▸ ht
            exact .within hu.depth fun v henter =>
              ihcaught _ rfl ((Scope.enter_deeper henter).config ▸ hu)
          · exact fun _ => rfl
  | @cleanedUp items x _ _ _ ihx ihitems =>
      refine .bind (.settle (ihx hloose)) fun r t hend => ?_
      have ht : t.config.Loosened depth rounds := (run_sameFrames _ hend).2 ▸ hloose
      refine .bind (ihitems ht) fun outcome u hend => ?_
      have hu : u.config.Loosened depth rounds := (run_sameFrames _ hend).2 ▸ ht
      cases outcome with
      | some signal => exact (asking_pure Lenient.acting.toSequential _).lockstep hu
      | none => exact fun _ => rfl

end Work

/-! ## Executions -/

/-- Every call goes the same way under looser limits, by induction on the steps and on the rounds. -/
theorem Call.lockstep {depth rounds : Nat} (n k : Nat) (c : Call) :
    ∀ s : Session, s.config.Loosened depth rounds →
      Lockstep depth rounds (c.log n k) (c.run (Action.execute n) n k) s := by
  induction n, k, c using Call.induction with
  | hstart k a => exact fun s _ _ => rfl
  | hlast n label condition maxCount body count => exact fun s _ _ => rfl
  | haction n k a ih =>
      intro s hloose hfree
      rw [log_action] at hfree
      rw [run_action]
      exact ((action a).built_work Lenient.acting fun _ _ _ _ => .inr trivial).lockstep hloose ih hfree
  | hround n k label condition maxCount body count ih =>
      intro s hloose
      rw [run_rounds]
      exact (Call.built_work Lenient.acting _ fun _ _ _ _ => .inr trivial).lockstep hloose ih

namespace Action

/-- An execution that hits no limit, be it one whose fault is caught, ends under all looser limits with the
same result, the same trace of its error and the same session, and if it does not end it does not end. -/
theorem execute_withLimits (root : Action) (n : Nat) (s : Session) {depth rounds : Nat}
    (hloose : s.config.Loosened depth rounds) (hfree : ∀ entry ∈ root.log n s, ¬entry.HitsLimit) :
    root.execute n (s.withLimits depth rounds) =
      (root.execute n s).map (Prod.map id (Session.withLimits depth rounds)) := by
  refine Call.lockstep n 0 (.action root) s hloose ?_
  rwa [Call.log_action]

/-- Counts to two in a sub that then fails, and writes how far that came. -/
def countingSub : Action :=
  script ⟨0, none⟩ {
    items := [.sub 1 ⟨"count", []⟩ [.eval 2 "i = 0" none,
      .repeatWhile ⟨3, none⟩ ⟨[(.holds, "i < 2")], true⟩ none [.eval 4 "i = i + 1" none],
      .throw 5 "counted"]]
    attempt := some [.call ⟨6, none⟩ { sub := "count", isolation := some .none }]
    handlers := some [.print 7 "$\x7b=i\x7d" .standard] }

/-- A session with room for five frames and for two rounds of a loop. -/
def narrow : Session := .start { maxCallDepth := 5, maxLoopIterations := 2 } {}

/-- The count takes five frames and two rounds, and goes the same way where there is room for more. -/
theorem countingSub_withLimits :
    narrow.config.Loosened 256 0 ∧ (∀ entry ∈ countingSub.log 9 narrow, ¬entry.HitsLimit) ∧
    countingSub.execute 9 (narrow.withLimits 256 0) =
      (countingSub.execute 9 narrow).map (Prod.map id (Session.withLimits 256 0)) ∧
    (countingSub.execute 9 narrow).map (fun p => p.2.console) = some "2\n" := by
  have hloose : narrow.config.Loosened 256 0 := ⟨by decide, .inl rfl⟩
  have hfree : ∀ entry ∈ countingSub.log 9 narrow, ¬entry.HitsLimit := by decide +kernel
  exact ⟨hloose, hfree, execute_withLimits countingSub 9 narrow hloose hfree, by decide +kernel⟩

end Action

end ActionTree
