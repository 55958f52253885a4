import ActionTree.Proofs.Execution.Steps
import ActionTree.Proofs.Turns

/-!
# How often loops run

A loop over rows runs its body with each row in turn, a loop with a condition as long as that holds. Both
are left early where the body ends with a signal or an error, and both are limited: the limit of the loop
ends it, the limit of the configuration is a fault of a loop with a condition.
-/

namespace ActionTree

/-- What a loop ends with when its body ends with a signal or an error. A break is for this loop only. -/
def leaving : Except ScriptError Outcome → Except ScriptError Outcome
  | .ok (some .breakLoop) => .ok none
  | r => r

/-- The body, run in this session, ends so. -/
abbrev BodyEnds (body : List Action) (s : Session) (p : Except ScriptError Outcome × Session) : Prop :=
  Run.Ends (fun n => runAll (Action.execute n) body) s p

/-- The body, run with these variables over those of the session, ends so; to refuse one of them is an
error too. -/
abbrev RowEnds (namePrefix : String) (body : List Action) (row : Row) (s : Session)
    (p : Except ScriptError Outcome × Session) : Prop :=
  Run.Ends (fun n => Action.executeWithVars n body row namePrefix) s p

abbrev Condition.Ends (c : Condition) (s : Session) (p : Except ScriptError Bool × Session) : Prop :=
  Run.Ends c.test s p

/-! ## Rows -/

/-- How often the body runs at most, with so many rows. -/
def LoopHead.most (head : LoopHead) (rows : Nat) : Nat :=
  match head.maxCount with
  | some max => min rows max
  | none => rows

theorem LoopHead.length_limited (head : LoopHead) (rows : List Row) :
    (head.limited rows).length = head.most rows.length := by
  unfold limited most
  cases head.maxCount with
  | some max => rw [List.length_take, Nat.min_comm]
  | none => rfl

theorem LoopHead.limited_eq_some_iff {head : LoopHead} {rows : List Row} {i : Nat} {row : Row} :
    (head.limited rows)[i]? = some row ↔ i < head.most rows.length ∧ rows[i]? = some row := by
  have hlength : i < (head.limited rows).length ↔ i < head.most rows.length := by rw [length_limited]
  have hrow : ∀ h : i < (head.limited rows).length, (head.limited rows)[i]? = rows[i]? := by
    unfold limited
    cases head.maxCount with
    | some max => exact fun h => List.getElem?_take_of_lt (by simp at h; omega)
    | none => exact fun _ => rfl
  constructor
  · intro h
    have hi := (List.getElem?_eq_some_iff.mp h).1
    exact ⟨hlength.mp hi, (hrow hi).symm.trans h⟩
  · rintro ⟨hi, h⟩
    exact (hrow (hlength.mpr hi)).trans h

/-- The body is run with the row of that number, and ends with neither a signal nor an error. -/
def RowPasses (namePrefix : String) (body : List Action) (rows : List Row) (i : Nat) (s t : Session) : Prop :=
  ∃ row, rows[i]? = some row ∧ RowEnds namePrefix body row s (.ok none, t)

/-- How a loop over rows ends after it has gone on `k` times, and how often its body has run then. -/
inductive ForEachEnds (head : LoopHead) (body : List Action) (rows : List Row) (k : Nat) (s : Session) :
    Nat → Except ScriptError Outcome × Session → Prop
  | exhausted : k = head.most rows.length → ForEachEnds head body rows k s k (.ok none, s)
  | left {row : Row} {r : Except ScriptError Outcome} {t : Session} : rows[k]? = some row →
      RowEnds head.namePrefix body row s (r, t) → r ≠ .ok none →
      ForEachEnds head body rows k s (k + 1) (leaving r, t)

namespace Work

variable {s : Session} {p : Except ScriptError Outcome × Session}

theorem ends_body_iff {body : List Action} : (runAll body).Ends s p ↔ BodyEnds body s p :=
  ends_iff fun n => run_runAll (Action.execute n) n n body

theorem ends_row_iff {namePrefix : String} {body : List Action} {row : Row} :
    (within (.overlaid row namePrefix) (runAll body)).Ends s p ↔ RowEnds namePrefix body row s p :=
  ends_iff fun n => by
    change Session.withVars row namePrefix ((runAll body).run (Action.execute n) n n) = _
    rw [run_runAll]
    rfl

theorem ends_test_iff {c : Condition} {p : Except ScriptError Bool × Session} :
    (test c).Ends s p ↔ c.Ends s p :=
  ends_iff fun n => run_test (Action.execute n) n n c

/-- The first row is run, and where its body ends with neither a signal nor an error the other rows are. -/
theorem ends_forRows_cons_iff {namePrefix : String} {body : List Action} {row : Row} {rest : List Row} :
    (forRows namePrefix body (row :: rest)).Ends s p ↔
      (∃ t, RowEnds namePrefix body row s (.ok none, t) ∧ (forRows namePrefix body rest).Ends t p) ∨
        ∃ r t, RowEnds namePrefix body row s (r, t) ∧ r ≠ .ok none ∧ p = (leaving r, t) := by
  rw [forRows, ends_bind_iff]
  constructor
  · rintro (⟨outcome, t, hrow, hrest⟩ | ⟨e, t, hrow, rfl⟩)
    · rw [ends_row_iff] at hrow
      rcases outcome with _ | _ | v
      · exact .inl ⟨t, hrow, hrest⟩
      · exact .inr ⟨_, t, hrow, by simp, ends_pure_iff.mp hrest⟩
      · exact .inr ⟨_, t, hrow, by simp, ends_pure_iff.mp hrest⟩
    · exact .inr ⟨_, t, ends_row_iff.mp hrow, by simp, rfl⟩
  · rintro (⟨t, hrow, hrest⟩ | ⟨r, t, hrow, hleft, rfl⟩)
    · exact .inl ⟨none, t, ends_row_iff.mpr hrow, hrest⟩
    · rcases r with e | _ | _ | v
      · exact .inr ⟨e, t, ends_row_iff.mpr hrow, rfl⟩
      · exact absurd rfl hleft
      · exact .inl ⟨_, t, ends_row_iff.mpr hrow, ends_pure_iff.mpr rfl⟩
      · exact .inl ⟨_, t, ends_row_iff.mpr hrow, ends_pure_iff.mpr rfl⟩

theorem ends_forRows_iff {namePrefix : String} {body : List Action} {rows : List Row} :
    (forRows namePrefix body rows).Ends s p ↔ ∃ k t, Completed (RowPasses namePrefix body rows) k s t ∧
      ((k = rows.length ∧ p = (.ok none, t)) ∨
        ∃ row, rows[k]? = some row ∧
          ∃ r u, RowEnds namePrefix body row t (r, u) ∧ r ≠ .ok none ∧ p = (leaving r, u)) :=
  inTurn_iff (fun rows s p => (forRows namePrefix body rows).Ends s p)
    (fun row s t => RowEnds namePrefix body row s (.ok none, t))
    (fun row s p => ∃ r t, RowEnds namePrefix body row s (r, t) ∧ r ≠ .ok none ∧ p = (leaving r, t))
    (fun t p => p = (.ok none, t)) (fun _ _ => ends_pure_iff) fun _ _ _ _ => ends_forRows_cons_iff

/-- The rows beyond the limit do not matter. -/
theorem ends_limited_iff {head : LoopHead} {body : List Action} {rows : List Row} :
    (forRows head.namePrefix body (head.limited rows)).Ends s p ↔ ∃ k t runs,
      Completed (RowPasses head.namePrefix body rows) k s t ∧ runs ≤ head.most rows.length ∧
        ForEachEnds head body rows k t runs p := by
  rw [ends_forRows_iff, head.length_limited]
  constructor
  · rintro ⟨k, t, hturns, hend⟩
    replace hturns : Completed (RowPasses head.namePrefix body rows) k s t :=
      hturns.congr fun i _ s t ⟨row, hrow, hbody⟩ =>
        ⟨row, (LoopHead.limited_eq_some_iff.mp hrow).2, hbody⟩
    rcases hend with ⟨hk, rfl⟩ | ⟨row, hrow, r, u, hbody, hleft, rfl⟩
    · exact ⟨k, t, k, hturns, Nat.le_of_eq hk, .exhausted hk⟩
    · obtain ⟨hk, hrow⟩ := LoopHead.limited_eq_some_iff.mp hrow
      exact ⟨k, t, k + 1, hturns, hk, .left hrow hbody hleft⟩
  · rintro ⟨k, t, runs, hturns, hruns, hend⟩
    have hk : k ≤ head.most rows.length := by
      cases hend with
      | exhausted hk => exact Nat.le_of_eq hk
      | left => exact Nat.le_of_succ_le hruns
    refine ⟨k, t, hturns.congr fun i hi s t ⟨row, hrow, hbody⟩ =>
      ⟨row, LoopHead.limited_eq_some_iff.mpr ⟨Nat.lt_of_lt_of_le hi hk, hrow⟩, hbody⟩, ?_⟩
    cases hend with
    | exhausted hk => exact .inl ⟨hk, rfl⟩
    | left hrow hbody hleft =>
      exact .inr ⟨_, LoopHead.limited_eq_some_iff.mpr ⟨hruns, hrow⟩, _, _, hbody, hleft, rfl⟩

end Work

/-! ## Conditions -/

/-- The condition holds, and then the body ends with neither a signal nor an error. -/
def GoesOn (c : Condition) (body : List Action) (s u : Session) : Prop :=
  ∃ t, c.Ends s (.ok true, t) ∧ BodyEnds body t (.ok none, u)

/-- The body may run so often: by the limit of the loop, and by that of the configuration if there is one. -/
structure WithinLimits (maxCount : Option Nat) (guard runs : Nat) : Prop where
  most : ∀ m ∈ maxCount, runs ≤ m
  guarded : 0 < guard → runs ≤ guard

/-- How a loop with a condition ends after it has gone on `k` times, and how often its body has run then. -/
inductive WhileEnds (c : Condition) (maxCount : Option Nat) (guard : Nat) (body : List Action) (k : Nat)
    (s : Session) : Nat → Except ScriptError Outcome × Session → Prop
  | unmet {t : Session} : c.Ends s (.ok false, t) → WhileEnds c maxCount guard body k s k (.ok none, t)
  | untested {e : ScriptError} {t : Session} : c.Ends s (.error e, t) →
      WhileEnds c maxCount guard body k s k (.error e, t)
  | limited {t : Session} : c.Ends s (.ok true, t) → maxCount = some k →
      WhileEnds c maxCount guard body k s k (.ok none, t)
  | guarded {t : Session} : c.Ends s (.ok true, t) → 0 < guard → k = guard →
      (∀ m ∈ maxCount, guard < m) →
      WhileEnds c maxCount guard body k s k (.error (.runtime (.loopGuard guard)), t)
  | left {r : Except ScriptError Outcome} {t u : Session} : c.Ends s (.ok true, t) →
      BodyEnds body t (r, u) → r ≠ .ok none → WhileEnds c maxCount guard body k s (k + 1) (leaving r, u)

/-- The limit of the loop is not reached. -/
theorem any_le_eq_false_iff {maxCount : Option Nat} {count : Nat} :
    maxCount.any (· ≤ count) = false ↔ ∀ m ∈ maxCount, count < m := by
  cases maxCount <;> simp

namespace WithinLimits

variable {maxCount : Option Nat} {guard count : Nat}

theorem zero (maxCount : Option Nat) (guard : Nat) : WithinLimits maxCount guard 0 :=
  ⟨fun _ _ => Nat.zero_le _, fun _ => Nat.zero_le _⟩

theorem of_succ (h : WithinLimits maxCount guard (count + 1)) : WithinLimits maxCount guard count :=
  ⟨fun m hm => Nat.le_of_succ_le (h.most m hm), fun hg => Nat.le_of_succ_le (h.guarded hg)⟩

/-- One more run is allowed where neither limit is reached. -/
theorem succ_iff : WithinLimits maxCount guard (count + 1) ↔
    maxCount.any (· ≤ count) = false ∧ ¬(0 < guard ∧ guard ≤ count) := by
  rw [any_le_eq_false_iff]
  constructor
  · exact fun h => ⟨h.most, fun ⟨hg, hreached⟩ => Nat.not_le_of_lt (h.guarded hg) hreached⟩
  · rintro ⟨hmost, hguard⟩
    exact ⟨hmost, fun hg => Nat.lt_of_not_le fun hreached => hguard ⟨hg, hreached⟩⟩

/-- The runs before the last are within the limits too. -/
theorem before {c : Condition} {body : List Action} {k runs : Nat} {s : Session}
    {p : Except ScriptError Outcome × Session} (h : WithinLimits maxCount guard runs)
    (hend : WhileEnds c maxCount guard body k s runs p) : WithinLimits maxCount guard k := by
  cases hend with
  | left => exact h.of_succ
  | unmet | untested | limited | guarded => exact h

theorem eq_some_of_reached (h : WithinLimits maxCount guard count)
    (hreached : maxCount.any (· ≤ count) = true) : maxCount = some count := by
  cases maxCount with
  | some m => exact congrArg some (Nat.le_antisymm (of_decide_eq_true hreached) (h.most m rfl))
  | none => cases hreached

end WithinLimits

section While

variable {c : Condition} {label : Label} {maxCount : Option Nat} {body : List Action}
  {s t u : Session} {p : Except ScriptError Outcome × Session}

theorem Condition.Ends.config {p : Except ScriptError Bool × Session} (h : c.Ends s p) :
    p.2.config = s.config :=
  (Work.ends_test_iff.mpr h).sameFrames.2

theorem GoesOn.config (h : GoesOn c body s u) : u.config = s.config := by
  obtain ⟨t, htest, hbody⟩ := h
  exact (Work.ends_body_iff.mpr hbody).sameFrames.2.trans htest.config

theorem Completed.config {k : Nat} (h : Completed (fun _ => GoesOn c body) k s u) : u.config = s.config := by
  induction h with
  | zero s => rfl
  | succ _ hlast ih => exact hlast.config.trans ih

/-- A round that comes to an end is one after which the loop goes on, or it is the last. -/
theorem whileLoop_inv {n k count : Nat} (hlimits : WithinLimits maxCount s.config.maxLoopIterations count)
    (h : whileLoop (Action.execute n) n c maxCount body (k + 1) count s = some p) :
    (∃ u, GoesOn c body s u ∧ WithinLimits maxCount s.config.maxLoopIterations (count + 1) ∧
      whileLoop (Action.execute n) n c maxCount body k (count + 1) u = some p) ∨
    ∃ runs, WithinLimits maxCount s.config.maxLoopIterations runs ∧
      WhileEnds c maxCount s.config.maxLoopIterations body count s runs p := by
  rw [whileLoop_succ] at h
  obtain ⟨r, v⟩ := p
  rcases Run.bind_inv h with ⟨holds, t, htest, h⟩ | ⟨e, htest, rfl⟩
  · cases holds with
    | false =>
      cases h
      exact .inr ⟨count, hlimits, .unmet ⟨n, htest⟩⟩
    | true =>
      have hconfig : t.config = s.config := Condition.Ends.config ⟨n, htest⟩
      cases hany : maxCount.any (· ≤ count) with
      | true =>
        rw [hany] at h
        cases h
        exact .inr ⟨count, hlimits, .limited ⟨n, htest⟩ (hlimits.eq_some_of_reached hany)⟩
      | false =>
        rw [hany] at h
        -- The limit of the loop was looked at first, so where the other one is a fault it is the smaller.
        by_cases hreached : 0 < t.config.maxLoopIterations ∧ t.config.maxLoopIterations ≤ count
        · cases (Run.bind_of_error _ (checkRounds_of_reached hreached)).symm.trans h
          rw [hconfig] at hreached ⊢
          have hcount := Nat.le_antisymm (hlimits.guarded hreached.1) hreached.2
          have hmost : ∀ m ∈ maxCount, s.config.maxLoopIterations < m :=
            hcount ▸ any_le_eq_false_iff.mp hany
          exact .inr ⟨count, hlimits, .guarded ⟨n, htest⟩ hreached.1 hcount hmost⟩
        · replace h := (Run.bind_of_ok _ (checkRounds_of_not_reached hreached)).symm.trans h
          rw [hconfig] at hreached
          have hsucc := WithinLimits.succ_iff.mpr ⟨hany, hreached⟩
          rcases Run.bind_inv h with ⟨outcome, u, hbody, h⟩ | ⟨e, hbody, rfl⟩
          · rcases outcome with _ | _ | value
            · exact .inl ⟨u, ⟨t, ⟨n, htest⟩, n, hbody⟩, hsucc, h⟩
            · cases h
              exact .inr ⟨_, hsucc, .left ⟨n, htest⟩ ⟨n, hbody⟩ (by simp)⟩
            · cases h
              exact .inr ⟨_, hsucc, .left ⟨n, htest⟩ ⟨n, hbody⟩ (by simp)⟩
          · exact .inr ⟨_, hsucc, .left ⟨n, htest⟩ ⟨n, hbody⟩ (by simp)⟩
  · exact .inr ⟨count, hlimits, .untested ⟨n, htest⟩⟩

/-- By induction on the rounds that are left. -/
theorem exists_whileEnds {n k count guard : Nat} {t : Session} (hguard : t.config.maxLoopIterations = guard)
    (hbefore : Completed (fun _ => GoesOn c body) count s t) (hlimits : WithinLimits maxCount guard count)
    (h : whileLoop (Action.execute n) n c maxCount body k count t = some p) :
    ∃ j u runs, Completed (fun _ => GoesOn c body) j s u ∧ WithinLimits maxCount guard runs ∧
      WhileEnds c maxCount guard body j u runs p := by
  induction k generalizing count t with
  | zero => cases h
  | succ k ih =>
    have hround := whileLoop_inv (hguard.symm ▸ hlimits) h
    rw [hguard] at hround
    rcases hround with ⟨u, hon, hsucc, h⟩ | ⟨runs, hruns, hend⟩
    · exact ih (hon.config ▸ hguard) (.succ hbefore hon) hsucc h
    · exact ⟨count, t, runs, hbefore, hruns, hend⟩

namespace Work

/-- After the test the round is this, if the condition holds. -/
theorem ends_rounds_of_test {count : Nat} (htest : c.Ends s (.ok true, t))
    (h : (if maxCount.any (· ≤ count) then return none
      else do
        step (checkRounds count) (.checkRounds count)
        match ← runAll body with
        | some .breakLoop => return none
        | some signal => return some signal
        | none => call (.rounds label c maxCount body (count + 1)) : Work Outcome).Ends t p) :
    (call (.rounds label c maxCount body count)).Ends s p := by
  refine ends_call_iff.mpr (ends_bind_iff.mpr (.inl ⟨true, t, ends_test_iff.mpr htest, ?_⟩))
  rw [if_neg (by decide : ¬(!true) = true)]
  exact h

/-- After the test and the limits the round is this. -/
theorem ends_rounds_of_succ {count : Nat} (htest : c.Ends s (.ok true, t))
    (hsucc : WithinLimits maxCount s.config.maxLoopIterations (count + 1))
    (h : (runAll body >>= fun outcome => match outcome with
      | some .breakLoop => return none
      | some signal => return some signal
      | none => call (.rounds label c maxCount body (count + 1)) : Work Outcome).Ends t p) :
    (call (.rounds label c maxCount body count)).Ends s p := by
  obtain ⟨hmost, hguard⟩ := WithinLimits.succ_iff.mp hsucc
  rw [← htest.config] at hguard
  refine ends_rounds_of_test htest ?_
  rw [if_neg (Bool.eq_false_iff.mp hmost)]
  exact ends_bind_iff.mpr (.inl ⟨(), t, ends_step_iff.mpr (checkRounds_of_not_reached hguard), h⟩)

theorem ends_rounds_of_goesOn {count : Nat} (hon : GoesOn c body s u)
    (hsucc : WithinLimits maxCount s.config.maxLoopIterations (count + 1))
    (h : (call (.rounds label c maxCount body (count + 1))).Ends u p) :
    (call (.rounds label c maxCount body count)).Ends s p := by
  obtain ⟨t, htest, hbody⟩ := hon
  exact ends_rounds_of_succ htest hsucc (ends_bind_iff.mpr (.inl ⟨none, u, ends_body_iff.mpr hbody, h⟩))

theorem ends_rounds_of_whileEnds {count runs : Nat}
    (hend : WhileEnds c maxCount s.config.maxLoopIterations body count s runs p)
    (hlimits : WithinLimits maxCount s.config.maxLoopIterations runs) :
    (call (.rounds label c maxCount body count)).Ends s p := by
  cases hend with
  | unmet htest =>
    exact ends_call_iff.mpr (ends_bind_iff.mpr
      (.inl ⟨false, _, ends_test_iff.mpr htest, ends_pure_iff.mpr rfl⟩))
  | untested htest =>
    exact ends_call_iff.mpr (ends_bind_iff.mpr (.inr ⟨_, _, ends_test_iff.mpr htest, rfl⟩))
  | limited htest hmost =>
    refine ends_rounds_of_test htest ?_
    rw [if_pos (hmost ▸ decide_eq_true (Nat.le_refl count))]
    exact ends_pure_iff.mpr rfl
  | @guarded t htest hguard hcount hmost =>
    have hreached : 0 < t.config.maxLoopIterations ∧ t.config.maxLoopIterations ≤ count := by
      rw [htest.config, hcount]
      exact ⟨hguard, Nat.le_refl _⟩
    refine ends_rounds_of_test htest ?_
    rw [if_neg (Bool.eq_false_iff.mp (any_le_eq_false_iff.mpr (hcount ▸ hmost)))]
    have hcheck := checkRounds_of_reached hreached
    rw [htest.config] at hcheck
    exact ends_bind_iff.mpr (.inr ⟨_, t, ends_step_iff.mpr hcheck, rfl⟩)
  | @left r t u htest hbody hleft =>
    refine ends_rounds_of_succ htest hlimits (ends_bind_iff.mpr ?_)
    replace hbody := ends_body_iff.mpr hbody
    rcases r with e | _ | _ | value
    · exact .inr ⟨e, u, hbody, rfl⟩
    · exact absurd rfl hleft
    · exact .inl ⟨_, u, hbody, ends_pure_iff.mpr rfl⟩
    · exact .inl ⟨_, u, hbody, ends_pure_iff.mpr rfl⟩

/-- By induction on the rounds after which the loop goes on, the last first. -/
theorem ends_rounds_of_completed {count : Nat} (hbefore : Completed (fun _ => GoesOn c body) count s t)
    (hlimits : WithinLimits maxCount s.config.maxLoopIterations count)
    (h : (call (.rounds label c maxCount body count)).Ends t p) :
    (call (.rounds label c maxCount body 0)).Ends s p := by
  induction hbefore with
  | zero s => exact h
  | succ hbefore hon ih => exact ih hlimits.of_succ (ends_rounds_of_goesOn hon (hbefore.config ▸ hlimits) h)

end Work

end While

namespace Action

/-- A loop over rows takes these once, before its first round. Its body runs with the first of them, the
second and so on, each over its own variables, at most as often as there are rows and as the loop allows:
to the end of these unless a run ends with a signal or an error, and then not again. A loop with a
condition tests it before each run. Its body runs at most as often as the loop and the configuration
allow; if the condition holds once more the limit of the loop, if it is reached, ends it, and that of the
configuration is a fault. Either loop passes on what a body returned and the errors, but not a break. -/
theorem loop_runs (label : Label) (head : LoopHead) (c : Condition) (maxCount : Option Nat)
    (body : List Action) (s : Session) (p : Except ScriptError Outcome × Session) :
    (Run.Ends (fun n => (forEach label head body).perform (execute n) n) s p ↔
      (∃ e t, Run.Ends (fun n => head.rows n) s (.error e, t) ∧ p = (.error e, t)) ∨
        ∃ rows t k u runs, Run.Ends (fun n => head.rows n) s (.ok rows, t) ∧
          Completed (RowPasses head.namePrefix body rows) k t u ∧ runs ≤ head.most rows.length ∧
          ForEachEnds head body rows k u runs p) ∧
    (Run.Ends (fun n => (repeatWhile label c maxCount body).perform (execute n) n) s p ↔
      ∃ k t runs, Completed (fun _ => GoesOn c body) k s t ∧
        WithinLimits maxCount s.config.maxLoopIterations runs ∧
        WhileEnds c maxCount s.config.maxLoopIterations body k t runs p) := by
  constructor
  · have hrows {p} : (Work.rows head).Ends s p ↔ Run.Ends (fun n => head.rows n) s p :=
      Work.ends_iff fun n => Work.run_rows (execute n) n n head
    refine (Work.ends_iff fun n => Work.run_perform (execute n) n (forEach label head body)).symm.trans ?_
    refine Work.ends_bind_iff.trans ?_
    constructor
    · rintro (⟨rows, t, hr, h⟩ | ⟨e, t, hr, rfl⟩)
      · obtain ⟨k, u, runs, h⟩ := Work.ends_limited_iff.mp h
        exact .inr ⟨rows, t, k, u, runs, hrows.mp hr, h⟩
      · exact .inl ⟨e, t, hrows.mp hr, rfl⟩
    · rintro (⟨e, t, hr, rfl⟩ | ⟨rows, t, k, u, runs, hr, h⟩)
      · exact .inr ⟨e, t, hrows.mpr hr, rfl⟩
      · exact .inl ⟨rows, t, hrows.mpr hr, Work.ends_limited_iff.mpr ⟨k, u, runs, h⟩⟩
  · constructor
    · rintro ⟨n, hn⟩
      exact exists_whileEnds rfl (.zero s) (.zero _ _) hn
    · rintro ⟨k, t, runs, hbefore, hlimits, hend⟩
      refine (Work.ends_iff fun n =>
        Work.run_perform (execute n) n (repeatWhile label c maxCount body)).mp ?_
      refine Work.ends_rounds_of_completed hbefore (hlimits.before hend) ?_
      exact Work.ends_rounds_of_whileEnds (hbefore.config ▸ hend) (hbefore.config ▸ hlimits)

end Action

end ActionTree
