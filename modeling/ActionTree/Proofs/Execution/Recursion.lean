import ActionTree.Proofs.Execution.Watch

/-!
# Recursion is bounded

At no moment are more frames open than the configuration allows: where one more would be too many, nothing
runs and a fault is raised. Subs may call one another without end only in that each call opens a frame; so
every execution comes to an end, if loops have limits and evaluations return.
-/

namespace ActionTree

namespace Call

/-- An action makes its calls in a frame of its own. -/
theorem depth_of_action {a : Action} {d : Call} {s u : Session}
    (h : (action a).work.Meets s (.call d) u) :
    s.stack.depth < u.stack.depth ∧ u.stack.depth ≤ s.config.maxCallDepth := by
  rcases h with ⟨⟨⟩, _⟩ | ⟨_, t, hends, t', henter, h⟩
  obtain ⟨hstack, hconfig⟩ := hends.sameFrames
  dsimp only at hstack hconfig
  dsimp only [Scope.enter] at henter
  split at henter
  · cases henter
  · rename_i hroom
    cases henter
    have hdeeper := h.deeper
    rw [hstack, hconfig] at hroom
    have hdepth : (t.stack.push .executing a).depth = s.stack.depth + 1 := by
      rw [hstack]
      rfl
    have hlow := hdeeper.depth
    have hhigh := hdeeper.bounded
    dsimp only at hlow hhigh
    rw [hdepth] at hlow hhigh
    rw [hconfig] at hhigh
    exact ⟨hlow, hhigh (Nat.lt_of_not_le hroom)⟩

/-- Work without calls. -/
def quiet : Watch where
  frames _ := True
  events
    | .call _ => False
    | _ => True
  frames_setPhase _ := id
  step := trivial

/-- Calls of these actions only. -/
def callsOnly (items : List Action) : Watch where
  frames _ := True
  events
    | .call c => ∃ a ∈ items, c = .action a
    | _ => True
  frames_setPhase _ := id
  step := trivial

theorem checkRounds_of_ok {count : Nat} {s t : Session} {v : Unit}
    (h : checkRounds count s = some (.ok v, t)) (hguard : s.config.maxLoopIterations ≠ 0) :
    count < s.config.maxLoopIterations := by
  unfold checkRounds at h
  rw [Run.get_bind_apply] at h
  split at h
  · cases h
  · omega

/-- A round is made below both limits of the loop. -/
theorem of_rounds {label : Label} {condition : Condition} {maxCount : Option Nat} {body : List Action}
    {count : Nat} {d : Call} {s u : Session}
    (h : (rounds label condition maxCount body count).work.Meets s (.call d) u) :
    (maxCount.all (count < ·) ∧
      (s.config.maxLoopIterations ≠ 0 → count < s.config.maxLoopIterations)) ∧
    ((∃ a ∈ body, d = .action a) ∨ d = rounds label condition maxCount body (count + 1)) := by
  rcases h with h | ⟨holds, t, htest, h⟩
  · have htest := Watch.covers_test (W := quiet) (c := condition) (fun _ _ _ => trivial)
      (fun _ _ _ => trivial) fun _ _ => trivial
    exact (htest trivial h).2.elim
  dsimp only at h
  split at h
  · cases h.1
  · split at h
    · cases h.1
    · rename_i hmax
      rcases h with h | ⟨_, t', hrounds, h⟩
      · cases h.1
      · refine ⟨⟨?_, ?_⟩, ?_⟩
        · cases maxCount with
          | none => rfl
          | some max => simpa using hmax
        · rw [← htest.sameFrames.2]
          exact checkRounds_of_ok (Work.ends_step_iff.mp hrounds)
        · rcases h with h | ⟨outcome, v, _, h⟩
          · exact .inl (Watch.covers_runAll (W := callsOnly body) (fun a ha => ⟨a, ha, rfl⟩) trivial h).2
          · rcases outcome with _ | _ | _
            · cases h.1
              exact .inr rfl
            · cases h.1
            · cases h.1

/-- The rounds that a loop can still make, and one more. -/
def roundsLeft (s : Session) : Call → Nat
  | action _ => 0
  | rounds _ _ maxCount _ count => maxCount.getD s.config.maxLoopIterations + 1 - count

end Call

/-! ## Execution comes to an end -/

/-- A loop while a condition holds has a limit of its own. -/
def Action.IsLimited : Action → Prop
  | repeatWhile _ _ maxCount _ => maxCount.isSome = true
  | _ => True

/-- The configuration limits all loops, or each loop that can come to run has a limit: those of the call and
those at the open frames or below them. -/
def Session.LimitsLoops (s : Session) (c : Call) : Prop :=
  s.config.maxLoopIterations ≠ 0 ∨
    (c.Everywhere Action.IsLimited ∧ s.stack.Everywhere Action.IsLimited)

namespace Session.LimitsLoops

variable {c d : Call} {s u : Session}

theorem of_meets (h : s.LimitsLoops c) (hmeets : c.work.Meets s (.call d) u) : u.LimitsLoops d := by
  rcases h with h | ⟨hc, hs⟩
  · exact .inl (hmeets.deeper.config.symm ▸ h)
  · obtain ⟨hu, hd⟩ := Watch.covers_work (Watch.everywhere_follows _) hc hs hmeets
    exact .inr ⟨hd, hu⟩

/-- A call is made deeper than the one that makes it, or with fewer rounds left. -/
theorem decreases (h : s.LimitsLoops c) (hmeets : c.work.Meets s (.call d) u) :
    Prod.Lex (· < ·) (· < ·) (u.config.maxCallDepth - u.stack.depth, d.roundsLeft u)
      (s.config.maxCallDepth - s.stack.depth, c.roundsLeft s) := by
  have hconfig := hmeets.deeper.config
  have hdepth := hmeets.deeper.depth
  rw [hconfig]
  cases c with
  | action a =>
      obtain ⟨hlow, hhigh⟩ := Call.depth_of_action hmeets
      exact .left _ _ (by omega)
  | rounds label condition maxCount body count =>
      obtain ⟨⟨hmax, hguard⟩, hd⟩ := Call.of_rounds hmeets
      have hcount : count < maxCount.getD s.config.maxLoopIterations := by
        cases maxCount with
        | some max => simpa using hmax
        | none =>
            refine hguard ?_
            rcases h with h | ⟨hc, _⟩
            · exact h
            · cases hc.self
      have hrounds : d.roundsLeft u < (Call.rounds label condition maxCount body count).roundsLeft s := by
        rcases hd with ⟨a, _, rfl⟩ | rfl
        · simp only [Call.roundsLeft]
          omega
        · simp only [Call.roundsLeft, hconfig]
          omega
      rcases Nat.lt_or_eq_of_le (Nat.sub_le_sub_left hdepth s.config.maxCallDepth) with hlt | heq
      · exact .left _ _ hlt
      · rw [heq]
        exact .right _ hrounds

end Session.LimitsLoops

/-- A call comes to an end if loops have limits and all evaluations in its course return. -/
theorem Call.exists_ends (c : Call) (s : Session) (hlimits : s.LimitsLoops c)
    (hreturns : ∀ {γ : Type} (q : Inquiry γ) u, Course c s (.inquiry q) u → q.Returns u) :
    ∃ p, (Work.call c).Ends s p := by
  obtain ⟨p, hp⟩ := c.work.exists_ends (fun q u h => hreturns q u (.here h)) fun d u h =>
    d.exists_ends u (hlimits.of_meets h) fun q v hq => hreturns q v (.inside h hq)
  exact ⟨p, ends_of_work hp⟩
termination_by (s.config.maxCallDepth - s.stack.depth, c.roundsLeft s)
decreasing_by exact hlimits.decreases h

/-- This happens while a tree is checked, compiled, executed or run from the first session. -/
inductive Action.Moment (root : Action) (s : Session) (e : Event) (u : Session) : Prop where
  | checking : root.checking.Leads s e u → Moment root s e u
  | compiling : root.compiling.Leads s e u → Moment root s e u
  | executing : Course (.action root) s e u → Moment root s e u
  | running : root.running.Leads s e u → Moment root s e u

theorem Action.Moment.deeper {root : Action} {s u : Session} {e : Event} (h : root.Moment s e u) :
    s.Deeper u := by
  cases h with
  | checking h | compiling h | running h => exact h.deeper
  | executing h => exact h.deeper

/-- From a session with no more frames than allowed, there are at no moment more. Where one more would be
too many, what was to run in it does not run, and a fault is raised. Hence every execution comes to an end
in which loops have limits and evaluations return, however subs call one another. -/
theorem Action.recursion_bounded (root : Action) (s : Session)
    (hs : s.stack.depth ≤ s.config.maxCallDepth) :
    (∀ e u, root.Moment s e u → u.stack.depth ≤ s.config.maxCallDepth) ∧
    (∀ (u : Session) (phase : Phase) (a : Action) {α : Type} (x : Run Session α),
      u.config.maxCallDepth ≤ u.stack.depth →
      Session.withFrame phase a x u =
        some (.error ((ScriptError.runtime (.callDepth u.config.maxCallDepth)).traced u.stack.trace), u)) ∧
    (s.LimitsLoops (.action root) →
      (∀ {γ : Type} (q : Inquiry γ) u, Course (.action root) s (.inquiry q) u → q.Returns u) →
      ∃ N p, ∀ n, N ≤ n → root.execute n s = some p) := by
  refine ⟨fun e u h => h.deeper.bounded hs, fun u phase a α x hdeep => if_pos hdeep,
    fun hlimits hreturns => ?_⟩
  obtain ⟨p, N, hN⟩ := Call.exists_ends (.action root) s hlimits hreturns
  exact ⟨N, p, fun n hn => hN n n hn hn⟩

/-! ## A sub that calls itself wherever it can -/

/-- Blocks, subs, calls and loops with a limit in which there is nothing to evaluate. -/
def Action.AsksNothing : Action → Prop
  | script .. | block .. => True
  | sub _ sig _ => sig.parameters = []
  | call _ invocation => invocation.arguments = []
  | repeatWhile _ condition maxCount _ => condition.probes = [] ∧ maxCount.isSome = true
  | _ => False

/-- Such nodes ask nothing. -/
theorem Action.AsksNothing.not_asks {a : Action} (h : a.AsksNothing) {γ : Type} (q : Inquiry γ) :
    ¬a.Asks q := by
  cases a with
  | script | block => cases q <;> simp [Asks, expressions, expansions, probes]
  | sub identity sig body =>
      have hparameters : sig.parameters = [] := h
      cases q <;> simp [Asks, expressions, expansions, probes, hparameters]
  | call label invocation =>
      have harguments : invocation.arguments = [] := h
      cases q <;> simp [Asks, expressions, expansions, probes, harguments]
  | repeatWhile label condition maxCount body =>
      have hprobes : condition.probes = [] := h.1
      cases q <;> simp [Asks, expressions, expansions, probes, hprobes]
  | _ => exact h.elim

/-- A script with a sub that calls itself from a loop, and again when that fails, and once more in the
end. -/
def swallowing : Action :=
  let again (identity : Nat) : Action := .call ⟨identity, none⟩ { sub := "f" }
  .script ⟨0, none⟩ { items := [.sub 1 ⟨"f", []⟩ [.block ⟨2, none⟩ {
    items := []
    attempt := some [.repeatWhile ⟨3, none⟩ {} (some 9) [again 4]]
    handlers := some [again 5]
    cleanup := some [again 6] } false], again 7] }

theorem swallowing_asksNothing : swallowing.Everywhere Action.AsksNothing := by
  have again (identity : Nat) :
      (Action.call ⟨identity, none⟩ { sub := "f" }).Everywhere Action.AsksNothing := .node rfl nofun
  refine .node trivial fun f hf => ?_
  simp only [Action.children, SectionsOf.all, swallowing, List.mem_append, List.mem_cons,
    Option.getD_none, List.not_mem_nil, or_false] at hf
  rcases hf with rfl | rfl
  · refine .node rfl fun b hb => ?_
    rw [List.mem_singleton.mp hb]
    refine .node trivial fun c hc => ?_
    simp only [Action.children, SectionsOf.all, List.mem_append, List.mem_cons, Option.getD_some,
      List.not_mem_nil, or_false, false_or] at hc
    rcases hc with (rfl | rfl) | rfl
    · refine .node ⟨rfl, rfl⟩ fun d hd => ?_
      rw [List.mem_singleton.mp hd]
      exact again 4
    · exact again 5
    · exact again 6
  · exact again 7

/-- Its calls come to an end, though every fault of too deep a call is caught and followed by two more. -/
theorem swallowing_recursion_bounded :
    ∃ N p, ∀ n, N ≤ n → swallowing.execute n (.start {} {}) = some p := by
  refine (Action.recursion_bounded swallowing (.start {} {}) (Nat.zero_le _)).2.2 (.inr ⟨?_, nofun⟩) ?_
  · refine swallowing_asksNothing.mono fun a ha => ?_
    cases a with
    | repeatWhile label condition maxCount body => exact ha.2
    | _ => trivial
  · intro γ q u h
    obtain ⟨a, ha, hq⟩ := h.asked (c := .action swallowing) swallowing_asksNothing nofun
    exact (ha.not_asks q hq).elim

end ActionTree
