import ActionTree.Proofs.Condition
import ActionTree.Proofs.Execution.Loop

/-!
# Conditions

The tests of a condition are made one after another, each in the session that the one before it left, up to
the first that decides or ends with an error. Which tests these are, and in which order, is told by the last
text of each test; how the condition was built does not matter.
-/

namespace ActionTree

/-- Given enough steps, the test of the text ends so. -/
abbrev Probe.Ends (probe : Probe) (text : String) (s : Session) (p : Except ScriptError Bool × Session) : Prop :=
  Run.Ends (fun n => probe.test n text) s p

namespace Condition

/-- The test of that number comes out as `all`, which decides nothing. -/
def Passes (all : Bool) (tests : List (Probe × String)) (i : Nat) (s t : Session) : Prop :=
  ∃ e, tests[i]? = some e ∧ e.1.Ends e.2 s (.ok all, t)

/-- How a condition ends after `k` of its tests decided nothing: no test is left, the next one decides, or it
ends with an error. -/
inductive Decided (all : Bool) (tests : List (Probe × String)) (k : Nat) (s : Session) :
    Except ScriptError Bool × Session → Prop
  | undecided : k = tests.length → Decided all tests k s (.ok (all || tests.isEmpty), s)
  | decided {probe : Probe} {text : String} {t : Session} : tests[k]? = some (probe, text) →
      probe.Ends text s (.ok (!all), t) → Decided all tests k s (.ok (!all), t)
  | failed {probe : Probe} {text : String} {e : ScriptError} {t : Session} : tests[k]? = some (probe, text) →
      probe.Ends text s (.error e, t) → Decided all tests k s (.error e, t)

end Condition

namespace Work

variable {all undecided : Bool} {tests : List (Probe × String)} {s : Session}
  {p : Except ScriptError Bool × Session}

theorem ends_probe_iff {probe : Probe} {text : String} {p : Except ScriptError Bool × Session} :
    (Work.probe text probe).Ends s p ↔ probe.Ends text s p :=
  ends_iff fun n => run_probe (Action.execute n) n n text probe

theorem ends_probeAll_cons_iff {e : Probe × String} {rest : List (Probe × String)} :
    (probeAll all undecided (e :: rest)).Ends s p ↔
      (∃ t, e.1.Ends e.2 s (.ok all, t) ∧ (probeAll all undecided rest).Ends t p) ∨
        ∃ r t, e.1.Ends e.2 s (r, t) ∧ r ≠ .ok all ∧ p = (r, t) := by
  obtain ⟨probe, text⟩ := e
  rw [probeAll, ends_bind_iff]
  constructor
  · rintro (⟨hit, t, hprobe, hrest⟩ | ⟨error, t, hprobe, rfl⟩)
    · rw [ends_probe_iff] at hprobe
      by_cases hhit : hit = all
      · rw [if_pos hhit] at hrest
        exact .inl ⟨t, hhit ▸ hprobe, hrest⟩
      · rw [if_neg hhit] at hrest
        exact .inr ⟨_, t, hprobe, by simpa using hhit, ends_pure_iff.mp hrest⟩
    · exact .inr ⟨_, t, ends_probe_iff.mp hprobe, by simp, rfl⟩
  · rintro (⟨t, hprobe, hrest⟩ | ⟨r, t, hprobe, hr, rfl⟩)
    · refine .inl ⟨all, t, ends_probe_iff.mpr hprobe, ?_⟩
      rwa [if_pos rfl]
    · cases r with
      | error e => exact .inr ⟨e, t, ends_probe_iff.mpr hprobe, rfl⟩
      | ok hit =>
          have hhit : hit ≠ all := by simpa using hr
          refine .inl ⟨hit, t, ends_probe_iff.mpr hprobe, ?_⟩
          rw [if_neg hhit]
          exact ends_pure_iff.mpr rfl

theorem ends_probeAll_iff : (probeAll all undecided tests).Ends s p ↔
    ∃ k t, Completed (Condition.Passes all tests) k s t ∧
      ((k = tests.length ∧ p = (.ok undecided, t)) ∨
        ∃ e, tests[k]? = some e ∧ ∃ r u, e.1.Ends e.2 t (r, u) ∧ r ≠ .ok all ∧ p = (r, u)) :=
  inTurn_iff (fun tests s p => (probeAll all undecided tests).Ends s p)
    (fun e s t => e.1.Ends e.2 s (.ok all, t))
    (fun e s p => ∃ r t, e.1.Ends e.2 s (r, t) ∧ r ≠ .ok all ∧ p = (r, t))
    (fun t p => p = (.ok undecided, t)) (fun _ _ => ends_pure_iff) fun _ _ _ _ => ends_probeAll_cons_iff

end Work

namespace Condition

variable {all : Bool} {tests : List (Probe × String)} {s : Session} {p : Except ScriptError Bool × Session}

theorem decided_iff {k : Nat} : Decided all tests k s p ↔
    (k = tests.length ∧ p = (.ok (all || tests.isEmpty), s)) ∨
      ∃ e, tests[k]? = some e ∧ ∃ r t, e.1.Ends e.2 s (r, t) ∧ r ≠ .ok all ∧ p = (r, t) := by
  constructor
  · intro h
    cases h with
    | undecided hk => exact .inl ⟨hk, rfl⟩
    | decided hk hprobe => exact .inr ⟨_, hk, _, _, hprobe, by simp, rfl⟩
    | failed hk hprobe => exact .inr ⟨_, hk, _, _, hprobe, by simp, rfl⟩
  · rintro (⟨hk, rfl⟩ | ⟨e, hk, r, t, hprobe, hr, rfl⟩)
    · exact .undecided hk
    · cases r with
      | error e => exact .failed hk hprobe
      | ok hit =>
          have hhit : hit ≠ all := by simpa using hr
          obtain rfl : hit = !all := Bool.eq_not.mpr hhit
          exact .decided hk hprobe

/-- The tests are made in their order. -/
theorem ends_iff {c : Condition} : c.Ends s p ↔
    ∃ k t, Completed (Passes c.all c.probes) k s t ∧ Decided c.all c.probes k t p := by
  rw [← Work.ends_test_iff, Work.test, Work.ends_probeAll_iff]
  exact exists_congr fun k => exists_congr fun t => and_congr_right fun _ => decided_iff.symm

/-- However a condition was built, its tests are sorted, none occurs twice, and each that was used has its
last text; so two ways to build give one condition exactly if they agree on these texts and on whether one
test is to be enough. The tests are made in this order, each in the session that the one before it left.
Where all are to succeed, the first that fails makes the condition false, and it is true if none does; where
one is enough, the first that succeeds makes it true, and it is false if none does, unless there are no
tests. A test that ends with an error ends the condition with this error, and no later test is made. -/
theorem told_by_last_texts (steps : List Step) :
    Ascending (built steps).probes ∧
      (∀ probe text, (probe, text) ∈ (built steps).probes ↔ lastText? steps probe = some text) ∧
      (∀ steps', built steps = built steps' ↔
        (Step.any ∈ steps ↔ Step.any ∈ steps') ∧ ∀ probe, lastText? steps probe = lastText? steps' probe) ∧
      ((built steps).all = true ↔ Step.any ∉ steps) ∧
      ∀ s p, (built steps).Ends s p ↔ ∃ k t, Completed (Passes (built steps).all (lastTests steps)) k s t ∧
        Decided (built steps).all (lastTests steps) k t p := by
  refine ⟨ascending_built steps, fun _ _ => mem_built_iff, fun _ => built_eq_iff, all_built_iff, fun s p => ?_⟩
  rw [ends_iff, probes_built]

end Condition

end ActionTree
