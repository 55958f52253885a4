import ActionTree.Condition
import Mathlib.Data.List.Induction
import Mathlib.Data.List.Sort

/-!
# Building conditions

A condition is built test by test, in any order and with texts that may be replaced. Each test is looked for
by halving, and is put where it was or where it belongs; so the tests stay sorted, and each of them has the
text that it was given last. The condition that is built depends on nothing else.
-/

namespace ActionTree.Condition

/-! ## Looking for a key -/

section Search

variable {α : Type} {key : α → Nat} {wanted : Nat} {entries before after : List α} {e : α}

/-- The key of the entry is not beyond the wanted one, unless it is the first; those of all later entries
are. -/
structure LastWithin (key : α → Nat) (wanted : Nat) (entries : List α) (i : Fin entries.length) : Prop where
  within : i.val = 0 ∨ key entries[i] ≤ wanted
  beyond : ∀ j (hj : j < entries.length), i.val < j → wanted < key entries[j]

theorem key_le_key (hsorted : entries.Pairwise fun a b => key a < key b) {i j : Nat} (hij : i ≤ j)
    (hj : j < entries.length) : key entries[i] ≤ key entries[j] := by
  obtain hlt | rfl := Nat.lt_or_eq_of_le hij
  · exact Nat.le_of_lt (List.pairwise_iff_getElem.mp hsorted i j _ hj hlt)
  · exact Nat.le_refl _

/-- What is given up behind is beyond the wanted key, and the entry that the rest starts with is not. -/
theorem lastWithin_halve (hsorted : entries.Pairwise fun a b => key a < key b) {base size : Nat}
    (hsize : 0 < size) (hend : base + size ≤ entries.length) (hbase : base = 0 ∨ key entries[base] ≤ wanted)
    (hbeyond : ∀ j (hj : j < entries.length), base + size ≤ j → wanted < key entries[j]) :
    LastWithin key wanted entries (halve key wanted entries base size hsize hend) := by
  fun_induction halve key wanted entries base size hsize hend with
  | case1 base hsize hend => exact ⟨hbase, fun j hj hlt => hbeyond j hj hlt⟩
  | case2 base size hsize hend h hmid hlt ih =>
      refine ih hbase fun j hj hle => Nat.lt_of_lt_of_le hlt (key_le_key hsorted ?_ hj)
      omega
  | case3 base size hsize hend h hmid hle ih =>
      refine ih (.inr (Nat.le_of_not_lt hle)) fun j hj hle' => hbeyond j hj ?_
      omega

/-- How a search ends: at the entry with the key, or between the entries with lesser and those with greater
keys. -/
inductive Found (key : α → Nat) (wanted : Nat) : List α → Except Nat Nat → Prop
  | present {before after : List α} {e : α} (hbefore : ∀ a ∈ before, key a < wanted) (he : key e = wanted)
      (hafter : ∀ a ∈ after, wanted < key a) : Found key wanted (before ++ e :: after) (.ok before.length)
  | absent {before after : List α} (hbefore : ∀ a ∈ before, key a < wanted)
      (hafter : ∀ a ∈ after, wanted < key a) : Found key wanted (before ++ after) (.error before.length)

theorem Found.front (h : ∀ a ∈ entries, wanted < key a) : Found key wanted entries (.error 0) := by
  have hnone : ∀ a ∈ ([] : List α), key a < wanted := by simp
  exact .absent hnone h

theorem LastWithin.beyond_of_mem_drop {i : Fin entries.length} (h : LastWithin key wanted entries i) {a : α}
    (ha : a ∈ entries.drop (i + 1)) : wanted < key a := by
  obtain ⟨j, hj, rfl⟩ := List.mem_drop_iff_getElem.mp ha
  exact h.beyond _ _ (by omega)

theorem key_lt_of_mem_take (hsorted : entries.Pairwise fun a b => key a < key b) {i : Nat}
    (hi : i < entries.length) {a : α} (ha : a ∈ entries.take i) : key a < key entries[i] := by
  obtain ⟨j, hj, rfl⟩ := List.mem_take_iff_getElem.mp ha
  exact List.pairwise_iff_getElem.mp hsorted _ _ _ _ (by omega)

/-- The wanted key is that of the last entry which is not beyond it, or belongs behind this one, or belongs
in front. -/
theorem LastWithin.found {i : Fin entries.length} (h : LastWithin key wanted entries i)
    (hsorted : entries.Pairwise fun a b => key a < key b) :
    Found key wanted entries (if key entries[i] = wanted then .ok i
      else .error (if key entries[i] < wanted then i + 1 else i)) := by
  have hbefore : ∀ a ∈ entries.take i, key a < key entries[i] := fun a ha => key_lt_of_mem_take hsorted i.isLt ha
  have hafter : ∀ a ∈ entries.drop (i + 1), wanted < key a := fun a ha => h.beyond_of_mem_drop ha
  have hlength : (entries.take i).length = i := List.length_take_of_le (Nat.le_of_lt i.isLt)
  have hentries : entries.take i ++ entries[i] :: entries.drop (i + 1) = entries := by simp
  by_cases heq : key entries[i] = wanted
  · have hfound := Found.present (heq ▸ hbefore) heq hafter
    rw [hentries, hlength] at hfound
    rwa [if_pos heq]
  · rw [if_neg heq]
    by_cases hlt : key entries[i] < wanted
    · have hbefore' : ∀ a ∈ entries.take (i + 1), key a < wanted := by
        rw [List.take_succ_eq_append_getElem i.isLt, List.forall_mem_append, List.forall_mem_singleton]
        exact ⟨fun a ha => Nat.lt_trans (hbefore a ha) hlt, hlt⟩
      have hfound := Found.absent hbefore' hafter
      rw [List.take_append_drop, List.length_take_of_le i.isLt] at hfound
      rwa [if_pos hlt]
    · have hfirst : i.val = 0 := h.within.resolve_right (by omega)
      have hafter' : ∀ a ∈ entries, wanted < key a := by
        rw [← hentries, List.forall_mem_append, List.forall_mem_cons]
        exact ⟨by simp [hfirst], by omega, hafter⟩
      rw [if_neg hlt, hfirst]
      exact .front hafter'

theorem found_search (key : α → Nat) (wanted : Nat) (hsorted : entries.Pairwise fun a b => key a < key b) :
    Found key wanted entries (search key wanted entries) := by
  unfold search
  split
  · rename_i hpos
    refine LastWithin.found (lastWithin_halve hsorted hpos _ (.inl rfl) ?_) hsorted
    intro j hj hle
    omega
  · rename_i hpos
    obtain rfl : entries = [] := List.length_eq_zero_iff.mp (Nat.eq_zero_of_not_pos hpos)
    exact .front (by simp)

end Search

/-! ## Sorted tests -/

section Tests

variable {probe p : Probe} {text t : String} {probes before after : List (Probe × String)}

theorem all_getElem?_rank (p : Probe) : Probe.all[p.rank]? = some p := by
  cases p <;> rfl

theorem rank_inj (h : probe.rank = p.rank) : probe = p := by
  have hall := all_getElem?_rank probe
  rw [h, all_getElem?_rank p] at hall
  exact (Option.some.inj hall).symm

/-- The tests are sorted, and none of them occurs twice. -/
abbrev Ascending (probes : List (Probe × String)) : Prop := probes.Pairwise fun a b => a.1.rank < b.1.rank

theorem modify_length_append {α : Type} (f : α → α) (before after : List α) (e : α) :
    (before ++ e :: after).modify before.length f = before ++ f e :: after := by
  induction before with
  | nil => rfl
  | cons a before ih => exact congrArg (a :: ·) ih

theorem insertIdx_length_append {α : Type} (before after : List α) (e : α) :
    (before ++ after).insertIdx before.length e = before ++ e :: after := by
  induction before with
  | nil => rfl
  | cons a before ih => exact congrArg (a :: ·) ih

/-- What `put` does to sorted tests: the test stands between those before it and those after it, and was
there already with another text or was not. -/
structure Put (probe : Probe) (text : String) (probes result before after : List (Probe × String)) : Prop where
  was : probes = before ++ after ∨ ∃ old, probes = before ++ (probe, old) :: after
  result_eq : result = before ++ (probe, text) :: after
  lesser : ∀ e ∈ before, e.1.rank < probe.rank
  greater : ∀ e ∈ after, probe.rank < e.1.rank

theorem exists_put (hsorted : Ascending probes) (probe : Probe) (text : String) :
    ∃ before after, Put probe text probes (put probe text probes) before after := by
  have hfound := found_search (fun e : Probe × String => e.1.rank) probe.rank hsorted
  unfold put
  generalize search _ _ _ = found at hfound
  cases hfound with
  | @present before after e hbefore he hafter =>
      obtain ⟨p, old⟩ := e
      obtain rfl : p = probe := rank_inj he
      exact ⟨before, after, .inr ⟨old, rfl⟩, modify_length_append _ _ _ _, hbefore, hafter⟩
  | @absent before after hbefore hafter =>
      exact ⟨before, after, .inl rfl, insertIdx_length_append _ _ _, hbefore, hafter⟩

namespace Put

variable {result : List (Probe × String)}

theorem ascending (h : Put probe text probes result before after) (hsorted : Ascending probes) :
    Ascending result := by
  have hsublist : (before ++ after).Sublist probes := by
    rcases h.was with hwas | ⟨old, hwas⟩
    · exact hwas ▸ List.Sublist.refl _
    · exact hwas ▸ (List.Sublist.refl before).append (List.sublist_cons_self _ _)
  obtain ⟨hbefore, hafter, -⟩ := List.pairwise_append.mp (hsorted.sublist hsublist)
  rw [h.result_eq]
  refine List.pairwise_append.mpr ⟨hbefore, List.pairwise_cons.mpr ⟨h.greater, hafter⟩, ?_⟩
  intro a ha
  exact List.forall_mem_cons.mpr ⟨h.lesser a ha, fun b hb => Nat.lt_trans (h.lesser a ha) (h.greater b hb)⟩

/-- The test has the new text, and the others have theirs. -/
theorem mem_iff (h : Put probe text probes result before after) :
    (p, t) ∈ result ↔ if p = probe then t = text else (p, t) ∈ probes := by
  have hbefore : ∀ t, (probe, t) ∉ before := fun t ht => Nat.lt_irrefl _ (h.lesser _ ht)
  have hafter : ∀ t, (probe, t) ∉ after := fun t ht => Nat.lt_irrefl _ (h.greater _ ht)
  rw [h.result_eq]
  by_cases hp : p = probe
  · subst hp
    simp [hbefore, hafter]
  · rcases h.was with rfl | ⟨old, rfl⟩
    · simp [hp]
    · simp [hp]

end Put

end Tests

/-! ## Building -/

/-- A step of building: one more test with its text, or that one test is to be enough. -/
inductive Step where
  | probe (probe : Probe) (text : String)
  | any
  deriving DecidableEq

def Step.apply : Step → Condition → Condition
  | probe p text, c => c.withProbe p text
  | any, c => c.any

/-- The condition that these steps build. -/
def built (steps : List Step) : Condition := steps.foldl (fun c step => step.apply c) {}

def Step.text? (p : Probe) : Step → Option String
  | probe p' text => if p' = p then some text else none
  | any => none

/-- The last text that is given for a test. -/
def lastText? (steps : List Step) (p : Probe) : Option String := (steps.filterMap (Step.text? p)).getLast?

/-- All tests with a text, in the order in which tests are made, each with its last text. -/
def lastTests (steps : List Step) : List (Probe × String) :=
  Probe.all.filterMap fun p => (lastText? steps p).map fun text => (p, text)

variable {steps steps' : List Step} {step : Step} {p : Probe} {text : String}

theorem built_append : built (steps ++ [step]) = step.apply (built steps) := by
  rw [built, List.foldl_append]
  rfl

theorem lastText?_append :
    lastText? (steps ++ [step]) p = (step.text? p).or (lastText? steps p) := by
  rw [lastText?, List.filterMap_append, List.getLast?_append]
  cases h : step.text? p <;> simp [h, lastText?]

/-- A step keeps the tests sorted. -/
theorem ascending_apply {c : Condition} (h : Ascending c.probes) : Ascending (step.apply c).probes := by
  cases step with
  | any => exact h
  | probe p text =>
      obtain ⟨before, after, hput⟩ := exists_put h p text
      exact hput.ascending h

theorem ascending_built (steps : List Step) : Ascending (built steps).probes := by
  induction steps using List.reverseRecOn with
  | nil => exact .nil
  | append_singleton steps step ih =>
      rw [built_append]
      exact ascending_apply ih

/-- A step gives its test its text. -/
theorem mem_apply_iff {c : Condition} (h : Ascending c.probes) :
    (p, text) ∈ (step.apply c).probes ↔
      step.text? p = some text ∨ (step.text? p = none ∧ (p, text) ∈ c.probes) := by
  cases step with
  | any => simp [Step.apply, Step.text?, any]
  | probe p' text' =>
      obtain ⟨before, after, hput⟩ := exists_put h p' text'
      refine hput.mem_iff.trans ?_
      by_cases hp : p = p'
      · simp [Step.text?, hp, eq_comm]
      · simp [Step.text?, hp, Ne.symm hp]

theorem mem_built_iff : (p, text) ∈ (built steps).probes ↔ lastText? steps p = some text := by
  induction steps using List.reverseRecOn with
  | nil => simp [built, lastText?]
  | append_singleton steps step ih =>
      rw [built_append, mem_apply_iff (ascending_built steps), ih, lastText?_append]
      cases step.text? p <;> simp

theorem all_built_iff : (built steps).all = true ↔ Step.any ∉ steps := by
  induction steps using List.reverseRecOn with
  | nil => simp [built]
  | append_singleton steps step ih =>
      rw [built_append]
      cases step with
      | probe p text => simpa [Step.apply, withProbe] using ih
      | any => simp [Step.apply, any]

theorem ascending_lastTests (steps : List Step) : Ascending (lastTests steps) := by
  have hall : Probe.all.Pairwise fun p q => p.rank < q.rank := by decide
  refine List.pairwise_filterMap.mpr (hall.imp ?_)
  intro p q hlt a ha b hb
  obtain ⟨_, -, rfl⟩ := Option.map_eq_some_iff.mp ha
  obtain ⟨_, -, rfl⟩ := Option.map_eq_some_iff.mp hb
  exact hlt

theorem mem_lastTests_iff : (p, text) ∈ lastTests steps ↔ lastText? steps p = some text := by
  have hp : p ∈ Probe.all := List.mem_of_getElem? (all_getElem?_rank p)
  simp [lastTests, hp]

/-- Sorted tests are told by which they are. -/
theorem Ascending.eq_of_mem_iff {probes probes' : List (Probe × String)} (h : Ascending probes)
    (h' : Ascending probes') (hmem : ∀ p text, (p, text) ∈ probes ↔ (p, text) ∈ probes') : probes = probes' := by
  have : Std.Irrefl fun a b : Probe × String => a.1.rank < b.1.rank := ⟨fun _ => Nat.lt_irrefl _⟩
  have : Std.Antisymm fun a b : Probe × String => a.1.rank < b.1.rank :=
    ⟨fun _ _ hlt hlt' => absurd hlt' (Nat.lt_asymm hlt)⟩
  exact List.Pairwise.eq_of_mem_iff h h' fun a => hmem a.1 a.2

theorem probes_built (steps : List Step) : (built steps).probes = lastTests steps :=
  (ascending_built steps).eq_of_mem_iff (ascending_lastTests steps) fun _ _ =>
    mem_built_iff.trans mem_lastTests_iff.symm

example : (built [.probe .holds "$a", .probe .isSet "x", .any, .probe .holds "$b"]).probes =
    [(.isSet, "x"), (.holds, "$b")] := by decide +kernel

/-- The condition depends on the last text of each test and on whether one test is to be enough, and on
nothing else. -/
theorem built_eq_iff : built steps = built steps' ↔
    (Step.any ∈ steps ↔ Step.any ∈ steps') ∧ ∀ p, lastText? steps p = lastText? steps' p := by
  constructor
  · intro h
    refine ⟨?_, fun p => Option.ext fun text => ?_⟩
    · rw [← not_iff_not, ← all_built_iff, ← all_built_iff, h]
    · rw [← mem_built_iff, ← mem_built_iff, h]
  · rintro ⟨hany, htext⟩
    have hall : (built steps).all = (built steps').all := by
      rw [Bool.eq_iff_iff, all_built_iff, all_built_iff, hany]
    have hprobes : (built steps).probes = (built steps').probes := by
      rw [probes_built, probes_built, lastTests, lastTests, funext htext]
    exact congrArg₂ Condition.mk hprobes hall

end ActionTree.Condition
