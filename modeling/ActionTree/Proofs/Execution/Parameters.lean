import ActionTree.Preparation
import ActionTree.Proofs.Execution.Arguments
import ActionTree.Proofs.Store
import ActionTree.Proofs.Text.Case

/-!
# Names of parameters

The check of a sub compares the names of its parameters as the store compares the names of variables.
The name of an argument is compared up to the case of the letters `A` to `Z` only. So an argument goes to
no parameter but that of its own variable, and does not find one that has another case of other letters.
-/

namespace ActionTree

namespace Store

/-- The names are of one variable: what is put under the one is found under the other. -/
def SameVariable (a b : String) : Prop := ∀ (s : Store) (v : Value), (s.put a v).get? b = some v

variable {a b c : String}

theorem sameVariable_iff : SameVariable a b ↔ key a = key b := by
  constructor
  · intro h
    have hfound := h empty .null
    rw [get?_put] at hfound
    split at hfound
    · exact Eq.symm ‹_›
    · cases hfound
  · intro h s v
    rw [get?_put, if_pos h.symm]

theorem sameVariable_of_sameAscii (h : Text.sameAscii a b = true) : SameVariable a b := by
  rw [sameVariable_iff, key, key, Text.lowercase_eq_of_sameAscii h]

end Store

open Store (SameVariable)

/-- No name is found to be repeated exactly if no two have one key. -/
theorem firstRepeated?_eq_none_iff (seen names : List String) :
    firstRepeated? seen names = none ↔
      (names.map Store.key).Nodup ∧ ∀ name ∈ names, Store.key name ∉ seen := by
  induction names generalizing seen with
  | nil => simp [firstRepeated?]
  | cons name rest ih =>
      rw [firstRepeated?, List.map_cons, List.nodup_cons, List.forall_mem_cons]
      split
      · rename_i hseen
        simp only [List.contains_iff_mem] at hseen
        simp [hseen]
      · rename_i hseen
        simp only [List.contains_iff_mem] at hseen
        simp only [ih, List.mem_cons, not_or, List.mem_map, not_exists, not_and, forall_and]
        exact ⟨fun ⟨hrest, hname, hunseen⟩ => ⟨⟨hname, hrest⟩, hseen, hunseen⟩,
          fun ⟨⟨hname, hrest⟩, _, hunseen⟩ => ⟨hrest, hname, hunseen⟩⟩

namespace Signature

variable {sig : Signature} {name : String} {i : Nat} {p : Parameter}

/-- An argument of that name goes to the parameter while all parameters are free. -/
def Matches (sig : Signature) (name : String) (i : Nat) : Prop :=
  sig.slot (List.replicate sig.parameters.length none) (some name) = .ok i

/-- An argument of that name is reported to have no parameter. -/
def Unknown (sig : Signature) (name : String) : Prop :=
  sig.slot (List.replicate sig.parameters.length none) (some name) =
    .error (.unknownParameter sig.id name)

theorem matches_iff : sig.Matches name i ↔ sig.parameter? name = some i := by
  rw [Matches, ← slotsOf_nil, slot_eq_ok_iff rfl]
  constructor
  · rintro ⟨⟩
    assumption
  · exact fun h => .named h List.not_mem_nil

theorem unknown_iff : sig.Unknown name ↔ sig.parameter? name = none := by
  rw [Unknown, slot_named]
  cases hname : sig.parameter? name with
  | none => exact iff_of_true rfl rfl
  | some i =>
      refine iff_of_false (fun h => ?_) (Option.some_ne_none i)
      dsimp only at h
      split at h
      · cases h
      · cases h

/-- A sub passes its check exactly if no two parameters are of one variable. -/
theorem validate_sub_eq_ok_iff (identity : Nat) (body : List Action) :
    (Action.sub identity sig body).validate = .ok () ↔
      (sig.parameters.map fun p => Store.key p.name).Nodup := by
  have hrepeated := firstRepeated?_eq_none_iff [] (sig.parameters.map Parameter.name)
  rw [List.map_map] at hrepeated
  rw [Action.validate]
  cases hfirst : firstRepeated? [] (sig.parameters.map Parameter.name) with
  | none =>
      have hnodup := (hrepeated.mp hfirst).1
      exact iff_of_true rfl hnodup
  | some repeated =>
      refine iff_of_false (fun h => nomatch h) fun hnodup => ?_
      rw [hrepeated.mpr ⟨hnodup, by simp⟩] at hfirst
      cases hfirst

/-- Of two parameters of one variable, both are the same. -/
theorem index_eq_of_sameVariable (h : (sig.parameters.map fun p => Store.key p.name).Nodup) {j : Nat}
    {q : Parameter} (hp : sig.parameters[i]? = some p) (hq : sig.parameters[j]? = some q)
    (hsame : SameVariable p.name q.name) : i = j := by
  rw [Store.sameVariable_iff] at hsame
  have hi : i < (sig.parameters.map fun p => Store.key p.name).length := by
    simpa using (List.getElem?_eq_some_iff.mp hp).1
  refine (List.getElem?_inj hi h).mp ?_
  rw [List.getElem?_map, List.getElem?_map, hp, hq, Option.map_some, Option.map_some, hsame]

/-- What is found is the parameter of the variable. -/
theorem parameter?_of_sameAscii (h : (sig.parameters.map fun p => Store.key p.name).Nodup)
    (hp : sig.parameters[i]? = some p) (hname : Text.sameAscii p.name name = true) :
    sig.parameter? name = some i := by
  cases hfound : sig.parameter? name with
  | none =>
      have hnot := List.findIdx?_eq_none_iff.mp hfound p (List.mem_of_getElem? hp)
      rw [hname] at hnot
      cases hnot
  | some j =>
      obtain ⟨hj, hsame, -⟩ := List.findIdx?_eq_some_iff_getElem.mp hfound
      have hvariable : SameVariable p.name (sig.parameters[j]).name := by
        rw [Store.sameVariable_iff, Store.sameVariable_iff.mp (Store.sameVariable_of_sameAscii hname),
          Store.sameVariable_iff.mp (Store.sameVariable_of_sameAscii hsame)]
      rw [index_eq_of_sameVariable h hp (List.getElem?_eq_getElem hj) hvariable]

theorem sameAscii_of_parameter? (hp : sig.parameters[i]? = some p) (h : sig.parameter? name = some i) :
    Text.sameAscii p.name name = true := by
  obtain ⟨hi, hsame, -⟩ := List.findIdx?_eq_some_iff_getElem.mp h
  rw [List.getElem?_eq_getElem hi] at hp
  cases hp
  exact hsame

/-- In a sub that passes its check, no two parameters are of one variable, and an argument goes to none but
the parameter of its own variable. It goes there exactly if that parameter, where there is one, is spelled
alike up to the case of the letters `A` to `Z`; else it is reported as unknown. -/
theorem matched_as_variable_iff {identity : Nat} {body : List Action}
    (h : (Action.sub identity sig body).validate = .ok ()) (name : String) :
    sig.parameters.Pairwise (fun p q => ¬ SameVariable p.name q.name) ∧
    (∀ i p, sig.parameters[i]? = some p → sig.Matches name i → SameVariable p.name name) ∧
    ((∀ i p, sig.parameters[i]? = some p → (sig.Matches name i ↔ SameVariable p.name name)) ↔
      ∀ p ∈ sig.parameters, SameVariable p.name name → Text.sameAscii p.name name = true) ∧
    ((sig.Unknown name ∧ ∃ p ∈ sig.parameters, SameVariable p.name name) ↔
      ∃ p ∈ sig.parameters, SameVariable p.name name ∧ Text.sameAscii p.name name = false) := by
  rw [validate_sub_eq_ok_iff] at h
  have hmatch {i : Nat} {p : Parameter} (hp : sig.parameters[i]? = some p) :
      sig.Matches name i ↔ Text.sameAscii p.name name = true := by
    rw [matches_iff]
    exact ⟨sameAscii_of_parameter? hp, parameter?_of_sameAscii h hp⟩
  refine ⟨?distinct, ?sound, ?complete, ?unknown⟩
  case distinct =>
    rw [List.Nodup, List.pairwise_map] at h
    exact h.imp fun hne => mt Store.sameVariable_iff.mp hne
  case sound =>
    intro i p hp hmatches
    exact Store.sameVariable_of_sameAscii ((hmatch hp).mp hmatches)
  case complete =>
    constructor
    · intro hall p hmem hsame
      obtain ⟨i, hp⟩ := List.getElem?_of_mem hmem
      exact (hmatch hp).mp ((hall i p hp).mpr hsame)
    · intro hall i p hp
      rw [hmatch hp]
      exact ⟨Store.sameVariable_of_sameAscii, hall p (List.mem_of_getElem? hp)⟩
  case unknown =>
    rw [unknown_iff]
    constructor
    · rintro ⟨hnone, p, hmem, hsame⟩
      exact ⟨p, hmem, hsame, List.findIdx?_eq_none_iff.mp hnone p hmem⟩
    · rintro ⟨p, hmem, hsame, hother⟩
      refine ⟨List.findIdx?_eq_none_iff.mpr fun q hq => ?_, p, hmem, hsame⟩
      -- a parameter that is spelled alike is of the same variable, and so is `p` itself
      refine Bool.eq_false_iff.mpr fun hspelled => ?_
      obtain ⟨i, hp⟩ := List.getElem?_of_mem hmem
      obtain ⟨j, hq⟩ := List.getElem?_of_mem hq
      have hvariable : SameVariable p.name q.name := by
        rw [Store.sameVariable_iff, Store.sameVariable_iff.mp hsame,
          Store.sameVariable_iff.mp (Store.sameVariable_of_sameAscii hspelled)]
      rw [index_eq_of_sameVariable h hp hq hvariable, hq] at hp
      cases hp
      rw [hother] at hspelled
      cases hspelled

/-- A sub with one parameter, the capital letter of `é`. -/
def accented : Signature := ⟨"f", [{ name := "É" }]⟩

/-- An argument `é` is unknown to the sub, though the store finds under `é` what was put under `É`. -/
theorem accented_argument_unknown :
    (Action.sub 0 accented []).validate = .ok () ∧ accented.Unknown "é" ∧ SameVariable "É" "é" := by
  have hvalid : (Action.sub 0 accented []).validate = .ok () := rfl
  have hsame : SameVariable "É" "é" := by
    rw [Store.sameVariable_iff, Store.key, Store.key]
    decide +kernel
  have hother : Text.sameAscii "É" "é" = false := by decide +kernel
  have hunknown := (matched_as_variable_iff hvalid "é").2.2.2.mpr ⟨{ name := "É" }, by simp [accented],
    hsame, hother⟩
  exact ⟨hvalid, hunknown.1, hsame⟩

end Signature

end ActionTree
