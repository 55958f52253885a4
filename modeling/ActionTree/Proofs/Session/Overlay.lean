import ActionTree.Proofs.Session.Scope
import Mathlib.Data.List.TakeWhile

/-!
# Overlays are undone

A scope with more variables puts back what it changed, in the reverse order: under every name that it
bound, a look-up finds what it found before, and under every other name what the body left.
-/

namespace ActionTree

namespace Store

/-- Sets all variables in order. -/
def putAll (s : Store) (pairs : List (String × Value)) : Store :=
  pairs.foldl (fun s p => s.put p.1 p.2) s

/-- Is it one of these names, case apart? -/
def Among (names : List String) (name : String) : Prop := key name ∈ names.map key

theorem among_cons {full name : String} {names : List String} :
    Among (full :: names) name ↔ key name = key full ∨ Among names name := by
  simp [Among]

end Store

namespace Session

variable {α : Type}

/-- The variables of an overlay under the names that it gives them. -/
def overlaid (namePrefix : String) (overlay : List (String × Value)) : List (String × Value) :=
  overlay.map fun p => (namePrefix ++ p.1, p.2)

/-- The fault of the first name of an overlay that is refused. -/
def refused? (namePrefix : String) (overlay : List (String × Value)) : Option RuntimeFault :=
  (overlaid namePrefix overlay).findSome? fun p => Store.refusal? p.1

/-- The variables of an overlay that are bound, up to the first name that is refused. -/
def accepted (namePrefix : String) (overlay : List (String × Value)) : List (String × Value) :=
  (overlaid namePrefix overlay).takeWhile fun p => (Store.refusal? p.1).isNone

theorem accepted_of_refused_none {namePrefix : String} {overlay : List (String × Value)}
    (h : refused? namePrefix overlay = none) :
    accepted namePrefix overlay = overlaid namePrefix overlay := by
  unfold refused? at h
  rw [List.findSome?_eq_none_iff] at h
  rw [accepted, List.takeWhile_eq_self_iff]
  intro p hp
  rw [h p hp]
  rfl

/-- What was saved while `vars` became `bound` puts back all of `vars`; after other changes, it puts back
what `vars` had under the names and leaves all else alone. -/
structure Undoes (vars bound : Store) (names : List String) (saved : List (String × Option Value)) :
    Prop where
  accepted : ∀ p ∈ saved, Store.refusal? p.1 = none
  whole : bound.resetAll saved = vars
  named (after : Store) {name : String} :
    Store.Among names name → (after.resetAll saved).get? name = vars.get? name
  others (after : Store) {name : String} :
    ¬ Store.Among names name → (after.resetAll saved).get? name = after.get? name

namespace Undoes

theorem nil (vars : Store) : Undoes vars vars [] [] where
  accepted p hp := by simp at hp
  whole := rfl
  named after name h := by simp [Store.Among] at h
  others after name _ := rfl

/-- A binding before others is undone after them, so that a name that is bound twice gets back what it had
at first. -/
theorem cons {vars bound : Store} {names : List String} {saved : List (String × Option Value)}
    {full : String} {v : Value} (hfull : Store.refusal? full = none)
    (h : Undoes (vars.put full v) bound names saved) :
    Undoes vars bound (full :: names) (saved ++ [(full, vars.get? full)]) where
  accepted p hp := by
    rcases List.mem_append.mp hp with hp | hp
    · exact h.accepted p hp
    · rw [List.mem_singleton.mp hp]
      exact hfull
  whole := by
    rw [Store.resetAll_append_singleton, h.whole]
    exact Store.reset_put vars full v
  named after name hname := by
    rw [Store.resetAll_append_singleton, Store.get?_reset]
    by_cases hkey : Store.key name = Store.key full
    · rw [if_pos hkey]
      exact (vars.get?_congr hkey).symm
    · rw [if_neg hkey, h.named after ((Store.among_cons.mp hname).resolve_left hkey), Store.get?_put,
        if_neg hkey]
  others after name hname := by
    rw [Store.among_cons, not_or] at hname
    rw [Store.resetAll_append_singleton, Store.get?_reset, if_neg hname.1, h.others after hname.2]

end Undoes

/-- An overlay is bound as far as it is accepted, and what is saved on the way undoes that. -/
theorem bindOver_undoes (namePrefix : String) (overlay : List (String × Value)) (vars : Store)
    (saved : List (String × Option Value)) :
    ∃ own, bindOver namePrefix saved overlay vars =
        (vars.putAll (accepted namePrefix overlay), own ++ saved, refused? namePrefix overlay) ∧
      Undoes vars (vars.putAll (accepted namePrefix overlay))
        ((accepted namePrefix overlay).map Prod.fst) own := by
  induction overlay generalizing vars saved with
  | nil => exact ⟨[], rfl, .nil vars⟩
  | cons item rest ih =>
      obtain ⟨name, v⟩ := item
      cases hname : Store.refusal? (namePrefix ++ name) with
      | some fault =>
          have hnone : accepted namePrefix ((name, v) :: rest) = [] := by
            simp [accepted, overlaid, hname]
          have hfault : refused? namePrefix ((name, v) :: rest) = some fault := by
            simp [refused?, overlaid, hname]
          rw [hnone, hfault]
          refine ⟨[], ?_, .nil vars⟩
          rw [bindOver, Store.set, hname]
          rfl
      | none =>
          have hfirst : accepted namePrefix ((name, v) :: rest) =
              (namePrefix ++ name, v) :: accepted namePrefix rest := by
            simp [accepted, overlaid, hname]
          have hfault : refused? namePrefix ((name, v) :: rest) = refused? namePrefix rest := by
            simp [refused?, overlaid, hname]
          obtain ⟨own, hbound, hundo⟩ := ih (vars.put (namePrefix ++ name) v)
            ((namePrefix ++ name, vars.get? (namePrefix ++ name)) :: saved)
          refine ⟨own ++ [(namePrefix ++ name, vars.get? (namePrefix ++ name))], ?_, ?_⟩
          · rw [bindOver, set_of_refusal vars v hname, hfirst, hfault, List.append_assoc]
            exact hbound
          · rw [hfirst]
            exact hundo.cons hname

theorem withVars_of_refused {namePrefix : String} {overlay : List (String × Value)}
    {fault : RuntimeFault} (body : Run Session α) (s : Session)
    (h : refused? namePrefix overlay = some fault) :
    withVars overlay namePrefix body s = some (.error (.runtime fault), s) := by
  obtain ⟨own, hbound, hundo⟩ := bindOver_undoes namePrefix overlay s.store []
  rw [withVars, hbound, h]
  dsimp only
  rw [putBack_eq _ _ (by simpa using hundo.accepted), List.append_nil, hundo.whole]

/-- An overlay is undone whatever the body does and however it ends. A name that is refused keeps the body
from running and changes nothing; otherwise the result is that of the body, the names that were bound read
as before, all other names read as the body left them, and a body that leaves the variables alone leaves
everything as it was. Putting back is never refused. -/
theorem withVars_undone (overlay : List (String × Value)) (namePrefix : String)
    (body : Run Session α) (s : Session) :
    (∀ fault, refused? namePrefix overlay = some fault →
      withVars overlay namePrefix body s = some (.error (.runtime fault), s)) ∧
    (refused? namePrefix overlay = none →
      let bound := { s with store := s.store.putAll (overlaid namePrefix overlay) }
      (body bound = none → withVars overlay namePrefix body s = none) ∧
      ∀ r t, body bound = some (r, t) → ∃ vars,
        withVars overlay namePrefix body s = some (r, { t with store := vars }) ∧
        (∀ name, Store.Among ((overlaid namePrefix overlay).map Prod.fst) name →
          vars.get? name = s.store.get? name) ∧
        (∀ name, ¬ Store.Among ((overlaid namePrefix overlay).map Prod.fst) name →
          vars.get? name = t.store.get? name) ∧
        (t.store = bound.store → vars = s.store)) ∧
    ∀ vars, (restore (bindOver namePrefix [] overlay s.store).2.1 vars).2 = none := by
  obtain ⟨own, hbound, hundo⟩ := bindOver_undoes namePrefix overlay s.store []
  rw [List.append_nil] at hbound
  refine ⟨fun fault h => withVars_of_refused body s h, fun h => ?_, fun vars => ?_⟩
  · rw [accepted_of_refused_none h] at hbound hundo
    rw [h] at hbound
    refine ⟨fun hbody => ?_, fun r t hbody => ⟨t.store.resetAll own, ?_, ?_, ?_, ?_⟩⟩
    · rw [withVars, hbound]
      dsimp only
      rw [hbody]
      rfl
    · rw [withVars, hbound]
      dsimp only
      rw [hbody, Option.map_some, putBack_eq r t hundo.accepted]
    · intro name hname
      exact hundo.named t.store hname
    · intro name hname
      exact hundo.others t.store hname
    · intro hsame
      rw [hsame]
      exact hundo.whole
  · rw [hbound, restore_eq vars hundo.accepted]

/-- A session with a loop variable. -/
def looping : Session :=
  { Session.start {} {} with store := Store.empty.put "item" (.ofInt 0) }

/-- Two bindings of one name in different case are undone after a body that removes the variable. -/
theorem looping_withVars_undone :
    ∃ s', withVars [("Item", .ofInt 1), ("ITEM", .ofInt 2)] ""
        (modify fun s => { s with store := s.store.erase "item" }) looping = some (.ok (), s') ∧
      s'.store.get? "ITEM" = looping.store.get? "ITEM" := by
  obtain ⟨vars, hrun, hnamed, _⟩ := ((withVars_undone [("Item", .ofInt 1), ("ITEM", .ofInt 2)] ""
    (modify fun s => { s with store := s.store.erase "item" }) looping).2.1 rfl).2 _ _ rfl
  exact ⟨_, hrun, hnamed "ITEM" (List.mem_map.mpr ⟨"ITEM", by decide, rfl⟩)⟩

end Session

end ActionTree
