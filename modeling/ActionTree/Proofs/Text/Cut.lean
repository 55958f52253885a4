import Mathlib.Data.Nat.Find

/-!
# Cutting a text at its leftmost parts

A text is cut at the parts that have a property: at a leftmost one first, and then what is left after it is
cut in the same way. If no part with the property starts another one, and none is empty, every text is cut
in one way only.
-/

namespace ActionTree.Text

/-- A part of the text that has the property, between what is before it and what is after it, where no
such part starts earlier. -/
structure Leftmost (P : List Char → Prop) (text before found after : List Char) : Prop where
  text_eq : text = before ++ found ++ after
  holds : P found
  first : ∀ u w v, text = u ++ w ++ v → P w → before.length ≤ u.length

/-- No part with the property starts another one. -/
def PrefixFree (P : List Char → Prop) : Prop := ∀ ⦃w w'⦄, w <+: w' → P w → P w' → w = w'

/-- The text cut at the parts with the property, leftmost first: pairs of what is before a part and the
part, and what is left at the end, where no such part is. -/
inductive Cut (P : List Char → Prop) : List Char → List (List Char × List Char) → List Char → Prop
  | done {text} (h : ∀ w, w <:+: text → ¬ P w) : Cut P text [] text
  | found {text before found after pieces rest} (hfirst : Leftmost P text before found after)
      (hrest : Cut P after pieces rest) : Cut P text ((before, found) :: pieces) rest

/-- The text with the replacement in place of every part that it was cut at. -/
def refill (replacement : List Char) (pieces : List (List Char × List Char)) (rest : List Char) :
    List Char :=
  pieces.flatMap (fun piece => piece.1 ++ replacement) ++ rest

variable {P Q : List Char → Prop} {text before found after rest : List Char}
  {pieces : List (List Char × List Char)}

theorem Leftmost.infix (h : Leftmost P text before found after) : found <:+: text :=
  ⟨before, after, h.text_eq.symm⟩

theorem Leftmost.congr (h : Leftmost P text before found after)
    (hiff : ∀ w, w <:+: text → (P w ↔ Q w)) : Leftmost Q text before found after where
  text_eq := h.text_eq
  holds := (hiff found h.infix).mp h.holds
  first u w v htext hw := h.first u w v htext ((hiff w ⟨u, v, htext.symm⟩).mpr hw)

theorem Cut.congr (h : Cut P text pieces rest) (hiff : ∀ w, w <:+: text → (P w ↔ Q w)) :
    Cut Q text pieces rest := by
  induction h with
  | done hnone => exact .done fun w hw hQ => hnone w hw ((hiff w hw).mpr hQ)
  | found hfirst _ ih =>
      refine .found (hfirst.congr hiff) (ih fun w hw => hiff w (hw.trans ?_))
      exact ⟨_, [], by rw [List.append_nil, ← hfirst.text_eq]⟩

/-- Putting back what was cut out gives the text. -/
theorem Cut.text_eq (h : Cut P text pieces rest) :
    text = pieces.flatMap (fun piece => piece.1 ++ piece.2) ++ rest := by
  induction h with
  | done => rfl
  | found hfirst _ ih => rw [hfirst.text_eq, ih, List.flatMap_cons]; simp

theorem Cut.ne_nil_iff (h : Cut P text pieces rest) : pieces ≠ [] ↔ ∃ w, w <:+: text ∧ P w := by
  cases h with
  | done hnone => simpa using hnone
  | found hfirst _ => simpa using ⟨_, hfirst.infix, hfirst.holds⟩

theorem Cut.holds (h : Cut P text pieces rest) {piece : List Char × List Char} (hpiece : piece ∈ pieces) :
    P piece.2 := by
  induction h with
  | done => cases hpiece
  | found hfirst _ ih =>
      rcases List.mem_cons.mp hpiece with rfl | hpiece
      · exact hfirst.holds
      · exact ih hpiece

/-- Where something with the property is in a text, there is a leftmost such part. -/
theorem exists_leftmost (h : ∃ w, w <:+: text ∧ P w) :
    ∃ before found after, Leftmost P text before found after := by
  classical
  have hex : ∃ n u w v, text = u ++ w ++ v ∧ P w ∧ u.length = n := by
    obtain ⟨w, ⟨u, v, htext⟩, hw⟩ := h
    exact ⟨u.length, u, w, v, htext.symm, hw, rfl⟩
  obtain ⟨before, found, after, htext, hfound, hlength⟩ := Nat.find_spec hex
  refine ⟨before, found, after, htext, hfound, ?_⟩
  intro u w v huwv hw
  rw [hlength]
  exact Nat.find_min' hex ⟨u, w, v, huwv, hw, rfl⟩

/-- If no part with the property starts another one, there is one leftmost part only. -/
theorem Leftmost.unique {before' found' after' : List Char} (h : Leftmost P text before found after)
    (h' : Leftmost P text before' found' after')
    (hfree : PrefixFree P) :
    before = before' ∧ found = found' ∧ after = after' := by
  have htext : before ++ (found ++ after) = before' ++ (found' ++ after') := by
    rw [← List.append_assoc, ← List.append_assoc, ← h.text_eq, ← h'.text_eq]
  have hlength : before.length = before'.length :=
    Nat.le_antisymm (h.first _ _ _ h'.text_eq h'.holds) (h'.first _ _ _ h.text_eq h.holds)
  obtain ⟨hbefore, hrest⟩ := List.append_inj htext hlength
  have hfound : found = found' := by
    rcases List.prefix_or_prefix_of_prefix (List.prefix_append found after)
      (hrest ▸ List.prefix_append found' after') with hle | hle
    · exact hfree hle h.holds h'.holds
    · exact (hfree hle h'.holds h.holds).symm
  subst hfound
  exact ⟨hbefore, rfl, List.append_cancel_left hrest⟩

theorem Cut.unique {pieces' : List (List Char × List Char)} {rest' : List Char}
    (h : Cut P text pieces rest) (h' : Cut P text pieces' rest')
    (hfree : PrefixFree P) : pieces = pieces' ∧ rest = rest' := by
  induction h generalizing pieces' with
  | done hnone =>
      cases h' with
      | done => exact ⟨rfl, rfl⟩
      | found hfirst _ => exact absurd hfirst.holds (hnone _ hfirst.infix)
  | found hfirst _ ih =>
      cases h' with
      | done hnone => exact absurd hfirst.holds (hnone _ hfirst.infix)
      | found hfirst' hrest' =>
          obtain ⟨rfl, rfl, rfl⟩ := hfirst.unique hfirst' hfree
          obtain ⟨rfl, rfl⟩ := ih hrest'
          exact ⟨rfl, rfl⟩

/-- Every text can be cut at parts that are not empty. -/
theorem exists_cut (hne : ∀ w, P w → w ≠ []) (text : List Char) : ∃ pieces rest, Cut P text pieces rest := by
  induction hlength : text.length using Nat.strong_induction_on generalizing text with
  | _ n ih =>
      by_cases hsome : ∃ w, w <:+: text ∧ P w
      · obtain ⟨before, found, after, hfirst⟩ := exists_leftmost hsome
        have hfound := List.length_pos_iff.mpr (hne found hfirst.holds)
        have hafter : after.length < n := by
          rw [← hlength, hfirst.text_eq]
          simp
          omega
        obtain ⟨pieces, rest, hrest⟩ := ih after.length hafter after rfl
        exact ⟨_, rest, .found hfirst hrest⟩
      · exact ⟨[], text, .done fun w hw hP => hsome ⟨w, hw, hP⟩⟩

/-- The parts that the text is cut at have a further property: then they are those that have both. -/
theorem Cut.and (h : Cut P text pieces rest) (hQ : ∀ piece ∈ pieces, Q piece.2) :
    Cut (fun w => P w ∧ Q w) text pieces rest := by
  induction h with
  | done hnone => exact .done fun w hw hboth => hnone w hw hboth.1
  | found hfirst _ ih =>
      obtain ⟨hpiece, hpieces⟩ := List.forall_mem_cons.mp hQ
      refine .found ⟨hfirst.text_eq, ⟨hfirst.holds, hpiece⟩, ?_⟩ (ih hpieces)
      intro u w v htext hboth
      exact hfirst.first u w v htext hboth.1

/-- Cutting at the parts that have a further property is cutting at all parts exactly if all the leftmost
parts have it. -/
theorem Cut.iff_of_and (h : Cut (fun w => P w ∧ Q w) text pieces rest) (hne : ∀ w, P w → w ≠ [])
    (hfree : PrefixFree P) :
    Cut P text pieces rest ↔
      ∀ pieces' rest', Cut P text pieces' rest' → ∀ piece ∈ pieces', Q piece.2 := by
  constructor
  · intro hall pieces' rest' h' piece hpiece
    obtain ⟨rfl, rfl⟩ := hall.unique h' hfree
    exact (h.holds hpiece).2
  · intro hall
    obtain ⟨pieces', rest', h'⟩ := exists_cut hne text
    have hboth := h'.and (hall pieces' rest' h')
    obtain ⟨rfl, rfl⟩ := h.unique hboth fun _ _ hstarts hw hw' => hfree hstarts hw.1 hw'.1
    exact h'

end ActionTree.Text
