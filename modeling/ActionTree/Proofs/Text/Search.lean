import ActionTree.Text.Search

/-!
# Finding and replacing a needle

A search gives the first or the last of the positions where a needle is. What a replacement makes of a text,
as rules: a needle at the front becomes the replacement, and any other character in front stays. The
replacement through the pieces between the needles follows these rules.
-/

namespace ActionTree.Text

variable {needle replacement text out rest : List Char} {c : Char} {k : Nat}

/-! ## Where a needle is -/

/-- The needle is in the text at the position. -/
def OccursAt (needle text : List Char) (k : Nat) : Prop := k ≤ text.length ∧ needle <+: text.drop k

theorem occursAt_nil : OccursAt needle [] k ↔ k = 0 ∧ needle = [] := by
  simp [OccursAt]

theorem occursAt_zero : OccursAt needle text 0 ↔ needle <+: text := by
  simp [OccursAt]

theorem occursAt_succ : OccursAt needle (c :: rest) (k + 1) ↔ OccursAt needle rest k := by
  simp [OccursAt]

/-- The best position of the needle, if it has one. -/
def IsBest (better : Nat → Nat → Prop) (needle text : List Char) : Option Nat → Prop
  | some k => OccursAt needle text k ∧ ∀ j, OccursAt needle text j → better k j
  | none => ∀ j, ¬ OccursAt needle text j

theorem isBest_indexOf? (needle text : List Char) :
    IsBest (· ≤ ·) needle text (indexOf? needle text) := by
  induction text with
  | nil =>
      rw [indexOf?]
      split
      next hempty =>
        exact ⟨occursAt_nil.mpr ⟨rfl, List.isEmpty_iff.mp hempty⟩, fun j _ => Nat.zero_le j⟩
      next hne => exact fun j hj => hne (List.isEmpty_iff.mpr (occursAt_nil.mp hj).2)
  | cons c rest ih =>
      rw [indexOf?]
      split
      next hfront =>
        exact ⟨occursAt_zero.mpr (List.isPrefixOf_iff_prefix.mp hfront), fun j _ => Nat.zero_le j⟩
      next hfront =>
        have hzero : ¬ OccursAt needle (c :: rest) 0 := fun h =>
          hfront (List.isPrefixOf_iff_prefix.mpr (occursAt_zero.mp h))
        cases hindex : indexOf? needle rest with
        | none =>
            rw [hindex] at ih
            rintro (_ | j) hj
            · exact hzero hj
            · exact ih j (occursAt_succ.mp hj)
        | some k =>
            rw [hindex] at ih
            refine ⟨occursAt_succ.mpr ih.1, ?_⟩
            rintro (_ | j) hj
            · exact absurd hj hzero
            · exact Nat.succ_le_succ (ih.2 j (occursAt_succ.mp hj))

theorem isBest_lastIndexOf? (needle text : List Char) :
    IsBest (· ≥ ·) needle text (lastIndexOf? needle text) := by
  induction text with
  | nil =>
      rw [lastIndexOf?]
      split
      next hempty =>
        exact ⟨occursAt_nil.mpr ⟨rfl, List.isEmpty_iff.mp hempty⟩, fun j hj => Nat.le_of_eq (occursAt_nil.mp hj).1⟩
      next hne => exact fun j hj => hne (List.isEmpty_iff.mpr (occursAt_nil.mp hj).2)
  | cons c rest ih =>
      rw [lastIndexOf?]
      cases hlast : lastIndexOf? needle rest with
      | some k =>
          rw [hlast] at ih
          refine ⟨occursAt_succ.mpr ih.1, ?_⟩
          rintro (_ | j) hj
          · exact Nat.zero_le _
          · exact Nat.succ_le_succ (ih.2 j (occursAt_succ.mp hj))
      | none =>
          rw [hlast] at ih
          dsimp only
          split
          next hfront =>
            refine ⟨occursAt_zero.mpr (List.isPrefixOf_iff_prefix.mp hfront), ?_⟩
            rintro (_ | j) hj
            · exact Nat.le_refl _
            · exact absurd (occursAt_succ.mp hj) (ih j)
          next hfront =>
            rintro (_ | j) hj
            · exact hfront (List.isPrefixOf_iff_prefix.mpr (occursAt_zero.mp hj))
            · exact ih j (occursAt_succ.mp hj)

theorem IsBest.isSome_iff {better : Nat → Nat → Prop} {position : Option Nat}
    (h : IsBest better needle text position) : position.isSome = true ↔ ∃ k, OccursAt needle text k := by
  cases position with
  | none => exact iff_of_false Bool.false_ne_true fun ⟨k, hk⟩ => h k hk
  | some k => exact iff_of_true rfl ⟨k, h.1⟩

/-- Every search finds the needle if the text contains it. -/
theorem IsBest.eq_none_iff {better : Nat → Nat → Prop} {position : Option Nat}
    (h : IsBest better needle text position) : position = none ↔ contains needle text = false := by
  rw [← Bool.not_eq_true, contains, (isBest_indexOf? needle text).isSome_iff, ← h.isSome_iff,
    Option.not_isSome_iff_eq_none]

/-- A needle is where the part of its length is the needle. -/
theorem occursAt_iff_take : OccursAt needle text k ↔
    k + needle.length ≤ text.length ∧ (text.drop k).take needle.length = needle := by
  constructor
  · rintro ⟨hk, hfront⟩
    have hlength := hfront.length_le
    rw [List.length_drop] at hlength
    exact ⟨by omega, (List.prefix_iff_eq_take.mp hfront).symm⟩
  · rintro ⟨hlength, htake⟩
    exact ⟨by omega, List.prefix_iff_eq_take.mpr htake.symm⟩

/-! ## The pieces -/

theorem splitFrom_skip (skip : Nat) (piece text : List Char) :
    splitFrom needle skip piece text = splitFrom needle 0 piece (text.drop skip) := by
  induction text generalizing skip with
  | nil => simp [splitFrom]
  | cons c rest ih =>
      cases skip with
      | zero => rfl
      | succ skip => simpa [splitFrom] using ih skip

theorem splitFrom_ne_nil (skip : Nat) (piece text : List Char) : splitFrom needle skip piece text ≠ [] := by
  induction text generalizing skip piece with
  | nil => simp [splitFrom]
  | cons c rest ih =>
      rw [splitFrom.eq_def]
      cases skip with
      | zero => dsimp only; split <;> simp [ih]
      | succ skip => exact ih skip piece

/-- What the current piece holds is put before the first piece. -/
theorem splitFrom_piece (piece text : List Char) :
    splitFrom needle 0 piece text = (splitFrom needle 0 [] text).modifyHead (piece.reverse ++ ·) := by
  induction text generalizing piece with
  | nil => simp [splitFrom]
  | cons c rest ih =>
      by_cases hfront : needle.isPrefixOf (c :: rest) = true
      · simp [splitFrom, hfront]
      · rw [splitFrom, splitFrom, if_neg hfront, if_neg hfront, ih (c :: piece), ih [c]]
        simp [Function.comp_def]

theorem intercalate_modifyHead {pieces : List (List Char)} (h : pieces ≠ []) (front sep : List Char) :
    sep.intercalate (pieces.modifyHead (front ++ ·)) = front ++ sep.intercalate pieces := by
  obtain ⟨piece, more, rfl⟩ := List.exists_cons_of_ne_nil h
  cases more <;> simp

/-! ## The rules -/

@[simp] theorem replace_nil : replace needle replacement [] = [] := by
  simp [replace, splitOn, splitFrom]

theorem replace_append (hne : needle ≠ []) :
    replace needle replacement (needle ++ rest) = replacement ++ replace needle replacement rest := by
  obtain ⟨c, needle, rfl⟩ := List.exists_cons_of_ne_nil hne
  have hfront : (c :: needle).isPrefixOf (c :: (needle ++ rest)) = true :=
    List.isPrefixOf_iff_prefix.mpr (List.prefix_append (c :: needle) rest)
  rw [replace, splitOn, List.cons_append, splitFrom, if_pos hfront, splitFrom_skip,
    List.intercalate_cons_of_ne_nil (splitFrom_ne_nil 0 [] _)]
  simp [replace, splitOn]

theorem replace_cons (hfront : ¬ needle <+: c :: rest) :
    replace needle replacement (c :: rest) = c :: replace needle replacement rest := by
  rw [← List.isPrefixOf_iff_prefix] at hfront
  rw [replace, splitOn, splitFrom, if_neg hfront, splitFrom_piece,
    intercalate_modifyHead (splitFrom_ne_nil 0 [] rest)]
  rfl

/-- The text becomes `out` if every needle, leftmost first, becomes the replacement. -/
inductive Replaced (needle replacement : List Char) : List Char → List Char → Prop
  | nil : Replaced needle replacement [] []
  | hit {rest out : List Char} (hrest : Replaced needle replacement rest out) :
    Replaced needle replacement (needle ++ rest) (replacement ++ out)
  | keep {c : Char} {rest out : List Char} (hfront : ¬ needle <+: c :: rest)
    (hrest : Replaced needle replacement rest out) : Replaced needle replacement (c :: rest) (c :: out)

theorem Replaced.eq_replace (hne : needle ≠ []) (h : Replaced needle replacement text out) :
    out = replace needle replacement text := by
  induction h with
  | nil => simp
  | hit _ ih => rw [replace_append hne, ih]
  | keep hfront _ ih => rw [replace_cons hfront, ih]

theorem replaced_replace (hne : needle ≠ []) (replacement text : List Char) :
    Replaced needle replacement text (replace needle replacement text) := by
  induction hlength : text.length using Nat.strongRecOn generalizing text with
  | ind n ih =>
      by_cases hfront : needle <+: text
      · obtain ⟨rest, rfl⟩ := hfront
        have hneedle := List.length_pos_iff.mpr hne
        rw [List.length_append] at hlength
        rw [replace_append hne]
        exact .hit (ih rest.length (by omega) rest rfl)
      · cases text with
        | nil =>
            rw [replace_nil]
            exact .nil
        | cons c rest =>
            rw [List.length_cons] at hlength
            rw [replace_cons hfront]
            exact .keep hfront (ih rest.length (by omega) rest rfl)

theorem replaced_iff (hne : needle ≠ []) :
    Replaced needle replacement text out ↔ out = replace needle replacement text := by
  refine ⟨Replaced.eq_replace hne, ?_⟩
  rintro rfl
  exact replaced_replace hne replacement text

/-! ## What stays -/

theorem Replaced.mem (h : Replaced needle replacement text out) (hc : c ∈ out) :
    c ∈ text ∨ c ∈ replacement := by
  induction h with
  | nil => cases hc
  | hit _ ih =>
      rcases List.mem_append.mp hc with hc | hc
      · exact .inr hc
      · exact (ih hc).imp_left (List.mem_append_right _)
  | keep _ _ ih =>
      rcases List.mem_cons.mp hc with rfl | hc
      · exact .inl List.mem_cons_self
      · exact (ih hc).imp_left (List.mem_cons_of_mem _)

theorem mem_of_mem_replace (hne : needle ≠ []) (hc : c ∈ replace needle replacement text) :
    c ∈ text ∨ c ∈ replacement :=
  (replaced_replace hne replacement text).mem hc

theorem replace_of_not_mem {d : Char} (hd : d ∈ needle) (h : d ∉ text) (replacement : List Char) :
    replace needle replacement text = text := by
  induction text with
  | nil => simp
  | cons c rest ih =>
      have hfront : ¬ needle <+: c :: rest := fun hstarts => h (hstarts.subset hd)
      rw [replace_cons hfront, ih (List.not_mem_of_not_mem_cons h)]

/-- A needle of one character is replaced character by character. -/
theorem replace_singleton (d : Char) (replacement text : List Char) :
    replace [d] replacement text = text.flatMap fun c => if c = d then replacement else [c] := by
  induction text with
  | nil => simp
  | cons c rest ih =>
      by_cases hc : c = d
      · subst hc
        have hfront : replace [c] replacement (c :: rest) = replacement ++ replace [c] replacement rest :=
          replace_append (List.cons_ne_nil c [])
        rw [hfront, ih]
        simp
      · have hfront : ¬ [d] <+: c :: rest := by simpa using fun h => hc h.symm
        rw [replace_cons hfront, ih]
        simp [hc]

theorem replace_singleton_cons (d : Char) (replacement : List Char) (c : Char) (rest : List Char) :
    replace [d] replacement (c :: rest) =
      (if c = d then replacement else [c]) ++ replace [d] replacement rest := by
  rw [replace_singleton, replace_singleton, List.flatMap_cons]

theorem replace_intercalate (d : Char) (replacement sep : List Char) (pieces : List (List Char)) :
    replace [d] replacement (sep.intercalate pieces) =
      (replace [d] replacement sep).intercalate (pieces.map (replace [d] replacement)) := by
  induction pieces with
  | nil => simp
  | cons piece more ih =>
      by_cases hlast : more = []
      · simp [hlast]
      · have hmap : more.map (replace [d] replacement) ≠ [] := by simpa using hlast
        rw [List.intercalate_cons_of_ne_nil hlast, List.map_cons, List.intercalate_cons_of_ne_nil hmap, ← ih]
        simp [replace_singleton]

section Edges

variable {p : Char → Bool}

/-- A text of characters of one class is replaced by another: the text starts and ends as before, as far as
the class can tell. -/
structure Kindred (p : Char → Bool) (needle replacement : List Char) : Prop where
  needle_ne_nil : needle ≠ []
  replacement_ne_nil : replacement ≠ []
  needle : ∀ c ∈ needle, p c = true
  replacement : ∀ c ∈ replacement, p c = true

theorem map_getLast?_of_forall {cs : List Char} (hne : cs ≠ []) (h : ∀ c ∈ cs, p c = true) :
    cs.getLast?.map p = some true := by
  rw [List.getLast?_eq_some_getLast hne, Option.map_some, h _ (List.getLast_mem hne)]

theorem Kindred.map_head? (h : Kindred p needle replacement) (text : List Char) :
    (replace needle replacement text).head?.map p = text.head?.map p := by
  have hrun := replaced_replace h.needle_ne_nil replacement text
  generalize replace needle replacement text = out at hrun ⊢
  cases hrun with
  | nil => rfl
  | hit _ =>
      obtain ⟨c, cs, rfl⟩ := List.exists_cons_of_ne_nil h.needle_ne_nil
      obtain ⟨d, ds, rfl⟩ := List.exists_cons_of_ne_nil h.replacement_ne_nil
      simp [h.needle c List.mem_cons_self, h.replacement d List.mem_cons_self]
  | keep _ _ => rfl

theorem Kindred.map_getLast? (h : Kindred p needle replacement) (text : List Char) :
    (replace needle replacement text).getLast?.map p = text.getLast?.map p := by
  have hrun := replaced_replace h.needle_ne_nil replacement text
  generalize replace needle replacement text = out at hrun ⊢
  induction hrun with
  | nil => rfl
  | hit _ ih =>
      simp only [List.getLast?_append, Option.map_or, ih, map_getLast?_of_forall h.needle_ne_nil h.needle,
        map_getLast?_of_forall h.replacement_ne_nil h.replacement]
  | keep _ _ ih =>
      rw [List.getLast?_cons, List.getLast?_cons, Option.map_some, Option.map_some, ← Option.getD_map p, ih,
        Option.getD_map]

end Edges

end ActionTree.Text
