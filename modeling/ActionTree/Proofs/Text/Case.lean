import ActionTree.Text.Case

/-!
# Small letters

Texts that differ in the case of the letters `A` to `Z` only have the same small letters: neither the
small form of a character nor the rule of the final sigma tells a capital of these from its small letter.
Small letters are as many as the characters of the text, the dotted capital I apart, which counts twice.
-/

namespace ActionTree.Text

theorem toLower_cases (c : Char) : c.toLower = c ∨ ∃ n < 26, c = Char.ofNat (65 + n) := by
  unfold Char.toLower
  split
  · rename_i h
    have hlow : 65 ≤ c.toNat := h.1
    have hhigh : c.toNat ≤ 90 := h.2
    refine .inr ⟨c.toNat - 65, by omega, ?_⟩
    rw [Nat.add_sub_cancel' hlow, Char.ofNat_toNat]
  · exact .inl rfl

/-- What is the same of the letters `A` to `Z` and of their small letters is the same of every character
and its small letter among these. -/
theorem apply_toLower {α : Type} {f : Char → α}
    (h : ∀ n < 26, f (Char.ofNat (65 + n)).toLower = f (Char.ofNat (65 + n))) (c : Char) :
    f c.toLower = f c := by
  rcases toLower_cases c with hc | ⟨n, hn, rfl⟩
  · rw [hc]
  · exact h n hn

theorem cased_toLower (c : Char) : inRanges casedRanges c.toLower = inRanges casedRanges c :=
  apply_toLower (by decide +kernel) c

theorem caseIgnorable_toLower (c : Char) :
    inRanges caseIgnorableRanges c.toLower = inRanges caseIgnorableRanges c :=
  apply_toLower (by decide +kernel) c

theorem lowerChars_toLower (c : Char) : lowerChars c.toLower = lowerChars c :=
  apply_toLower (by decide +kernel) c

theorem sigma_toLower (c : Char) : c.toLower.toNat = 931 ↔ c.toNat = 931 := by
  rcases toLower_cases c with hc | ⟨n, hn, rfl⟩
  · rw [hc]
  · revert n
    decide +kernel

theorem casedAhead_map_toLower (cs : List Char) : casedAhead (cs.map Char.toLower) = casedAhead cs := by
  have hignored : inRanges caseIgnorableRanges ∘ Char.toLower = inRanges caseIgnorableRanges :=
    funext caseIgnorable_toLower
  unfold casedAhead
  rw [List.dropWhile_map, hignored]
  cases cs.dropWhile (inRanges caseIgnorableRanges) with
  | nil => rfl
  | cons c rest => exact cased_toLower c

theorem lowerAfter_map_toLower (before cs : List Char) :
    lowerAfter (before.map Char.toLower) (cs.map Char.toLower) = lowerAfter before cs := by
  induction cs generalizing before with
  | nil => rfl
  | cons c rest ih =>
      have hrest := ih (c :: before)
      rw [List.map_cons] at hrest ⊢
      simp only [lowerAfter, sigma_toLower, casedAhead_map_toLower, lowerChars_toLower, hrest]

/-- Texts that are equal up to the case of the letters `A` to `Z` have the same small letters. -/
theorem lowercase_eq_of_sameAscii {a b : String} (h : sameAscii a b = true) : lowercase a = lowercase b := by
  have hchars : a.toList.map Char.toLower = b.toList.map Char.toLower := eq_of_beq h
  rw [lowercase, lowercase, ← lowerAfter_map_toLower [] a.toList, ← lowerAfter_map_toLower [] b.toList,
    hchars]

/-! ## Lengths -/

/-- The one character whose small form is two characters. -/
def dottedCapitalI : Char := 'İ'

theorem toNat_eq_dottedCapitalI_iff (c : Char) : c.toNat = 304 ↔ c = dottedCapitalI := by
  constructor
  · intro h
    rw [← Char.ofNat_toNat c, h]
    rfl
  · rintro rfl
    rfl

theorem length_lowerChars (c : Char) :
    (lowerChars c).length = 1 + if c = dottedCapitalI then 1 else 0 := by
  simp only [lowerChars, toNat_eq_dottedCapitalI_iff]
  split <;> rfl

/-- Small letters take as many characters as the text, and one more for every dotted capital I. -/
theorem length_lowerAfter (before cs : List Char) :
    (lowerAfter before cs).length = cs.length + cs.count dottedCapitalI := by
  induction cs generalizing before with
  | nil => rfl
  | cons c rest ih =>
      by_cases hsigma : c.toNat = 931
      · have hc : ¬ c = dottedCapitalI := by
          rintro rfl
          cases hsigma
        simp [lowerAfter, hsigma, ih, hc]
        omega
      · simp [lowerAfter, hsigma, ih, length_lowerChars, List.count_cons]
        omega

theorem lowerAfter_eq_nil_iff {before cs : List Char} : lowerAfter before cs = [] ↔ cs = [] := by
  rw [← List.length_eq_zero_iff, length_lowerAfter, ← List.length_eq_zero_iff]
  constructor
  · omega
  · intro h
    rw [List.length_eq_zero_iff.mp h]
    rfl

/-- In the ASCII range every character has its small form on its own. -/
theorem lowerAfter_eq_map_toLower {cs : List Char} (before : List Char) (h : ∀ c ∈ cs, c.toNat < 128) :
    lowerAfter before cs = cs.map Char.toLower := by
  induction cs generalizing before with
  | nil => rfl
  | cons c rest ih =>
      obtain ⟨hc, hrest⟩ := List.forall_mem_cons.mp h
      have hsigma : ¬ c.toNat = 931 := by omega
      have hdotted : ¬ c.toNat = 304 := by omega
      simp [lowerAfter, lowerChars, lowerChar, hsigma, hdotted, hc, ih _ hrest]

end ActionTree.Text
