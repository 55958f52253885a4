import ActionTree.Pattern
import ActionTree.Proofs.Pattern.Search

/-!
# Substring patterns

The three ways to search find the same parts of a text: those that are as long as the needle and spell it,
in small letters if case does not matter. A needle in small letters is longer than its source if the source
has a dotted capital I, which becomes two characters; so a part that holds this letter is found by no
search, although it is the same text up to case. All other parts are found, and a replacement puts its text
in the place of the leftmost of them.
-/

namespace ActionTree

open Text

namespace Substring

/-! ## Occurrences of a needle -/

namespace Needle

variable {n : Needle} {text before after w : List Char}

/-- The text is as long as the needle and is the needle, in small letters if case does not matter. -/
def Occurs (n : Needle) (w : List Char) : Prop :=
  w.length = n.chars.length ∧ (if n.ignoreCase then lowerAfter [] w else w) = n.chars

/-- All three ways to compare find the same. -/
theorem fits_window_iff (h : w <:+: text) : Fits (n.window text) n.chars w ↔ n.Occurs w := by
  obtain ⟨chars, ignoreCase⟩ := n
  have hsame : ∀ w' : List Char, (chars == w') = true ↔ w' = chars := fun w' => by rw [beq_iff_eq, eq_comm]
  cases ignoreCase with
  | false => exact and_congr_right fun _ => hsame w
  | true =>
      by_cases hascii : isAscii text = true ∧ isAscii chars = true
      · simp [Fits, Occurs, window, hascii, asciiFolded, lowerAfter_of_isAscii hascii.1 h, hsame]
      · have hother : (isAscii text && isAscii chars) = false := by simpa using hascii
        simp [Fits, Occurs, window, hother, folded, hsame]

theorem leftmost_of_find? (h : n.find? text = some (before, after)) :
    ∃ found, Leftmost n.Occurs text before found after := by
  rw [find?_eq] at h
  obtain ⟨found, hfirst⟩ := leftmost_of_findBy h
  exact ⟨found, hfirst.congr fun w hw => fits_window_iff hw⟩

theorem not_occurs_of_find? (h : n.find? text = none) (hw : w <:+: text) : ¬ n.Occurs w := by
  rw [find?_eq] at h
  exact fun hoccurs => not_fits_of_findBy h hw ((fits_window_iff hw).mpr hoccurs)

theorem find?_isSome_iff : (n.find? text).isSome = true ↔ ∃ w, w <:+: text ∧ n.Occurs w := by
  constructor
  · intro h
    obtain ⟨⟨before, after⟩, hfound⟩ := Option.isSome_iff_exists.mp h
    obtain ⟨found, hfirst⟩ := leftmost_of_find? hfound
    exact ⟨found, hfirst.infix, hfirst.holds⟩
  · rintro ⟨w, hw, hoccurs⟩
    rw [← Option.ne_none_iff_isSome]
    exact fun hnone => not_occurs_of_find? hnone hw hoccurs

theorem Occurs.ne_nil (hn : n.chars ≠ []) (h : n.Occurs w) : w ≠ [] := by
  rintro rfl
  exact hn (List.length_eq_zero_iff.mp h.1.symm)

/-- With a count that is large enough, no occurrence is left when the replacement ends: each round takes
something off the text. -/
theorem cut_replaceFirst (hn : n.chars ≠ []) {count : Nat} (hcount : text.length ≤ count) :
    ∃ pieces rest, Cut n.Occurs text pieces rest ∧
      ∀ replacement, n.replaceFirst replacement count text = refill replacement pieces rest := by
  induction count generalizing text with
  | zero =>
      obtain rfl := List.length_eq_zero_iff.mp (Nat.le_zero.mp hcount)
      refine ⟨[], [], .done ?_, fun _ => rfl⟩
      intro w hw hoccurs
      exact hoccurs.ne_nil hn (List.infix_nil.mp hw)
  | succ count ih =>
      cases hfind : n.find? text with
      | none =>
          refine ⟨[], text, .done fun w hw => not_occurs_of_find? hfind hw, ?_⟩
          intro replacement
          simp [replaceFirst, hfind, refill]
      | some split =>
          obtain ⟨before, after⟩ := split
          obtain ⟨found, hfirst⟩ := leftmost_of_find? hfind
          have hfound := List.length_pos_iff.mpr (hfirst.holds.ne_nil hn)
          have hafter : after.length ≤ count := by
            rw [hfirst.text_eq, List.length_append, List.length_append] at hcount
            omega
          obtain ⟨pieces, rest, hrest, hreplaced⟩ := ih hafter
          refine ⟨_, rest, .found hfirst hrest, ?_⟩
          intro replacement
          simp [replaceFirst, hfind, refill, hreplaced replacement]

end Needle

end Substring

namespace Pattern

/-! ## Occurrences of a source -/

variable {source : String} {ignoreCase : Bool} {w w' : List Char}

/-- The text is the source of the pattern, up to case if it does not matter: the exact pattern of the
source matches it. -/
def Occurrence (source : String) (ignoreCase : Bool) (w : List Char) : Prop :=
  (Pattern.exact source ignoreCase).isMatch (String.ofList w) = true

instance : Decidable (Occurrence source ignoreCase w) := inferInstanceAs (Decidable (_ = true))

theorem occurrence_false_iff : Occurrence source false w ↔ w = source.toList := by
  rw [Occurrence, isMatch, if_neg Bool.false_ne_true, beq_iff_eq, ← String.toList_inj, String.toList_ofList]

theorem occurrence_true_iff : Occurrence source true w ↔ lowerAfter [] w = lowerAfter [] source.toList := by
  rw [Occurrence, isMatch, if_pos rfl, beq_iff_eq, ← String.toList_inj]
  simp [Text.lowercase]

theorem occurrence_self (source : String) (ignoreCase : Bool) :
    Occurrence source ignoreCase source.toList := by
  cases ignoreCase with
  | false => exact occurrence_false_iff.mpr rfl
  | true => exact occurrence_true_iff.mpr rfl

theorem Occurrence.ne_nil (hsource : source ≠ "") (h : Occurrence source ignoreCase w) : w ≠ [] := by
  have hchars := String.toList_eq_nil_iff.not.mpr hsource
  rintro rfl
  cases ignoreCase with
  | false => exact hchars (occurrence_false_iff.mp h).symm
  | true => exact hchars (lowerAfter_eq_nil_iff.mp (occurrence_true_iff.mp h).symm)

/-- No occurrence of a source starts another one. -/
theorem prefixFree_occurrence (source : String) (ignoreCase : Bool) :
    PrefixFree (Occurrence source ignoreCase) := by
  intro w w' hstarts h h'
  cases ignoreCase with
  | false => rw [occurrence_false_iff.mp h, occurrence_false_iff.mp h']
  | true =>
      obtain ⟨t, rfl⟩ := hstarts
      have hlength := congrArg List.length ((occurrence_true_iff.mp h).trans (occurrence_true_iff.mp h').symm)
      simp only [length_lowerAfter, List.length_append, List.count_append] at hlength
      have ht : t = [] := List.length_eq_zero_iff.mp (by omega)
      rw [ht, List.append_nil]

theorem chars_ofText_true (source : String) :
    (Substring.Needle.ofText true source).chars = lowerAfter [] source.toList := by
  simp [Substring.Needle.ofText, Text.lowercase]

/-- The search finds the occurrences that have one character for each of their small letters. -/
theorem occurs_ofText_iff : (Substring.Needle.ofText ignoreCase source).Occurs w ↔
    Occurrence source ignoreCase w ∧ (ignoreCase = true → dottedCapitalI ∉ w) := by
  cases ignoreCase with
  | false =>
      have hlength : w = source.toList → w.length = source.toList.length := congrArg List.length
      simpa [occurrence_false_iff, Substring.Needle.Occurs, Substring.Needle.ofText] using hlength
  | true =>
      have hlength := length_lowerAfter [] w
      rw [Substring.Needle.Occurs, chars_ofText_true, occurrence_true_iff, ← List.count_eq_zero]
      constructor
      · rintro ⟨hsame, hsmall⟩
        have hsmall : lowerAfter [] w = lowerAfter [] source.toList := hsmall
        rw [← hsmall] at hsame
        exact ⟨hsmall, fun _ => by omega⟩
      · rintro ⟨hsmall, hdotted⟩
        have hcount := hdotted rfl
        rw [← hsmall]
        exact ⟨by omega, rfl⟩

theorem chars_ofText_ne_nil (h : source ≠ "") : (Substring.Needle.ofText ignoreCase source).chars ≠ [] := by
  have hchars := String.toList_eq_nil_iff.not.mpr h
  cases ignoreCase with
  | false => exact hchars
  | true =>
      rw [chars_ofText_true]
      exact mt lowerAfter_eq_nil_iff.mp hchars

/-! ## Matching and replacing -/

theorem compile_substring (source : String) (ignoreCase : Bool) :
    compile .substring source ignoreCase = .ok (substring (.ofText ignoreCase source)) := rfl

theorem isMatch_substring_iff (text : String) :
    (substring (.ofText ignoreCase source)).isMatch text = true ↔
      ∃ w, w <:+: text.toList ∧ Occurrence source ignoreCase w ∧
        (ignoreCase = true → dottedCapitalI ∉ w) := by
  rw [isMatch, Substring.Needle.find?_isSome_iff]
  exact exists_congr fun w => and_congr_right fun _ => occurs_ofText_iff

/-- A slice of a text is found in it if case matters. If case does not matter, it is found exactly if some
slice without a dotted capital I, such as a slice without this letter itself, is the same up to case; and a
text is found in itself exactly if it does not have this letter. -/
theorem slice_matched_iff (before slice after : String) :
    (∃ p, compile .substring slice false = .ok p ∧ p.isMatch (before ++ slice ++ after) = true) ∧
      ∃ p, compile .substring slice true = .ok p ∧
        (p.isMatch (before ++ slice ++ after) = true ↔
          ∃ w, w <:+: (before ++ slice ++ after).toList ∧ Occurrence slice true w ∧ dottedCapitalI ∉ w) ∧
        (p.isMatch slice = true ↔ dottedCapitalI ∉ slice.toList) := by
  have hslice : slice.toList <:+: (before ++ slice ++ after).toList :=
    ⟨before.toList, after.toList, by simp⟩
  refine ⟨⟨_, compile_substring slice false, ?_⟩, _, compile_substring slice true, ?_, ?_⟩
  · exact (isMatch_substring_iff _).mpr ⟨_, hslice, occurrence_self slice false, nofun⟩
  · rw [isMatch_substring_iff]
    simp
  · rw [isMatch_substring_iff]
    constructor
    · rintro ⟨w, hw, hoccurs, hdotted⟩
      have hlength := congrArg List.length (occurrence_true_iff.mp hoccurs)
      have hle := hw.length_le
      rw [length_lowerAfter, length_lowerAfter, List.count_eq_zero.mpr (hdotted rfl)] at hlength
      exact List.count_eq_zero.mp (by omega)
    · exact fun hdotted => ⟨_, List.infix_refl _, occurrence_self slice true, fun _ => hdotted⟩

example : (substring (.ofText true "İ")).isMatch "İ" = false := by decide +kernel

/-- A replacement puts its text in the place of the leftmost occurrences, case apart or not, that have no
dotted capital I where case does not matter, and of nothing else; a text matches exactly if there is one.
These are the leftmost ones among all occurrences exactly if no leftmost one has this letter. -/
theorem replaceAll_leftmost_iff (source : String) (ignoreCase : Bool) (hsource : source ≠ "") (text : String) :
    ∃ p pieces rest, compile .substring source ignoreCase = .ok p ∧
      Cut (fun w => Occurrence source ignoreCase w ∧ (ignoreCase = true → dottedCapitalI ∉ w))
        text.toList pieces rest ∧
      text.toList = pieces.flatMap (fun piece => piece.1 ++ piece.2) ++ rest ∧
      (∀ replacement : String,
        p.replaceAll text replacement = String.ofList (refill replacement.toList pieces rest)) ∧
      (p.isMatch text = true ↔ pieces ≠ []) ∧
      (Cut (Occurrence source ignoreCase) text.toList pieces rest ↔
        ∀ leftmost last, Cut (Occurrence source ignoreCase) text.toList leftmost last →
          ∀ piece ∈ leftmost, ignoreCase = true → dottedCapitalI ∉ piece.2) := by
  have hchars : (Substring.Needle.ofText ignoreCase source).chars ≠ [] := chars_ofText_ne_nil hsource
  obtain ⟨pieces, rest, hcut, hreplaced⟩ :=
    Substring.Needle.cut_replaceFirst hchars (le_refl text.toList.length)
  have hfound : Cut (fun w => Occurrence source ignoreCase w ∧ (ignoreCase = true → dottedCapitalI ∉ w))
      text.toList pieces rest := hcut.congr fun w _ => occurs_ofText_iff
  refine ⟨_, pieces, rest, compile_substring source ignoreCase, hfound, hfound.text_eq, ?_, ?_, ?_⟩
  · intro replacement
    rw [replaceAll, Substring.Needle.replaceAll, if_neg (by simpa using hchars), hreplaced]
  · rw [isMatch_substring_iff, hfound.ne_nil_iff]
  · exact hfound.iff_of_and (fun w hw => hw.ne_nil hsource) (prefixFree_occurrence source ignoreCase)

/-- Of two occurrences in a row, a dotted capital I and its small form, the second is replaced only. -/
theorem dottedCapital_skipped :
    "İ" ≠ "" ∧ ∃ p pieces rest, compile .substring "İ" true = .ok p ∧
      p.replaceAll "İi\u0307" "-" = String.ofList (refill "-".toList pieces rest) ∧
      p.replaceAll "İi\u0307" "-" = "İ-" ∧
      ¬ Cut (Occurrence "İ" true) "İi\u0307".toList pieces rest := by
  have hne : "İ" ≠ "" := by decide
  have hleftmost : Cut (Occurrence "İ" true) "İi\u0307".toList [([], ['İ']), ([], ['i', '\u0307'])] [] := by
    refine .found ⟨rfl, by decide +kernel, by simp⟩ (.found ⟨rfl, by decide +kernel, by simp⟩ (.done ?_))
    intro w hw hoccurs
    exact hoccurs.ne_nil hne (List.infix_nil.mp hw)
  obtain ⟨p, pieces, rest, hp, -, -, hreplaced, -, hiff⟩ := replaceAll_leftmost_iff "İ" true hne "İi\u0307"
  refine ⟨hne, p, pieces, rest, hp, hreplaced "-", ?_, ?_⟩
  · cases hp
    decide +kernel
  · intro hcut
    exact hiff.mp hcut _ _ hleftmost ([], ['İ']) List.mem_cons_self rfl List.mem_cons_self

end Pattern

end ActionTree
