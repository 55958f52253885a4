import ActionTree.Proofs.Text.Lines
import ActionTree.Proofs.Text.Trim
import ActionTree.Transform

/-!
# Clean-up of texts

The clean-up trims, removes control characters, and converts line ends and tabs, in this order. The
conversion of line ends keeps the lines, and the clean-up leaves its own result alone exactly if the removal
of control characters does not bring blanks to where the trims would have removed them.
-/

namespace ActionTree.TransformRules

open Text

variable {r : TransformRules} {cs out : List Char} {s : String} {c : Char}

/-! ## The steps -/

/-- The trims of the rules and nothing else. -/
def trims (r : TransformRules) : TransformRules :=
  { r with removeControl := false, newlineToLf := false, newlineToCrLf := false, tabToSpaces := false }

/-- The conversions of the rules and nothing else. -/
def conversions (r : TransformRules) : TransformRules :=
  { newlineToLf := r.newlineToLf, newlineToCrLf := r.newlineToCrLf, tabToSpaces := r.tabToSpaces }

/-- The rules with these conversions of line ends in place of their own. -/
def withNewlines (r : TransformRules) (lf crLf : Bool) : TransformRules :=
  { r with newlineToLf := lf, newlineToCrLf := crLf }

/-- The text without control characters, if the rules remove them. -/
def cleared (r : TransformRules) (s : String) : String := if r.removeControl then withoutControl s else s

theorem cleanUp_eq (r : TransformRules) (s : String) :
    r.cleanUp s = r.conversions.cleanUp (r.cleared (r.trims.cleanUp s)) := rfl

/-! ## Trims -/

/-- What the trims leave at the ends of a text. -/
def trimmedEnds (r : TransformRules) (cs : List Char) : List Char :=
  let cs := if r.trimStart && !r.trimBefore then cs.dropWhile isBlank else cs
  if r.trimEnd && !r.trimBefore then dropWhileEnd isBlank cs else cs

theorem toList_trims (r : TransformRules) (s : String) : (r.trims.cleanUp s).toList =
    if r.trimInternal then collapse (r.trimmedEnds s.toList) else r.trimmedEnds s.toList := by
  have hends : (if r.trimBefore then s else r.trim s).toList = r.trimmedEnds s.toList := by
    cases hbefore : r.trimBefore <;> cases hstart : r.trimStart <;> cases hend : r.trimEnd <;>
      simp [trimmedEnds, trim, hbefore, hstart, hend, Text.trim, Text.trimStart, Text.trimEnd, trimList]
  rw [← hends]
  cases hinternal : r.trimInternal <;>
    simp [cleanUp, trims, trim, hinternal, collapse, words, String.toList_intercalate, Function.comp_def]

/-- The form that the trims of the rules ask for. -/
structure Trimmed (r : TransformRules) (cs : List Char) : Prop where
  start : r.trimInternal = true ∨ r.trimStart = true ∧ r.trimBefore = false →
    ∀ c ∈ cs.head?, isBlank c = false
  stop : r.trimInternal = true ∨ r.trimEnd = true ∧ r.trimBefore = false →
    ∀ c ∈ cs.getLast?, isBlank c = false
  spaces : r.trimInternal = true → ∀ c ∈ cs, isBlank c = true → c = ' '
  apart : r.trimInternal = true → cs.IsChain fun a b => ¬ (isBlank a = true ∧ isBlank b = true)

theorem trimmed_iff_collapsed (h : r.trimInternal = true) : r.Trimmed cs ↔ Collapsed cs :=
  ⟨fun ht => ⟨ht.start (.inl h), ht.stop (.inl h), ht.spaces h, ht.apart h⟩,
    fun hc => ⟨fun _ => hc.start, fun _ => hc.stop, fun _ => hc.spaces, fun _ => hc.apart⟩⟩

theorem trimmed_iff_ends (h : r.trimInternal = false) : r.Trimmed cs ↔
    (r.trimStart = true ∧ r.trimBefore = false → ∀ c ∈ cs.head?, isBlank c = false) ∧
      (r.trimEnd = true ∧ r.trimBefore = false → ∀ c ∈ cs.getLast?, isBlank c = false) := by
  have hoff : ¬ r.trimInternal = true := by simp [h]
  constructor
  · intro ht
    exact ⟨fun hstart => ht.start (.inr hstart), fun hend => ht.stop (.inr hend)⟩
  · rintro ⟨hstart, hend⟩
    exact ⟨fun hor => hstart (hor.resolve_left hoff), fun hor => hend (hor.resolve_left hoff),
      fun hon => absurd hon hoff, fun hon => absurd hon hoff⟩

/-- The trims bring every text into their form. -/
theorem trimmed_trims (r : TransformRules) (s : String) : r.Trimmed (r.trims.cleanUp s).toList := by
  rw [toList_trims]
  cases hinternal : r.trimInternal with
  | true => exact (trimmed_iff_collapsed hinternal).mpr (collapsed_collapse _)
  | false =>
      rw [if_neg Bool.false_ne_true, trimmed_iff_ends hinternal, trimmedEnds]
      constructor
      · rintro ⟨hstart, hbefore⟩
        have hfront := head?_dropWhile_eq_false isBlank s.toList
        simp only [hstart, hbefore, Bool.not_false, Bool.and_self, if_true]
        split
        · exact head?_dropWhileEnd hfront
        · exact hfront
      · rintro ⟨hend, hbefore⟩
        simp only [hend, hbefore, Bool.not_false, Bool.and_self, if_true]
        exact getLast?_dropWhileEnd_eq_false isBlank _

/-- The trims leave a text in their form alone. -/
theorem trims_of_trimmed (h : r.Trimmed s.toList) : r.trims.cleanUp s = s := by
  have hends : r.trimmedEnds s.toList = s.toList := by
    have hfront (hcut : (r.trimStart && !r.trimBefore) = true) : s.toList.dropWhile isBlank = s.toList :=
      dropWhile_eq_self_iff.mpr (h.start (.inr (by simpa using hcut)))
    have hback (hcut : (r.trimEnd && !r.trimBefore) = true) : dropWhileEnd isBlank s.toList = s.toList :=
      dropWhileEnd_eq_self_iff.mpr (h.stop (.inr (by simpa using hcut)))
    simp +contextual only [trimmedEnds, hfront, hback, ite_self]
  rw [← String.toList_inj, toList_trims, hends]
  cases hinternal : r.trimInternal with
  | true => exact collapse_eq_self_iff.mpr ((trimmed_iff_collapsed hinternal).mp h)
  | false => rfl

theorem trimmedEnds_sublist (r : TransformRules) (cs : List Char) : (r.trimmedEnds cs).Sublist cs := by
  have hfront : (if r.trimStart && !r.trimBefore then cs.dropWhile isBlank else cs).Sublist cs := by
    split
    · exact (List.dropWhile_suffix isBlank).sublist
    · exact .refl cs
  rw [trimmedEnds]
  split
  · exact (dropWhileEnd_starts isBlank _).sublist.trans hfront
  · exact hfront

theorem mem_of_mem_trims (h : c ∈ (r.trims.cleanUp s).toList) : c = ' ' ∨ c ∈ s.toList := by
  have hends := (r.trimmedEnds_sublist s.toList).subset
  rw [toList_trims] at h
  split at h
  · exact (mem_of_mem_collapse h).imp_right fun hc => hends hc
  · exact .inr (hends h)

/-! ## Line ends and tabs -/

/-- The line end that the rules ask for. -/
def lineEnd? (r : TransformRules) : Option (List Char) :=
  if r.newlineToCrLf then some ['\r', '\n'] else if r.newlineToLf then some ['\n'] else none

/-- The lines of the text, joined by the line end that the rules ask for. -/
def rejoined (r : TransformRules) (cs : List Char) : List Char :=
  match r.lineEnd? with
  | some sep => sep.intercalate (lines cs)
  | none => cs

/-- The text with spaces for tabs, if the rules replace them. -/
def detabbed (r : TransformRules) (cs : List Char) : List Char :=
  if r.tabToSpaces then replace ['\t'] (List.replicate tabWidth ' ') cs else cs

theorem isBreak_of_lineEnd? {sep : List Char} (h : r.lineEnd? = some sep) : IsBreak sep := by
  unfold lineEnd? at h
  split at h
  · cases h
    exact .crLf
  · split at h
    · cases h
      exact .lf
    · cases h

theorem toList_lineFeeds (s : String) : (lineFeeds s).toList = ['\n'].intercalate (lines s.toList) := by
  rw [lineFeeds, String.toList_ofList, lineFeeds_eq_intercalate]

theorem toList_carriageReturns_lineFeeds (s : String) :
    (carriageReturns (lineFeeds s)).toList = ['\r', '\n'].intercalate (lines s.toList) := by
  rw [carriageReturns, String.toList_ofList, toList_lineFeeds,
    carriageReturns_intercalate fun _ => unbroken_of_mem_lines]

theorem toList_conversions (r : TransformRules) (s : String) :
    (r.conversions.cleanUp s).toList = r.detabbed (r.rejoined s.toList) := by
  have hends : (r.conversions.cleanUp s).toList = r.detabbed (if r.newlineToCrLf then
      carriageReturns (lineFeeds s) else if r.newlineToLf then lineFeeds s else s).toList := by
    cases htab : r.tabToSpaces <;> cases hlf : r.newlineToLf <;> cases hcrLf : r.newlineToCrLf <;>
      simp [cleanUp, conversions, trim, detabbed, htab, hlf, hcrLf, spacesForTabs]
  rw [hends, rejoined, lineEnd?]
  cases hcrLf : r.newlineToCrLf <;> cases hlf : r.newlineToLf <;>
    simp [toList_lineFeeds, toList_carriageReturns_lineFeeds]

theorem detabbed_cases (r : TransformRules) :
    r.detabbed = id ∨ r.detabbed = replace ['\t'] (List.replicate tabWidth ' ') := by
  cases htab : r.tabToSpaces with
  | false => exact .inl (funext fun _ => by simp [detabbed, htab])
  | true => exact .inr (funext fun _ => by simp [detabbed, htab])

theorem detabbed_detabbed (r : TransformRules) (cs : List Char) :
    r.detabbed (r.detabbed cs) = r.detabbed cs := by
  rcases r.detabbed_cases with h | h
  · simp [h]
  · rw [h]
    refine replace_of_not_mem List.mem_cons_self ?_ _
    simp [replace_singleton, tabWidth]
    grind

theorem lines_detabbed (r : TransformRules) (cs : List Char) :
    lines (r.detabbed cs) = (lines cs).map r.detabbed := by
  rcases r.detabbed_cases with h | h
  · simp [h]
  · have htab : Unbroken ['\t'] := by decide
    have hspaces : Unbroken (List.replicate tabWidth ' ') := by decide
    rw [h, lines_replace htab hspaces (by decide)]

theorem detabbed_intercalate {sep : List Char} (hsep : IsBreak sep) (pieces : List (List Char)) :
    r.detabbed (sep.intercalate pieces) = sep.intercalate (pieces.map r.detabbed) := by
  rcases r.detabbed_cases with h | h
  · simp [h]
  · have htab : '\t' ∉ sep := by cases hsep <;> decide
    rw [h, replace_intercalate, replace_of_not_mem List.mem_cons_self htab]

theorem detabbed_rejoined (r : TransformRules) (cs : List Char) :
    r.detabbed (r.rejoined cs) = r.rejoined (r.detabbed cs) := by
  unfold rejoined
  split
  next sep hsep => rw [lines_detabbed, detabbed_intercalate (isBreak_of_lineEnd? hsep)]
  next => rfl

theorem rejoined_rejoined (r : TransformRules) (cs : List Char) :
    r.rejoined (r.rejoined cs) = r.rejoined cs := by
  unfold rejoined
  split
  next sep hsep => rw [(isBreak_of_lineEnd? hsep).lines_intercalate_lines]
  next => rfl

theorem lines_rejoined (r : TransformRules) (cs : List Char) : lines (r.rejoined cs) = lines cs := by
  unfold rejoined
  split
  next sep hsep => exact (isBreak_of_lineEnd? hsep).lines_intercalate_lines cs
  next => rfl

/-- Line ends may be converted after all that the other rules do. -/
theorem toList_cleanUp_withNewlines (r : TransformRules) (lf crLf : Bool) (s : String) :
    ((r.withNewlines lf crLf).cleanUp s).toList =
      (r.withNewlines lf crLf).rejoined ((r.withNewlines false false).cleanUp s).toList := by
  rw [cleanUp_eq, toList_conversions, detabbed_rejoined, cleanUp_eq (r.withNewlines false false),
    toList_conversions]
  rfl

/-- The clean-up with a rule for line ends gives the lines of what the other rules make of the text, joined
by a line feed, or by a carriage return and a line feed if one of the rules asks for both; so no line end is
lost, doubled or made up. Where there are no other rules, these are the lines of the text itself. -/
theorem newlines_keep_lines (r : TransformRules) (s : String) :
    let text := ((r.withNewlines false false).finish [] s).toList
    ((r.withNewlines true false).finish [] s).toList = ['\n'].intercalate (lines text) ∧
      (∀ lf, ((r.withNewlines lf true).finish [] s).toList = ['\r', '\n'].intercalate (lines text)) ∧
      (∀ lf crLf, lines ((r.withNewlines lf crLf).finish [] s).toList = lines text) ∧
      (({ } : TransformRules).withNewlines false false).finish [] s = s := by
  refine ⟨toList_cleanUp_withNewlines r true false s, fun lf => toList_cleanUp_withNewlines r lf true s,
    fun lf crLf => ?_, rfl⟩
  rw [finish, List.foldl_nil, toList_cleanUp_withNewlines, lines_rejoined]
  rfl

/-- Line ends of all kinds in a row. -/
example : lines "\r\r\n\n\ra".toList = [[], [], [], [], ['a']] := by decide

/-! ## Control characters -/

/-- Does the removal of control characters keep the character? -/
def isKept (c : Char) : Bool := !isControl c || ['\n', '\r', '\t'].contains c

theorem withoutControl_eq (s : String) : withoutControl s = String.ofList (s.toList.filter isKept) := rfl

theorem mem_withoutControl : c ∈ (withoutControl s).toList ↔ c ∈ s.toList ∧ isKept c = true := by
  rw [withoutControl_eq, String.toList_ofList, List.mem_filter]

/-- The text has no control character that the rules remove. -/
def Clean (r : TransformRules) (cs : List Char) : Prop :=
  r.removeControl = true → ∀ c ∈ cs, isKept c = true

theorem cleared_of_clean (h : r.Clean s.toList) : r.cleared s = s := by
  rw [cleared]
  split
  next hremove =>
    rw [withoutControl_eq, List.filter_eq_self.mpr (h hremove), String.ofList_toList]
  next => rfl

theorem clean_cleared (r : TransformRules) (s : String) : r.Clean (r.cleared s).toList := by
  intro hremove c hc
  rw [cleared, if_pos hremove] at hc
  exact (mem_withoutControl.mp hc).2

theorem mem_of_mem_cleared (h : c ∈ (r.cleared s).toList) : c ∈ s.toList := by
  rw [cleared] at h
  split at h
  · exact (mem_withoutControl.mp h).1
  · exact h

/-- The trims bring in nothing that would be removed. -/
theorem Clean.trims (h : r.Clean s.toList) : r.Clean (r.trims.cleanUp s).toList := by
  intro hremove c hc
  rcases mem_of_mem_trims hc with rfl | hc
  · rfl
  · exact h hremove c hc

/-! ## What conversions leave -/

/-- The text is the other one with other blanks in the place of line ends and tabs. -/
structure Respaced (cs out : List Char) : Prop where
  start : out.head?.map isBlank = cs.head?.map isBlank
  stop : out.getLast?.map isBlank = cs.getLast?.map isBlank
  mem : ∀ c ∈ out, c ∈ cs ∨ c ∈ ['\n', '\r', ' ']
  same : (∀ c ∈ cs, c ∉ ['\n', '\r', '\t']) → out = cs

theorem Respaced.refl (cs : List Char) : Respaced cs cs := ⟨rfl, rfl, fun _ => .inl, fun _ => rfl⟩

theorem Respaced.trans {more : List Char} (h : Respaced cs out) (h' : Respaced out more) : Respaced cs more where
  start := h'.start.trans h.start
  stop := h'.stop.trans h.stop
  mem c hc := (h'.mem c hc).elim (h.mem c) .inr
  same hplain := by
    obtain rfl := h.same hplain
    exact h'.same hplain

theorem Respaced.of_replace {needle replacement : List Char} (hneedle : needle ≠ [])
    (hreplacement : replacement ≠ []) (hlost : needle ⊆ ['\n', '\r', '\t'])
    (hmade : replacement ⊆ ['\n', '\r', ' ']) (cs : List Char) :
    Respaced cs (replace needle replacement cs) := by
  have hblank {chars : List Char} (hchars : chars.all isBlank = true) {part : List Char}
      (hpart : part ⊆ chars) : ∀ c ∈ part, isBlank c = true :=
    fun c hc => List.all_eq_true.mp hchars c (hpart hc)
  have hkindred : Kindred isBlank needle replacement :=
    ⟨hneedle, hreplacement, hblank (by decide) hlost, hblank (by decide) hmade⟩
  refine ⟨hkindred.map_head? cs, hkindred.map_getLast? cs, ?_, ?_⟩
  · exact fun c hc => (mem_of_mem_replace hneedle hc).imp_right fun hc => hmade hc
  · intro hplain
    obtain ⟨c, more, rfl⟩ := List.exists_cons_of_ne_nil hneedle
    exact replace_of_not_mem List.mem_cons_self (fun hc => hplain c hc (hlost List.mem_cons_self)) _

theorem Respaced.step {f : String → String} (hf : ∀ s : String, Respaced s.toList (f s).toList) (b : Bool)
    (s : String) : Respaced s.toList (if b then f s else s).toList := by
  split
  · exact hf s
  · exact .refl _

theorem respaced_conversions (r : TransformRules) (s : String) :
    Respaced s.toList (r.conversions.cleanUp s).toList := by
  have hlineFeeds (s : String) : Respaced s.toList (lineFeeds s).toList := by
    rw [lineFeeds, String.toList_ofList]
    exact (Respaced.of_replace (by decide) (by decide) (by decide) (by decide) _).trans
      (.of_replace (by decide) (by decide) (by decide) (by decide) _)
  have hreturns (s : String) : Respaced s.toList (carriageReturns s).toList := by
    rw [carriageReturns, String.toList_ofList]
    exact .of_replace (by decide) (by decide) (by decide) (by decide) _
  have hspaces (s : String) : Respaced s.toList (spacesForTabs s).toList := by
    rw [spacesForTabs, String.toList_ofList]
    exact .of_replace (by decide) (by decide) (by decide) (by decide) _
  exact ((Respaced.step hlineFeeds (r.newlineToLf || r.newlineToCrLf) s).trans
    (.step hreturns r.newlineToCrLf _)).trans (.step hspaces r.tabToSpaces _)

/-- The conversions bring in nothing that would be removed. -/
theorem Clean.conversions (h : r.Clean s.toList) : r.Clean (r.conversions.cleanUp s).toList := by
  have hmade : ['\n', '\r', ' '].all isKept = true := by decide
  intro hremove c hc
  exact ((respaced_conversions r s).mem c hc).elim (h hremove c) (List.all_eq_true.mp hmade c)

theorem conversions_conversions (r : TransformRules) (s : String) :
    r.conversions.cleanUp (r.conversions.cleanUp s) = r.conversions.cleanUp s := by
  rw [← String.toList_inj, toList_conversions, toList_conversions, ← detabbed_rejoined, detabbed_detabbed,
    rejoined_rejoined]

/-- Where the blanks of a text are spaces if the rules collapse them, conversions do not change whether the
text has the form that the trims ask for. -/
theorem trimmed_conversions_iff (hspaces : r.trimInternal = true → ∀ c ∈ s.toList, isBlank c = true → c = ' ') :
    r.Trimmed (r.conversions.cleanUp s).toList ↔ r.Trimmed s.toList := by
  have hrespaced := respaced_conversions r s
  cases hinternal : r.trimInternal with
  | true =>
      have hspecial : ['\n', '\r', '\t'].all (fun c => isBlank c && c != ' ') = true := by decide
      rw [hrespaced.same]
      intro c hc hmem
      have hboth : isBlank c = true ∧ c ≠ ' ' := by simpa using List.all_eq_true.mp hspecial c hmem
      exact hboth.2 (hspaces hinternal c hc hboth.1)
  | false =>
      have hedge {o o' : Option Char} (h : o.map isBlank = o'.map isBlank) :
          (∀ c ∈ o, isBlank c = false) ↔ ∀ c ∈ o', isBlank c = false := by
        cases o <;> cases o' <;> simp_all
      rw [trimmed_iff_ends hinternal, trimmed_iff_ends hinternal, hedge hrespaced.start, hedge hrespaced.stop]

/-! ## The clean-up of its own result -/

/-- What is left of the trimmed text when the control characters are removed. -/
def stripped (r : TransformRules) (s : String) : String := r.cleared (r.trims.cleanUp s)

theorem cleanUp_stripped (r : TransformRules) (s : String) :
    r.cleanUp s = r.conversions.cleanUp (r.stripped s) := cleanUp_eq r s

theorem trimmed_cleanUp_iff (r : TransformRules) (s : String) :
    r.Trimmed (r.cleanUp s).toList ↔ r.Trimmed (r.stripped s).toList := by
  rw [cleanUp_stripped]
  apply trimmed_conversions_iff
  intro hinternal c hc
  exact (trimmed_trims r s).spaces hinternal c (mem_of_mem_cleared hc)

theorem clean_cleanUp (r : TransformRules) (s : String) : r.Clean (r.cleanUp s).toList := by
  rw [cleanUp_stripped]
  exact (clean_cleared r _).conversions

/-- A text without control characters to remove is trimmed by the clean-up. -/
theorem trimmed_cleanUp_of_clean (h : r.Clean s.toList) : r.Trimmed (r.cleanUp s).toList := by
  rw [trimmed_cleanUp_iff, stripped, cleared_of_clean h.trims]
  exact trimmed_trims r s

/-- A trimmed result is left alone. -/
theorem cleanUp_of_trimmed (h : r.Trimmed (r.cleanUp s).toList) : r.cleanUp (r.cleanUp s) = r.cleanUp s := by
  rw [cleanUp_stripped r (r.cleanUp s), stripped, trims_of_trimmed h, cleared_of_clean (clean_cleanUp r s),
    cleanUp_stripped r s, conversions_conversions]

/-- The clean-up leaves its own result alone exactly if this has the form that the trims ask for: no blank
at an end that is trimmed, and no two blanks in a row where they are collapsed. It has this form unless the
removal of control characters undoes what the trims did. A second clean-up always gives it this form. -/
theorem cleaned_again_iff (r : TransformRules) (s : String) :
    (r.finish [] (r.finish [] s) = r.finish [] s ↔ r.Trimmed (r.finish [] s).toList) ∧
      (r.Trimmed (r.finish [] s).toList ↔
        (r.removeControl = true → r.Trimmed (withoutControl (r.trims.finish [] s)).toList)) ∧
      r.Trimmed (r.finish [] (r.finish [] s)).toList ∧
      r.finish [] (r.finish [] (r.finish [] s)) = r.finish [] (r.finish [] s) := by
  have htwice := trimmed_cleanUp_of_clean (clean_cleanUp r s)
  refine ⟨⟨fun hagain => ?_, cleanUp_of_trimmed⟩, ?_, htwice, cleanUp_of_trimmed htwice⟩
  · rw [← hagain]
    exact htwice
  · rw [finish, List.foldl_nil, trimmed_cleanUp_iff, stripped, cleared]
    cases hremove : r.removeControl with
    | true => simp [finish]
    | false => simpa using trimmed_trims r s

/-- A blank that a control character shields from the trims is at the end, or beside another blank, when the
control character is gone. -/
theorem shielded_blank_not_trimmed :
    (let r : TransformRules := { trimStart := true, trimEnd := true, removeControl := true };
      r.finish [] "\x07 a" = " a" ∧ r.finish [] (r.finish [] "\x07 a") ≠ r.finish [] "\x07 a") ∧
    (let r : TransformRules := { trimInternal := true, removeControl := true };
      r.finish [] "a \x07 b" = "a  b" ∧ r.finish [] (r.finish [] "a \x07 b") ≠ r.finish [] "a \x07 b") := by
  decide +kernel

end ActionTree.TransformRules
