import ActionTree.Text.Blank
import Mathlib.Data.List.Chain
import Mathlib.Data.List.DropRight

/-!
# Trimmed and collapsed texts

Trimming leaves a text alone exactly if no blank stands at the end that is trimmed. Joining the words of a
text by spaces leaves it alone exactly if its blanks are single spaces between words.
-/

namespace ActionTree.Text

variable {p : Char → Bool} {cs front rest word : List Char} {c : Char} {pieces : List (List Char)}

/-! ## Ends -/

theorem head?_dropWhile_eq_false (p : Char → Bool) (cs : List Char) :
    ∀ c ∈ (cs.dropWhile p).head?, p c = false := by
  intro c hc
  have hhead := List.head?_dropWhile_not p cs
  rw [Option.mem_def.mp hc] at hhead
  exact hhead

theorem dropWhile_eq_self_iff : cs.dropWhile p = cs ↔ ∀ c ∈ cs.head?, p c = false := by
  constructor
  · intro h
    rw [← h]
    exact head?_dropWhile_eq_false p cs
  · intro h
    cases cs with
    | nil => rfl
    | cons c cs => simp [h c rfl]

theorem dropWhileEnd_eq_self_iff : dropWhileEnd p cs = cs ↔ ∀ c ∈ cs.getLast?, p c = false := by
  rw [dropWhileEnd, List.reverse_eq_iff, dropWhile_eq_self_iff, List.head?_reverse]

theorem dropWhileEnd_dropWhileEnd (p : Char → Bool) (cs : List Char) :
    dropWhileEnd p (dropWhileEnd p cs) = dropWhileEnd p cs :=
  List.rdropWhile_idempotent p cs

theorem dropWhileEnd_append_singleton (hc : p c = true) (cs : List Char) :
    dropWhileEnd p (cs ++ [c]) = dropWhileEnd p cs :=
  List.rdropWhile_concat_pos p cs c hc

/-- What starts with no blank keeps its first character when the blanks at its end are dropped. -/
theorem dropWhileEnd_cons (hc : p c = false) (cs : List Char) :
    dropWhileEnd p (c :: cs) = c :: dropWhileEnd p cs := by
  rw [dropWhileEnd, dropWhileEnd, List.reverse_cons, List.dropWhile_append]
  split
  next hnone => simp [hc, List.isEmpty_iff.mp hnone]
  next => simp

theorem getLast?_dropWhileEnd_eq_false (p : Char → Bool) (cs : List Char) :
    ∀ c ∈ (dropWhileEnd p cs).getLast?, p c = false :=
  dropWhileEnd_eq_self_iff.mp (dropWhileEnd_dropWhileEnd p cs)

theorem dropWhileEnd_starts (p : Char → Bool) (cs : List Char) : dropWhileEnd p cs <+: cs :=
  List.rdropWhile_prefix p cs

/-- What is dropped at the end does not change how a text starts, unless nothing is left. -/
theorem head?_dropWhileEnd (h : ∀ c ∈ cs.head?, p c = false) :
    ∀ c ∈ (dropWhileEnd p cs).head?, p c = false := by
  intro c hc
  obtain ⟨more, hmore⟩ := dropWhileEnd_starts p cs
  obtain ⟨rest, hrest⟩ := List.head?_eq_some_iff.mp (Option.mem_def.mp hc)
  refine h c ?_
  rw [← hmore, hrest]
  rfl

theorem dropWhile_eq_of_trimList (h : trimList p cs = cs) :
    cs.dropWhile p = cs ∧ dropWhileEnd p cs = cs := by
  have hsuffix : cs.dropWhile p <:+ cs := List.dropWhile_suffix p
  have hle := (dropWhileEnd_starts p (cs.dropWhile p)).length_le
  rw [trimList] at h
  rw [h] at hle
  have hfront := hsuffix.eq_of_length (Nat.le_antisymm hsuffix.length_le hle)
  rw [hfront] at h
  exact ⟨hfront, h⟩

/-! ## Words -/

/-- The words of a text, joined by single spaces. -/
def collapse (cs : List Char) : List Char := [' '].intercalate (wordsFrom [] cs)

/-- All blanks are single spaces between words. -/
structure Collapsed (cs : List Char) : Prop where
  start : ∀ c ∈ cs.head?, isBlank c = false
  stop : ∀ c ∈ cs.getLast?, isBlank c = false
  spaces : ∀ c ∈ cs, isBlank c = true → c = ' '
  apart : cs.IsChain fun a b => ¬ (isBlank a = true ∧ isBlank b = true)

/-- A word is not empty and has no blank. -/
def IsWord (word : List Char) : Prop := word ≠ [] ∧ ∀ c ∈ word, isBlank c = false

theorem isWord_of_mem_wordsFrom (hword : ∀ c ∈ word, isBlank c = false) {w : List Char}
    (h : w ∈ wordsFrom word cs) : IsWord w := by
  fun_induction wordsFrom word cs with
  | case1 => cases h
  | case2 word hne =>
      rw [List.mem_singleton.mp h]
      exact ⟨by simpa using hne, hword⟩
  | case3 word c rest hblank hempty ih => exact ih nofun h
  | case4 word c rest hblank hne ih =>
      rcases List.mem_cons.mp h with rfl | h
      · exact ⟨by simpa using hne, hword⟩
      · exact ih nofun h
  | case5 word c rest hblank ih =>
      exact ih (List.forall_mem_append.mpr ⟨hword, by simpa using hblank⟩) h

theorem mem_of_mem_wordsFrom {w : List Char} (h : w ∈ wordsFrom word cs) (hc : c ∈ w) :
    c ∈ word ∨ c ∈ cs := by
  fun_induction wordsFrom word cs with
  | case1 => cases h
  | case2 word => exact .inl (List.mem_singleton.mp h ▸ hc)
  | case3 word d rest _ _ ih => exact .inr (List.mem_cons_of_mem _ ((ih h).resolve_left nofun))
  | case4 word d rest _ _ ih =>
      rcases List.mem_cons.mp h with rfl | h
      · exact .inl hc
      · exact .inr (List.mem_cons_of_mem _ ((ih h).resolve_left nofun))
  | case5 word d rest _ ih =>
      have hor := ih h
      simp only [List.mem_append, List.mem_cons] at hor ⊢
      tauto

theorem mem_of_mem_intercalate {sep : List Char} (h : c ∈ sep.intercalate pieces) :
    c ∈ sep ∨ ∃ w ∈ pieces, c ∈ w := by
  induction pieces with
  | nil => cases h
  | cons w more ih =>
      by_cases hlast : more = []
      · subst hlast
        exact .inr ⟨w, List.mem_cons_self, by simpa using h⟩
      · rw [List.intercalate_cons_of_ne_nil hlast, List.mem_append, List.mem_append] at h
        rcases h with (hw | hsep) | hmore
        · exact .inr ⟨w, List.mem_cons_self, hw⟩
        · exact .inl hsep
        · refine (ih hmore).imp_right ?_
          rintro ⟨w', hw', hc⟩
          exact ⟨w', List.mem_cons_of_mem _ hw', hc⟩

theorem mem_of_mem_collapse (h : c ∈ collapse cs) : c = ' ' ∨ c ∈ cs := by
  rcases mem_of_mem_intercalate h with hspace | ⟨w, hw, hc⟩
  · exact .inl (List.mem_singleton.mp hspace)
  · exact .inr ((mem_of_mem_wordsFrom hw hc).resolve_left nofun)

theorem Collapsed.of_unblank (h : ∀ c ∈ cs, isBlank c = false) : Collapsed cs where
  start c hc := h c (List.mem_of_head? hc)
  stop c hc := h c (List.mem_of_getLast? hc)
  spaces c hc hblank := by simp [h c hc] at hblank
  apart := by
    refine List.Pairwise.isChain (List.pairwise_of_forall_mem_list ?_)
    intro a ha b _ hboth
    simp [h a ha] at hboth

/-- A word and a space may be put before a text that is collapsed. -/
theorem Collapsed.cons_word (hword : IsWord word) (hne : rest ≠ []) (h : Collapsed rest) :
    Collapsed (word ++ [' '] ++ rest) := by
  have hfront := Collapsed.of_unblank hword.2
  obtain ⟨c, cs, rfl⟩ := List.exists_cons_of_ne_nil hword.1
  obtain ⟨d, ds, rfl⟩ := List.exists_cons_of_ne_nil hne
  refine ⟨by simpa using hfront.start, ?_, ?_, ?_⟩
  · intro x hx
    rw [List.getLast?_append_of_ne_nil _ hne] at hx
    exact h.stop x hx
  · intro x hx hblank
    rcases List.mem_append.mp hx with hx | hx
    · rcases List.mem_append.mp hx with hx | hx
      · exact hfront.spaces x hx hblank
      · exact List.mem_singleton.mp hx
    · exact h.spaces x hx hblank
  · rw [List.append_assoc, List.isChain_append]
    refine ⟨hfront.apart, ?_, ?_⟩
    · rw [List.singleton_append, List.isChain_cons_cons]
      refine ⟨?_, h.apart⟩
      simp [h.start d rfl]
    · intro x hx y _ hboth
      simp [hfront.stop x hx] at hboth

/-- After a blank, a collapsed text goes on with a word. -/
theorem Collapsed.after_blank (h : Collapsed (front ++ c :: rest)) (hblank : isBlank c = true) :
    c = ' ' ∧ rest ≠ [] ∧ Collapsed rest := by
  have htail := h.apart.right_of_append
  refine ⟨h.spaces c (by simp) hblank, ?_, ?_, ?_, fun x hx => h.spaces x (by simp [hx]), htail.tail⟩
  · rintro rfl
    have hlast := h.stop c (by simp)
    rw [hlast] at hblank
    cases hblank
  · intro x hx
    have hnext := htail.rel_head? hx
    simpa [hblank] using hnext
  · intro x hx
    refine h.stop x ?_
    obtain ⟨d, ds, rfl⟩ := List.exists_cons_of_ne_nil (List.ne_nil_of_mem (List.mem_of_getLast? hx))
    rw [List.getLast?_append_of_ne_nil _ (List.cons_ne_nil _ _), List.getLast?_cons_cons]
    exact hx

theorem collapsed_intercalate (h : ∀ word ∈ pieces, IsWord word) : Collapsed ([' '].intercalate pieces) := by
  induction pieces with
  | nil => exact .of_unblank (by simp)
  | cons word more ih =>
      obtain ⟨hword, hmore⟩ := List.forall_mem_cons.mp h
      cases more with
      | nil =>
          rw [List.intercalate_singleton]
          exact .of_unblank hword.2
      | cons next others =>
          rw [List.intercalate_cons_cons]
          refine (ih hmore).cons_word hword ?_
          have hnext := (hmore next List.mem_cons_self).1
          cases others <;> simp [hnext]

theorem collapsed_collapse (cs : List Char) : Collapsed (collapse cs) :=
  collapsed_intercalate fun _ hw => isWord_of_mem_wordsFrom (List.forall_mem_nil _) hw

/-- Reading the words of a collapsed text, with one under way, and joining them gives the text back. -/
theorem intercalate_wordsFrom (h : Collapsed (word ++ cs)) (hword : ∀ c ∈ word, isBlank c = false) :
    [' '].intercalate (wordsFrom word cs) = word ++ cs := by
  fun_induction wordsFrom word cs with
  | case1 word hempty => simp_all
  | case2 word hne => simp
  | case3 word c rest hblank hempty ih =>
      obtain rfl := List.isEmpty_iff.mp hempty
      simp [h.start c rfl] at hblank
  | case4 word c rest hblank hne ih =>
      obtain ⟨rfl, hrest, hcollapsed⟩ := h.after_blank hblank
      have hjoined := ih hcollapsed nofun
      have hmore : wordsFrom [] rest ≠ [] := by
        intro hnil
        rw [hnil] at hjoined
        exact hrest hjoined.symm
      rw [List.intercalate_cons_of_ne_nil hmore, hjoined]
      simp
  | case5 word c rest hblank ih =>
      have hunblank : ∀ d ∈ word ++ [c], isBlank d = false :=
        List.forall_mem_append.mpr ⟨hword, by simpa using hblank⟩
      simpa using ih (by simpa using h) hunblank

theorem collapse_eq_self_iff : collapse cs = cs ↔ Collapsed cs := by
  constructor
  · intro h
    rw [← h]
    exact collapsed_collapse cs
  · intro h
    have hcollapsed : Collapsed ([] ++ cs) := h
    exact intercalate_wordsFrom hcollapsed (List.forall_mem_nil _)

end ActionTree.Text
