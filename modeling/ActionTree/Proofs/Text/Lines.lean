import ActionTree.Proofs.Text.Search

/-!
# Lines of a text

A carriage return with a line feed after it, a carriage return alone and a line feed alone each end a line.
Replacing the line ends one kind after the other joins the same lines by the new line end.
-/

namespace ActionTree.Text

/-- What stands between the line ends of a text. -/
def lines : List Char → List (List Char)
  | [] => [[]]
  | '\r' :: '\n' :: rest => [] :: lines rest
  | c :: rest => if c = '\r' ∨ c = '\n' then [] :: lines rest else (lines rest).modifyHead (c :: ·)

/-- No character of the text ends a line. -/
def Unbroken (cs : List Char) : Prop := '\r' ∉ cs ∧ '\n' ∉ cs

instance (cs : List Char) : Decidable (Unbroken cs) := inferInstanceAs (Decidable (_ ∧ _))

variable {cs front rest : List Char} {c : Char} {pieces : List (List Char)}

@[simp] theorem lines_nil : lines [] = [[]] := rfl

@[simp] theorem lines_crLf : lines ('\r' :: '\n' :: rest) = [] :: lines rest := rfl

@[simp] theorem lines_lf : lines ('\n' :: rest) = [] :: lines rest := by
  rw [lines]
  · rfl
  · simp

theorem lines_cr (h : rest.head? ≠ some '\n') : lines ('\r' :: rest) = [] :: lines rest := by
  rw [lines]
  · rfl
  · rintro more - rfl
    exact h rfl

theorem lines_cons (hcr : c ≠ '\r') (hlf : c ≠ '\n') :
    lines (c :: rest) = (lines rest).modifyHead (c :: ·) := by
  rw [lines]
  · simp [hcr, hlf]
  · simp [hcr]

theorem lines_ne_nil (cs : List Char) : lines cs ≠ [] := by
  fun_induction lines cs with
  | case1 | case2 | case3 => simp
  | case4 _ _ _ _ ih => simpa using ih

/-! ## Pieces without a line end -/

theorem Unbroken.cons_iff : Unbroken (c :: cs) ↔ (c ≠ '\r' ∧ c ≠ '\n') ∧ Unbroken cs := by
  simp only [Unbroken, List.mem_cons, not_or, ne_comm (a := c), ne_eq]
  grind

theorem unbroken_of_mem_lines {piece : List Char} (h : piece ∈ lines cs) : Unbroken piece := by
  have hnil : Unbroken [] := ⟨nofun, nofun⟩
  fun_induction lines cs generalizing piece with
  | case1 => rwa [List.mem_singleton.mp h]
  | case2 rest ih | case3 c rest _ _ ih =>
      rcases List.mem_cons.mp h with rfl | h
      · exact hnil
      · exact ih h
  | case4 c rest _ hc ih =>
      obtain ⟨first, more, hlines⟩ := List.exists_cons_of_ne_nil (lines_ne_nil rest)
      rw [hlines, List.modifyHead_cons] at h
      rw [hlines] at ih
      rcases List.mem_cons.mp h with rfl | h
      · exact Unbroken.cons_iff.mpr ⟨not_or.mp hc, ih List.mem_cons_self⟩
      · exact ih (List.mem_cons_of_mem _ h)

/-- A piece in front belongs to the first line. -/
theorem lines_append (h : Unbroken front) (rest : List Char) :
    lines (front ++ rest) = (lines rest).modifyHead (front ++ ·) := by
  induction front with
  | nil => cases h : lines rest <;> simp [h]
  | cons c front ih =>
      obtain ⟨⟨hcr, hlf⟩, hfront⟩ := Unbroken.cons_iff.mp h
      rw [List.cons_append, lines_cons hcr hlf, ih hfront, List.modifyHead_modifyHead]
      rfl

theorem lines_of_unbroken (h : Unbroken cs) : lines cs = [cs] := by
  simpa using lines_append h []

/-! ## Lines that are joined -/

/-- The line ends that a text is given. -/
inductive IsBreak : List Char → Prop
  | lf : IsBreak ['\n']
  | crLf : IsBreak ['\r', '\n']

variable {sep : List Char}

theorem IsBreak.lines_append (hsep : IsBreak sep) (h : Unbroken front) (rest : List Char) :
    lines (front ++ sep ++ rest) = front :: lines rest := by
  rw [List.append_assoc, Text.lines_append h]
  cases hsep <;> simp

/-- Joined lines are the lines of the text they make. -/
theorem IsBreak.lines_intercalate (hsep : IsBreak sep) (hne : pieces ≠ [])
    (h : ∀ piece ∈ pieces, Unbroken piece) : lines (sep.intercalate pieces) = pieces := by
  induction pieces with
  | nil => exact absurd rfl hne
  | cons piece more ih =>
      obtain ⟨hpiece, hmore⟩ := List.forall_mem_cons.mp h
      by_cases hlast : more = []
      · rw [hlast, List.intercalate_singleton, lines_of_unbroken hpiece]
      · rw [List.intercalate_cons_of_ne_nil hlast, hsep.lines_append hpiece, ih hlast hmore]

theorem IsBreak.lines_intercalate_lines (hsep : IsBreak sep) (cs : List Char) :
    lines (sep.intercalate (lines cs)) = lines cs :=
  hsep.lines_intercalate (lines_ne_nil cs) fun _ => unbroken_of_mem_lines

/-! ## Replacing line ends -/

theorem intercalate_modifyHead_cons (hne : pieces ≠ []) (c : Char) (sep : List Char) :
    sep.intercalate (pieces.modifyHead (c :: ·)) = c :: sep.intercalate pieces :=
  intercalate_modifyHead hne [c] sep

/-- With line feeds for all line ends, the lines are joined by line feeds. -/
theorem lineFeeds_eq_intercalate (cs : List Char) :
    replace ['\r'] ['\n'] (replace ['\r', '\n'] ['\n'] cs) = ['\n'].intercalate (lines cs) := by
  have hrun := replaced_replace (List.cons_ne_nil '\r' ['\n']) ['\n'] cs
  generalize replace ['\r', '\n'] ['\n'] cs = out at hrun ⊢
  rw [replace_singleton]
  induction hrun with
  | nil => simp
  | hit hrest ih => simp [ih, List.intercalate_cons_of_ne_nil (lines_ne_nil _)]
  | keep hfront hrest ih =>
      rename_i c rest out
      by_cases hcr : c = '\r'
      · subst hcr
        have hlf : rest.head? ≠ some '\n' := by
          intro hhead
          obtain ⟨more, rfl⟩ := List.head?_eq_some_iff.mp hhead
          exact hfront ⟨more, rfl⟩
        simp [ih, lines_cr hlf, List.intercalate_cons_of_ne_nil (lines_ne_nil _)]
      · by_cases hlf : c = '\n'
        · subst hlf
          simp [ih, List.intercalate_cons_of_ne_nil (lines_ne_nil _)]
        · simp [ih, hcr, lines_cons hcr hlf, intercalate_modifyHead_cons (lines_ne_nil _)]

/-- With a carriage return before every line feed, the lines are joined by both. -/
theorem carriageReturns_intercalate (h : ∀ piece ∈ pieces, Unbroken piece) :
    replace ['\n'] ['\r', '\n'] (['\n'].intercalate pieces) = ['\r', '\n'].intercalate pieces := by
  have hsame : pieces.map (replace ['\n'] ['\r', '\n']) = pieces.map id :=
    List.map_congr_left fun piece hpiece => replace_of_not_mem List.mem_cons_self (h piece hpiece).2 _
  rw [replace_intercalate, hsame, List.map_id]
  simp [replace_singleton]

theorem map_modifyHead_append {f : List Char → List Char} {front front' : List Char}
    (hf : ∀ piece, f (front ++ piece) = front' ++ f piece) :
    (pieces.modifyHead (front ++ ·)).map f = (pieces.map f).modifyHead (front' ++ ·) := by
  cases pieces <;> simp [hf]

/-- A character that ends no line, replaced by others that end none, is replaced line by line. -/
theorem lines_replace {d : Char} {replacement : List Char} (hd : Unbroken [d])
    (hreplacement : Unbroken replacement) (hne : replacement ≠ []) (cs : List Char) :
    lines (replace [d] replacement cs) = (lines cs).map (replace [d] replacement) := by
  obtain ⟨⟨hcr, hlf⟩, -⟩ := Unbroken.cons_iff.mp hd
  fun_induction lines cs with
  | case1 => simp
  | case2 rest ih => simp [replace_singleton_cons, Ne.symm hcr, Ne.symm hlf, ih]
  | case3 c rest hrest hc ih =>
      rcases hc with rfl | rfl
      · have hkindred : Kindred (· != '\n') [d] replacement :=
          ⟨by simp, hne, by simpa using hlf,
            fun c hc => by simpa using ne_of_mem_of_not_mem hc hreplacement.2⟩
        have hhead : (replace [d] replacement rest).head? ≠ some '\n' := by
          intro h
          have hmap := hkindred.map_head? rest
          rw [h] at hmap
          cases rest with
          | nil => cases hmap
          | cons c more =>
              obtain rfl : c = '\n' := by simpa using hmap
              exact hrest more rfl rfl
        simp [replace_singleton_cons, Ne.symm hcr, lines_cr hhead, ih]
      · simp [replace_singleton_cons, Ne.symm hlf, ih]
  | case4 c rest hrest hc ih =>
      obtain ⟨hccr, hclf⟩ := not_or.mp hc
      have hfront : Unbroken (if c = d then replacement else [c]) := by
        split
        · exact hreplacement
        · exact ⟨by simpa using Ne.symm hccr, by simpa using Ne.symm hclf⟩
      rw [replace_singleton_cons, lines_append hfront, ih]
      have hpiece : ∀ piece, replace [d] replacement ([c] ++ piece) =
          (if c = d then replacement else [c]) ++ replace [d] replacement piece :=
        replace_singleton_cons d replacement c
      exact (map_modifyHead_append hpiece).symm

end ActionTree.Text
