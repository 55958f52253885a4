import ActionTree.Proofs.Expansion

/-!
# Texts that stand for themselves

With one more escape after every opening a text is written literally: its expansion is the text itself, and
nothing is evaluated for it. The escape is the last character of the opening, so the writer and the reader
have to cut a run of brackets at the same places.
-/

namespace ActionTree

namespace Marker

variable {m m' : Marker} {markers : List Marker} {c : Char} {cs rest : List Char}

/-- There is at most one marker with braces, and at most one with square brackets. -/
def Apart (markers : List Marker) : Prop :=
  ¬(brace ∈ markers ∧ doubleBrace ∈ markers) ∧ ¬(square ∈ markers ∧ doubleSquare ∈ markers)

instance (markers : List Marker) : Decidable (Apart markers) := inferInstanceAs (Decidable (_ ∧ _))

/-- The characters with one more escape after every opening, from left to right. -/
def escaped (markers : List Marker) : List Char → List Char
  | [] => []
  | c :: rest =>
    match markers.find? fun m => m.opening.isPrefixOf (c :: rest) with
    | some m => m.opening ++ m.escape :: escaped markers (rest.drop (m.opening.length - 1))
    | none => c :: escaped markers rest
termination_by cs => cs.length
decreasing_by
  · simp only [List.length_drop, List.length_cons]
    omega
  · simp

/-! ## One opening at a place -/

theorem opening_eq_cons (m : Marker) : ∃ first tail, m.opening = first :: tail := by
  cases m <;> exact ⟨_, _, rfl⟩

/-- Markers that are apart do not open at the same place. -/
theorem eq_of_opens (h : Apart markers) (hm : m ∈ markers) (hm' : m' ∈ markers)
    (hopens : m.opening <+: cs) (hopens' : m'.opening <+: cs) : m' = m := by
  have hnested := List.prefix_or_prefix_of_prefix hopens hopens'
  obtain ⟨hbrace, hsquare⟩ := h
  cases m <;> cases m' <;> simp_all [opening]

theorem opens?_of_mem (h : Apart markers) (hm : m ∈ markers) (hopens : m.opening <+: cs) :
    opens? markers cs = some m := by
  refine foldl_longer (fun m' hm' => ?_) nofun (.inr ?_)
  · rw [List.mem_filter, List.isPrefixOf_iff_prefix] at hm'
    exact .inl (eq_of_opens h hm hm'.1 hopens hm'.2)
  · rw [List.mem_filter, List.isPrefixOf_iff_prefix]
    exact ⟨hm, hopens⟩

/-! ## What the escaped characters look like -/

theorem escaped_cons (h : ∀ m ∈ markers, ¬m.opening <+: c :: rest) :
    escaped markers (c :: rest) = c :: escaped markers rest := by
  have hnone : (markers.find? fun m => m.opening.isPrefixOf (c :: rest)) = none := by
    refine List.find?_eq_none.mpr fun m hm => ?_
    rw [List.isPrefixOf_iff_prefix]
    exact h m hm
  rw [escaped, hnone]

theorem escaped_opening (h : Apart markers) (hm : m ∈ markers) (rest : List Char) :
    escaped markers (m.opening ++ rest) = m.opening ++ m.escape :: escaped markers rest := by
  obtain ⟨first, tail, hopening⟩ := m.opening_eq_cons
  have hcons : m.opening ++ rest = first :: (tail ++ rest) := by rw [hopening, List.cons_append]
  have hsome : (markers.find? fun m => m.opening.isPrefixOf (first :: (tail ++ rest))) = some m := by
    cases hfound : markers.find? fun m => m.opening.isPrefixOf (first :: (tail ++ rest)) with
    | none =>
      refine absurd ?_ (List.find?_eq_none.mp hfound m hm)
      rw [← hcons, List.isPrefixOf_iff_prefix]
      exact List.prefix_append _ _
    | some m' =>
      have hopens' := List.find?_some hfound
      rw [← hcons, List.isPrefixOf_iff_prefix] at hopens'
      exact congrArg some
        (eq_of_opens h hm (List.mem_of_find?_eq_some hfound) (List.prefix_append _ _) hopens')
  have hdrop : (tail ++ rest).drop (m.opening.length - 1) = rest := by
    rw [hopening]
    exact List.drop_left
  rw [hcons, escaped, hsome]
  dsimp only
  rw [hdrop]

/-- Either an opening stands at the front, or the first character is plain. -/
theorem opens_or_plain (markers : List Marker) (c : Char) (rest : List Char) :
    (∃ m ∈ markers, ∃ more, c :: rest = m.opening ++ more) ∨ ∀ m ∈ markers, ¬m.opening <+: c :: rest := by
  by_cases h : ∃ m ∈ markers, m.opening <+: c :: rest
  · obtain ⟨m, hm, more, hmore⟩ := h
    exact .inl ⟨m, hm, more, hmore.symm⟩
  · exact .inr fun m hm hopens => h ⟨m, hm, hopens⟩

/-- Escapes come after the first character. -/
theorem head?_escaped (h : Apart markers) (cs : List Char) : (escaped markers cs).head? = cs.head? := by
  cases cs with
  | nil => rw [escaped]
  | cons c rest =>
    rcases opens_or_plain markers c rest with ⟨m, hm, more, hcons⟩ | hplain
    · obtain ⟨first, tail, hopening⟩ := m.opening_eq_cons
      rw [hcons, escaped_opening h hm, hopening]
      rfl
    · rw [escaped_cons hplain]
      rfl

/-- No opening starts with a brace, so that none is escaped there. -/
theorem escaped_brace (markers : List Marker) (rest : List Char) :
    escaped markers ('\x7b' :: rest) = '\x7b' :: escaped markers rest := by
  refine escaped_cons fun m _ hopens => ?_
  cases m <;> simp [opening] at hopens

theorem exists_cons_of_prefix_escaped {tail : List Char} (h : Apart markers)
    (hbegins : c :: tail <+: escaped markers rest) : ∃ more, rest = c :: more := by
  obtain ⟨back, hback⟩ := hbegins
  have hhead := head?_escaped h rest
  rw [← hback] at hhead
  exact List.head?_eq_some_iff.mp hhead.symm

/-- Escapes make no opening where there was none. -/
theorem opening_prefix_of_escaped (h : Apart markers) (hopens : m.opening <+: c :: escaped markers rest) :
    m.opening <+: c :: rest := by
  cases m with
  | square => simpa [opening] using hopens
  | brace | doubleSquare =>
    obtain ⟨rfl, hrest⟩ := List.cons_prefix_cons.mp hopens
    obtain ⟨more, rfl⟩ := exists_cons_of_prefix_escaped h hrest
    exact List.prefix_append [_, _] more
  | doubleBrace =>
    obtain ⟨rfl, hrest⟩ := List.cons_prefix_cons.mp hopens
    obtain ⟨more, rfl⟩ := exists_cons_of_prefix_escaped h hrest
    rw [escaped_brace] at hrest
    obtain ⟨more, rfl⟩ := exists_cons_of_prefix_escaped h (List.cons_prefix_cons.mp hrest).2
    exact List.prefix_append [_, _, _] more

/-! ## Reading what was escaped -/

/-- The first piece of escaped characters is plain: an opening without its escape, or one character. -/
theorem exists_front_escaped (h : Apart markers) (hcs : cs ≠ []) :
    ∃ plain more c rest, cs = plain ++ more ∧ escaped markers cs = c :: rest ∧
      (escaped markers more).length ≤ rest.length ∧
      Piece.front markers c rest = .ok (.plain plain, escaped markers more) := by
  obtain ⟨c, rest, rfl⟩ := List.exists_cons_of_ne_nil hcs
  rcases opens_or_plain markers c rest with ⟨m, hm, more, hcons⟩ | hplain
  · obtain ⟨first, tail, hopening⟩ := m.opening_eq_cons
    have hinside : (first :: (tail ++ m.escape :: escaped markers more)).drop m.opening.length =
        m.escape :: escaped markers more := by
      rw [hopening]
      exact List.drop_left
    have hopens : opens? markers (first :: (tail ++ m.escape :: escaped markers more)) = some m := by
      refine opens?_of_mem h hm ?_
      rw [hopening]
      exact List.prefix_append (first :: tail) _
    refine ⟨m.opening, more, first, tail ++ m.escape :: escaped markers more, hcons, ?_, ?_, ?_⟩
    · rw [hcons, escaped_opening h hm, hopening, List.cons_append]
    · simp only [List.length_append, List.length_cons]
      omega
    · unfold Piece.front
      rw [hopens]
      dsimp only
      rw [hinside, List.head?_cons, if_pos rfl]
      rfl
  · refine ⟨[c], rest, c, escaped markers rest, rfl, escaped_cons hplain, Nat.le_refl _, ?_⟩
    exact Part.front_plain fun m hm hopens => hplain m hm (opening_prefix_of_escaped h hopens)

end Marker

namespace Expansion

open Marker (Apart escaped exists_front_escaped)

variable {σ : Type} (env : Environment σ) {markers : List Marker}

/-- Piece by piece, escaped characters give the characters. -/
theorem pieces_escaped (h : Apart markers) (text : String) {cs : List Char} {n : Nat}
    (hn : (escaped markers cs).length ≤ n) :
    pieces env markers text n (escaped markers cs) = pure (String.ofList cs) := by
  induction n generalizing cs with
  | zero =>
    have hnil : cs = [] := by
      by_contra hcs
      obtain ⟨_, _, _, _, _, hcons, _⟩ := exists_front_escaped h hcs
      simp [hcons] at hn
    rw [hnil, escaped, pieces_nil]
  | succ n ih =>
    by_cases hcs : cs = []
    · rw [hcs, escaped, pieces_nil]
    · obtain ⟨plain, more, c, rest, hsplit, hcons, hlength, hfront⟩ := exists_front_escaped h hcs
      rw [hcons, List.length_cons] at hn
      rw [hcons, pieces_cons env hfront, Piece.value, pure_bind, ih (by omega), pure_bind, text_ofChars,
        hsplit, String.ofList_append]

/-- Whatever brackets, braces and dollar signs a text is made of, it is the expansion of its escaped
characters, if there is at most one marker with braces and at most one with square brackets. Nothing is
evaluated for it: the state stays as it is. -/
theorem expand_escaped (h : Apart markers) (text : String) :
    expand env markers (String.ofList (escaped markers text.toList)) = pure (.str text) := by
  have htext : String.ofList text.toList = text := String.ofList_toList
  by_cases hnil : text.toList = []
  · rw [← htext, hnil]
    simp only [String.toList_ofList, escaped]
    rfl
  · obtain ⟨plain, more, c, rest, hsplit, hcons, -, hfront⟩ := exists_front_escaped h hnil
    rw [expand_cons env (by rw [String.toList_ofList, hcons]) hfront, Piece.value, pure_bind,
      pieces_escaped env h _ (Nat.le_refl _), pure_bind, ← htext, hsplit, text_ofChars]
    cases hmore : escaped markers more with
    | nil =>
      have hhead := Marker.head?_escaped h more
      rw [hmore] at hhead
      rw [List.head?_eq_none_iff.mp hhead.symm, List.append_nil]
      rfl
    | cons d tail => simp

/-- Runs of brackets and braces around openings, with markers of both kinds. -/
theorem expand_escaped_runs :
    Apart [.doubleBrace, .square, .doubleBrace] ∧
    String.ofList (escaped [.doubleBrace, .square, .doubleBrace] "$$\x7b\x7b\x7b[[$\x7b[]".toList) =
      "$$\x7b\x7b\x7b\x7b[[[[$\x7b[[]" ∧
    expand echo [.doubleBrace, .square, .doubleBrace] "$$\x7b\x7b\x7b\x7b[[[[$\x7b[[]" 0 =
      some (.ok (.str "$$\x7b\x7b\x7b[[$\x7b[]"), 0) := by
  have hapart : Apart [.doubleBrace, .square, .doubleBrace] := by decide
  have hescaped :
      String.ofList (escaped [.doubleBrace, .square, .doubleBrace] "$$\x7b\x7b\x7b[[$\x7b[]".toList) =
        "$$\x7b\x7b\x7b\x7b[[[[$\x7b[[]" := by
    decide +kernel
  refine ⟨hapart, hescaped, ?_⟩
  rw [← hescaped, expand_escaped echo hapart]
  rfl

end Expansion

end ActionTree
