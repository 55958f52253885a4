import ActionTree.Notation.Multi
import ActionTree.Proofs.Notation.Closing
import Mathlib.Data.List.DropRight

/-!
# Multi-expressions before a terminator

What a text is read as by itself, it is read as in front of a closing bracket that is not in it, whatever
stands before the text and after the bracket; the bracket stays. A comment in the text could reach over
the bracket.
-/

namespace ActionTree.Notation

variable {cs ds rest text : List Char}

/-- No comment starts in the text. -/
def NoComment (cs : List Char) : Prop := ¬['/', '/'] <:+: cs ∧ ¬['/', '*'] <:+: cs

instance (cs : List Char) : Decidable (NoComment cs) := inferInstanceAs (Decidable (_ ∧ _))

theorem NoComment.suffix (h : NoComment cs) (hds : ds <:+ cs) : NoComment ds :=
  ⟨fun hline => h.1 (hline.trans hds.isInfix), fun hblock => h.2 (hblock.trans hds.isInfix)⟩

theorem NoComment.skipSpace_eq (h : NoComment cs) : skipSpace cs = cs.dropWhile Text.isBlank := by
  induction cs with
  | nil => rfl
  | cons c cs ih =>
    have hline : ∀ rest, c = '/' → cs ≠ '/' :: rest := by
      rintro rest rfl rfl
      exact h.1 (List.prefix_append ['/', '/'] rest).isInfix
    have hblock : ∀ rest, c = '/' → cs ≠ '*' :: rest := by
      rintro rest rfl rfl
      exact h.2 (List.prefix_append ['/', '*'] rest).isInfix
    rw [skipSpace, skipSpaceIn_between hline hblock, List.dropWhile_cons]
    split
    · exact ih (h.suffix (List.suffix_cons c cs))
    · rfl

/-- Past the blanks nothing is skipped. -/
theorem NoComment.skipSpace_dropWhile (h : NoComment cs) :
    skipSpace (cs.dropWhile Text.isBlank) = cs.dropWhile Text.isBlank := by
  rw [(h.suffix (List.dropWhile_suffix Text.isBlank)).skipSpace_eq, List.dropWhile_idempotent]

section

variable {d : Char} (hd : d ∈ closers) (more : List Char)

include hd

theorem NoComment.skipSpace_closed (h : NoComment cs) :
    skipSpace (cs ++ d :: more) = skipSpace cs ++ d :: more := by
  by_cases hnil : skipSpace cs = []
  · rw [hnil]
    exact skipSpace_blanks_closed hd more (h.skipSpace_eq ▸ hnil)
  · exact skipSpaceIn_closed hd more hnil

/-- A closing bracket is a token of its own. -/
theorem exists_closing_token :
    ∃ close ∈ Parser.closingSymbols, tokenHere (d :: more) = .ok (.symbol close, more) := by
  simp only [closers, List.mem_cons, List.not_mem_nil, or_false] at hd
  rcases hd with rfl | rfl | rfl
  · exact ⟨.rParen, by decide, rfl⟩
  · exact ⟨.rBracket, by decide, rfl⟩
  · exact ⟨.rBrace, by decide, rfl⟩

end

namespace Parser

variable {d : Char} (hd : d ∈ closers) (more : List Char)

include hd

/-- The text before a closing bracket, and more after it. -/
theorem exists_beside_followed (last : List Char) (htext : NoComment text) : ∃ close,
    Beside last close fun cs _ ds => cs <:+ text ∧ ds = cs ++ d :: more := by
  obtain ⟨close, hclosing, hclose⟩ := exists_closing_token hd more
  refine ⟨close, hclosing, ?_, ?_, ?_⟩
  · rintro cs mid _ t ts ⟨hsuffix, rfl⟩ htoken ht
    obtain ⟨⟨hmid, _⟩, hclosed⟩ := token_closed hd more htoken ht
    exact ⟨_, hclosed, hmid.trans hsuffix, rfl⟩
  · rintro _ rest ⟨hsuffix, rfl⟩ hlast
    have hend : skipSpace last = [] := by
      cases hskip : skipSpace last with
      | nil => rfl
      | cons c cs =>
        rw [token, hskip] at hlast
        exact absurd hlast (tokenHere_ne_eof c cs)
    refine ⟨more, ?_⟩
    rw [token, (htext.suffix hsuffix).skipSpace_closed hd more, hend]
    exact hclose
  · rintro cs _ ts hpasses ⟨_, rfl⟩
    have hle := hpasses.length_le
    rw [List.length_append, List.length_cons]
    omega

theorem segmentExpr_followed {e : Expr} (htext : NoComment text)
    (h : segmentExpr text = .ok (e, rest)) : rest <:+ text ∧ skipSpace rest = rest ∧
      segmentExpr (text ++ d :: more) = .ok (e, rest ++ d :: more) := by
  obtain ⟨⟨e', mid⟩, hexpr, heq⟩ := exists_of_bind_ok h
  cases heq
  obtain ⟨ts, last, hpasses, hlast⟩ := exists_passes text
  obtain ⟨close, B⟩ := exists_beside_followed hd more last htext
  have hlength : text.length + 1 ≤ (text ++ d :: more).length + 1 := by simp
  obtain ⟨ts', _, _, hfollowed⟩ :=
    carries_entry B hlength .assignment true ts hpasses hlast hexpr
  obtain ⟨_, hmore, hmid, rfl⟩ := hfollowed _ ⟨List.suffix_refl text, rfl⟩
  have hskip : skipSpace mid <:+ mid := skipSpaceIn_suffix .between mid
  have hmid' : NoComment mid := htext.suffix hmid
  refine ⟨hskip.trans hmid, ?_, ?_⟩
  · rw [hmid'.skipSpace_eq, hmid'.skipSpace_dropWhile]
  · rw [← hmid'.skipSpace_closed hd more]
    change Except.bind (expression true (text ++ d :: more)) _ = _
    have hmore : expression true (text ++ d :: more) = .ok (e, mid ++ d :: more) := hmore
    rw [hmore]
    rfl

end Parser

namespace Parser

/-! ## Alternatives -/

/-- An alternative other than the last expression, at the front of a text without blanks before it. -/
def alternative (terminators : List Char) : List Char → Parser Segment
  | '$' :: _ | '(' :: _ => .expr <$> segmentExpr
  | [] => pure .empty
  | c :: _ => if endsSegment terminators c then pure .empty else .name <$> segmentName terminators

/-- The alternatives that follow one. -/
def others (terminators : List Char) (n : Nat) (segment : Segment) : Parser (List Segment) := do
  skipBlanks
  match ← get with
  | '|' :: rest =>
    set rest
    return segment :: (← segments terminators n)
  | _ => return [segment]

variable {terminators : List Char} {n : Nat}

theorem skipBlanks_get_apply {α : Type} (f : List Char → Parser α) (cs : List Char) :
    (skipBlanks >>= fun _ => get >>= f) cs = f (cs.dropWhile Text.isBlank) (cs.dropWhile Text.isBlank) :=
  rfl

theorem segments_fallback (h : cs.dropWhile Text.isBlank = '=' :: rest) :
    segments terminators (n + 1) cs =
      (do return [.fallback (← segmentExpr)] : Parser (List Segment)) rest := by
  rw [segments, skipBlanks_get_apply, h]
  rfl

theorem segments_alternative (h : ∀ rest, cs.dropWhile Text.isBlank ≠ '=' :: rest) :
    segments terminators (n + 1) cs =
      (alternative terminators (cs.dropWhile Text.isBlank) >>= others terminators n)
        (cs.dropWhile Text.isBlank) := by
  rw [segments, skipBlanks_get_apply]
  generalize cs.dropWhile Text.isBlank = tail at h
  split
  next rest => exact absurd rfl (h rest)
  next => rfl
  next => rfl
  next => rfl
  next c tail _ hdollar hparen =>
    rw [alternative]
    · split <;> rfl
    · exact hdollar
    · exact hparen

theorem others_bar {segment : Segment} (h : cs.dropWhile Text.isBlank = '|' :: rest) :
    others terminators n segment cs =
      (do return segment :: (← segments terminators n) : Parser (List Segment)) rest := by
  unfold others
  rw [skipBlanks_get_apply, h]
  rfl

theorem others_end {segment : Segment} (h : ∀ rest, cs.dropWhile Text.isBlank ≠ '|' :: rest) :
    others terminators n segment cs = .ok ([segment], cs.dropWhile Text.isBlank) := by
  unfold others
  rw [skipBlanks_get_apply]
  generalize cs.dropWhile Text.isBlank = tail at h
  split
  next rest => exact absurd rfl (h rest)
  next => rfl

theorem alternative_cons {c : Char} (hdollar : c ≠ '$') (hparen : c ≠ '(') :
    alternative terminators (c :: cs) =
      if endsSegment terminators c then pure .empty else .name <$> segmentName terminators := by
  rw [alternative]
  · rintro rfl
    exact hdollar rfl
  · rintro rfl
    exact hparen rfl

section

variable {d : Char} (hd : d ∈ closers) (more : List Char) {segment : Segment}

theorem endsSegment_singleton {c : Char} (h : c ≠ d) : endsSegment [d] c = endsSegment [] c := by
  simp [endsSegment, h]

theorem segmentName_apply (terminators : List Char) (cs : List Char) :
    (Segment.name <$> segmentName terminators) cs =
      .ok (.name (String.ofList (Text.dropWhileEnd Text.isBlank
        (cs.takeWhile fun c => !endsSegment terminators c))),
        cs.dropWhile fun c => !endsSegment terminators c) := rfl

/-- A name goes up to a bar, or to the terminator if that comes first. -/
theorem segmentName_followed (hmem : d ∉ cs)
    (h : (Segment.name <$> segmentName []) cs = .ok (segment, rest)) : rest <:+ cs ∧
      (Segment.name <$> segmentName [d]) (cs ++ d :: more) = .ok (segment, rest ++ d :: more) := by
  have hend : (fun c => !endsSegment [d] c) d = false := by simp [endsSegment]
  have hinside {tail : List Char} (htail : d ∉ tail) :
      tail.takeWhile (fun c => !endsSegment [d] c) = tail.takeWhile (fun c => !endsSegment [] c) ∧
        tail.dropWhile (fun c => !endsSegment [d] c) = tail.dropWhile (fun c => !endsSegment [] c) := by
    induction tail with
    | nil => exact ⟨rfl, rfl⟩
    | cons c tail ih =>
      rw [List.mem_cons, not_or] at htail
      have hc : endsSegment [d] c = endsSegment [] c := endsSegment_singleton (Ne.symm htail.1)
      simp only [List.takeWhile_cons, List.dropWhile_cons, hc, ih htail.2, and_self]
  rw [segmentName_apply] at h
  cases h
  refine ⟨List.dropWhile_suffix _, ?_⟩
  rw [segmentName_apply, takeWhile_closed more hend, dropWhile_closed more hend, (hinside hmem).1,
    (hinside hmem).2]

include hd

theorem alternative_followed (hcs : NoComment cs) (hmem : d ∉ cs)
    (h : alternative [] cs cs = .ok (segment, rest)) : rest <:+ cs ∧
      alternative [d] (cs ++ d :: more) (cs ++ d :: more) = .ok (segment, rest ++ d :: more) := by
  have hdollar : d ≠ '$' := of_mem_closers (fun c => c ≠ '$') hd (by decide)
  have hparen : d ≠ '(' := of_mem_closers (fun c => c ≠ '(') hd (by decide)
  have hexpr (h : (Segment.expr <$> segmentExpr) cs = .ok (segment, rest)) : rest <:+ cs ∧
      (Segment.expr <$> segmentExpr) (cs ++ d :: more) = .ok (segment, rest ++ d :: more) := by
    obtain ⟨⟨e, mid⟩, hsegment, heq⟩ := exists_of_bind_ok h
    cases heq
    obtain ⟨hsuffix, -, hfollowed⟩ := segmentExpr_followed hd more hcs hsegment
    refine ⟨hsuffix, ?_⟩
    change Except.bind (segmentExpr (cs ++ d :: more)) _ = _
    rw [hfollowed]
    rfl
  cases cs with
  | nil =>
    cases h
    have hend : endsSegment [d] d = true := by simp [endsSegment]
    rw [List.nil_append, alternative_cons hdollar hparen, if_pos hend]
    exact ⟨List.suffix_refl [], rfl⟩
  | cons c cs =>
    by_cases hc : c = '$' ∨ c = '('
    · rcases hc with rfl | rfl
      · exact hexpr h
      · exact hexpr h
    · rw [not_or] at hc
      rw [List.mem_cons, not_or] at hmem
      rw [alternative_cons hc.1 hc.2] at h
      rw [List.cons_append, alternative_cons hc.1 hc.2, endsSegment_singleton (Ne.symm hmem.1)]
      split at h
      next hend =>
        cases h
        rw [if_pos hend]
        exact ⟨List.suffix_refl _, rfl⟩
      next hend =>
        rw [if_neg hend]
        exact segmentName_followed more (by simp [hmem.1, hmem.2]) h

/-- What stands between an alternative and the end of the text, if the alternatives after a bar are read
alike. -/
theorem others_followed {n n' : Nat} {segments : List Segment} (hcs : NoComment cs)
    (hrest : skipSpace rest = [])
    (hafter : ∀ after segments, '|' :: after <:+ cs → Parser.segments [] n after = .ok (segments, rest) →
      Parser.segments [d] n' (after ++ d :: more) = .ok (segments, d :: more))
    (h : others [] n segment cs = .ok (segments, rest)) :
    others [d] n' segment (cs ++ d :: more) = .ok (segments, d :: more) := by
  have hblank : Text.isBlank d = false := of_mem_closers (fun c => Text.isBlank c = false) hd (by decide)
  have hbar : d ≠ '|' := of_mem_closers (fun c => c ≠ '|') hd (by decide)
  have hend : (cs ++ d :: more).dropWhile Text.isBlank = cs.dropWhile Text.isBlank ++ d :: more :=
    dropWhile_closed more hblank cs
  by_cases hmore : ∃ after, cs.dropWhile Text.isBlank = '|' :: after
  · obtain ⟨after, hmore⟩ := hmore
    have hsuffix : '|' :: after <:+ cs := hmore ▸ List.dropWhile_suffix Text.isBlank
    rw [others_bar hmore] at h
    obtain ⟨⟨segments', rest'⟩, hsegments, heq⟩ := exists_of_bind_ok h
    cases heq
    rw [others_bar (by rw [hend, hmore]; rfl)]
    change Except.bind (Parser.segments [d] n' (after ++ d :: more)) _ = _
    rw [hafter after segments' hsuffix hsegments]
    rfl
  · have hne : ∀ after, cs.dropWhile Text.isBlank ≠ '|' :: after := fun after heq => hmore ⟨after, heq⟩
    rw [others_end hne] at h
    cases h
    have hnil : cs.dropWhile Text.isBlank = [] := hcs.skipSpace_dropWhile.symm.trans hrest
    rw [others_end (hend ▸ ne_cons_closed more hbar hne), hend, hnil]
    rfl

/-- Alternatives that take up the whole text take up what stands before a terminator. -/
theorem segments_followed {n n' : Nat} {segments : List Segment} (hcs : NoComment cs) (hmem : d ∉ cs)
    (hn : cs.length < n) (hn' : cs.length < n') (h : Parser.segments [] n cs = .ok (segments, rest))
    (hrest : skipSpace rest = []) :
    Parser.segments [d] n' (cs ++ d :: more) = .ok (segments, d :: more) := by
  have hblank : Text.isBlank d = false := of_mem_closers (fun c => Text.isBlank c = false) hd (by decide)
  have hequals : d ≠ '=' := of_mem_closers (fun c => c ≠ '=') hd (by decide)
  induction n generalizing n' cs segments with
  | zero => omega
  | succ n ih =>
    obtain ⟨n', rfl⟩ := Nat.exists_eq_add_one_of_ne_zero (Nat.ne_zero_of_lt hn')
    have hfront : (cs ++ d :: more).dropWhile Text.isBlank = cs.dropWhile Text.isBlank ++ d :: more :=
      dropWhile_closed more hblank cs
    have htail : cs.dropWhile Text.isBlank <:+ cs := List.dropWhile_suffix Text.isBlank
    generalize htext : cs.dropWhile Text.isBlank = tail at hfront htail
    by_cases hfallback : ∃ rest, tail = '=' :: rest
    · obtain ⟨text, rfl⟩ := hfallback
      rw [segments_fallback htext] at h
      obtain ⟨⟨e, mid⟩, hsegment, heq⟩ := exists_of_bind_ok h
      cases heq
      have htext : NoComment text := hcs.suffix ((List.suffix_cons '=' text).trans htail)
      obtain ⟨-, hskip, hfollowed⟩ := segmentExpr_followed hd more htext hsegment
      rw [segments_fallback hfront]
      change Except.bind (segmentExpr (text ++ d :: more)) _ = _
      rw [hfollowed, ← hskip, hrest]
      rfl
    · have hne : ∀ rest, tail ≠ '=' :: rest := fun rest heq => hfallback ⟨rest, heq⟩
      rw [segments_alternative (htext ▸ hne), htext] at h
      rw [segments_alternative (hfront ▸ ne_cons_closed more hequals hne), hfront]
      obtain ⟨⟨segment, mid⟩, halternative, hothers⟩ := exists_of_bind_ok h
      have hmem' : d ∉ tail := fun hd => hmem (htail.subset hd)
      obtain ⟨hmid, hfollowed⟩ := alternative_followed hd more (hcs.suffix htail) hmem' halternative
      change Except.bind (alternative [d] (tail ++ d :: more) (tail ++ d :: more)) _ = _
      rw [hfollowed]
      have hmid' : mid <:+ cs := hmid.trans htail
      refine others_followed hd more (hcs.suffix hmid') hrest (fun after segments' hafter => ?_) hothers
      have hlt : after.length < cs.length := (hafter.trans hmid').length_le
      have hsuffix : after <:+ cs := (List.suffix_cons '|' after).trans (hafter.trans hmid')
      exact ih (hcs.suffix hsuffix) (fun h => hmem (hsuffix.subset h)) (by omega) (by omega)

end

end Parser

/-! ## Whole texts -/

theorem Parser.exists_of_bind_eq_ok {α β : Type} {x : Parser α} {f : α → Parser β} {cs : List Char}
    {p : β × List Char} (h : (x >>= f) cs = .ok p) : ∃ a rest, x cs = .ok (a, rest) ∧ f a rest = .ok p := by
  obtain ⟨⟨a, rest⟩, hx, hf⟩ := exists_of_bind_ok h
  exact ⟨a, rest, hx, hf⟩

/-- What a text is read as by itself. -/
theorem exists_segments_of_parseMulti {text : String} {e : Expr} (h : parseMulti text = .ok e) :
    ∃ segments rest, Parser.segments [] (text.toList.length + 1) text.toList = .ok (segments, rest) ∧
      skipSpace rest = [] ∧ e = .multi segments := by
  unfold parseMulti at h
  dsimp only at h
  split at h
  next e' rest' hwhole =>
    cases h
    obtain ⟨e', cs, hmulti, hend⟩ := Parser.exists_of_bind_eq_ok hwhole
    obtain ⟨⟨segments, rest⟩, hsegments, heq⟩ := exists_of_bind_ok hmulti
    cases heq
    obtain ⟨front, cs', hhere, hlast⟩ := Parser.exists_of_bind_eq_ok hend
    have hfront : skipSpace cs = front := congrArg Prod.fst (Except.ok.inj hhere)
    cases front with
    | nil =>
      cases hlast
      exact ⟨segments, cs, hsegments, hfront, rfl⟩
    | cons c tail => cases hlast
  next => cases h

/-- A text without comments that is read by itself is read as the same in front of a terminator that it
does not contain, whatever stands before it and after the terminator. The terminator is next. -/
theorem multiExpr_followed {text : String} {e : Expr} {d : Char} (hd : d ∈ closers)
    (hcomment : NoComment text.toList) (hmem : d ∉ text.toList) (more : List Char)
    (h : parseMulti text = .ok e) :
    Parser.multiExpr [d] (text.toList ++ d :: more) = .ok (e, d :: more) := by
  obtain ⟨segments, rest, hsegments, hrest, rfl⟩ := exists_segments_of_parseMulti h
  have hlength : text.toList.length < (text.toList ++ d :: more).length + 1 := by
    rw [List.length_append]
    omega
  have hfollowed := Parser.segments_followed hd more hcomment hmem (Nat.lt_succ_self _) hlength hsegments hrest
  change Except.bind (Parser.segments [d] _ _) _ = _
  rw [hfollowed]
  rfl

/-- What a marker encloses is read as it would be by itself: from a place in a text up to a terminator
that it does not contain, whatever stands before the place and after the terminator. -/
theorem multiExpr_within_text (before after : String) {text : String} {t : Char} {e : Expr}
    (ht : t = '\x7d' ∨ t = ']') (hmem : t ∉ text.toList)
    (hcomment : ¬['/', '/'] <:+: text.toList ∧ ¬['/', '*'] <:+: text.toList)
    (h : parseMulti text = .ok e) :
    let whole := (before ++ text ++ String.singleton t ++ after).toList
    let start := before.toList.length
    let stop := start + text.toList.length
    Parser.multiExpr [t] (whole.drop start) = .ok (e, whole.drop stop) ∧ whole[stop]? = some t := by
  have hd : t ∈ closers := by
    rcases ht with rfl | rfl
    · decide
    · decide
  have hstart : (before ++ text ++ String.singleton t ++ after).toList =
      before.toList ++ (text.toList ++ t :: after.toList) := by simp
  have hstop : before.toList ++ (text.toList ++ t :: after.toList) =
      (before.toList ++ text.toList) ++ t :: after.toList := by simp
  have hlength : before.toList.length + text.toList.length = (before.toList ++ text.toList).length := by
    simp
  rw [hstart]
  refine ⟨?_, ?_⟩
  · rw [List.drop_left, hstop, hlength, List.drop_left]
    exact multiExpr_followed hd hcomment hmem after.toList h
  · rw [hstop, hlength, List.getElem?_append_right (Nat.le_refl _), Nat.sub_self]
    rfl

/-- A cast, a position and a last expression before a brace, with what would go on with them after it. -/
theorem multiExpr_within_text_cast : ∃ e,
    parseMulti "$x[1] | (a.b) | (int)$y | = n ?? -2" = .ok e ∧
      Parser.multiExpr ['\x7d'] "$\x7b$x[1] | (a.b) | (int)$y | = n ?? -2\x7d + 1 | //".toList.tail.tail =
        .ok (e, "\x7d + 1 | //".toList) := by
  have hrun : (parseMulti "$x[1] | (a.b) | (int)$y | = n ?? -2").toOption.isSome = true := by
    decide +kernel
  cases hparse : parseMulti "$x[1] | (a.b) | (int)$y | = n ?? -2" with
  | error fault =>
    rw [hparse] at hrun
    cases hrun
  | ok e =>
    have hwithin := multiExpr_within_text "$\x7b" " + 1 | //" (t := '\x7d') (.inl rfl)
      (by decide +kernel) (by decide +kernel) hparse
    exact ⟨e, rfl, hwithin.1⟩

end ActionTree.Notation
