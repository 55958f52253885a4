import ActionTree.Proofs.Notation.Builtin
import ActionTree.Proofs.Notation.Staying
import ActionTree.Proofs.Text.Trim

/-!
# Printing and reading back alternatives

What a multi-expression can be is stated once, as `IsMulti`: every text that is accepted is read as such a
list of alternatives, and every such list is read back from its text.
-/

namespace ActionTree.Notation

open Notation.Parser

/-! ## What is accepted -/

/-- A name that is read up to a bar without the blanks around it, and is not taken for an expression. -/
structure IsAlternativeName (s : String) : Prop where
  ne_empty : s ≠ ""
  bar : '|' ∉ s.toList
  start : ∀ c ∈ ['=', '$', '('], s.toList.head? ≠ some c
  trimmed : Text.trim s = s

/-- An alternative before others. In parentheses a member of a type cannot name a built-in type. -/
inductive IsAlternative : Segment → Prop where
  | name {s : String} : IsAlternativeName s → IsAlternative (.name s)
  | empty : IsAlternative .empty
  | expr {e : Expr} : IsFormed e →
      (∀ type name, e = .property type name →
        (ValueType.builtin? (type ++ "." ++ name)).isSome = false) → IsAlternative (.expr e)

/-- Alternatives in a row, the last of which may be a last expression. -/
inductive IsMulti : List Segment → Prop where
  | last {segment : Segment} : IsAlternative segment → IsMulti [segment]
  | fallback {e : Expr} : IsFormed e → IsMulti [.fallback e]
  | cons {segment : Segment} {segments : List Segment} : IsAlternative segment → IsMulti segments →
      IsMulti (segment :: segments)

theorem IsMulti.ne_nil {segments : List Segment} (h : IsMulti segments) : segments ≠ [] := by
  cases h <;> nofun

theorem IsMulti.isAlternativeName {segments : List Segment} (h : IsMulti segments) {s : String}
    (hs : .name s ∈ segments) : IsAlternativeName s := by
  induction h with
  | last hsegment =>
    cases List.mem_singleton.mp hs
    cases hsegment with
    | name hname => exact hname
  | fallback => cases List.mem_singleton.mp hs
  | cons hsegment _ ih =>
    rcases List.mem_cons.mp hs with rfl | hs
    · cases hsegment with
      | name hname => exact hname
    · exact ih hs

/-- A last expression is the last alternative. -/
theorem IsMulti.fallback_not_mem {segments : List Segment} (h : IsMulti segments) (e : Expr) :
    .fallback e ∉ segments.dropLast := by
  induction h with
  | last | fallback => simp
  | cons hsegment hrest ih =>
    rw [List.dropLast_cons_of_ne_nil hrest.ne_nil, List.mem_cons, not_or]
    refine ⟨?_, ih⟩
    rintro rfl
    cases hsegment

theorem IsAlternativeName.dropWhile_eq {s : String} (h : IsAlternativeName s) :
    s.toList.dropWhile Text.isBlank = s.toList ∧ Text.dropWhileEnd Text.isBlank s.toList = s.toList := by
  apply Text.dropWhile_eq_of_trimList
  rw [← String.toList_ofList (l := Text.trimList Text.isBlank s.toList)]
  exact congrArg String.toList h.trimmed

theorem IsAlternativeName.exists_cons {s : String} (h : IsAlternativeName s) :
    ∃ c cs, s.toList = c :: cs ∧ Text.isBlank c = false := by
  have hfront := h.dropWhile_eq.1
  cases hs : s.toList with
  | nil => exact absurd (String.toList_eq_nil_iff.mp hs) h.ne_empty
  | cons c cs =>
    refine ⟨c, cs, rfl, ?_⟩
    cases hc : Text.isBlank c with
    | false => rfl
    | true =>
      rw [hs, List.dropWhile_cons_of_pos hc] at hfront
      have hle := (List.dropWhile_suffix Text.isBlank (l := cs)).length_le
      rw [hfront, List.length_cons] at hle
      omega

namespace Parser

variable {cs rest : List Char} {segment : Segment} {segments : List Segment}

/-- A name is what stands before a bar, and starts as no other alternative does. -/
theorem isAlternativeName_takeWhile {c : Char} (hblank : Text.isBlank c = false)
    (hend : endsSegment [] c = false) (hstart : c ∉ ['=', '$', '(']) :
    IsAlternativeName (String.ofList (Text.dropWhileEnd Text.isBlank
      ((c :: cs).takeWhile fun c => !endsSegment [] c))) := by
  have htake : ((c :: cs).takeWhile fun c => !endsSegment [] c) =
      c :: cs.takeWhile fun c => !endsSegment [] c := List.takeWhile_cons_of_pos (by rw [hend]; rfl)
  have hbar : '|' ∉ (c :: cs).takeWhile fun c => !endsSegment [] c := fun hmem =>
    absurd (List.all_eq_true.mp List.all_takeWhile '|' hmem) (by decide)
  rw [htake] at hbar ⊢
  rw [Text.dropWhileEnd_cons hblank]
  constructor
  · intro hnil
    have htext := congrArg String.toList hnil
    rw [String.toList_ofList] at htext
    cases htext
  · rw [String.toList_ofList]
    rw [← Text.dropWhileEnd_cons hblank]
    exact fun hmem => hbar ((Text.dropWhileEnd_starts _ _).subset hmem)
  · intro d hd
    rw [String.toList_ofList, List.head?_cons]
    rintro ⟨⟩
    exact hstart hd
  · rw [Text.trim, String.toList_ofList, Text.trimList, List.dropWhile_cons_of_neg (by simp [hblank]),
      ← Text.dropWhileEnd_cons hblank, Text.dropWhileEnd_dropWhileEnd]

theorem yields_segmentExpr : Yields IsFormed segmentExpr :=
  .bind (yields_expression true) fun _ he => .after fun _ => .pure he

theorem isAlternative_of_alternative (hblank : ∀ c, cs.head? = some c → Text.isBlank c = false)
    (hequals : ∀ rest, cs ≠ '=' :: rest) (h : alternative [] cs cs = .ok (segment, rest)) :
    IsAlternative segment := by
  have hexpr {c : Char} {cs : List Char} (hc : c = '$' ∨ c = '(')
      (h : (Segment.expr <$> segmentExpr) (c :: cs) = .ok (segment, rest)) : IsAlternative segment := by
    obtain ⟨⟨e, mid⟩, hsegment, heq⟩ := exists_of_bind_ok h
    cases heq
    refine .expr ?_ ?_
    · exact yields_segmentExpr _ _ _ hsegment
    · rintro type name rfl
      exact builtin?_of_segmentExpr hc hsegment
  cases cs with
  | nil =>
    cases h
    exact .empty
  | cons c cs =>
    by_cases hc : c = '$' ∨ c = '('
    · obtain rfl | rfl := hc
      · exact hexpr (.inl rfl) h
      · exact hexpr (.inr rfl) h
    · rw [not_or] at hc
      rw [alternative_cons hc.1 hc.2] at h
      split at h
      next =>
        cases h
        exact .empty
      next hend =>
        rw [segmentName_apply] at h
        cases h
        have hc' : c ≠ '=' := by
          rintro rfl
          exact hequals cs rfl
        exact .name (isAlternativeName_takeWhile (hblank c rfl) (by simpa using hend) (by simp [hc, hc']))

/-- Every list of alternatives that is read is one that can be written. -/
theorem isMulti_of_segments {n : Nat} (hn : cs.length < n)
    (h : Parser.segments [] n cs = .ok (segments, rest)) : IsMulti segments := by
  induction n generalizing cs segments with
  | zero => omega
  | succ n ih =>
    have hskip : cs.dropWhile Text.isBlank <:+ cs := List.dropWhile_suffix Text.isBlank
    by_cases hfallback : ∃ text, cs.dropWhile Text.isBlank = '=' :: text
    · obtain ⟨text, htext⟩ := hfallback
      rw [segments_fallback htext] at h
      obtain ⟨⟨e, mid⟩, hsegment, heq⟩ := exists_of_bind_ok h
      cases heq
      exact .fallback (yields_segmentExpr _ _ _ hsegment)
    · have hequals : ∀ text, cs.dropWhile Text.isBlank ≠ '=' :: text := fun text heq => hfallback ⟨text, heq⟩
      rw [segments_alternative hequals] at h
      obtain ⟨segment, mid, halternative, hothers⟩ := exists_of_bind_eq_ok h
      have hsegment : IsAlternative segment := by
        refine isAlternative_of_alternative (fun c hc => ?_) hequals halternative
        have hhead := List.head?_dropWhile_not Text.isBlank cs
        rw [hc] at hhead
        simpa using hhead
      have hmid : mid <:+ cs := (drops_alternative _ halternative).trans hskip
      by_cases hbar : ∃ after, mid.dropWhile Text.isBlank = '|' :: after
      · obtain ⟨after, hafter⟩ := hbar
        rw [others_bar hafter] at hothers
        obtain ⟨⟨segments', rest'⟩, hsegments, heq⟩ := exists_of_bind_ok hothers
        cases heq
        have hsuffix : '|' :: after <:+ cs := hafter ▸ (List.dropWhile_suffix Text.isBlank).trans hmid
        have hlength := hsuffix.length_le
        rw [List.length_cons] at hlength
        exact .cons hsegment (ih (by omega) hsegments)
      · rw [others_end fun after heq => hbar ⟨after, heq⟩] at hothers
        cases hothers
        exact .last hsegment

/-! ## What is printed -/

/-- What follows a printed alternative: nothing, or a bar between blanks. -/
def Follows (more : List Char) : Prop := more = [] ∨ ∃ after, more = ' ' :: '|' :: ' ' :: after

theorem Follows.atBar {more : List Char} (h : Follows more) : AtBar more := by
  obtain rfl | ⟨after, rfl⟩ := h
  · exact .nil
  · refine ⟨.symbol .pipe, ' ' :: after, ?_, .inr rfl⟩
    rw [token_blank, token, skipSpace_cons (by decide) (by decide)]
    rfl

theorem Follows.skipSpace_eq {more : List Char} (h : Follows more) :
    skipSpace more = more.dropWhile Text.isBlank := by
  obtain rfl | ⟨after, rfl⟩ := h
  · rfl
  · rw [skipSpace_blank, skipSpace_cons (by decide) (by decide)]
    rfl

theorem others_dropWhile (terminators : List Char) (n : Nat) (segment : Segment) (cs : List Char) :
    others terminators n segment (cs.dropWhile Text.isBlank) = others terminators n segment cs := by
  unfold others
  rw [skipBlanks_get_apply, skipBlanks_get_apply, List.dropWhile_idempotent]

theorem segments_blank (terminators : List Char) (n : Nat) (cs : List Char) :
    Parser.segments terminators (n + 1) (' ' :: cs) = Parser.segments terminators (n + 1) cs := by
  rw [Parser.segments, skipBlanks_get_apply, skipBlanks_get_apply]
  rfl

/-- A printed alternative is read up to what follows it. -/
theorem segments_print_alternative {more : List Char} (hsegment : IsAlternative segment)
    (hplain : ∀ v ∈ segment.literals, v.isPlain = true) (hmore : Follows more) (n : Nat) :
    Parser.segments [] (n + 1) (segment.print.toList ++ more) = others [] n segment more := by
  have hread (cs mid : List Char) (hfirst : (segment.print.toList ++ more).dropWhile Text.isBlank = cs)
      (hequals : ∀ rest, cs ≠ '=' :: rest) (halternative : alternative [] cs cs = .ok (segment, mid))
      (hmid : others [] n segment mid = others [] n segment more) :
      Parser.segments [] (n + 1) (segment.print.toList ++ more) = others [] n segment more := by
    rw [segments_alternative (hfirst ▸ hequals), hfirst, bind_apply_of_ok halternative, hmid]
  cases hsegment with
  | @name s hname =>
    obtain ⟨c, cs, hs, hblank⟩ := hname.exists_cons
    have hstart := hname.start
    have hbar := hname.bar
    rw [hs, List.head?_cons] at hstart
    rw [hs, List.mem_cons, not_or] at hbar
    have hc {d : Char} (hd : d ∈ ['=', '$', '(']) : c ≠ d := fun heq => hstart d hd (congrArg some heq)
    have hends : endsSegment [] c = false := by simpa [endsSegment] using Ne.symm hbar.1
    refine hread (c :: (cs ++ more)) (more.dropWhile fun c => !endsSegment [] c) ?_ ?_ ?_ ?_
    · change (s.toList ++ more).dropWhile Text.isBlank = _
      rw [hs, List.cons_append, List.dropWhile_cons_of_neg (by simp [hblank])]
    · rintro rest ⟨⟩
      exact hc (by decide) rfl
    · have hinside : ∀ d ∈ s.toList, (!endsSegment [] d) = true := by
        intro d hd
        have hne : d ≠ '|' := by
          rintro rfl
          exact hname.bar hd
        simp [endsSegment, hne]
      have hend : Text.dropWhileEnd Text.isBlank (s.toList ++ more.takeWhile fun c => !endsSegment [] c) =
          s.toList := by
        obtain rfl | ⟨after, rfl⟩ := hmore
        · rw [List.takeWhile_nil, List.append_nil]
          exact hname.dropWhile_eq.2
        · exact (Text.dropWhileEnd_append_singleton (by decide) s.toList).trans hname.dropWhile_eq.2
      rw [alternative_cons (hc (by decide)) (hc (by decide)), if_neg (by simp [hends]),
        segmentName_apply, ← List.cons_append, ← hs, List.takeWhile_append_of_pos hinside,
        List.dropWhile_append_of_pos hinside, hend, String.ofList_toList]
    · rw [← others_dropWhile, ← others_dropWhile [] n _ more]
      obtain rfl | ⟨after, rfl⟩ := hmore
      · rfl
      · rfl
  | empty =>
    refine hread (more.dropWhile Text.isBlank) (more.dropWhile Text.isBlank) rfl ?_ ?_
      (others_dropWhile [] n _ more)
    · obtain rfl | ⟨after, rfl⟩ := hmore <;> rintro rest ⟨⟩
    · obtain rfl | ⟨after, rfl⟩ := hmore
      · rfl
      · rfl
  | @expr e he hbuiltin =>
    have hprint : (Segment.expr e).print.toList ++ more = '(' :: (e.print.toList ++ ')' :: more) := by
      simp [Segment.print]
    have hwritable : e.Formed IsWritable := he.of_literals hplain
    have htokens : ¬BuiltinTokens e.tokens := by
      intro h
      obtain ⟨type, name, rfl, hsome⟩ := hwritable.exists_of_builtinTokens h
      rw [hbuiltin type name rfl] at hsome
      cases hsome
    refine hread ('(' :: (e.print.toList ++ ')' :: more)) (more.dropWhile Text.isBlank) ?_
      (by simp) ?_ (others_dropWhile [] n _ more)
    · rw [hprint]
      rfl
    · have hexpr := segmentExpr_print hwritable htokens hmore.atBar
      rw [hmore.skipSpace_eq] at hexpr
      change (Segment.expr <$> segmentExpr) _ = _
      rw [map_eq_pure_bind, bind_apply_of_ok hexpr]
      rfl

/-- A printed last expression is read to the end. -/
theorem segments_print_fallback {e : Expr} (he : e.Formed IsWritable) (n : Nat) :
    Parser.segments [] (n + 1) (Segment.fallback e).print.toList = .ok ([.fallback e], []) := by
  have hread (text : List Char) (hprint : (Segment.fallback e).print.toList = '=' :: text)
      (hexpr : segmentExpr text = .ok (e, [])) :
      Parser.segments [] (n + 1) (Segment.fallback e).print.toList = .ok ([.fallback e], []) := by
    have hfirst : ('=' :: text).dropWhile Text.isBlank = '=' :: text := rfl
    rw [hprint, segments_fallback hfirst, bind_apply_of_ok hexpr]
    rfl
  by_cases hproperty : ∃ type name, e = .property type name
  · obtain ⟨type, name, rfl⟩ := hproperty
    refine hread _ ?_ (segmentExpr_property he)
    simp [Segment.print]
  · have htokens : ¬BuiltinTokens e.tokens := by
      intro h
      obtain ⟨type, name, heq, -⟩ := he.exists_of_builtinTokens h
      exact hproperty ⟨type, name, heq⟩
    refine hread ('(' :: (e.print.toList ++ [')'])) ?_ (segmentExpr_print he htokens .nil)
    rw [Segment.print]
    · simp
    · intro type name heq
      exact hproperty ⟨type, name, heq⟩

/-- Every list of alternatives that can be written is read back, to the end of its text. -/
theorem segments_print (h : IsMulti segments) (hplain : ∀ v ∈ Segment.literalsAll segments, v.isPlain = true)
    {n : Nat} (hn : (Segment.printAll segments).toList.length < n) :
    Parser.segments [] n (Segment.printAll segments).toList = .ok (segments, []) := by
  obtain ⟨n, rfl⟩ := Nat.exists_eq_add_one_of_ne_zero (Nat.ne_zero_of_lt hn)
  have hsingle (segment : Segment) : Segment.printAll [segment] = segment.print := String.intercalate_singleton
  have hliterals {segment : Segment} {segments : List Segment}
      (hplain : ∀ v ∈ Segment.literalsAll (segment :: segments), v.isPlain = true) :
      (∀ v ∈ segment.literals, v.isPlain = true) ∧
        ∀ v ∈ Segment.literalsAll segments, v.isPlain = true := by
    rwa [Segment.literalsAll, List.forall_mem_append] at hplain
  induction h generalizing n with
  | @last segment hsegment =>
    have hread := segments_print_alternative hsegment (hliterals hplain).1 (.inl rfl) n
    rw [List.append_nil] at hread
    exact hsingle segment ▸ hread.trans (others_end fun _ => nofun)
  | @fallback e he =>
    rw [hsingle]
    exact segments_print_fallback (he.of_literals (hliterals hplain).1) n
  | @cons segment segments hsegment hrest ih =>
    have hprint : (Segment.printAll (segment :: segments)).toList =
        segment.print.toList ++ ' ' :: '|' :: ' ' :: (Segment.printAll segments).toList := by
      cases segments with
      | nil => exact absurd rfl hrest.ne_nil
      | cons next segments =>
        rw [Segment.printAll, List.map_cons, List.map_cons, String.intercalate_cons_cons]
        simp [Segment.printAll]
    rw [hprint, List.length_append] at hn
    simp only [List.length_cons] at hn
    obtain ⟨n, rfl⟩ := Nat.exists_eq_add_one_of_ne_zero (show n ≠ 0 by omega)
    have hbar : (' ' :: '|' :: ' ' :: (Segment.printAll segments).toList).dropWhile Text.isBlank =
        '|' :: ' ' :: (Segment.printAll segments).toList := rfl
    rw [hprint, segments_print_alternative hsegment (hliterals hplain).1 (.inr ⟨_, rfl⟩), others_bar hbar]
    have hread := ih (hliterals hplain).2 n (by omega)
    rw [bind_apply_of_ok ((segments_blank [] n _).trans hread)]
    rfl

end Parser

/-- A text that is accepted is read as a list of alternatives that is not empty, with a last expression in
the last place only and names that can stand between bars; and what is printed for them, if their literals
are plain, is read as the same alternatives. -/
theorem parseMulti_printAll {text : String} {e : Expr} (h : parseMulti text = .ok e) :
    ∃ segments, e = .multi segments ∧ segments ≠ [] ∧
      (∀ e, .fallback e ∉ segments.dropLast) ∧
      (∀ s, .name s ∈ segments → s ≠ "" ∧ '|' ∉ s.toList ∧
        (∀ c ∈ ['=', '$', '('], s.toList.head? ≠ some c) ∧ Text.trim s = s) ∧
      ((∀ v ∈ e.literals, v.isPlain = true) →
        parseMulti (Segment.printAll segments) = .ok (.multi segments)) := by
  obtain ⟨segments, rest, hsegments, -, rfl⟩ := exists_segments_of_parseMulti h
  have hmulti := isMulti_of_segments (Nat.lt_succ_self _) hsegments
  refine ⟨segments, rfl, hmulti.ne_nil, hmulti.fallback_not_mem, fun s hs => ?_, fun hplain => ?_⟩
  · have hname := hmulti.isAlternativeName hs
    exact ⟨hname.ne_empty, hname.bar, hname.start, hname.trimmed⟩
  · rw [Expr.literals] at hplain
    have hread := segments_print hmulti hplain (Nat.lt_succ_self _)
    have hmultiExpr : multiExpr [] (Segment.printAll segments).toList = .ok (.multi segments, []) := by
      change Except.bind (Parser.segments [] _ _) _ = _
      rw [hread]
      rfl
    have hhere : here [] = .ok ([], []) := rfl
    unfold parseMulti
    dsimp only
    rw [bind_apply_of_ok hmultiExpr, bind_apply_of_ok hhere]
    rfl

/-- The alternatives of the next theorem, by what is printed of each. -/
def isBarsRow : Expr → Bool
  | .multi [.name s, .expr l, .expr r, .empty, .fallback (.property type name)] =>
    decide (s.toList = "a b".toList ∧ spell l.tokens = "$x || 1 | 2".toList ∧
      spell r.tokens = "T.M".toList ∧ spell (Expr.property type name).tokens = "System.Int32".toList)
  | _ => false

/-- Bars inside of brackets and double bars are part of an alternative; parentheses that are not needed
are left out. -/
theorem parseMulti_printAll_bars : ∃ e,
    parseMulti "a b| $x||((1|2)) |(T.M)| |=System.Int32" = .ok e ∧
      parseMulti "a b | ($x || 1 | 2) | (T.M) |  | =System.Int32" = .ok e := by
  have hrun : (parseMulti "a b| $x||((1|2)) |(T.M)| |=System.Int32").toOption.any (fun e =>
      decide (∀ v ∈ e.literals, v.isPlain = true) && isBarsRow e) = true := by decide +kernel
  cases hparse : parseMulti "a b| $x||((1|2)) |(T.M)| |=System.Int32" with
  | error fault =>
    rw [hparse] at hrun
    cases hrun
  | ok e =>
    rw [hparse] at hrun
    obtain ⟨segments, rfl, -, -, -, hround⟩ := parseMulti_printAll hparse
    obtain ⟨hplain, hprint⟩ := Bool.and_eq_true_iff.mp hrun
    have hround := hround (of_decide_eq_true hplain)
    unfold isBarsRow at hprint
    split at hprint
    next s l r type name heq =>
      cases heq
      obtain ⟨hs, hl, hr, hlast⟩ := of_decide_eq_true hprint
      have htext : Segment.printAll [.name s, .expr l, .expr r, .empty, .fallback (.property type name)] =
          "a b | ($x || 1 | 2) | (T.M) |  | =System.Int32" := by
        simp only [Segment.printAll, List.map_cons, List.map_nil, Segment.print, Expr.print, hl, hr, hlast,
          String.toList_inj.mp hs, String.ofList_toList]
        decide
      exact ⟨_, rfl, htext ▸ hround⟩
    next => cases hprint

end ActionTree.Notation
