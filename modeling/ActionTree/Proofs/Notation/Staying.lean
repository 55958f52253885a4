import ActionTree.Proofs.Notation.Delimited
import ActionTree.Proofs.Notation.Faults

/-!
# Parsers stay in the text

What a parser leaves of a text is an end of it, and where it fails is a place in it that its fault is about.
-/

namespace ActionTree.Notation

theorem token_drops {cs rest : List Char} {t : Token} (h : token cs = .ok (t, rest)) : rest <:+ cs := by
  by_cases ht : t = .eof
  · cases hskip : skipSpace cs with
    | nil =>
      rw [token, hskip] at h
      cases h
      exact List.nil_suffix
    | cons c more =>
      rw [token, hskip, ht] at h
      exact absurd h (tokenHere_ne_eof c more)
  · exact token_suffix h ht

namespace Parser

variable {α β : Type} {text : List Char}

/-- From every end of the text the parser leaves an end of the text, or has a fault that lies in it. -/
structure StaysIn (text : List Char) (x : Parser α) : Prop where
  left : ∀ ⦃cs a rest⦄, cs <:+ text → x cs = .ok (a, rest) → rest <:+ text
  fault : ∀ ⦃cs e⦄, cs <:+ text → x cs = .error e → e.LiesIn text

namespace StaysIn

variable {x : Parser α} {f : α → Parser β}

theorem pure (a : α) : StaysIn text (pure a) where
  left _ _ _ hcs h := by
    cases h
    exact hcs
  fault _ _ _ h := by cases h

theorem bind (hx : StaysIn text x) (hf : ∀ a, StaysIn text (f a)) : StaysIn text (x >>= f) where
  left cs b rest hcs h := by
    obtain ⟨⟨a, mid⟩, hxa, hfa⟩ := exists_of_bind_ok h
    exact (hf a).left (hx.left hcs hxa) hfa
  fault cs e hcs h := by
    cases hxa : x cs with
    | error e' =>
      refine hx.fault hcs (hxa.trans ?_)
      change Except.bind (x cs) _ = _ at h
      rw [hxa] at h
      exact congrArg Except.error (Except.error.inj h)
    | ok r =>
      change Except.bind (x cs) _ = _ at h
      rw [hxa] at h
      exact (hf r.1).fault (hx.left hcs hxa) h

theorem map (f : α → β) (hx : StaysIn text x) : StaysIn text (f <$> x) := by
  rw [map_eq_pure_bind]
  exact hx.bind fun a => pure (f a)

/-- What follows may depend on the text that is left. -/
theorem get {f : List Char → Parser α} (h : ∀ cs, cs <:+ text → StaysIn text (f cs)) :
    StaysIn text (MonadState.get >>= f) :=
  ⟨fun cs _ _ hcs heq => (h cs hcs).left hcs heq, fun cs _ hcs heq => (h cs hcs).fault hcs heq⟩

/-- The parser may go back to what was left before. -/
theorem set {cs : List Char} (h : cs <:+ text) : StaysIn text (MonadStateOf.set cs : Parser PUnit) where
  left _ _ _ _ heq := by
    cases heq
    exact h
  fault _ _ _ heq := by cases heq

/-- What follows may fail at the token that is next here. -/
theorem here {f : List Char → Parser α}
    (h : ∀ start, start <:+ text → skipSpace start = start → StaysIn text (f start)) :
    StaysIn text (here >>= f) where
  left cs _ _ hcs heq := (h (skipSpace cs) ((skipSpaceIn_suffix _ cs).trans hcs)
    (skipSpace_skipSpace cs)).left hcs heq
  fault cs _ hcs heq := (h (skipSpace cs) ((skipSpaceIn_suffix _ cs).trans hcs)
    (skipSpace_skipSpace cs)).fault hcs heq

/-- A parser that goes on in the text like one that stays in it. -/
theorem of_apply_eq (h : ∀ cs, cs <:+ text → ∃ (y : Parser α) (mid : List Char),
    StaysIn text y ∧ mid <:+ text ∧ x cs = y mid) : StaysIn text x where
  left cs a rest hcs heq := by
    obtain ⟨y, mid, hy, hmid, hxy⟩ := h cs hcs
    exact hy.left hmid (hxy.symm.trans heq)
  fault cs e hcs heq := by
    obtain ⟨y, mid, hy, hmid, hxy⟩ := h cs hcs
    exact hy.fault hmid (hxy.symm.trans heq)

theorem attempt {x : Parser (Option α)} (hx : StaysIn text x) : StaysIn text (attempt x) := by
  refine .get fun start hstart => hx.bind fun a? => ?_
  split
  · exact .pure _
  · exact (StaysIn.set hstart).bind fun _ => .pure none

end StaysIn

theorem staysIn_error {e : LocatedFault} (h : e.LiesIn text) : StaysIn text (fun _ => .error e : Parser α) where
  left _ _ _ _ heq := by cases heq
  fault _ _ _ heq := by
    cases heq
    exact h

theorem staysIn_failAt {rest : List Char} {fault : SyntaxFault} (hrest : rest <:+ text)
    (h : ∀ before, fault.HoldsAt before rest) : StaysIn text (failAt rest fault : Parser α) :=
  staysIn_error (liesIn_of_holdsAt hrest h)

theorem staysIn_next : StaysIn text next :=
  ⟨fun _ _ _ hcs h => (token_drops h).trans hcs, fun _ _ hcs h => (liesIn_of_token h).of_suffix hcs⟩

theorem staysIn_peek : StaysIn text peek where
  left cs t rest hcs h := by
    obtain ⟨r, _, heq⟩ := exists_of_map_ok h
    cases heq
    exact hcs
  fault cs e hcs h := (liesIn_of_token (error_of_map h)).of_suffix hcs

theorem staysIn_take? (p : Token → Option α) : StaysIn text (take? p) where
  left cs a? rest hcs h := by
    obtain ⟨⟨t, mid⟩, htoken, h⟩ := exists_of_bind_ok h
    dsimp only at h
    split at h
    · cases h
      exact (token_drops htoken).trans hcs
    · cases h
      exact hcs
  fault cs e hcs h := by
    change Except.bind (token cs) _ = _ at h
    cases htoken : token cs with
    | error e' =>
      rw [htoken] at h
      cases h
      exact (liesIn_of_token htoken).of_suffix hcs
    | ok r =>
      rw [htoken] at h
      dsimp only [Except.bind] at h
      split at h <;> cases h

/-- The token that is found is the one at the place of the fault. -/
theorem staysIn_unexpected (what : String) : StaysIn text (unexpected what : Parser α) := by
  refine .of_apply_eq fun cs hcs => ?_
  cases htoken : token cs with
  | error e =>
    refine ⟨_, cs, staysIn_error ((liesIn_of_token htoken).of_suffix hcs), hcs, ?_⟩
    change Except.bind ((token cs).map _) _ = _
    rw [htoken]
    rfl
  | ok r =>
    refine ⟨failAt (skipSpace cs) (.expected what r.1.describe), cs, ?_, hcs, ?_⟩
    · refine staysIn_failAt ((skipSpaceIn_suffix .between cs).trans hcs) fun _ => ?_
      refine ⟨skipSpace_skipSpace cs, r.1, r.2, ?_, rfl⟩
      rw [token, skipSpace_skipSpace]
      exact htoken
    · change Except.bind ((token cs).map _) _ = _
      rw [htoken]
      rfl

theorem staysIn_eat (s : Symbol) : StaysIn text (eat s) := by
  rw [eat_eq_take?]
  exact (staysIn_take? _).map _

theorem staysIn_connective? (ops : List (Symbol × Connective)) : StaysIn text (connective? ops) := by
  rw [connective?_eq_take?]
  exact staysIn_take? _

theorem staysIn_expect (s : Symbol) : StaysIn text (expect s) := by
  refine (staysIn_eat s).bind fun passed => ?_
  split
  · exact .pure ()
  · exact staysIn_unexpected _

theorem staysIn_expectName : StaysIn text expectName := by
  refine staysIn_peek.bind fun t => ?_
  split
  · exact staysIn_next.bind fun _ => .pure _
  · exact staysIn_unexpected _

theorem staysIn_expectEnd : StaysIn text expectEnd := by
  refine staysIn_peek.bind fun t => ?_
  split
  · exact .pure ()
  · exact staysIn_unexpected _

theorem staysIn_typeNameRest (n : Nat) (name : String) : StaysIn text (typeNameRest n name) := by
  induction n generalizing name with
  | zero => exact .pure name
  | succ n ih =>
    refine (staysIn_eat .dot).bind fun passed => ?_
    split
    · exact staysIn_expectName.bind fun part => ih _
    · exact .pure name

theorem staysIn_typeName : StaysIn text typeName :=
  staysIn_expectName.bind fun name => .get fun cs _ => staysIn_typeNameRest cs.length name

/-! ## The grammar -/

section

variable {again : Again} (hagain : ∀ entry barEnds, StaysIn text (again entry barEnds))

include hagain

theorem staysIn_itemsRest (close : Symbol) (n : Nat) : StaysIn text (itemsRest again close n) := by
  induction n with
  | zero => exact staysIn_unexpected _
  | succ n ih =>
    refine (hagain _ _).bind fun e => (staysIn_eat .comma).bind fun passed => ?_
    split
    · exact ih.bind fun _ => .pure _
    · exact (staysIn_expect close).bind fun _ => .pure _

theorem staysIn_items (close : Symbol) : StaysIn text (items again close) := by
  refine (staysIn_eat close).bind fun passed => ?_
  split
  · exact .pure []
  · exact .get fun cs _ => staysIn_itemsRest hagain close _

theorem staysIn_arguments : StaysIn text (arguments again) :=
  (staysIn_expect .lParen).bind fun _ => staysIn_items hagain .rParen

/-- The items of an array, or the length of one whose type is known. -/
theorem staysIn_newArray_rest (element : Option String) : StaysIn text (do
    expect .lBracket
    if ← eat .rBracket then
      expect .lBrace
      return .array element (← items again .rBrace)
    match element with
    | none => unexpected "']' in 'new[]'"
    | some type =>
      let length ← again .assignment false
      expect .rBracket
      return .newArray type length : Parser Expr) := by
  refine (staysIn_expect _).bind fun _ => (staysIn_eat _).bind fun passed => ?_
  split
  · exact (staysIn_expect _).bind fun _ => (staysIn_items hagain _).bind fun _ => .pure _
  · cases element with
    | none => exact staysIn_unexpected _
    | some type => exact (hagain _ _).bind fun e => (staysIn_expect _).bind fun _ => .pure _

theorem staysIn_newArray : StaysIn text (newArray again) := by
  have hrest := staysIn_newArray_rest hagain
  refine staysIn_peek.bind fun t => ?_
  split
  · exact (StaysIn.pure _).bind hrest
  · exact (staysIn_typeName.map some).bind hrest
  · exact (staysIn_unexpected _).bind hrest

theorem staysIn_named (name : String) : StaysIn text (named again name) := by
  unfold named
  split
  · exact .pure _
  · exact .pure _
  · exact .pure _
  · exact staysIn_newArray hagain
  · refine staysIn_peek.bind fun t => ?_
    split
    · exact (staysIn_arguments hagain).bind fun _ => .pure _
    · refine staysIn_next.bind fun _ => staysIn_expectName.bind fun member => staysIn_peek.bind fun t => ?_
      split
      · exact (staysIn_arguments hagain).bind fun _ => .pure _
      · exact .pure _
    · exact .pure _

theorem staysIn_primary : StaysIn text (primary again) := by
  rw [primary_eq]
  refine staysIn_peek.bind fun t => ?_
  split
  · exact staysIn_next.bind fun _ => (hagain _ _).bind fun e => (staysIn_expect _).bind fun _ => .pure e
  · exact staysIn_next.bind fun _ => (staysIn_items hagain _).bind fun _ => .pure _
  · exact staysIn_next.bind fun _ => .pure _
  · exact staysIn_next.bind fun _ => .pure _
  · exact staysIn_next.bind fun _ => .pure _
  · exact staysIn_next.bind fun _ => staysIn_named hagain _
  · exact staysIn_unexpected _

theorem staysIn_suffixes (n : Nat) (e : Expr) : StaysIn text (suffixes again n e) := by
  induction n generalizing e with
  | zero => exact .pure e
  | succ n ih =>
    refine (staysIn_eat .dot).bind fun dot => ?_
    split
    · refine staysIn_expectName.bind fun name => staysIn_peek.bind fun t => ?_
      split
      · exact (staysIn_arguments hagain).bind fun args => ih _
      · exact ih _
    · refine (staysIn_eat .lBracket).bind fun bracket => ?_
      split
      · exact (hagain _ _).bind fun position => (staysIn_expect _).bind fun _ => ih _
      · exact .pure e

theorem staysIn_operand : StaysIn text (operand again) :=
  (staysIn_primary hagain).bind fun e => .get fun cs _ => staysIn_suffixes hagain cs.length e

omit hagain in
theorem staysIn_castType? : StaysIn text castType? := by
  refine staysIn_peek.bind fun t => ?_
  split
  · refine staysIn_typeName.bind fun type => (staysIn_eat .lBracket).bind fun bracket => ?_
    have hrest (isArray : Bool) : StaysIn text (do
        if bracket && !isArray then return none
        if ← eat .rParen then return some (type, isArray)
        if isArray then unexpected "')' after array cast type"
        return none) := by
      split
      · exact .pure none
      refine (staysIn_eat .rParen).bind fun closed => ?_
      split
      · exact .pure _
      dsimp only
      split
      · exact (staysIn_unexpected _).bind fun _ => .pure none
      · exact .pure none
    dsimp only
    split
    · exact (staysIn_eat _).bind hrest
    · exact (StaysIn.pure _).bind hrest
  · exact .pure none

theorem staysIn_cast? (barEnds : Bool) : StaysIn text (cast? again barEnds) := by
  rw [cast?_eq_attempt]
  refine .attempt (staysIn_next.bind fun _ => staysIn_castType?.bind fun type? => ?_)
  split
  · exact .pure none
  · refine staysIn_peek.bind fun t => ?_
    split
    · exact (hagain _ _).bind fun e => .pure _
    dsimp only
    split
    · exact (staysIn_unexpected _).bind fun _ => .pure none
    · exact .pure none

theorem staysIn_unary (barEnds : Bool) : StaysIn text (unary again barEnds) := by
  refine staysIn_peek.bind fun t => ?_
  split
  · refine (staysIn_cast? hagain barEnds).bind fun e? => ?_
    split
    · exact .pure _
    · exact staysIn_operand hagain
  · split
    · exact staysIn_next.bind fun _ => (hagain _ _).bind fun e => .pure _
    · exact staysIn_operand hagain
  · exact staysIn_operand hagain

omit hagain in
theorem staysIn_joined {ops : List (Symbol × Connective)} {operand : Parser Expr} (hoperand : StaysIn text operand)
    (n : Nat) (left : Expr) : StaysIn text (joined ops operand n left) := by
  induction n generalizing left with
  | zero => exact .pure left
  | succ n ih =>
    refine (staysIn_connective? ops).bind fun c => ?_
    split
    · exact hoperand.bind fun right => ih _
    · exact .pure left

omit hagain in
theorem staysIn_leveled {operand : Parser Expr} (hoperand : StaysIn text operand)
    (levels : List (List (Symbol × Connective))) : StaysIn text (leveled operand levels) := by
  induction levels with
  | nil => exact hoperand
  | cons ops tighter ih => exact ih.bind fun left => .get fun cs _ => staysIn_joined ih cs.length left

theorem staysIn_coalesce (barEnds : Bool) : StaysIn text (coalesce again barEnds) := by
  refine (staysIn_leveled (staysIn_unary hagain barEnds) _).bind fun l => (staysIn_eat _).bind fun passed => ?_
  split
  · exact (hagain _ _).bind fun r => .pure _
  · exact .pure l

theorem staysIn_ternary (barEnds : Bool) : StaysIn text (ternary again barEnds) := by
  refine (staysIn_coalesce hagain barEnds).bind fun c => (staysIn_eat _).bind fun passed => ?_
  split
  · exact (hagain _ _).bind fun t => (staysIn_expect _).bind fun _ => (hagain _ _).bind fun e => .pure _
  · exact .pure c

theorem staysIn_assignment (barEnds : Bool) : StaysIn text (assignment again barEnds) := by
  refine .here fun start hstart hskip => (staysIn_ternary hagain barEnds).bind fun l => ?_
  refine staysIn_peek.bind fun t => ?_
  split
  · exact .pure l
  · split
    · exact staysIn_failAt hstart fun _ => hskip
    · exact staysIn_next.bind fun _ => (hagain _ _).bind fun e => .pure _

end

theorem staysIn_enter (n : Nat) (entry : Entry) (barEnds : Bool) : StaysIn text (enter n entry barEnds) := by
  induction n generalizing entry barEnds with
  | zero => exact staysIn_unexpected _
  | succ n ih =>
    cases entry with
    | assignment => exact staysIn_assignment ih barEnds
    | ternary => exact staysIn_ternary ih barEnds
    | coalesce => exact staysIn_coalesce ih barEnds
    | unary => exact staysIn_unary ih barEnds

theorem staysIn_expression (barEnds : Bool) : StaysIn text (expression barEnds) :=
  .get fun _ _ => staysIn_enter _ _ _

/-! ## Multi-expressions -/

theorem staysIn_modify {f : List Char → List Char} (h : ∀ cs, f cs <:+ cs) :
    StaysIn text (modify f : Parser PUnit) :=
  .get fun cs hcs => .set ((h cs).trans hcs)

theorem staysIn_segmentExpr : StaysIn text segmentExpr :=
  (staysIn_expression true).bind fun e =>
    (staysIn_modify (skipSpaceIn_suffix .between)).bind fun _ => .pure e

theorem staysIn_segmentName (terminators : List Char) : StaysIn text (segmentName terminators) := by
  refine .of_apply_eq fun cs hcs => ⟨_, _, .pure _, ?_, rfl⟩
  exact (List.dropWhile_suffix _).trans hcs

variable {terminators : List Char}

theorem staysIn_alternative (front : List Char) : StaysIn text (alternative terminators front) := by
  unfold alternative
  split
  · exact staysIn_segmentExpr.map _
  · exact staysIn_segmentExpr.map _
  · exact .pure _
  · split
    · exact .pure _
    · exact (staysIn_segmentName terminators).map _

theorem staysIn_others {n : Nat} (hsegments : StaysIn text (segments terminators n)) (segment : Segment) :
    StaysIn text (others terminators n segment) := by
  refine .of_apply_eq fun cs hcs => ?_
  have hblanks : cs.dropWhile Text.isBlank <:+ text := (List.dropWhile_suffix _).trans hcs
  by_cases hbar : ∃ more, cs.dropWhile Text.isBlank = '|' :: more
  · obtain ⟨more, hmore⟩ := hbar
    rw [hmore] at hblanks
    exact ⟨_, _, hsegments.bind fun _ => .pure _, (List.suffix_cons '|' more).trans hblanks, others_bar hmore⟩
  · have hne : ∀ more, cs.dropWhile Text.isBlank ≠ '|' :: more := fun more heq => hbar ⟨more, heq⟩
    exact ⟨_, _, .pure _, hblanks, others_end hne⟩

theorem staysIn_segments (n : Nat) : StaysIn text (segments terminators n) := by
  induction n with
  | zero => exact .pure []
  | succ n ih =>
    refine .of_apply_eq fun cs hcs => ?_
    have hblanks : cs.dropWhile Text.isBlank <:+ text := (List.dropWhile_suffix _).trans hcs
    by_cases hfallback : ∃ more, cs.dropWhile Text.isBlank = '=' :: more
    · obtain ⟨more, hmore⟩ := hfallback
      rw [hmore] at hblanks
      exact ⟨_, _, staysIn_segmentExpr.bind fun _ => .pure _, (List.suffix_cons '=' more).trans hblanks,
        segments_fallback hmore⟩
    · have hne : ∀ more, cs.dropWhile Text.isBlank ≠ '=' :: more := fun more heq => hfallback ⟨more, heq⟩
      exact ⟨_, _, (staysIn_alternative _).bind (staysIn_others ih), hblanks, segments_alternative hne⟩

theorem staysIn_multiExpr : StaysIn text (multiExpr terminators) :=
  .get fun _ _ => (staysIn_segments _).bind fun _ => .pure _

/-! ## What is left -/

theorem drops_alternative {cs rest : List Char} {segment : Segment} (front : List Char)
    (h : alternative terminators front cs = .ok (segment, rest)) : rest <:+ cs :=
  (staysIn_alternative front).left (List.suffix_refl cs) h

theorem drops_multiExpr {cs rest : List Char} {e : Expr} (h : multiExpr terminators cs = .ok (e, rest)) :
    rest <:+ cs :=
  staysIn_multiExpr.left (List.suffix_refl cs) h

end Parser

end ActionTree.Notation
