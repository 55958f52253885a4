import ActionTree.Notation.Multi
import ActionTree.Proofs.Notation.Parentheses
import ActionTree.Proofs.Notation.RoundTrip

/-!
# Printed expressions in parentheses

An expression that is printed in parentheses is read back where a bar ends it, whatever stands after the
bar: that text need not even have tokens.
-/

namespace ActionTree.Notation

variable {cs mid more : List Char} {t : Token} {ts : List Token} {e : Expr}

/-! ## Printed tokens -/

theorem Passes.blank {last : List Char} (h : Passes cs ts last) (hts : ts ≠ []) :
    Passes (' ' :: cs) ts last := by
  cases h with
  | none => exact absurd rfl hts
  | step htoken ht hrest => exact .step (by rw [token_blank, htoken]) ht hrest

/-- Nothing is left after the last token that is spelled. -/
theorem passes_spell (h : ∀ t ∈ ts, t.Proper) : Passes (spell ts) ts [] := by
  induction ts with
  | nil => exact .none []
  | cons t ts ih =>
    rw [List.forall_mem_cons] at h
    obtain ⟨tail, hspell, hend, -⟩ := spell_cons h.1 h.2
    rw [hspell]
    refine .step (token_spelling h.1 hend) h.1.ne_eof ?_
    cases ts with
    | nil =>
      obtain rfl : tail = [] := List.append_right_eq_self.mp hspell.symm
      exact .none []
    | cons u ts =>
      obtain rfl : tail = (if adjacent t u then [] else [' ']) ++ spell (u :: ts) := by
        rw [spell, List.append_assoc] at hspell
        exact (List.append_cancel_left hspell).symm
      split
      · exact ih h.2
      · exact (ih h.2).blank (List.cons_ne_nil u ts)

theorem passes_print (he : e.Formed IsWritable) : Passes e.print.toList e.tokens [] := by
  rw [Expr.print, String.toList_ofList]
  exact passes_spell he.allProper_tokens

theorem token_close (more : List Char) : token (')' :: more) = .ok (.symbol .rParen, more) := by
  rw [token, skipSpace_cons (by decide) (by decide)]
  rfl

theorem token_open (more : List Char) : token ('(' :: more) = .ok (.symbol .lParen, more) := by
  rw [token, skipSpace_cons (by decide) (by decide)]
  rfl

theorem Passes.before_parenthesis {last : List Char} (h : Passes cs ts last) (more : List Char) :
    Passes (cs ++ ')' :: more) ts (last ++ ')' :: more) := by
  induction h with
  | none => exact .none _
  | step htoken ht _ ih => exact .step (token_closed (by decide) more htoken ht).2 ht ih

namespace Parser

/-! ## One step at a time -/

theorem bind_apply_of_ok {α β : Type} {x : Parser α} {f : α → Parser β} {a : α}
    (h : x cs = .ok (a, mid)) : (x >>= f) cs = f a mid := by
  change Except.bind (x cs) _ = _
  rw [h]
  rfl

theorem peek_of_token (h : token cs = .ok (t, mid)) : peek cs = .ok (t, cs) := by
  rw [peek, h]
  rfl

theorem eat_of_token {s : Symbol} (h : token cs = .ok (.symbol s, mid)) : eat s cs = .ok (true, mid) := by
  change Except.bind (token cs) _ = _
  rw [h]
  exact congrArg Except.ok (if_pos rfl)

theorem eat_of_token_ne {s : Symbol} (h : token cs = .ok (t, mid)) (ht : t ≠ .symbol s) :
    eat s cs = .ok (false, cs) := by
  change Except.bind (token cs) _ = _
  rw [h]
  cases t with
  | symbol u => exact congrArg Except.ok (if_neg fun hs => ht (by rw [hs]))
  | _ => rfl

theorem expect_of_token {s : Symbol} (h : token cs = .ok (.symbol s, mid)) :
    expect s cs = .ok ((), mid) := by
  rw [expect, bind_apply_of_ok (eat_of_token h)]
  rfl

theorem expectName_of_token {name : String} (h : token cs = .ok (.ident name, mid)) :
    expectName cs = .ok (name, mid) := by
  have hnext : next cs = .ok (.ident name, mid) := h
  rw [expectName, bind_apply_of_ok (peek_of_token h)]
  dsimp only
  rw [bind_apply_of_ok hnext]
  rfl

theorem length_le_dotted (parts : List String) : parts.length ≤ (dotted parts).length := by
  induction parts with
  | nil => exact Nat.le_refl 0
  | cons part parts ih =>
    simp only [dotted, List.flatMap_cons, List.length_append, List.length_cons] at ih ⊢
    omega

/-- A name with dots up to a parenthesis. -/
theorem typeNameRest_of_passes {n : Nat} {name : String} {parts : List String}
    (h : Passes cs (dotted parts) mid) (hmid : token mid = .ok (.symbol .rParen, more))
    (hn : parts.length ≤ n) :
    typeNameRest n name cs = .ok (".".intercalate (name :: parts), mid) := by
  induction parts generalizing n name cs with
  | nil =>
    cases h
    rw [String.intercalate_singleton]
    cases n with
    | zero => rfl
    | succ n =>
      rw [typeNameRest, bind_apply_of_ok (eat_of_token_ne (s := .dot) hmid nofun)]
      rfl
  | cons part parts ih =>
    obtain ⟨n, rfl⟩ := Nat.exists_eq_add_one_of_ne_zero (Nat.ne_zero_of_lt hn)
    cases h with
    | step hdot _ h =>
      cases h with
      | step hpart _ h =>
        rw [typeNameRest, bind_apply_of_ok (eat_of_token hdot), if_pos rfl,
          bind_apply_of_ok (expectName_of_token hpart), String.intercalate_cons_cons,
          ← String.intercalate_cons_append]
        exact ih h (Nat.le_of_succ_le_succ hn)

/-- A type and the parenthesis after it. -/
theorem castType?_of_passes {head : String} {parts : List String}
    (h : Passes cs (.ident head :: dotted parts) mid)
    (hmid : token mid = .ok (.symbol .rParen, more)) :
    castType? cs = .ok (some (".".intercalate (head :: parts), false), more) := by
  cases h with
  | @step _ rest _ _ _ hhead _ h =>
    have hlength : parts.length ≤ rest.length := Nat.le_trans (length_le_dotted parts) h.length_le
    have htype : typeName cs = .ok (".".intercalate (head :: parts), mid) := by
      rw [typeName, bind_apply_of_ok (expectName_of_token hhead)]
      exact typeNameRest_of_passes h hmid hlength
    rw [castType?, bind_apply_of_ok (peek_of_token hhead)]
    dsimp only
    rw [bind_apply_of_ok htype, bind_apply_of_ok (eat_of_token_ne (s := .lBracket) hmid nofun)]
    have hparen : eat .rParen mid = .ok (true, more) := eat_of_token hmid
    have hclose {f : Bool → Parser (Option (String × Bool))} :
        ((pure false : Parser Bool) >>= fun _ => eat .rParen >>= f) mid = f true more :=
      bind_apply_of_ok hparen
    exact hclose

/-! ## Up to a bar -/

/-- The text is over, or a bar is next. -/
def AtBar (cs : List Char) : Prop :=
  ∃ t rest, token cs = .ok (t, rest) ∧ (t = .eof ∨ t = .symbol .pipe)

theorem AtBar.nil : AtBar [] := ⟨.eof, [], rfl, .inl rfl⟩

theorem AtBar.eat (h : AtBar more) {s : Symbol} (hs : s ≠ .pipe) : eat s more = .ok (false, more) := by
  obtain ⟨t, rest, htoken, rfl | rfl⟩ := h
  · exact eat_of_token_ne htoken nofun
  · exact eat_of_token_ne htoken (by simpa using hs.symm)

/-- No operator in force before a bar goes on with it. -/
theorem AtBar.connective? (h : AtBar more) {ops : List (Symbol × Connective)}
    (hops : ops.lookup .pipe = none) : connective? ops more = .ok (none, more) := by
  obtain ⟨t, rest, htoken, rfl | rfl⟩ := h
  · change Except.bind (token more) _ = _
    rw [htoken]
    rfl
  · change Except.bind (token more) _ = _
    rw [htoken]
    simp only [Except.bind, hops]
    rfl

/-- Before a bar an operand is the expression. -/
theorem assignment_of_unary {again : Again} (h : unary again true cs = .ok (e, more))
    (hmore : AtBar more) : assignment again true cs = .ok (e, more) := by
  have hleveled {levels : List (List (Symbol × Connective))}
      (hlevels : ∀ ops ∈ levels, ops.lookup .pipe = none) :
      leveled (unary again true) levels cs = .ok (e, more) := by
    induction levels with
    | nil => exact h
    | cons ops tighter ih =>
      rw [List.forall_mem_cons] at hlevels
      rw [leveled, bind_apply_of_ok (ih hlevels.2)]
      change joined ops _ more.length e more = _
      cases more.length with
      | zero => rfl
      | succ n =>
        rw [joined, bind_apply_of_ok (hmore.connective? hlevels.1)]
        rfl
  have hcoalesce : coalesce again true cs = .ok (e, more) := by
    rw [coalesce, bind_apply_of_ok (hleveled (by decide)), bind_apply_of_ok (hmore.eat (by decide))]
    rfl
  have hternary : ternary again true cs = .ok (e, more) := by
    rw [ternary, bind_apply_of_ok hcoalesce, bind_apply_of_ok (hmore.eat (by decide))]
    rfl
  obtain ⟨t, rest, htoken, ht⟩ := hmore
  have hassign : assignOp? t = none := by
    obtain rfl | rfl := ht <;> rfl
  have hhere : here cs = .ok (skipSpace cs, cs) := rfl
  rw [assignment, bind_apply_of_ok hhere, bind_apply_of_ok hternary, bind_apply_of_ok (peek_of_token htoken), hassign]
  rfl

/-! ## In parentheses -/

/-- The text, and the same before a closing parenthesis and more. -/
theorem beside_parenthesis (more : List Char) :
    Beside [] .rParen fun cs _ ds => ds = cs ++ ')' :: more where
  closing := by decide
  step := by
    rintro cs mid _ t ts rfl htoken ht
    exact ⟨_, (token_closed (by decide) more htoken ht).2, rfl⟩
  stop := by
    rintro _ rest rfl _
    exact ⟨more, token_close more⟩
  length_lt := by
    rintro cs _ ts hpasses rfl
    have hle := hpasses.length_le
    rw [List.length_append, List.length_cons]
    omega

theorem spent_nil : Spent [] := by
  rintro t rest ⟨⟩
  rfl

/-- An expression is read back before the parenthesis that closes it. -/
theorem enter_print (he : e.Formed IsWritable) {n : Nat} (hn : e.print.toList.length < n) :
    enter n .assignment false (e.print.toList ++ ')' :: more) = .ok (e, ')' :: more) := by
  have hpasses := passes_print he
  obtain ⟨cs, hexpr, hcs⟩ := accepts_expression he _ (hpasses.reads rfl)
  have hexpr : enter (e.print.toList.length + 1) .assignment false e.print.toList = .ok (e, cs) := hexpr
  obtain ⟨ts, hts, -, hbeside⟩ := carries_entry (beside_parenthesis more) (Nat.succ_le_of_lt hn)
    .assignment false e.tokens hpasses spent_nil hexpr
  obtain rfl : ts = [] := (hts.reads rfl).unique hcs
  cases hts
  obtain ⟨_, henter, rfl⟩ := hbeside _ rfl
  exact henter

section

variable {last : List Char} {S : List Char → List Token → List Char → Prop}

/-- What could be no type is left where it is no type, before a parenthesis as well. -/
theorem carries_castType?_of_not_opensCast (B : Beside last .rParen S) (h : opensCast (closed ts) = false) :
    Carries last S castType? castType? ts := by
  refine .peek B ?_
  cases ts with
  | nil => exact .pure none
  | cons t ts =>
    cases t with
    | eof | number | string | symbol | var => exact .pure none
    | ident head =>
      have htype : Within last typeName (.ident head :: ts) fun _ ts' => endsType (closed ts') = false := by
        refine within_typeName.mono ?_
        rintro _ ts' ⟨parts, rfl, rfl, -⟩
        rwa [closed, List.cons_append, List.append_assoc, opensCast, endsType_dotted] at h
      refine (carries_typeName B).bindWithin htype fun type ts' _ hends => ?_
      refine .eat B (.inl (by decide)) ?_ fun _ => ?_
      · rintro rest rfl
        refine .eat B (.inl (by decide)) ?_ fun _ => .pure none
        rintro rest rfl
        cases hends
      · refine Carries.bindWithin (Q := fun isArray us => isArray = false ∧ ts' = us) (.pure false)
          (.pure ⟨rfl, rfl⟩) ?_
        rintro _ _ - ⟨rfl, rfl⟩
        have hne : ts' ≠ [] := by
          rintro rfl
          cases hends
        exact .eat B (.inr hne) (fun _ _ => .pure _) fun _ => .pure none

end

/-- The tokens are the name of a built-in type. -/
def BuiltinTokens (ts : List Token) : Prop :=
  ∃ head parts, ts = .ident head :: dotted parts ∧
    (ValueType.builtin? (".".intercalate (head :: parts))).isSome = true

/-- The parenthesis before an expression opens no cast, since what it encloses is no type, or one that is
not built in and has no operand. -/
theorem cast?_print {again : Again} (he : e.Formed IsWritable) (hbuiltin : ¬BuiltinTokens e.tokens)
    (hmore : AtBar more) :
    cast? again true ('(' :: (e.print.toList ++ ')' :: more)) =
      .ok (none, '(' :: (e.print.toList ++ ')' :: more)) := by
  have hpasses := passes_print he
  have hreads := hpasses.reads rfl
  have hget {α : Type} (f : List Char → Parser α) (cs : List Char) : (get >>= f) cs = f cs cs := rfl
  have hnext : next ('(' :: (e.print.toList ++ ')' :: more)) =
      .ok (.symbol .lParen, e.print.toList ++ ')' :: more) := token_open _
  rw [cast?, hget, bind_apply_of_ok hnext]
  have hopens : opensCast e.tokens = false := by
    rw [← List.append_nil e.tokens]
    exact he.opensCast_tokens (.inr rfl)
  cases hclosed : opensCast (closed e.tokens) with
  | false =>
    obtain ⟨ts', hnone⟩ := accepts_castType?_none hopens
    obtain ⟨cs, hcast, -⟩ := hnone _ hreads
    obtain ⟨_, _, -, hbeside⟩ := carries_castType?_of_not_opensCast (beside_parenthesis more) hclosed
      hpasses spent_nil hcast
    obtain ⟨_, hcast, -⟩ := hbeside _ rfl
    rw [bind_apply_of_ok hcast]
    rfl
  | true =>
    obtain ⟨head, parts, htokens⟩ := (opensCast_closed hclosed).resolve_left (by simp [hopens])
    rw [castTokens, if_neg Bool.false_ne_true, List.append_nil] at htokens
    have htype := castType?_of_passes (htokens ▸ hpasses.before_parenthesis more) (token_close more)
    have hkeyword : (false || (ValueType.builtin? (".".intercalate (head :: parts))).isSome) = false :=
      Bool.eq_false_iff.mpr fun hsome => hbuiltin ⟨head, parts, htokens, hsome⟩
    obtain ⟨t, rest, htoken, ht⟩ := hmore
    rw [bind_apply_of_ok htype]
    dsimp only
    rw [bind_apply_of_ok (peek_of_token htoken), hkeyword]
    obtain rfl | rfl := ht <;> rfl

theorem AtBar.suffixes (h : AtBar more) {again : Again} (n : Nat) (e : Expr) :
    suffixes again n e more = .ok (e, more) := by
  cases n with
  | zero => rfl
  | succ n =>
    rw [Parser.suffixes, bind_apply_of_ok (h.eat (by decide))]
    exact bind_apply_of_ok (h.eat (by decide))

/-- An expression in parentheses is read back before a bar. -/
theorem unary_print (he : e.Formed IsWritable) (hbuiltin : ¬BuiltinTokens e.tokens) (hmore : AtBar more)
    {n : Nat} (hn : e.print.toList.length < n) :
    unary (enter n) true ('(' :: (e.print.toList ++ ')' :: more)) = .ok (e, more) := by
  have hpeek := peek_of_token (token_open (e.print.toList ++ ')' :: more))
  have hnext : next ('(' :: (e.print.toList ++ ')' :: more)) =
      .ok (.symbol .lParen, e.print.toList ++ ')' :: more) := token_open _
  have hprimary : primary (enter n) ('(' :: (e.print.toList ++ ')' :: more)) = .ok (e, more) := by
    rw [primary_eq, bind_apply_of_ok hpeek]
    dsimp only
    rw [bind_apply_of_ok hnext, bind_apply_of_ok (enter_print he hn),
      bind_apply_of_ok (expect_of_token (token_close more))]
    rfl
  rw [unary, bind_apply_of_ok hpeek]
  dsimp only
  rw [bind_apply_of_ok (cast?_print he hbuiltin hmore)]
  dsimp only
  rw [operand, bind_apply_of_ok hprimary]
  exact hmore.suffixes _ e

theorem segmentExpr_of_unary (h : unary (enter cs.length) true cs = .ok (e, more)) (hmore : AtBar more) :
    segmentExpr cs = .ok (e, skipSpace more) := by
  have hexpr : expression true cs = .ok (e, more) := assignment_of_unary h hmore
  rw [segmentExpr, bind_apply_of_ok hexpr]
  rfl

theorem segmentExpr_print (he : e.Formed IsWritable) (hbuiltin : ¬BuiltinTokens e.tokens)
    (hmore : AtBar more) :
    segmentExpr ('(' :: (e.print.toList ++ ')' :: more)) = .ok (e, skipSpace more) := by
  refine segmentExpr_of_unary (unary_print he hbuiltin hmore ?_) hmore
  rw [List.length_cons, List.length_append]
  omega

theorem isPlainName_of_property {P : Value → Prop} {type name : String} (he : e.Formed P)
    (h : e = .property type name) : IsPlainName type := by
  cases he with
  | property htype =>
    cases h
    exact htype
  | joined c => cases c <;> cases h
  | _ => cases h

/-- A member of a type is read back without parentheses, whatever its name. -/
theorem segmentExpr_property {type name : String} (he : (Expr.property type name).Formed IsWritable) :
    segmentExpr (Expr.property type name).print.toList = .ok (.property type name, []) := by
  have hreads := (passes_print he).reads rfl
  rw [Expr.tokens] at hreads
  generalize (Expr.property type name).print.toList = cs at hreads
  have htype := isPlainName_of_property he rfl
  have hoperand (again : Again) :
      Accepts (operand again) (.ident type :: dotted [name]) (.property type name) [] :=
    Continues.operand (accepts_primary_property htype (by simp))
      fun n _ => accepts_suffixes_none n _ (stops_nil 14)
  obtain ⟨rest, hoperand, hrest⟩ := hoperand (enter cs.length) cs hreads
  have hunary : unary (enter cs.length) true cs = .ok (.property type name, rest) := by
    obtain ⟨_, htoken, -⟩ := hreads.token_eq
    rw [unary, bind_apply_of_ok (peek_of_token htoken)]
    exact hoperand
  obtain ⟨_, hend, -⟩ := hrest.token_eq
  rw [segmentExpr_of_unary hunary ⟨_, _, hend, .inl rfl⟩]
  cases hrest with
  | done hskip => rw [hskip]

end Parser

end ActionTree.Notation
