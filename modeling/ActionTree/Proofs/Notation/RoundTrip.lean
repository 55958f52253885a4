import ActionTree.Proofs.Notation.Grammar

/-!
# Printing and reading back

Every level of the grammar reads the tokens of an expression of that level back as this expression, and
stops where something follows that binds less tightly.
-/

namespace ActionTree.Notation

open ActionTree.Expr

namespace Parser

def Entry.level : Entry → Nat
  | assignment => 0
  | ternary => 1
  | coalesce => 2
  | unary => 13

/-- What is entered again reads back what is written in fewer than `N` tokens. -/
def Rereads (again : Again) (N : Nat) : Prop :=
  ∀ entry e ts more, Formed IsWritable e → e.Written entry.level ts → Stops entry.level more →
    (ts ++ more).length < N → Accepts (again entry false) (ts ++ more) e more

section Grammar

variable {again : Again} {N : Nat} (hagain : Rereads again N) {e a : Expr} {ts more ts' : List Token}

include hagain

/-! ## Items and arguments -/

theorem accepts_tokens (he : Formed IsWritable e) (hmore : Stops 0 more)
    (hN : (e.tokens ++ more).length < N) : Accepts (again .assignment false) (e.tokens ++ more) e more :=
  hagain .assignment e e.tokens more he (.plain (Nat.zero_le _)) hmore hN

theorem accepts_itemsRest {close : Symbol} (hclose : (Token.symbol close).closes = true) {es : List Expr}
    (he : Formed IsWritable e) (hes : ∀ a ∈ es, Formed IsWritable a) {n : Nat}
    (hn : (separated (tokenLists (e :: es)) ++ .symbol close :: more).length < n)
    (hN : (separated (tokenLists (e :: es)) ++ .symbol close :: more).length < N) :
    Accepts (itemsRest again close n) (separated (tokenLists (e :: es)) ++ .symbol close :: more)
      (e :: es) more := by
  have hne : close ≠ .comma := by rintro rfl; cases hclose
  induction es generalizing e n with
  | nil =>
    obtain ⟨n, rfl⟩ := Nat.exists_eq_add_one_of_ne_zero (Nat.ne_zero_of_lt hn)
    exact .bind (accepts_tokens hagain he (stops_closing 0 more hclose) hN)
      (.bind (accepts_eat_other (by simpa using hne)) (.bind (accepts_expect close more) (.pure _ _)))
  | cons a es ih =>
    obtain ⟨n, rfl⟩ := Nat.exists_eq_add_one_of_ne_zero (Nat.ne_zero_of_lt hn)
    rw [List.forall_mem_cons] at hes
    have hsplit : separated (tokenLists (e :: a :: es)) ++ .symbol close :: more =
        e.tokens ++ .symbol .comma :: (separated (tokenLists (a :: es)) ++ .symbol close :: more) := by
      simp [tokenLists, separated]
    rw [hsplit] at hn hN ⊢
    refine .bind (accepts_tokens hagain he (stops_symbol _ (by rintro l ⟨⟩)) hN)
      (.bind (accepts_eat .comma _) (.bind (ih hes.1 hes.2 ?_ ?_) (.pure _ _)))
    all_goals simp only [List.length_append, List.length_cons] at hn hN ⊢; omega

theorem accepts_items {close : Symbol} (hclose : (Token.symbol close).closes = true) {es : List Expr}
    (hes : ∀ a ∈ es, Formed IsWritable a)
    (hN : (separated (tokenLists es) ++ .symbol close :: more).length < N) :
    Accepts (items again close) (separated (tokenLists es) ++ .symbol close :: more) es more := by
  cases es with
  | nil => exact .bind (accepts_eat close more) (.pure [] more)
  | cons e es =>
    rw [List.forall_mem_cons] at hes
    have hopening : Opening (separated (tokenLists (e :: es))) := opening_separated hes.1
    have hopening := (hopening.append (.symbol close :: more)).head?_ne hclose
    exact .bind (accepts_eat_other hopening) (.get fun cs hcs =>
      accepts_itemsRest hagain hclose hes.1 hes.2 (Nat.lt_succ_of_le hcs.length_le) hN)

theorem accepts_arguments {args : List Expr} (hargs : ∀ a ∈ args, Formed IsWritable a)
    (hN : (parenthesized (separated (tokenLists args)) ++ more).length ≤ N) :
    Accepts (arguments again) (parenthesized (separated (tokenLists args)) ++ more) args more := by
  have hsplit : parenthesized (separated (tokenLists args)) ++ more =
      .symbol .lParen :: (separated (tokenLists args) ++ .symbol .rParen :: more) := by
    simp [parenthesized]
  rw [hsplit] at hN ⊢
  exact .bind (accepts_expect .lParen _) (accepts_items hagain rfl hargs hN)

/-! ## Operands -/

/-- An expression in parentheses is an operand. -/
theorem accepts_primary_parenthesized (he : Formed IsWritable e)
    (hN : (parenthesized e.tokens ++ more).length ≤ N) :
    Accepts (primary again) (parenthesized e.tokens ++ more) e more := by
  have hsplit : parenthesized e.tokens ++ more =
      .symbol .lParen :: (e.tokens ++ .symbol .rParen :: more) := by
    simp [parenthesized]
  rw [hsplit] at hN ⊢
  rw [primary_eq]
  exact .bind (accepts_peek _) (.bind (accepts_next _)
    (.bind (accepts_tokens hagain he (stops_closing 0 more rfl) hN)
      (.bind (accepts_expect .rParen more) (.pure e more))))

theorem accepts_primary_call {name : String} {args : List Expr} (hname : IsPlainName name)
    (hargs : ∀ x ∈ args, Formed IsWritable x)
    (hN : (parenthesized (separated (tokenLists args)) ++ more).length ≤ N) :
    Accepts (primary again) (.ident name :: (parenthesized (separated (tokenLists args)) ++ more))
      (.call name args) more := by
  refine accepts_primary_ident ?_
  rw [named_of_isPlainName hname]
  exact .bind (accepts_peek _) (.bind (accepts_arguments hagain hargs hN) (.pure _ more))

theorem accepts_primary_staticCall {type name : String} {args : List Expr} (htype : IsPlainName type)
    (hargs : ∀ x ∈ args, Formed IsWritable x)
    (hN : (parenthesized (separated (tokenLists args)) ++ more).length ≤ N) :
    Accepts (primary again)
      (.ident type :: (dotted [name] ++ (parenthesized (separated (tokenLists args)) ++ more)))
      (.staticCall type name args) more := by
  refine accepts_primary_ident ?_
  rw [named_of_isPlainName htype]
  exact .bind (accepts_peek _) (.bind (accepts_next _) (.bind (accepts_expectName name _)
    (.bind (accepts_peek _) (.bind (accepts_arguments hagain hargs hN) (.pure _ more)))))

theorem accepts_primary_braces {es : List Expr} (hes : ∀ x ∈ es, Formed IsWritable x)
    (hN : (.symbol .lBrace :: (separated (tokenLists es) ++ .symbol .rBrace :: more)).length ≤ N) :
    Accepts (primary again) (.symbol .lBrace :: (separated (tokenLists es) ++ .symbol .rBrace :: more))
      (.array none es) more := by
  rw [primary_eq]
  exact .bind (accepts_peek _) (.bind (accepts_next _)
    (.bind (accepts_items hagain rfl hes hN) (.pure _ more)))

theorem accepts_primary_typedArray {type : String} {es : List Expr} (htype : IsDotted type)
    (hes : ∀ x ∈ es, Formed IsWritable x)
    (hN : (.symbol .lBrace :: (separated (tokenLists es) ++ .symbol .rBrace :: more)).length ≤ N) :
    Accepts (primary again) (.ident "new" :: (dottedName .ident type ++ .symbol .lBracket ::
      .symbol .rBracket :: .symbol .lBrace :: (separated (tokenLists es) ++ .symbol .rBrace :: more)))
      (.array (some type) es) more := by
  obtain ⟨head, parts, -, rfl, htokens⟩ := htype.dottedName .ident
  rw [htokens, List.cons_append]
  refine accepts_primary_ident ?_
  exact .bind (accepts_peek _) (.bind (.map some (accepts_typeName (by simp)))
    (.bind (accepts_expect .lBracket _) (.bind (accepts_eat .rBracket _)
      (.bind (accepts_expect .lBrace _) (.bind (accepts_items hagain rfl hes hN) (.pure _ more))))))

theorem accepts_primary_newArray {type : String} {length : Expr} (htype : IsDotted type)
    (hlength : Formed IsWritable length)
    (hN : (length.tokens ++ .symbol .rBracket :: more).length < N) :
    Accepts (primary again) (.ident "new" :: (dottedName .ident type ++ .symbol .lBracket ::
      (length.tokens ++ .symbol .rBracket :: more))) (.newArray type length) more := by
  obtain ⟨head, parts, -, rfl, htokens⟩ := htype.dottedName .ident
  have hopening := (hlength.opening.append (.symbol .rBracket :: more)).head?_ne (s := .rBracket) rfl
  rw [htokens, List.cons_append]
  refine accepts_primary_ident ?_
  exact .bind (accepts_peek _) (.bind (.map some (accepts_typeName (by simp)))
    (.bind (accepts_expect .lBracket _) (.bind (accepts_eat_other hopening)
      (.bind (accepts_tokens hagain hlength (stops_closing 0 more rfl) hN)
        (.bind (accepts_expect .rBracket more) (.pure _ more))))))

theorem Continues.method {name : String} {args : List Expr} (hargs : ∀ x ∈ args, Formed IsWritable x)
    (hN : (parenthesized (separated (tokenLists args)) ++ more).length ≤ N)
    (h : Continues again (.method e name args) more a ts') :
    Continues again e (dotted [name] ++ (parenthesized (separated (tokenLists args)) ++ more)) a ts' := by
  intro n hn
  obtain ⟨n, rfl⟩ := Nat.exists_eq_add_one_of_ne_zero (Nat.ne_zero_of_lt hn)
  refine .bind (accepts_eat .dot _) (.bind (accepts_expectName name _)
    (.bind (accepts_peek _) (.bind (accepts_arguments hagain hargs hN) (h n ?_))))
  simp [dotted, parenthesized] at hn
  omega

theorem Continues.index {position : Expr} (hposition : Formed IsWritable position)
    (hN : (.symbol .lBracket :: (position.tokens ++ .symbol .rBracket :: more)).length ≤ N)
    (h : Continues again (.index e position) more a ts') :
    Continues again e (.symbol .lBracket :: (position.tokens ++ .symbol .rBracket :: more)) a ts' := by
  intro n hn
  obtain ⟨n, rfl⟩ := Nat.exists_eq_add_one_of_ne_zero (Nat.ne_zero_of_lt hn)
  refine .bind (accepts_eat_other (by simp)) (.bind (accepts_eat .lBracket _)
    (.bind (accepts_tokens hagain hposition (stops_closing 0 more rfl) hN)
      (.bind (accepts_expect .rBracket more) (h n ?_))))
  simp at hn
  omega

theorem Continues.enclosed (he : Formed IsWritable e) (h : Continues again e more a ts')
    (hN : (enclosed 14 e e.tokens ++ more).length ≤ N)
    (hplain : ¬ e.level < 14 → (e.tokens ++ more).length ≤ N →
      Accepts (Parser.operand again) (e.tokens ++ more) a ts') :
    Accepts (Parser.operand again) (Notation.enclosed 14 e e.tokens ++ more) a ts' := by
  by_cases hlt : e.level < 14
  · rw [Notation.enclosed, if_pos hlt] at hN ⊢
    exact h.operand (accepts_primary_parenthesized hagain he hN)
  · rw [Notation.enclosed, if_neg hlt] at hN ⊢
    exact hplain hlt hN

/-- The operand read so far is the target of what follows it. -/
theorem accepts_operand_tokens (he : Formed IsWritable e) (hlevel : ¬ e.level < 14)
    (hparen : more.head? ≠ some (.symbol .lParen)) (hN : (e.tokens ++ more).length ≤ N)
    (h : Continues again e more a ts') : Accepts (operand again) (e.tokens ++ more) a ts' := by
  induction he generalizing more a ts' with
    simp only [Expr.tokens, Expr.tokens_apply, List.append_assoc, List.cons_append, List.nil_append] at hN ⊢
  | literal hv => exact h.operand (accepts_primary_literal hv.2)
  | var => exact h.operand (accepts_primary_var _ more)
  | @path head m members =>
    have hmembers : Continues again (.path head [m]) (dotted members ++ more) a ts' := .path hparen h
    have hfirst : Continues again (.var head) (dotted [m] ++ (dotted members ++ more)) a ts' :=
      .member (head?_dotted_ne hparen) hmembers
    exact hfirst.operand (accepts_primary_var head _)
  | index htarget hposition ih =>
    have hcont := Continues.index hagain hposition (Nat.le_trans (by simp) hN) h
    exact hcont.enclosed hagain htarget hN fun hge hN => ih hge (by simp) hN hcont
  | member hmember htarget _ ih =>
    rw [← hmember] at h
    have hcont := Continues.member hparen h
    exact hcont.enclosed hagain htarget hN fun hge hN => ih hge (by simp [dotted]) hN hcont
  | method htarget _ hargs ih =>
    have hcont := Continues.method hagain hargs (Nat.le_trans (by simp; omega) hN) h
    exact hcont.enclosed hagain htarget hN fun hge hN => ih hge (by simp [dotted]) hN hcont
  | call hname hargs =>
    exact h.operand (accepts_primary_call hagain hname hargs (Nat.le_of_lt hN))
  | property htype => exact h.operand (accepts_primary_property htype hparen)
  | staticCall htype _ hargs =>
    refine h.operand (accepts_primary_staticCall hagain htype hargs ?_)
    simp only [dotted, List.length_append, List.length_cons] at hN ⊢
    omega
  | @array element items htype hitems =>
    cases element with
    | none => exact h.operand (accepts_primary_braces hagain hitems hN)
    | some type =>
      simp only [List.cons_append, List.append_assoc, List.nil_append] at hN ⊢
      refine h.operand (accepts_primary_typedArray hagain (htype type rfl) hitems ?_)
      simp only [List.length_append, List.length_cons] at hN ⊢
      omega
  | newArray htype hlength =>
    refine h.operand (accepts_primary_newArray hagain htype hlength ?_)
    simp only [List.length_append, List.length_cons] at hN ⊢
    omega
  | @joined c l r =>
    have := level_apply_mem c l r
    omega
  | assign | unary | coalesce | ternary | cast => exact absurd (by simp [Expr.level]) hlevel

/-- An operand is read as far as it goes. -/
theorem accepts_operand (he : Formed IsWritable e) (hw : e.Written 14 ts)
    (hmore : Stops 14 more) (hN : (ts ++ more).length ≤ N) :
    Accepts (operand again) (ts ++ more) e more := by
  have hcont : Continues again e more e more := fun n _ => accepts_suffixes_none n e hmore
  rw [hw.eq_enclosed] at hN ⊢
  exact hcont.enclosed hagain he hN fun hge hN =>
    accepts_operand_tokens hagain he hge (hmore.head?_ne rfl (Nat.le_refl 14)) hN hcont

/-! ## The levels of the grammar -/

theorem accepts_cast? {type : String} (isArray : Bool) (htype : IsDotted type) (he : Formed IsWritable e)
    (hmore : Stops 13 more) (hN : (enclosed (castLevel e) e e.tokens ++ more).length < N) :
    Accepts (cast? again false) (.symbol .lParen :: (dottedName .ident type ++
      ((if isArray then [.symbol .lBracket, .symbol .rBracket] else []) ++
        .symbol .rParen :: (enclosed (castLevel e) e e.tokens ++ more))))
      (some (.cast type isArray e)) more := by
  refine .get fun cs hcs => .bind (accepts_next _) (.bind (accepts_castType? isArray _ htype)
    (.bind (accepts_peek _) ?_))
  rw [if_pos (startsCastOperand_castLevel he _ more)]
  exact .bind (hagain .unary e _ more he
    (written_enclosed e (castLevel_mem e).1 (castLevel_mem e).2) hmore hN) (.pure _ more)

theorem accepts_unary (he : Formed IsWritable e) (hw : e.Written 13 ts)
    (hmore : Stops 13 more) (hN : (ts ++ more).length ≤ N) :
    Accepts (unary again false) (ts ++ more) e more := by
  rcases hw.next with hw | ⟨hlevel, rfl⟩
  · exact accepts_unary_operand (hw.startsOperand he more)
      (accepts_operand hagain he hw (hmore.mono (by decide)) hN)
  cases he with
    simp only [Expr.tokens, Expr.tokens_apply, List.append_assoc, List.cons_append] at hN ⊢
  | unary op he =>
    have hoperand := hagain .unary _ _ more he (written_enclosed _ (Nat.le_refl 13) (by decide)) hmore hN
    cases op <;>
      exact .bind (accepts_peek _) (.bind (accepts_next _) (.bind hoperand (.pure _ more)))
  | cast isArray htype he =>
    refine .bind (accepts_peek _) (.bind (accepts_cast? hagain isArray htype he hmore ?_) (.pure _ more))
    simp only [List.length_append, List.length_cons] at hN ⊢
    omega
  | @joined c l r =>
    have := level_apply_mem c l r
    omega
  | _ => cases hlevel

theorem accepts_leveled {levels : List (List (Symbol × Connective))}
    (hlevels : Graded k levels) (he : Formed IsWritable e) (hw : e.Written k ts) (hmore : Stops k more)
    (hN : (ts ++ more).length ≤ N) :
    Accepts (leveled (unary again false) levels) (ts ++ more) e more := by
  induction hlevels generalizing e ts more with
  | nil => exact accepts_unary hagain he hw hmore hN
  | cons hk hk' hops _ ih =>
    exact accepts_joined_then hk hk' hops (fun e ts more he hw hmore hN => ih he hw hmore hN) he hw
      (hmore.mono (Nat.le_succ _)) hN fun n _ => accepts_joined_none hops hmore n e

theorem accepts_coalesce (he : Formed IsWritable e) (hw : e.Written 2 ts)
    (hmore : Stops 2 more) (hN : (ts ++ more).length ≤ N) :
    Accepts (coalesce again false) (ts ++ more) e more := by
  have hleft {e : Expr} {ts more : List Token} (he : Formed IsWritable e) (hw : e.Written 3 ts)
      (hmore : Stops 3 more) (hN : (ts ++ more).length ≤ N) :
      Accepts (leveled (unary again false) (levelsFor false)) (ts ++ more) e more :=
    accepts_leveled hagain graded_levels he hw hmore hN
  rcases hw.next with hw | ⟨hlevel, rfl⟩
  · exact .bind (hleft he hw (hmore.mono (by decide)) hN)
      (.bind (accepts_eat_other (hmore.head?_ne rfl (Nat.le_refl 2))) (.pure e more))
  cases he with
    simp only [Expr.tokens, Expr.tokens_apply, List.append_assoc, List.cons_append] at hN ⊢
  | coalesce hl hr =>
    refine .bind (hleft hl (written_enclosed _ (Nat.le_refl 3) (by decide))
      (stops_symbol _ (by rintro l ⟨⟩; decide)) hN) (.bind (accepts_eat .questionQuestion _)
        (.bind (hagain .coalesce _ _ more hr (written_enclosed _ (Nat.le_refl 2) (by decide)) hmore ?_)
          (.pure _ more)))
    simp only [List.length_append, List.length_cons] at hN ⊢
    omega
  | @joined c l r =>
    have := level_apply_mem c l r
    omega
  | _ => cases hlevel

theorem accepts_ternary (he : Formed IsWritable e) (hw : e.Written 1 ts)
    (hmore : Stops 1 more) (hN : (ts ++ more).length ≤ N) :
    Accepts (ternary again false) (ts ++ more) e more := by
  rcases hw.next with hw | ⟨hlevel, rfl⟩
  · exact .bind (accepts_coalesce hagain he hw (hmore.mono (by decide)) hN)
      (.bind (accepts_eat_other (hmore.head?_ne rfl (Nat.le_refl 1))) (.pure e more))
  cases he with
    simp only [Expr.tokens, Expr.tokens_apply, List.append_assoc, List.cons_append] at hN ⊢
  | ternary hc ht he =>
    refine .bind (accepts_coalesce hagain hc (written_enclosed _ (Nat.le_refl 2) (by decide))
      (stops_symbol _ (by rintro l ⟨⟩; decide)) hN) (.bind (accepts_eat .question _)
        (.bind (hagain .ternary _ _ _ ht (written_enclosed _ (Nat.le_refl 1) (by decide))
          (stops_symbol _ (by rintro l ⟨⟩)) ?_) (.bind (accepts_expect .colon _)
            (.bind (hagain .ternary _ _ more he (written_enclosed _ (Nat.le_refl 1) (by decide)) hmore ?_)
              (.pure _ more)))))
    all_goals simp only [List.length_append, List.length_cons] at hN ⊢; omega
  | @joined c l r =>
    have := level_apply_mem c l r
    omega
  | _ => cases hlevel

theorem accepts_assignment (he : Formed IsWritable e) (hw : e.Written 0 ts)
    (hmore : Stops 0 more) (hN : (ts ++ more).length ≤ N) :
    Accepts (assignment again false) (ts ++ more) e more := by
  refine .here fun start => ?_
  rcases hw.next with hw | ⟨hlevel, rfl⟩
  · refine .bind (accepts_ternary hagain he hw (hmore.mono (by decide)) hN) (.bind (accepts_peek more) ?_)
    rw [assignOp?_of_stops hmore]
    exact .pure e more
  cases he with
    simp only [Expr.tokens, Expr.tokens_apply, List.append_assoc, List.cons_append] at hN ⊢
  | @assign name op e hname hop he =>
    obtain ⟨t, ht, hlevel, htokens, htarget⟩ := exists_target (P := IsWritable) hname
    have hstops : Stops 1 (.symbol (assignSymbol op) :: (e.tokens ++ more)) :=
      stops_symbol _ fun l hl => by
        rw [level?_assignSymbol, Option.some.injEq] at hl
        omega
    rw [← htokens] at hN ⊢
    refine .bind (accepts_ternary hagain ht (.plain (by omega)) hstops hN) (.bind (accepts_peek _) ?_)
    rw [List.headD_cons, hop]
    dsimp only
    rw [htarget]
    refine .bind (accepts_next _) (.bind (accepts_tokens hagain he hmore ?_) (.pure _ more))
    simp only [List.length_append, List.length_cons] at hN ⊢
    omega
  | @joined c l r =>
    have := level_apply_mem c l r
    omega
  | _ => cases hlevel

end Grammar

theorem rereads_enter (n : Nat) : Rereads (enter n) n := by
  induction n with
  | zero => exact fun _ _ _ _ _ _ _ hN => absurd hN (Nat.not_lt_zero _)
  | succ n ih =>
    intro entry e ts more he hw hmore hN
    rw [Nat.lt_succ_iff] at hN
    cases entry with
    | assignment => exact accepts_assignment ih he hw hmore hN
    | ternary => exact accepts_ternary ih he hw hmore hN
    | coalesce => exact accepts_coalesce ih he hw hmore hN
    | unary => exact accepts_unary ih he hw hmore hN

theorem accepts_expression {e : Expr} (he : Formed IsWritable e) :
    Accepts (expression false) e.tokens e [] := by
  refine .get fun cs hcs => ?_
  have hN : (e.tokens ++ []).length < cs.length + 1 := by
    rw [List.append_nil]
    exact Nat.lt_succ_of_le hcs.length_le
  have henter := rereads_enter (cs.length + 1) .assignment e e.tokens [] he (.plain (Nat.zero_le _))
    (stops_nil _) hN
  rwa [List.append_nil] at henter

end Parser

/-- What is written as its tokens, with blanks between them or without, denotes the tree. -/
theorem parseExpr_of_reads {e : Expr} {text : String} (he : Formed IsWritable e)
    (h : Reads text.toList e.tokens) : parseExpr text = .ok e := by
  have hwhole : Parser.Accepts (do
      let e ← Parser.expression false
      Parser.expectEnd
      return e) e.tokens e [] :=
    .bind (Parser.accepts_expression he) (.bind Parser.accepts_expectEnd (.pure e []))
  obtain ⟨rest, hrest, -⟩ := hwhole _ h
  exact parseExpr_eq_ok_iff.mpr ⟨rest, hrest⟩

/-- Every tree that can be written is read back from its text. -/
theorem parseExpr_print_of_formed {e : Expr} (he : Formed IsWritable e) : parseExpr e.print = .ok e := by
  refine parseExpr_of_reads he ?_
  rw [Expr.print, String.toList_ofList]
  exact reads_spell he.allProper_tokens

/-- Trees that can be written are told apart by their text. -/
theorem print_inj_of_formed {e e' : Expr} (he : Formed IsWritable e) (he' : Formed IsWritable e')
    (h : e.print = e'.print) : e = e' := by
  have hparse := parseExpr_print_of_formed he
  rw [h, parseExpr_print_of_formed he'] at hparse
  exact (Except.ok.inj hparse).symm

/-- What is read from a text is read again from how it is printed. -/
theorem parseExpr_print {text : String} {e : Expr} (h : parseExpr text = .ok e)
    (hplain : ∀ v ∈ e.literals, v.isPlain = true) : parseExpr e.print = .ok e :=
  parseExpr_print_of_formed ((isFormed_of_parseExpr h).of_literals hplain)

/-- A text denotes the tree that is written like what is read from it. Equality of trees is not decided,
that of how they are written is. -/
theorem parseExpr_of_spell {text : String} {e : Expr} (he : Formed IsWritable e)
    (h : (parseExpr text).toOption.any (fun read => decide (∀ v ∈ read.literals, v.isPlain = true) &&
      decide (spell read.tokens = spell e.tokens)) = true) : parseExpr text = .ok e := by
  cases hparse : parseExpr text with
  | error fault =>
    rw [hparse] at h
    cases h
  | ok read =>
    rw [hparse] at h
    obtain ⟨hplain, hspell⟩ := Bool.and_eq_true_iff.mp h
    have hformed : read.Formed IsWritable :=
      (isFormed_of_parseExpr hparse).of_literals (of_decide_eq_true hplain)
    rw [print_inj_of_formed hformed he (congrArg String.ofList (of_decide_eq_true hspell))]

/-- One pair of parentheses is printed where two were read. -/
theorem parseExpr_print_product : ∃ e, parseExpr "-(($a.b+1))*2U" = .ok e ∧
    (∀ v ∈ e.literals, v.isPlain = true) ∧ e.print = "- ($a.b + 1) * 2U" ∧
    parseExpr "- ($a.b + 1) * 2U" = .ok e := by
  have hrun : (parseExpr "-(($a.b+1))*2U").toOption.any (fun e =>
      decide (∀ v ∈ e.literals, v.isPlain = true) &&
        decide (spell e.tokens = "- ($a.b + 1) * 2U".toList)) = true := by decide +kernel
  cases hparse : parseExpr "-(($a.b+1))*2U" with
  | error fault =>
    rw [hparse] at hrun
    cases hrun
  | ok e =>
    rw [hparse] at hrun
    obtain ⟨hplain, hspell⟩ := Bool.and_eq_true_iff.mp hrun
    have hplain := of_decide_eq_true hplain
    have hprint : e.print = "- ($a.b + 1) * 2U" := by
      rw [Expr.print, of_decide_eq_true hspell, String.ofList_toList]
    exact ⟨e, rfl, hplain, hprint, hprint ▸ parseExpr_print hparse hplain⟩

end ActionTree.Notation
