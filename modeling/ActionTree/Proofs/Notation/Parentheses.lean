import ActionTree.Proofs.Notation.Closing
import ActionTree.Proofs.Notation.Grammar

/-!
# Parentheses around an expression

A parenthesis may open a cast. Around an expression it opens none, but for two kinds of them: the name of a
built-in type is a type without an operand, and an array without a type looks like one.
-/

namespace ActionTree.Notation

namespace Parser

variable {last : List Char} {again : Again} {barEnds : Bool} {ts ts' more : List Token} {e : Expr}

/-! ## From an operand to an expression -/

/-- Where nothing goes on with an operand, it is the expression. -/
theorem accepts_assignment_unary (h : Accepts (unary again false) ts e more) (hmore : Stops 0 more) :
    Accepts (assignment again false) ts e more := by
  have hleveled {k : Nat} {levels : List (List (Symbol × Connective))} (hlevels : Graded k levels) :
      Accepts (leveled (unary again false) levels) ts e more := by
    induction hlevels with
    | nil => exact h
    | cons _ _ hops _ ih =>
      exact .bind ih (.fuel fun n _ => accepts_joined_none hops (hmore.mono (Nat.zero_le _)) n e)
  have hcoalesce : Accepts (coalesce again false) ts e more :=
    .bind (hleveled graded_levels)
      (.bind (accepts_eat_other (hmore.head?_ne rfl (Nat.zero_le _))) (.pure e more))
  have hternary : Accepts (ternary again false) ts e more :=
    .bind hcoalesce (.bind (accepts_eat_other (hmore.head?_ne rfl (Nat.zero_le _))) (.pure e more))
  refine .here fun start => .bind hternary (.bind (accepts_peek more) ?_)
  rw [assignOp?_of_stops hmore]
  exact .pure e more

/-- Nothing goes on with an operand before a closing parenthesis. -/
theorem within_assignment_unary {Q : List Token → Prop}
    (hQ : ∀ ts, Q ts → ∃ rest, ts = .symbol .rParen :: rest)
    (h : Within last (unary again barEnds) ts fun _ => Q) :
    Within last (assignment again barEnds) ts fun _ => Q := by
  have hjoined {ops : List (Symbol × Connective)} (hops : ops.lookup .rParen = none) (tight : Parser Expr)
      (n : Nat) (e : Expr) {ts : List Token} (hts : Q ts) :
      Within last (joined ops tight n e) ts fun _ => Q := by
    cases n with
    | zero => exact .pure hts
    | succ n =>
      refine within_connective?.bind ?_
      rintro _ ts' (⟨s, c, rfl, rfl, hc⟩ | ⟨rfl, rfl, -⟩)
      · obtain ⟨_, ⟨⟩⟩ := hQ _ hts
        rw [hops] at hc
        cases hc
      · exact .pure hts
  have hleveled {levels : List (List (Symbol × Connective))}
      (hlevels : ∀ ops ∈ levels, ops.lookup .rParen = none) :
      Within last (leveled (unary again barEnds) levels) ts fun _ => Q := by
    induction levels with
    | nil => exact h
    | cons ops tighter ih =>
      rw [List.forall_mem_cons] at hlevels
      exact (ih hlevels.2).bind fun left ts' hts' => .get fun cs _ => hjoined hlevels.1 _ _ left hts'
  have hnone {s : Symbol} (hs : s ≠ .rParen) {x : Parser Expr} (e : Expr) {ts : List Token} (hts : Q ts) :
      Within last (do if ← eat s then x else return e) ts fun _ => Q := by
    refine within_eat.bind ?_
    rintro _ ts' (⟨rfl, rfl⟩ | ⟨rfl, rfl, -⟩)
    · obtain ⟨_, ⟨⟩⟩ := hQ _ hts
      exact absurd rfl hs
    · exact .pure hts
  have hternary : Within last (ternary again barEnds) ts fun _ => Q :=
    ((hleveled (lookup_rParen barEnds)).bind fun l _ hl => hnone (s := .questionQuestion) nofun l hl).bind
      fun c _ hc => hnone (s := .question) nofun c hc
  refine .here fun start => hternary.bind fun l ts' hts' => .peek ?_
  obtain ⟨rest, rfl⟩ := hQ _ hts'
  exact .pure hts'

/-! ## What stands where a type could stand -/

theorem endsType_cases (h : endsType ts = true) :
    (∃ rest, ts = .symbol .dot :: rest) ∨ (∃ rest, ts = .symbol .lBracket :: .symbol .rBracket :: rest) ∨
      ∃ rest, ts = .symbol .rParen :: rest := by
  unfold endsType at h
  split at h
  · exact .inl ⟨_, rfl⟩
  · exact .inl ⟨_, rfl⟩
  · exact .inr (.inl ⟨_, rfl⟩)
  · exact .inr (.inr ⟨_, rfl⟩)
  · cases h

/-- No call follows what could be a type. -/
theorem headD_ne_lParen (h : endsType ts = true) : ts.headD .eof ≠ .symbol .lParen := by
  obtain ⟨_, rfl⟩ | ⟨_, rfl⟩ | ⟨_, rfl⟩ := endsType_cases h <;> nofun

/-- No expression starts with a closing bracket. -/
theorem within_enter_rBracket (n : Nat) :
    Within last (enter n .assignment barEnds) (.symbol .rBracket :: ts) fun _ _ => False := by
  cases n with
  | zero => exact within_unexpected _
  | succ n =>
    have hprimary : Within last (primary (enter n)) (.symbol .rBracket :: ts) fun _ _ => False := by
      rw [primary_eq]
      exact .peek (within_unexpected _)
    have hoperand : Within last (operand (enter n)) (.symbol .rBracket :: ts) fun _ _ => False :=
      hprimary.bind fun _ _ => False.elim
    exact within_assignment_unary (fun _ => False.elim) (.peek hoperand)

section

variable (hbracket : ∀ ts, Within last (again .assignment false) (.symbol .rBracket :: ts) fun _ _ => False)

include hbracket

theorem within_suffixes_endsType {n : Nat} (hn : ts.length ≤ n) (h : endsType ts = true) :
    Within last (suffixes again n e) ts fun _ ts' => ∃ rest, ts' = .symbol .rParen :: rest := by
  induction n generalizing ts e with
  | zero =>
    obtain rfl := List.eq_nil_of_length_eq_zero (Nat.le_zero.mp hn)
    cases h
  | succ n ih =>
    refine within_eat.bind ?_
    rintro _ rest (⟨rfl, rfl⟩ | ⟨rfl, rfl, hdot⟩)
    · refine within_expectName.bind ?_
      rintro name rest rfl
      have hrest : endsType rest = true := h
      refine .peek ?_
      simp only [List.length_cons] at hn
      split
      next hparen => exact absurd hparen (headD_ne_lParen hrest)
      next => exact ih (by omega) hrest
    · refine within_eat.bind ?_
      rintro _ rest (⟨rfl, rfl⟩ | ⟨rfl, rfl, hopen⟩)
      · obtain ⟨_, ⟨⟩⟩ | ⟨_, ⟨⟩⟩ | ⟨_, ⟨⟩⟩ := endsType_cases h
        exact (hbracket _).bind fun _ _ => False.elim
      · obtain ⟨_, rfl⟩ | ⟨_, rfl⟩ | hparen := endsType_cases h
        · exact absurd rfl hdot
        · exact absurd rfl hopen
        · exact .pure hparen

omit hbracket in
/-- An array without a type has items. -/
theorem within_newArray_endsType (h : endsType ts = true)
    (hitems : ∀ rest, ts ≠ .symbol .lBracket :: .symbol .rBracket :: .symbol .lBrace :: rest) :
    Within last (newArray again) ts fun _ _ => False := by
  obtain ⟨rest, rfl⟩ | ⟨rest, rfl⟩ | ⟨rest, rfl⟩ := endsType_cases h
  · exact .peek ((within_unexpected _).bind fun _ _ => False.elim)
  · refine .peek (Within.bind (Q := fun element us => element = none ∧ _ = us) (.pure ⟨rfl, rfl⟩) ?_)
    rintro _ _ ⟨rfl, rfl⟩
    refine within_expect.bind ?_
    rintro _ _ ⟨⟩
    refine within_eat.bind ?_
    rintro _ _ (⟨rfl, ⟨⟩⟩ | ⟨rfl, rfl, hclose⟩)
    · refine within_expect.bind ?_
      rintro _ _ rfl
      exact absurd rfl (hitems _)
    · exact absurd rfl hclose
  · exact .peek ((within_unexpected _).bind fun _ _ => False.elim)

omit hbracket in
/-- What could be a type does not end where the operand that starts with its name ends, unless the operand is
an array without a type. -/
theorem within_named_endsType {name : String} (h : endsType ts = true)
    (hnew : ∀ rest, name = "new" → ts ≠ .symbol .lBracket :: .symbol .rBracket :: .symbol .lBrace :: rest) :
    Within last (named again name) ts fun _ ts' => endsType ts' = true := by
  unfold named
  split
  · exact .pure h
  · exact .pure h
  · exact .pure h
  · exact (within_newArray_endsType h fun rest => hnew rest rfl).mono fun _ _ => False.elim
  · refine .peek ?_
    split
    next hparen => exact absurd hparen (headD_ne_lParen h)
    next hdot =>
      obtain ⟨rest, rfl⟩ | ⟨_, rfl⟩ | ⟨_, rfl⟩ := endsType_cases h
      · refine .next (within_expectName.bind ?_)
        rintro member rest rfl
        have hrest : endsType rest = true := h
        refine .peek ?_
        split
        next hparen => exact absurd hparen (headD_ne_lParen hrest)
        next => exact .pure hrest
      · cases hdot
      · cases hdot
    next => exact .pure h

/-- After what could be a type in parentheses an operand stops, unless it is an array without a type. -/
theorem within_unary_endsType {name : String} (h : endsType ts = true)
    (hnew : ∀ rest, name = "new" → ts ≠ .symbol .lBracket :: .symbol .rBracket :: .symbol .lBrace :: rest) :
    Within last (unary again barEnds) (.ident name :: ts) fun _ ts' =>
      ∃ rest, ts' = .symbol .rParen :: rest := by
  have hprimary : Within last (primary again) (.ident name :: ts) fun _ ts' => endsType ts' = true := by
    rw [primary_eq]
    exact .peek (.next (within_named_endsType h hnew))
  refine .peek (hprimary.bind fun e ts' hts' => ?_)
  exact .fuel (f := fun n => suffixes again n e) fun n hn => within_suffixes_endsType hbracket hn hts'

end

/-! ## Types without an operand -/

theorem dotted_append_inj {parts parts' : List String} (hts : ts.head? ≠ some (.symbol .dot))
    (hts' : ts'.head? ≠ some (.symbol .dot)) (h : dotted parts ++ ts = dotted parts' ++ ts') :
    parts = parts' ∧ ts = ts' := by
  induction parts generalizing parts' with
  | nil =>
    cases parts' with
    | nil => exact ⟨rfl, h⟩
    | cons => exact absurd (congrArg List.head? h) hts
  | cons part parts ih =>
    cases parts' with
    | nil => exact absurd (congrArg List.head? h).symm hts'
    | cons part' parts' =>
      simp only [dotted, List.flatMap_cons, List.cons_append, List.nil_append, List.cons.injEq,
        true_and, Token.ident.injEq] at h
      obtain ⟨rfl, rfl⟩ := ih h.2
      exact ⟨by rw [h.1], rfl⟩

/-- No cast is made, and nothing else read, of a parenthesis whose cast is rejected. -/
theorem within_unary_of_cast?
    (h : Within last (cast? again barEnds) (.symbol .lParen :: ts) fun _ _ => False) :
    Within last (unary again barEnds) (.symbol .lParen :: ts) fun _ _ => False :=
  .peek (h.bind fun _ _ => False.elim)

/-- A built-in type in parentheses that no operand follows. -/
theorem within_unary_builtin {head : String} {parts : List String}
    (h : (ValueType.builtin? (".".intercalate (head :: parts))).isSome = true) :
    Within last (unary again barEnds) (parenthesized (.ident head :: dotted parts)) fun _ _ => False := by
  refine within_unary_of_cast? (.get fun start _ => .next (within_castType?.bind ?_))
  rintro _ ts' (⟨-, hopens⟩ | ⟨head', parts', isArray, rfl, heq⟩)
  · rw [List.append_eq, List.cons_append, opensCast, endsType_dotted] at hopens
    cases hopens
  · simp only [castTokens, List.append_eq, List.cons_append, List.append_assoc, List.cons.injEq,
      Token.ident.injEq] at heq
    obtain ⟨rfl, heq⟩ := heq
    obtain ⟨rfl, htail⟩ := dotted_append_inj (by simp) (by cases isArray <;> simp) heq
    cases isArray with
    | true => cases htail
    | false =>
      cases htail
      have hkeyword : (false || (ValueType.builtin? (".".intercalate (head :: parts))).isSome) = true := h
      refine .peek ?_
      dsimp only
      rw [hkeyword]
      exact (within_unexpected _).bind fun _ _ => False.elim

/-- An array without a type, with items. -/
theorem within_unary_bareArray : Within last (unary again barEnds)
    (.symbol .lParen :: .ident "new" :: .symbol .lBracket :: .symbol .rBracket :: .symbol .lBrace :: ts)
    fun _ _ => False := by
  refine within_unary_of_cast? (.get fun start _ => .next (within_castType?.bind ?_))
  rintro _ ts' (⟨-, ⟨⟩⟩ | ⟨head', parts', isArray, rfl, heq⟩)
  simp only [castTokens, List.cons_append, List.append_assoc, List.cons.injEq] at heq
  have hinj : [] = parts' ∧ _ := dotted_append_inj (by simp) (by cases isArray <;> simp) heq.2
  cases isArray <;> cases hinj.2

end Parser

open Notation.Parser

/-! ## Texts in parentheses -/

/-- The text starts with an array without a type. -/
def StartsBareArray (text : String) : Prop :=
  ∃ ts, Reads text.toList (.ident "new" :: .symbol .lBracket :: .symbol .rBracket :: ts)

/-- The text is the name of a built-in type. -/
def NamesBuiltin (text : String) : Prop :=
  ∃ head parts, Reads text.toList (.ident head :: dotted parts) ∧
    (ValueType.builtin? (".".intercalate (head :: parts))).isSome = true

variable {text : String} {e : Expr} {cs : List Char}

theorem skipSpace_of_expectEnd {cs' : List Char} (h : expectEnd cs = .ok ((), cs')) :
    skipSpace cs = [] := by
  obtain ⟨⟨t, _⟩, hpeek, h⟩ := exists_of_bind_ok h
  obtain ⟨⟨u, rest⟩, htoken, heq⟩ := exists_of_map_ok hpeek
  cases heq
  dsimp only at h
  split at h
  · cases hskip : skipSpace cs with
    | nil => rfl
    | cons c cs =>
      rw [token, hskip] at htoken
      exact absurd htoken (tokenHere_ne_eof c cs)
  · obtain ⟨_, _, h⟩ := exists_of_bind_ok h
    cases h

/-- The tokens of a text that is accepted. What holds where the grammar succeeds on them holds of the tree,
with no token left. -/
theorem exists_passes_of_parseExpr (h : parseExpr text = .ok e) :
    ∃ ts last, Passes text.toList ts last ∧ skipSpace last = [] ∧
      ∀ Q, Within last (enter (text.toList.length + 1) .assignment false) ts Q → Q e [] := by
  obtain ⟨rest, hrest⟩ := parseExpr_eq_ok_iff.mp h
  obtain ⟨⟨e', cs⟩, hexpr, hrest⟩ := exists_of_bind_ok hrest
  obtain ⟨⟨_, cs'⟩, hend, heq⟩ := exists_of_bind_ok hrest
  cases heq
  obtain ⟨ts, last, hpasses, hlast⟩ := exists_passes text.toList
  have hnil {ts' : List Token} (hts' : Passes cs ts' last) : ts' = [] ∧ cs = last := by
    obtain ⟨_, _, heof, rfl⟩ := within_expectEnd hts' hlast hend
    cases hts' with
    | none => exact ⟨rfl, rfl⟩
    | step _ ht _ => exact absurd heof ht
  refine ⟨ts, last, hpasses, ?_, fun Q hQ => ?_⟩
  · obtain ⟨ts', hts', -⟩ := carries_enter (Nat.le_refl _) .assignment false ts hpasses hlast hexpr
    exact (hnil hts').2 ▸ skipSpace_of_expectEnd hend
  · obtain ⟨ts', hts', hQ⟩ := hQ hpasses hlast hexpr
    rwa [(hnil hts').1] at hQ

theorem parseExpr_of_accepts {ts : List Token} (hreads : Reads text.toList ts)
    (h : Accepts (enter (text.toList.length + 1) .assignment false) ts e []) : parseExpr text = .ok e := by
  obtain ⟨cs, hexpr, hcs⟩ := h _ hreads
  have hexpr : expression false text.toList = .ok (e, cs) := hexpr
  obtain ⟨rest, hend, -⟩ := accepts_expectEnd cs hcs
  refine parseExpr_eq_ok_iff.mpr ⟨rest, ?_⟩
  change Except.bind (expression false text.toList) _ = _
  rw [hexpr]
  change Except.bind (expectEnd cs) _ = _
  rw [hend]
  rfl

/-- What could open a cast in an accepted text is an array without a type. -/
theorem bareArray_of_opensCast {n : Nat} {ts : List Token} {last : List Char}
    (h : ∀ Q, Within last (enter (n + 1) .assignment false) ts Q → Q e []) (hopens : opensCast ts = true) :
    ∃ rest, ts = .ident "new" :: .symbol .lBracket :: .symbol .rBracket :: .symbol .lBrace :: rest := by
  match ts with
  | .ident name :: ts =>
    refine Classical.byContradiction fun hbare => ?_
    obtain ⟨_, ⟨⟩⟩ := h _ (within_assignment_unary (fun _ => id)
      (within_unary_endsType (fun _ => within_enter_rBracket n) hopens fun rest hname hts =>
        hbare ⟨rest, by rw [hname, hts]⟩))

/-- The parenthesis before tokens that are accepted opens no cast, but for two kinds of them. -/
theorem accepts_cast?_parenthesized {again : Again} {ts : List Token}
    (hopens : opensCast ts = false)
    (hbuiltin : ∀ head parts, ts = .ident head :: dotted parts →
      (ValueType.builtin? (".".intercalate (head :: parts))).isSome = false) :
    Accepts (cast? again false) (parenthesized ts) none (parenthesized ts) := by
  cases hclosed : opensCast (closed ts) with
  | false => exact accepts_cast?_none hclosed
  | true =>
    obtain hopened | ⟨head, parts, rfl⟩ := opensCast_closed hclosed
    · rw [hopened] at hopens
      cases hopens
    · refine .get fun cs hcs => .bind (accepts_next _) (.bind
        (accepts_castType?_castTokens head parts false []) (.bind (accepts_peek _) ?_))
      have hkeyword : (false || (ValueType.builtin? (".".intercalate (head :: parts))).isSome) = false :=
        hbuiltin head parts (by simp [castTokens])
      dsimp only
      rw [hkeyword]
      exact .bind (accepts_set hcs) (.pure none _)

theorem accepts_unary_parenthesized {again : Again} {ts : List Token}
    (hcast : Accepts (cast? again false) (parenthesized ts) none (parenthesized ts))
    (h : Accepts (again .assignment false) (closed ts) e [.symbol .rParen]) :
    Accepts (unary again false) (parenthesized ts) e [] := by
  have hprimary : Accepts (primary again) (parenthesized ts) e [] := by
    rw [primary_eq]
    exact .bind (accepts_peek _) (.bind (accepts_next _) (.bind h
      (.bind (accepts_expect .rParen []) (.pure e []))))
  have hoperand : Accepts (operand again) (parenthesized ts) e [] :=
    Continues.operand hprimary fun n _ => accepts_suffixes_none n e (stops_nil 14)
  exact .bind (accepts_peek _) (.bind hcast hoperand)

/-- A text in parentheses is accepted for the same tree, but for two kinds of texts. -/
theorem parseExpr_parenthesized_iff (h : parseExpr text = .ok e) (hcomments : Uncommented text) :
    parseExpr ("(" ++ text ++ ")") = .ok e ↔ ¬ StartsBareArray text ∧ ¬ NamesBuiltin text := by
  obtain ⟨ts, last, hpasses, hend, hwithin⟩ := exists_passes_of_parseExpr h
  have hreads := hpasses.reads hend
  have hreads' := hcomments.reads_parenthesized hpasses hend
  constructor
  · intro hparsed
    obtain ⟨ts', last', hpasses', hend', hwithin'⟩ := exists_passes_of_parseExpr hparsed
    obtain rfl := (hpasses'.reads hend').unique hreads'
    have hfalse (hunary : ∀ again, Within last' (unary again false) (parenthesized ts) fun _ _ => False) :
        False :=
      hwithin' _ (within_assignment_unary (Q := fun _ => False) (fun _ => False.elim) (hunary (enter _)))
    refine ⟨?_, ?_⟩
    · rintro ⟨us, hus⟩
      obtain rfl := hreads.unique hus
      obtain ⟨rest, ⟨⟩⟩ := bareArray_of_opensCast hwithin rfl
      exact hfalse fun _ => within_unary_bareArray
    · rintro ⟨head, parts, hus, hbuiltin⟩
      obtain rfl := hreads.unique hus
      exact hfalse fun _ => within_unary_builtin hbuiltin
  · rintro ⟨hbare, hbuiltin⟩
    have hlength : text.toList.length + 1 ≤ ("(" ++ text ++ ")").toList.length := by simp
    have hcast (again : Again) :
        Accepts (cast? again false) (parenthesized ts) none (parenthesized ts) := by
      refine accepts_cast?_parenthesized (Bool.eq_false_iff.mpr fun hopens => ?_) fun head parts hts => ?_
      · obtain ⟨rest, rfl⟩ := bareArray_of_opensCast hwithin hopens
        exact hbare ⟨_, hreads⟩
      · subst hts
        exact Bool.eq_false_iff.mpr fun hsome => hbuiltin ⟨head, parts, hreads, hsome⟩
    have hinner := (hwithin _ (carries_enter hlength .assignment false ts)).2
    refine parseExpr_of_accepts hreads' (accepts_assignment_unary ?_ (stops_nil 0))
    exact accepts_unary_parenthesized (hcast _) hinner

/-- An array without a type is not read in parentheses, though one with a type is. -/
theorem parseExpr_parenthesized_bareArray : ∃ e, parseExpr "new[]\x7b1, 2\x7d" = .ok e ∧
    parseExpr "(new[]\x7b1, 2\x7d)" ≠ .ok e ∧
    (parseExpr "(new int[]\x7b1, 2\x7d)").toOption.isSome = true := by
  have hrun : (parseExpr "new[]\x7b1, 2\x7d").toOption.isSome = true := by decide +kernel
  cases hparse : parseExpr "new[]\x7b1, 2\x7d" with
  | error fault =>
    rw [hparse] at hrun
    cases hrun
  | ok e =>
    have hspell : spell [.ident "new", .symbol .lBracket, .symbol .rBracket, .symbol .lBrace,
        .number (.int ⟨.int, 1, by decide⟩), .symbol .comma, .number (.int ⟨.int, 2, by decide⟩),
        .symbol .rBrace] = "new[]\x7b1, 2\x7d".toList := by decide +kernel
    have hbare : StartsBareArray "new[]\x7b1, 2\x7d" := by
      refine ⟨_, hspell ▸ reads_spell ?_⟩
      simp only [List.forall_mem_cons]
      exact ⟨.ident (by decide +kernel), .symbol _, .symbol _, .symbol _, .number (by decide), .symbol _,
        .number (by decide), .symbol _, List.forall_mem_nil _⟩
    have hcomments : Uncommented "new[]\x7b1, 2\x7d" :=
      uncommented_of_commentFree (n := 9) (by decide +kernel)
    have htext : "(new[]\x7b1, 2\x7d)" = "(" ++ "new[]\x7b1, 2\x7d" ++ ")" := by decide
    refine ⟨e, rfl, ?_, by decide +kernel⟩
    rw [htext]
    exact fun h => ((parseExpr_parenthesized_iff hparse hcomments).mp h).1 hbare

end ActionTree.Notation
