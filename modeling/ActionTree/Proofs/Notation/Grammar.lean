import ActionTree.Proofs.Notation.Writing

/-!
# Rules of the grammar

What the rules do that enter nothing again: where an expression ends, what follows an operand, which
operators stand on which level, and when a parenthesis opens a cast.
-/

namespace ActionTree.Notation

open ActionTree.Expr

/-! ## Where an expression ends -/

/-- The level at which a symbol goes on with the expression before it. -/
def Symbol.level? : Symbol → Option Nat
  | assign | plusAssign | minusAssign | starAssign | slashAssign => some 0
  | question => some 1
  | questionQuestion => some 2
  | orOr => some 3
  | andAnd => some 4
  | pipe => some 5
  | caret => some 6
  | amp => some 7
  | eqEq | notEq => some 8
  | lt | le | gt | ge => some 9
  | shl | shr => some 10
  | plus | minus => some 11
  | star | slash | percent => some 12
  | dot | lBracket | lParen => some 14
  | _ => none

/-- What comes next goes on with no expression of the level or a tighter one. -/
def Stops (k : Nat) (ts : List Token) : Prop :=
  ∀ s l, ts.head? = some (.symbol s) → s.level? = some l → l < k

theorem Stops.mono {k j : Nat} {ts : List Token} (h : Stops k ts) (hkj : k ≤ j) : Stops j ts :=
  fun s l hs hl => Nat.lt_of_lt_of_le (h s l hs hl) hkj

theorem Stops.head?_ne {k l : Nat} {ts : List Token} {s : Symbol} (h : Stops k ts)
    (hl : s.level? = some l) (hk : k ≤ l) : ts.head? ≠ some (.symbol s) :=
  fun hs => absurd (h s l hs hl) (by omega)

theorem stops_symbol {k : Nat} {s : Symbol} (ts : List Token) (h : ∀ l, s.level? = some l → l < k) :
    Stops k (.symbol s :: ts) := by
  rintro _ l ⟨⟩ hl
  exact h l hl

theorem stops_nil (k : Nat) : Stops k [] := fun _ _ h => by cases h

theorem Symbol.level?_of_closes {s : Symbol} (h : (Token.symbol s).closes = true) : s.level? = none := by
  cases s <;> first | rfl | exact absurd h (by decide)

theorem stops_closing {s : Symbol} (k : Nat) (ts : List Token) (h : (Token.symbol s).closes = true) :
    Stops k (.symbol s :: ts) :=
  stops_symbol ts fun l hl => by simp [Symbol.level?_of_closes h] at hl

namespace Parser

theorem Connective.level?_symbol (c : Connective) : c.symbol.level? = some c.level := by
  cases c with
  | binary op => cases op <;> rfl
  | _ => rfl

theorem level?_assignSymbol (op : Option BinaryOp) : (assignSymbol op).level? = some 0 := by
  unfold assignSymbol
  split <;> rfl

theorem assignOp?_of_stops {ts : List Token} (h : Stops 0 ts) : assignOp? (ts.headD .eof) = none := by
  cases ts with
  | nil => rfl
  | cons t ts =>
    rw [List.headD_cons]
    unfold assignOp?
    split
    case h_6 => rfl
    all_goals exact absurd (h _ 0 rfl rfl) (Nat.lt_irrefl 0)

variable {again : Again} {N : Nat} {e a : Expr} {ts more ts' : List Token}

/-! ## What follows an operand -/

/-- What follows the operand is read as `a`. An operand that is the target of what follows it is never
read alone, so the statements on targets are about what follows them. -/
def Continues (again : Again) (e : Expr) (more : List Token) (a : Expr) (ts' : List Token) : Prop :=
  ∀ n, more.length ≤ n → Accepts (suffixes again n e) more a ts'

theorem accepts_suffixes_none (n : Nat) (e : Expr) (hmore : Stops 14 more) :
    Accepts (suffixes again n e) more e more := by
  cases n with
  | zero => exact .pure e more
  | succ n =>
    exact .bind (accepts_eat_other (hmore.head?_ne rfl (Nat.le_refl 14)))
      (.bind (accepts_eat_other (hmore.head?_ne rfl (Nat.le_refl 14))) (.pure e more))

theorem headD_ne {s : Symbol} (h : more.head? ≠ some (.symbol s)) : more.headD .eof ≠ .symbol s := by
  cases more with
  | nil => rintro ⟨⟩
  | cons t more => exact fun heq => h (congrArg some heq)

theorem Continues.member {name : String} (hparen : more.head? ≠ some (.symbol .lParen))
    (h : Continues again (memberOf e name) more a ts') :
    Continues again e (dotted [name] ++ more) a ts' := by
  intro n hn
  obtain ⟨n, rfl⟩ := Nat.exists_eq_add_one_of_ne_zero (Nat.ne_zero_of_lt hn)
  refine .bind (accepts_eat .dot _) (.bind (accepts_expectName name more)
    (.bind (accepts_peek more) ?_))
  split
  next heq => exact absurd heq (headD_ne hparen)
  next =>
    refine h n ?_
    simp [dotted] at hn
    omega

theorem head?_dotted_ne {names : List String} (hparen : more.head? ≠ some (.symbol .lParen)) :
    (dotted names ++ more).head? ≠ some (.symbol .lParen) := by
  cases names with
  | nil => exact hparen
  | cons name names => rintro ⟨⟩

/-- The members of a path are read one after the other. -/
theorem Continues.path {head : String} {members names : List String}
    (hparen : more.head? ≠ some (.symbol .lParen))
    (h : Continues again (.path head (members ++ names)) more a ts') :
    Continues again (.path head members) (dotted names ++ more) a ts' := by
  induction names generalizing members with
  | nil => simpa [dotted] using h
  | cons name names ih =>
    have hrest : Continues again (.path head (members ++ [name])) (dotted names ++ more) a ts' :=
      ih (by simpa using h)
    have hmember : Continues again (.path head members) (dotted [name] ++ (dotted names ++ more)) a ts' :=
      .member (head?_dotted_ne hparen) hrest
    exact hmember

/-- What follows an operand is read after the operand. -/
theorem Continues.operand (hprimary : Accepts (primary again) ts e more)
    (h : Continues again e more a ts') : Accepts (operand again) ts a ts' :=
  .bind hprimary (.fuel h)

/-! ## Names -/

theorem accepts_primary_ident {name : String} (h : Accepts (named again name) more a ts') :
    Accepts (primary again) (.ident name :: more) a ts' := by
  rw [primary_eq]
  exact .bind (accepts_peek _) (.bind (accepts_next _) h)

theorem accepts_primary_var (name : String) (more : List Token) :
    Accepts (primary again) (.var name :: more) (.var name) more := by
  rw [primary_eq]
  exact .bind (accepts_peek _) (.bind (accepts_next _) (.pure _ more))

theorem accepts_primary_literal {v : Value} (h : v.isPlain = true) :
    Accepts (primary again) (literalToken v :: more) (.literal v) more := by
  cases v with
  | null => exact accepts_primary_ident (.pure _ more)
  | bool b => cases b <;> exact accepts_primary_ident (.pure _ more)
  | int | str =>
    rw [primary_eq]
    exact .bind (accepts_peek _) (.bind (accepts_next _) (.pure _ more))
  | _ => cases h

theorem named_of_isPlainName {name : String} (h : IsPlainName name) :
    named again name = (do
      match ← peek with
      | .symbol .lParen => return .call name (← arguments again)
      | .symbol .dot =>
        let _ ← next
        let member ← expectName
        match ← peek with
        | .symbol .lParen => return .staticCall name member (← arguments again)
        | _ => return .property name member
      | _ => return .var name) := by
  have hname := h.2
  simp only [reserved, List.mem_cons, List.not_mem_nil, or_false, not_or] at hname
  obtain ⟨htrue, hfalse, hnull, hnew⟩ := hname
  unfold named
  split
  · exact absurd rfl htrue
  · exact absurd rfl hfalse
  · exact absurd rfl hnull
  · exact absurd rfl hnew
  · rfl

theorem accepts_primary_property {type name : String} (htype : IsPlainName type)
    (hparen : more.head? ≠ some (.symbol .lParen)) :
    Accepts (primary again) (.ident type :: (dotted [name] ++ more)) (.property type name) more := by
  refine accepts_primary_ident ?_
  rw [named_of_isPlainName htype]
  refine .bind (accepts_peek _) (.bind (accepts_next _) (.bind (accepts_expectName name more)
    (.bind (accepts_peek more) ?_)))
  split
  next heq => exact absurd heq (headD_ne hparen)
  next => exact .pure _ more

/-- The target of an assignment is a variable or a path, and written as one. -/
theorem exists_target {P : Value → Prop} {name : String} (h : IsDotted name) :
    ∃ t, Formed P t ∧ t.level = 14 ∧ t.tokens = dottedName .var name ∧ target? t = some name := by
  obtain ⟨head, parts, hnames, rfl, htokens⟩ := h.dottedName .var
  rw [List.forall_mem_cons] at hnames
  cases parts with
  | nil =>
    refine ⟨.var head, .var hnames.1, rfl, ?_, ?_⟩
    · rw [htokens, Expr.tokens]
      rfl
    · rw [target?, String.intercalate_singleton]
  | cons m members =>
    exact ⟨.path head (m :: members), .path hnames.1 hnames.2, rfl, by rw [htokens, Expr.tokens], rfl⟩

/-! ## Signs and casts -/

theorem accepts_cast?_none {barEnds : Bool} (h : opensCast ts = false) :
    Accepts (cast? again barEnds) (.symbol .lParen :: ts) none (.symbol .lParen :: ts) := by
  obtain ⟨ts', hnone⟩ := accepts_castType?_none h
  exact .get fun cs hcs => .bind (accepts_next _) (.bind hnone (.bind (accepts_set hcs) (.pure none _)))

/-- What starts as an operand is read as one. -/
theorem accepts_unary_operand (hstart : StartsOperand ts) (h : Accepts (operand again) ts a ts') :
    Accepts (unary again false) ts a ts' := by
  unfold StartsOperand at hstart
  split at hstart
  · exact .bind (accepts_peek _) (.bind (accepts_cast?_none hstart) h)
  case h_7 => exact hstart.elim
  all_goals exact .bind (accepts_peek _) h

theorem startsCastOperand_of_startsOperand (isKeyword : Bool) (h : StartsOperand ts) :
    startsCastOperand isKeyword (ts.headD .eof) = true := by
  unfold StartsOperand at h
  split at h
  case h_7 => exact h.elim
  all_goals rfl

theorem castLevel_mem (e : Expr) : 13 ≤ castLevel e ∧ castLevel e ≤ 14 := by
  unfold castLevel
  split <;> decide

/-- A sign in front of the operand of a cast is in parentheses. -/
theorem startsCastOperand_castLevel (he : Formed IsWritable e) (isKeyword : Bool) (more : List Token) :
    startsCastOperand isKeyword ((enclosed (castLevel e) e e.tokens ++ more).headD .eof) = true := by
  cases hunary : e.isUnary with
  | true =>
    rw [castLevel, if_pos hunary]
    exact startsCastOperand_of_startsOperand _
      ((written_enclosed e (Nat.le_refl 14) (Nat.le_refl 14)).startsOperand he more)
  | false =>
    have hw : e.Written 13 (enclosed (castLevel e) e e.tokens) :=
      written_enclosed e (castLevel_mem e).1 (castLevel_mem e).2
    rcases hw.next with hw | ⟨hlevel, htokens⟩
    · exact startsCastOperand_of_startsOperand _ (hw.startsOperand he more)
    · rw [htokens]
      cases he with
      | cast => rw [Expr.tokens]; rfl
      | unary => cases hunary
      | @joined c l r =>
        have := level_apply_mem c l r
        omega
      | _ => cases hlevel

/-! ## Operators that group to the left -/

/-- All operators that group to the left. -/
def connectives : List Connective := levels.flatten.map Prod.snd

/-- The operators of one level, each found by its symbol. -/
def IsLevel (k : Nat) (ops : List (Symbol × Connective)) : Prop :=
  (∀ c ∈ connectives, c.level = k → ops.lookup c.symbol = some c) ∧ ∀ p ∈ ops, p.1.level? = some k

instance (k : Nat) (ops : List (Symbol × Connective)) : Decidable (IsLevel k ops) :=
  inferInstanceAs (Decidable (_ ∧ _))

/-- The levels from `k` to the tightest one. -/
inductive Graded : Nat → List (List (Symbol × Connective)) → Prop where
  | nil : Graded 13 []
  | cons {k : Nat} {ops : List (Symbol × Connective)} {tighter : List (List (Symbol × Connective))} :
      3 ≤ k → k ≤ 12 → IsLevel k ops → Graded (k + 1) tighter → Graded k (ops :: tighter)

theorem graded_levels : Graded 3 levels := by
  unfold levels
  repeat refine .cons (by decide) (by decide) (by decide) ?_
  exact .nil

theorem IsLevel.lookup {k : Nat} {ops : List (Symbol × Connective)} (h : IsLevel k ops) {c : Connective}
    (hc : c.level = k) : ops.lookup c.symbol = some c := by
  refine h.1 c ?_ hc
  cases c with
  | binary op => cases op <;> decide
  | _ => decide

theorem IsLevel.lookup_eq_none {k : Nat} {ops : List (Symbol × Connective)} (h : IsLevel k ops)
    {s : Symbol} (hs : s.level? ≠ some k) : ops.lookup s = none := by
  rw [List.lookup_eq_none_iff]
  intro p hp
  rw [bne_iff_ne]
  rintro rfl
  exact hs (h.2 p hp)

section

variable {k : Nat} {ops : List (Symbol × Connective)} {tight : Parser Expr}

theorem accepts_joined_none (hops : IsLevel k ops) (hmore : Stops k more) (n : Nat) (e : Expr) :
    Accepts (joined ops tight n e) more e more := by
  cases n with
  | zero => exact .pure e more
  | succ n =>
    refine .bind (accepts_connective?_none fun s hs => ?_) (.pure e more)
    exact hops.lookup_eq_none fun hl => absurd (hmore s k hs hl) (Nat.lt_irrefl k)

/-- A left operand is never read alone either: the induction is on the operand, for all that may follow
it and be joined to it. -/
theorem accepts_joined_then (hk : 3 ≤ k) (hk' : k ≤ 12) (hops : IsLevel k ops)
    (htight : ∀ e ts more, Formed IsWritable e → e.Written (k + 1) ts → Stops (k + 1) more →
      (ts ++ more).length ≤ N → Accepts tight (ts ++ more) e more)
    (he : Formed IsWritable e) (hw : e.Written k ts) (hmore : Stops (k + 1) more)
    (hN : (ts ++ more).length ≤ N)
    (h : ∀ n, more.length ≤ n → Accepts (joined ops tight n e) more a ts') :
    Accepts (do
      let left ← tight
      joined ops tight (← get).length left) (ts ++ more) a ts' := by
  have hformed := he
  induction he generalizing ts more with
  | @joined c l r hl hr ih =>
    rcases hw.next with hw | ⟨hlevel, rfl⟩
    · exact .bind (htight _ ts more hformed hw hmore hN) (.fuel h)
    rw [Expr.level_apply] at hlevel
    subst hlevel
    simp only [Expr.tokens_apply, infixTokens, List.append_assoc, List.cons_append] at hN ⊢
    -- The left operand is read first; then the operator joins the right one to it.
    have hcont (n : Nat)
        (hn : (.symbol c.symbol :: (enclosed (c.level + 1) r r.tokens ++ more)).length ≤ n) :
        Accepts (joined ops tight n l)
          (.symbol c.symbol :: (enclosed (c.level + 1) r r.tokens ++ more)) a ts' := by
      obtain ⟨n, rfl⟩ := Nat.exists_eq_add_one_of_ne_zero (Nat.ne_zero_of_lt hn)
      simp only [List.length_append, List.length_cons] at hn hN
      refine .bind (accepts_connective? (hops.lookup rfl) _)
        (.bind (htight r _ more hr (written_enclosed r (Nat.le_refl _) (by omega)) hmore ?_) (h n ?_))
      · simp only [List.length_append]
        omega
      · omega
    refine ih (written_enclosed l (Nat.le_refl _) (by omega)) ?_ hN hcont hl
    exact stops_symbol _ fun j hj => by
      rw [Connective.level?_symbol, Option.some.injEq] at hj
      omega
  | _ =>
    rcases hw.next with hw | ⟨hlevel, -⟩
    · exact .bind (htight _ ts more hformed hw hmore hN) (.fuel h)
    · simp only [Expr.level] at hlevel
      omega

end

end Parser

end ActionTree.Notation
