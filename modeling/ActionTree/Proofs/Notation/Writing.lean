import ActionTree.Proofs.Notation.Acceptance

/-!
# The tokens of an expression

How the tokens of an expression start decides which way the grammar takes: no token closes what was
opened before it, an operand starts with no sign, and an expression in parentheses is not taken for a
cast.
-/

namespace ActionTree

open Notation Notation.Parser

/-- An integer, a string, a boolean or null. -/
def Value.isPlain : Value → Bool
  | .null | .bool _ | .int _ | .str _ => true
  | _ => false

namespace Notation

/-- The literals that are read back. -/
abbrev IsWritable (v : Value) : Prop := IsReadable v ∧ v.isPlain = true

end Notation

namespace Expr

theorem level_apply (c : Connective) (l r : Expr) : (c.apply l r).level = c.level := by
  cases c <;> rfl

/-- The operators that group to the left stand between `??` and the signs. -/
theorem level_apply_mem (c : Connective) (l r : Expr) :
    3 ≤ (c.apply l r).level ∧ (c.apply l r).level ≤ 12 := by
  rw [level_apply]
  cases c with
  | binary op => cases op <;> decide
  | _ => decide

theorem tokens_apply (c : Connective) (l r : Expr) :
    (c.apply l r).tokens = infixTokens c l l.tokens r r.tokens := by
  cases c <;> simp [Connective.apply, tokens]

theorem tokenLists_eq_map (es : List Expr) : Expr.tokenLists es = es.map Expr.tokens := by
  induction es with
  | nil => rfl
  | cons e es ih => simp [Expr.tokenLists, ih]

/-! ## Ways of writing -/

/-- The tokens write the expression where the level is asked for. -/
inductive Written (k : Nat) (e : Expr) : List Token → Prop where
  | plain : k ≤ e.level → Written k e e.tokens
  | wrapped : e.level < 14 → Written k e (parenthesized e.tokens)

variable {k j : Nat} {e : Expr} {ts : List Token}

theorem written_enclosed (e : Expr) (hk : k ≤ j) (hj : j ≤ 14) :
    e.Written k (enclosed j e e.tokens) := by
  unfold enclosed
  split
  · exact .wrapped (by omega)
  · exact .plain (by omega)

/-- What is written for a level is written for the next one, or is an expression of that level. -/
theorem Written.next (h : e.Written k ts) : e.Written (k + 1) ts ∨ e.level = k ∧ ts = e.tokens := by
  cases h with
  | plain hk =>
    rcases Nat.lt_or_eq_of_le hk with hlt | heq
    · exact .inl (.plain hlt)
    · exact .inr ⟨heq.symm, rfl⟩
  | wrapped hlt => exact .inl (.wrapped hlt)

/-- An operand is written in one way. -/
theorem Written.eq_enclosed (h : e.Written 14 ts) : ts = enclosed 14 e e.tokens := by
  cases h with
  | plain hk => rw [enclosed, if_neg (by omega)]
  | wrapped hlt => rw [enclosed, if_pos hlt]

end Expr

/-! ## Tokens that have a spelling -/

namespace Notation

/-- All of the tokens can be spelled. -/
def AllProper (ts : List Token) : Prop := ∀ t ∈ ts, t.Proper

variable {ts us : List Token} {t : Token}

@[simp] theorem allProper_nil : AllProper [] := by simp [AllProper]

@[simp] theorem allProper_cons : AllProper (t :: ts) ↔ t.Proper ∧ AllProper ts := List.forall_mem_cons

@[simp] theorem allProper_append : AllProper (ts ++ us) ↔ AllProper ts ∧ AllProper us :=
  List.forall_mem_append

@[simp] theorem proper_symbol (s : Symbol) : (Token.symbol s).Proper := .symbol s

theorem allProper_dotted {names : List String} (h : ∀ n ∈ names, IsName n) :
    AllProper (dotted names) := by
  induction names with
  | nil => exact allProper_nil
  | cons n names ih =>
    rw [List.forall_mem_cons] at h
    simpa [dotted] using ⟨.ident h.1, ih h.2⟩

theorem allProper_dottedName {name : String} {first : String → Token} (h : IsDotted name)
    (hfirst : ∀ {n}, IsName n → (first n).Proper) : AllProper (dottedName first name) := by
  obtain ⟨head, parts, hnames, -, htokens⟩ := h.dottedName first
  rw [List.forall_mem_cons] at hnames
  rw [htokens, allProper_cons]
  exact ⟨hfirst hnames.1, allProper_dotted hnames.2⟩

theorem allProper_parenthesized (h : AllProper ts) : AllProper (parenthesized ts) := by
  simpa [parenthesized] using h

theorem allProper_enclosed {k : Nat} {e : Expr} (h : AllProper ts) : AllProper (enclosed k e ts) := by
  unfold enclosed
  split
  · exact allProper_parenthesized h
  · exact h

theorem allProper_separated {items : List (List Token)} (h : ∀ item ∈ items, AllProper item) :
    AllProper (separated items) := by
  fun_induction separated items with
  | case1 => exact allProper_nil
  | case2 item => exact h item List.mem_cons_self
  | case3 item rest _ ih =>
    rw [List.forall_mem_cons] at h
    simpa using ⟨h.1, ih h.2⟩

theorem allProper_items {es : List Expr} (h : ∀ e ∈ es, AllProper e.tokens) :
    AllProper (separated (Expr.tokenLists es)) := by
  refine allProper_separated ?_
  rw [Expr.tokenLists_eq_map]
  simpa using h

theorem proper_literalToken {v : Value} (h : IsWritable v) : (literalToken v).Proper := by
  obtain ⟨hread, hplain⟩ := h
  cases v with
  | null => exact .ident (by decide)
  | bool b => cases b <;> exact .ident (by decide)
  | str s => exact .string s
  | int i => exact .number (hread i rfl)
  | _ => cases hplain

end Notation

theorem Expr.Formed.allProper_tokens {e : Expr} (h : e.Formed IsWritable) : AllProper e.tokens := by
  have hargs {args : List Expr} (ih : ∀ a ∈ args, AllProper a.tokens) :
      AllProper (parenthesized (separated (Expr.tokenLists args))) :=
    allProper_parenthesized (allProper_items ih)
  have hnew : (Token.ident "new").Proper := .ident (by decide)
  induction h with
  | literal hv => simpa [Expr.tokens] using proper_literalToken hv
  | var hname => simpa [Expr.tokens] using .var hname
  | path hhead hmembers => simpa [Expr.tokens] using ⟨.var hhead, allProper_dotted hmembers⟩
  | assign hname _ _ ih =>
    simpa [Expr.tokens] using ⟨allProper_dottedName hname .var, ih⟩
  | unary op _ ih => simpa [Expr.tokens] using allProper_enclosed ih
  | joined c _ _ ihl ihr =>
    simpa [Expr.tokens_apply, infixTokens] using ⟨allProper_enclosed ihl, allProper_enclosed ihr⟩
  | coalesce _ _ ihl ihr =>
    simpa [Expr.tokens] using ⟨allProper_enclosed ihl, allProper_enclosed ihr⟩
  | ternary _ _ _ ihc iht ihe =>
    simpa [Expr.tokens] using ⟨allProper_enclosed ihc, allProper_enclosed iht, allProper_enclosed ihe⟩
  | cast isArray htype _ ih =>
    cases isArray <;>
      simpa [Expr.tokens] using ⟨allProper_dottedName htype .ident, allProper_enclosed ih⟩
  | index _ _ iht ihp => simpa [Expr.tokens] using ⟨allProper_enclosed iht, ihp⟩
  | member _ _ hname ih =>
    simpa [Expr.tokens, dotted] using ⟨allProper_enclosed ih, .ident hname⟩
  | method _ hname _ iht iha =>
    simpa [Expr.tokens, dotted] using ⟨allProper_enclosed iht, .ident hname, hargs iha⟩
  | call hname _ ih => simpa [Expr.tokens] using ⟨.ident hname.1, hargs ih⟩
  | property htype hname =>
    simpa [Expr.tokens, dotted] using ⟨.ident htype.1, .ident hname⟩
  | staticCall htype hname _ ih =>
    simpa [Expr.tokens, dotted] using ⟨.ident htype.1, .ident hname, hargs ih⟩
  | @array element _ htype _ ih =>
    cases element with
    | none => simpa [Expr.tokens] using allProper_items ih
    | some type =>
      simpa [Expr.tokens] using
        ⟨hnew, allProper_dottedName (htype type rfl) .ident, allProper_items ih⟩
  | newArray htype _ ih =>
    simpa [Expr.tokens] using ⟨hnew, allProper_dottedName htype .ident, ih⟩

/-! ## First tokens -/

namespace Notation

/-- There is a first token, and it closes nothing. -/
def Opening (ts : List Token) : Prop := ∃ t rest, ts = t :: rest ∧ t.closes = false

theorem Opening.append {ts : List Token} (h : Opening ts) (more : List Token) : Opening (ts ++ more) := by
  obtain ⟨t, rest, rfl, ht⟩ := h
  exact ⟨t, rest ++ more, rfl, ht⟩

theorem Opening.enclosed {ts : List Token} (h : Opening ts) (k : Nat) (e : Expr) :
    Opening (enclosed k e ts) := by
  unfold Notation.enclosed
  split
  · exact ⟨_, _, rfl, rfl⟩
  · exact h

theorem Opening.head?_ne {ts : List Token} {s : Symbol} (h : Opening ts)
    (hs : (Token.symbol s).closes = true) : ts.head? ≠ some (.symbol s) := by
  obtain ⟨t, rest, rfl, ht⟩ := h
  rintro ⟨⟩
  rw [hs] at ht
  cases ht

end Notation

section

variable {P : Value → Prop} {e : Expr}

theorem Expr.Formed.opening (h : e.Formed P) : Opening e.tokens := by
  have hname {name : String} {first : String → Token} (h : IsDotted name)
      (hfirst : ∀ n, (first n).closes = false) : Opening (dottedName first name) := by
    obtain ⟨head, parts, -, -, htokens⟩ := h.dottedName first
    exact ⟨_, _, htokens, hfirst head⟩
  induction h with simp only [Expr.tokens, Expr.tokens_apply, List.append_assoc]
  | @literal v => exact ⟨_, _, rfl, by cases v <;> rfl⟩
  | assign hdotted => exact (hname hdotted fun _ => rfl).append _
  | unary op => exact ⟨_, _, rfl, by cases op <;> rfl⟩
  | joined _ _ _ ih | coalesce _ _ ih | ternary _ _ _ ih | index _ _ ih | member _ _ _ ih
  | method _ _ _ ih => exact (ih.enclosed _ _).append _
  | @array element => cases element <;> exact ⟨_, _, rfl, rfl⟩
  | _ => exact ⟨_, _, rfl, rfl⟩

theorem opening_separated {es : List Expr} (he : e.Formed P) :
    Opening (separated (Expr.tokenLists (e :: es))) := by
  cases es with
  | nil => exact he.opening
  | cons a es => exact he.opening.append _

/-! ## Parentheses that open no cast -/

theorem opensCast_enclosed {k : Nat} {ts more : List Token} (h : opensCast (ts ++ more) = false) :
    opensCast (enclosed k e ts ++ more) = false := by
  unfold enclosed
  split
  · rfl
  · exact h

theorem endsType_lBracket {ts : List Token} (h : Opening ts) :
    endsType (.symbol .lBracket :: ts) = false := by
  obtain ⟨t, rest, rfl, ht⟩ := h
  cases t with
  | symbol s => cases s <;> first | rfl | cases ht
  | _ => rfl

theorem endsType_dottedName {type : String} (h : IsDotted type) (more : List Token) :
    endsType (dottedName .ident type ++ more) = false := by
  obtain ⟨head, parts, -, -, htokens⟩ := h.dottedName .ident
  rw [htokens]
  rfl

/-- After a parenthesis no expression is taken for the type of a cast that binds less tightly than an
operand, or after which no type can end. -/
theorem Expr.Formed.opensCast_tokens (h : e.Formed P) {more : List Token}
    (hmore : e.level < 14 ∨ endsType more = false) : opensCast (e.tokens ++ more) = false := by
  induction h generalizing more with
    simp only [Expr.tokens, Expr.tokens_apply, infixTokens, dotted, List.flatMap_cons, List.flatMap_nil,
      List.append_assoc, List.cons_append, List.nil_append]
  | @literal v => cases v <;> first | rfl | exact hmore.resolve_left (Nat.lt_irrefl 14)
  | assign hdotted =>
    obtain ⟨head, parts, -, -, htokens⟩ := hdotted.dottedName .var
    rw [htokens]
    rfl
  | joined c _ _ ih =>
    refine opensCast_enclosed (ih (.inr ?_))
    cases c with
    | binary op => cases op <;> rfl
    | _ => rfl
  | coalesce _ _ ih | ternary _ _ _ ih | method _ _ _ ih =>
    exact opensCast_enclosed (ih (.inr rfl))
  | index _ hposition ih =>
    exact opensCast_enclosed (ih (.inr (endsType_lBracket (hposition.opening.append _))))
  | member _ _ _ ih =>
    exact opensCast_enclosed (ih (.inr (hmore.resolve_left (Nat.lt_irrefl 14))))
  | property => exact hmore.resolve_left (Nat.lt_irrefl 14)
  | @array element _ htype =>
    cases element with
    | none => rfl
    | some type =>
      simp only [List.cons_append, List.append_assoc]
      exact endsType_dottedName (htype type rfl) _
  | newArray htype => exact endsType_dottedName htype _
  | _ => rfl

/-! ## Operands -/

namespace Notation

/-- A sign starts no operand, nor does the parenthesis of a cast. -/
def StartsOperand : List Token → Prop
  | .symbol .lParen :: rest => opensCast rest = false
  | .symbol .lBrace :: _ | .number _ :: _ | .string _ :: _ | .ident _ :: _ | .var _ :: _ => True
  | _ => False

theorem StartsOperand.enclosed {more : List Token} (h : e.Formed P)
    (ih : ¬ e.level < 14 → StartsOperand (e.tokens ++ more)) :
    StartsOperand (enclosed 14 e e.tokens ++ more) := by
  unfold Notation.enclosed
  split
  next hlt =>
    change opensCast (e.tokens ++ [.symbol .rParen] ++ more) = false
    rw [List.append_assoc]
    exact h.opensCast_tokens (.inl hlt)
  next hge => exact ih hge

end Notation

theorem Expr.Formed.startsOperand_tokens (h : e.Formed P) (hlevel : ¬ e.level < 14) (more : List Token) :
    StartsOperand (e.tokens ++ more) := by
  induction h generalizing more with
    simp only [Expr.tokens, Expr.tokens_apply, List.append_assoc]
  | @literal v => cases v <;> trivial
  | @joined c l r =>
    have := Expr.level_apply_mem c l r
    omega
  | index htarget _ ih | method htarget _ _ ih => exact .enclosed htarget fun hge => ih hge _
  | member _ htarget _ ih => exact .enclosed htarget fun hge => ih hge _
  | @array element => cases element <;> trivial
  | assign | unary | coalesce | ternary | cast => exact absurd (by simp [Expr.level]) hlevel
  | _ => trivial

/-- An operand starts as operands do. -/
theorem Expr.Written.startsOperand {ts : List Token} (hw : e.Written 14 ts) (h : e.Formed P)
    (more : List Token) : StartsOperand (ts ++ more) := by
  rw [hw.eq_enclosed]
  exact .enclosed h fun hge => h.startsOperand_tokens hge more

end

end ActionTree
