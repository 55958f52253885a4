import ActionTree.Proofs.Notation.Delimited
import ActionTree.Proofs.Notation.Enclosed

/-!
# Members that name a built-in type

`System.Int32` can be read as a member of a type, but not in parentheses, which make a cast of it. So no
text that starts with a parenthesis is read as such a member.
-/

namespace ActionTree

open Notation Notation.Parser

/-! ## Names of built-in types -/

theorem ValueType.dot_not_mem_of_lookup {name : List Char}
    (h : (builtins.lookup (String.ofList (name.map Char.toLower))).isSome = true) : '.' ∉ name := by
  intro hdot
  have hlower : '.' ∈ name.map Char.toLower := List.mem_map.mpr ⟨'.', hdot, by decide⟩
  have hkeys : ∀ p ∈ builtins, '.' ∉ p.1.toList := by decide
  rw [Option.isSome_iff_exists] at h
  obtain ⟨type, h⟩ := h
  obtain ⟨k, hmem, hkey⟩ : ∃ k, (k, type) ∈ builtins ∧ k = String.ofList (name.map Char.toLower) := by
    rw [List.lookup_eq_some_iff] at h
    obtain ⟨front, back, hsplit, -⟩ := h
    exact ⟨_, by rw [hsplit]; simp, rfl⟩
  refine hkeys _ hmem ?_
  rw [hkey, String.toList_ofList]
  exact hlower

/-- The name of a built-in type has a dot only after `System`. -/
theorem ValueType.parts_of_builtin? {head : String} {parts : List String}
    (hnames : ∀ n ∈ head :: parts, IsName n)
    (h : (builtin? (".".intercalate (head :: parts))).isSome = true) :
    parts = [] ∨ head = "System" ∧ ∃ m, parts = [m] := by
  cases parts with
  | nil => exact .inl rfl
  | cons part parts =>
    rw [List.forall_mem_cons] at hnames
    have htext : (".".intercalate (head :: part :: parts)).toList =
        head.toList ++ '.' :: (".".intercalate (part :: parts)).toList := by
      rw [String.intercalate_cons_cons, String.toList_append, String.toList_append, List.append_assoc]
      rfl
    simp only [builtin?, htext] at h
    split at h
    next hprefix =>
      obtain ⟨rest, hrest⟩ := List.isPrefixOf_iff_prefix.mp hprefix
      have hparts : "System".toList :: nameParts rest =
          head.toList :: nameParts (".".intercalate (part :: parts)).toList := by
        rw [← nameParts_dot (by decide), ← nameParts_dot hnames.1.dot_not_mem, ← hrest]
        rfl
      obtain ⟨hhead, -⟩ := List.cons.inj hparts
      have hdot := dot_not_mem_of_lookup h
      rw [← hhead] at hdot
      refine .inr ⟨(String.toList_inj.mp hhead).symm, part, ?_⟩
      cases parts with
      | nil => rfl
      | cons part' parts =>
        refine absurd ?_ hdot
        rw [String.intercalate_cons_cons]
        simp
    next => exact absurd (by simp) (dot_not_mem_of_lookup h)

/-! ## Trees written like a type -/

namespace Expr

variable {P : Value → Prop} {e : Expr} {head : String} {parts : List String}

/-- A tree whose tokens could be those of a type. -/
theorem Formed.of_type_tokens (he : e.Formed P) (h : e.tokens = .ident head :: dotted parts) :
    (parts = [] ∧ head ∈ ["null", "true", "false"]) ∨ (∃ m, parts = [m] ∧ e = .property head m) ∨
      ∃ target m, target.Formed P ∧
        enclosed 14 target target.tokens ++ dotted [m] = .ident head :: dotted parts := by
  have hdots (names : List String) (h : dotted names = dotted parts) : names = parts := by
    have h' : dotted names ++ [] = dotted parts ++ [] := congrArg (· ++ []) h
    exact (dotted_append_inj (by simp) (by simp) h').1
  have hother (s : Symbol) (hs : s ≠ .dot) : .symbol s ∉ e.tokens := by
    rw [h]
    simp [dotted, hs]
  cases he with
  | @literal v =>
    rw [Expr.tokens, List.cons.injEq] at h
    obtain ⟨hhead, hparts⟩ := h
    have hparts : parts = [] := (hdots [] hparts).symm
    refine .inl ⟨hparts, ?_⟩
    cases v with
    | null => cases hhead; decide
    | bool b => cases b <;> cases hhead <;> decide
    | _ => cases hhead
  | @property type name =>
    rw [Expr.tokens, List.cons.injEq] at h
    obtain ⟨hhead, hparts⟩ := h
    cases hhead
    exact .inr (.inl ⟨name, (hdots _ hparts).symm, rfl⟩)
  | @member target name _ htarget =>
    rw [Expr.tokens] at h
    exact .inr (.inr ⟨target, name, htarget, h⟩)
  | var | path => cases h
  | assign hname =>
    obtain ⟨_, _, -, -, htokens⟩ := hname.dottedName .var
    rw [Expr.tokens, htokens] at h
    cases h
  | unary op => cases h
  | cast => cases h
  | joined c =>
    refine absurd ?_ (hother c.symbol ?_)
    · rw [Expr.tokens_apply]
      simp [infixTokens]
    · cases c with
      | binary op => cases op <;> decide
      | _ => decide
  | coalesce => exact absurd (by simp [Expr.tokens]) (hother .questionQuestion (by decide))
  | ternary => exact absurd (by simp [Expr.tokens]) (hother .question (by decide))
  | index | newArray => exact absurd (by simp [Expr.tokens]) (hother .lBracket (by decide))
  | method | call | staticCall =>
    exact absurd (by simp [Expr.tokens, parenthesized]) (hother .lParen (by decide))
  | array => exact absurd (by simp [Expr.tokens]) (hother .lBrace (by decide))

/-- Of all trees only a member can be written like a built-in type. -/
theorem Formed.exists_of_builtinTokens (he : e.Formed IsWritable) (h : BuiltinTokens e.tokens) :
    ∃ type name, e = .property type name ∧ (ValueType.builtin? (type ++ "." ++ name)).isSome = true := by
  obtain ⟨head, parts, htokens, hbuiltin⟩ := h
  have hnames : ∀ n ∈ head :: parts, IsName n := by
    intro n hn
    have hmem : .ident n ∈ e.tokens := by
      rw [htokens]
      simpa [dotted] using hn
    cases he.allProper_tokens _ hmem with
    | ident hname => exact hname
  have hcases := he.of_type_tokens htokens
  rcases ValueType.parts_of_builtin? hnames hbuiltin with rfl | ⟨rfl, m, rfl⟩
  · rcases hcases with ⟨-, hhead⟩ | ⟨m, hm, -⟩ | ⟨target, m, -, htarget⟩
    · rw [String.intercalate_singleton] at hbuiltin
      simp only [List.mem_cons, List.not_mem_nil, or_false] at hhead
      rcases hhead with rfl | rfl | rfl <;> exact absurd hbuiltin (by decide)
    · cases hm
    · have hlength := congrArg List.length htarget
      simp [dotted] at hlength
  · rcases hcases with ⟨hm, -⟩ | ⟨name, hm, rfl⟩ | ⟨target, name, htarget, htokens'⟩
    · cases hm
    · cases hm
      refine ⟨_, _, rfl, ?_⟩
      rwa [String.intercalate_cons_cons, String.intercalate_singleton] at hbuiltin
    · -- Only a literal is written as one name, and none is written `System`.
      have hsplit : enclosed 14 target target.tokens ++ dotted [name] = [.ident "System"] ++ dotted [m] :=
        htokens'
      have hone := (List.append_inj' hsplit rfl).1
      unfold enclosed at hone
      split at hone
      · cases hone
      · have hone : target.tokens = .ident "System" :: dotted [] := hone
        rcases htarget.of_type_tokens hone with ⟨-, hhead⟩ | ⟨_, hm, -⟩ | ⟨_, _, -, htarget⟩
        · exact absurd hhead (by decide)
        · cases hm
        · have hlength := congrArg List.length htarget
          simp [dotted] at hlength

end Expr

namespace Notation.Parser

variable {cs mid rest : List Char} {type name : String} {again : Again}

/-! ## Reading a member of a type -/

theorem peek_inv {t : Token} (h : peek cs = .ok (t, mid)) : cs = mid ∧ ∃ rest, token cs = .ok (t, rest) := by
  obtain ⟨⟨u, rest⟩, htoken, heq⟩ := exists_of_map_ok h
  cases heq
  exact ⟨rfl, rest, htoken⟩

theorem eat_inv {s : Symbol} {passed : Bool} (h : eat s cs = .ok (passed, mid)) :
    (passed = true ∧ token cs = .ok (.symbol s, mid)) ∨ (passed = false ∧ cs = mid) := by
  obtain ⟨⟨t, rest⟩, htoken, h⟩ := exists_of_bind_ok h
  cases t with
  | symbol u =>
    by_cases hs : s = u
    · obtain ⟨rfl, rfl⟩ := Prod.mk.inj ((if_pos hs).symm.trans (Except.ok.inj h))
      exact .inl ⟨rfl, hs ▸ htoken⟩
    · obtain ⟨rfl, rfl⟩ := Prod.mk.inj ((if_neg hs).symm.trans (Except.ok.inj h))
      exact .inr ⟨rfl, rfl⟩
  | _ =>
    cases h
    exact .inr ⟨rfl, rfl⟩

theorem not_unexpected {α : Type} {what : String} {p : α × List Char} :
    (unexpected what : Parser α) cs ≠ .ok p := by
  intro h
  obtain ⟨_, _, -, h⟩ := exists_of_bind_eq_ok h
  cases h

theorem expect_inv {s : Symbol} (h : expect s cs = .ok ((), mid)) : token cs = .ok (.symbol s, mid) := by
  obtain ⟨passed, _, heat, h⟩ := exists_of_bind_eq_ok h
  obtain ⟨rfl, htoken⟩ | ⟨rfl, -⟩ := eat_inv heat
  · cases h
    exact htoken
  · exact absurd h not_unexpected

theorem expectName_inv {n : String} (h : expectName cs = .ok (n, mid)) :
    token cs = .ok (.ident n, mid) := by
  obtain ⟨t, _, hpeek, h⟩ := exists_of_bind_eq_ok h
  obtain ⟨rfl, rest, htoken⟩ := peek_inv hpeek
  cases t with
  | ident name =>
    have hnext : next cs = .ok (.ident name, rest) := htoken
    dsimp only at h
    rw [bind_apply_of_ok hnext] at h
    cases h
    exact htoken
  | _ => exact absurd h not_unexpected

theorem connective?_none_inv {ops : List (Symbol × Connective)}
    (h : connective? ops cs = .ok (none, mid)) : cs = mid := by
  obtain ⟨⟨t, rest⟩, -, h⟩ := exists_of_bind_ok h
  cases t with
  | symbol s =>
    dsimp only at h
    split at h <;> cases h
    rfl
  | _ =>
    cases h
    rfl

/-! ### What is joined to an operand is no member -/

theorem joined_property {ops : List (Symbol × Connective)} {tight : Parser Expr} {n : Nat} {left : Expr}
    (h : joined ops tight n left cs = .ok (.property type name, rest)) :
    left = .property type name ∧ cs = rest := by
  induction n generalizing left cs with
  | zero =>
    cases h
    exact ⟨rfl, rfl⟩
  | succ n ih =>
    obtain ⟨c?, mid, hconnective, h⟩ := exists_of_bind_eq_ok h
    cases c? with
    | some c =>
      obtain ⟨r, mid', -, h⟩ := exists_of_bind_eq_ok h
      obtain ⟨happly, -⟩ := ih h
      cases c <;> cases happly
    | none =>
      cases h
      exact ⟨rfl, connective?_none_inv hconnective⟩

theorem leveled_property {tight : Parser Expr} {levels : List (List (Symbol × Connective))}
    (h : leveled tight levels cs = .ok (.property type name, rest)) :
    tight cs = .ok (.property type name, rest) := by
  induction levels generalizing cs rest with
  | nil => exact h
  | cons ops tighter ih =>
    obtain ⟨left, mid, hleft, h⟩ := exists_of_bind_eq_ok h
    obtain ⟨rfl, rfl⟩ := joined_property (n := mid.length) h
    exact ih hleft

/-- A member of a type is an operand, and all of the expression. -/
theorem unary_of_property {barEnds : Bool}
    (h : assignment again barEnds cs = .ok (.property type name, rest)) :
    unary again barEnds cs = .ok (.property type name, rest) := by
  have hcoalesce (h : coalesce again barEnds cs = .ok (.property type name, rest)) :
      unary again barEnds cs = .ok (.property type name, rest) := by
    obtain ⟨l, mid, hl, h⟩ := exists_of_bind_eq_ok h
    obtain ⟨passed, mid', heat, h⟩ := exists_of_bind_eq_ok h
    obtain ⟨rfl, -⟩ | ⟨rfl, rfl⟩ := eat_inv heat
    · obtain ⟨_, _, -, h⟩ := exists_of_bind_eq_ok h
      cases h
    · cases h
      exact leveled_property hl
  have hternary (h : ternary again barEnds cs = .ok (.property type name, rest)) :
      unary again barEnds cs = .ok (.property type name, rest) := by
    obtain ⟨c, mid, hc, h⟩ := exists_of_bind_eq_ok h
    obtain ⟨passed, mid', heat, h⟩ := exists_of_bind_eq_ok h
    obtain ⟨rfl, -⟩ | ⟨rfl, rfl⟩ := eat_inv heat
    · obtain ⟨_, _, -, h⟩ := exists_of_bind_eq_ok h
      obtain ⟨_, _, -, h⟩ := exists_of_bind_eq_ok h
      obtain ⟨_, _, -, h⟩ := exists_of_bind_eq_ok h
      cases h
    · cases h
      exact hcoalesce hc
  obtain ⟨start, _, hhere, h⟩ := exists_of_bind_eq_ok h
  cases hhere
  obtain ⟨l, mid, hl, h⟩ := exists_of_bind_eq_ok h
  obtain ⟨t, mid', hpeek, h⟩ := exists_of_bind_eq_ok h
  obtain ⟨rfl, -⟩ := peek_inv hpeek
  cases hassign : assignOp? t with
  | none =>
    rw [hassign] at h
    cases h
    exact hternary hl
  | some op =>
    rw [hassign] at h
    dsimp only at h
    cases htarget : target? l with
    | none =>
      rw [htarget] at h
      cases h
    | some target =>
      rw [htarget] at h
      obtain ⟨_, _, -, h⟩ := exists_of_bind_eq_ok h
      obtain ⟨_, _, -, h⟩ := exists_of_bind_eq_ok h
      cases h

theorem suffixes_property {n : Nat} {e : Expr}
    (h : suffixes again n e cs = .ok (.property type name, rest)) :
    e = .property type name ∧ cs = rest := by
  induction n generalizing e cs with
  | zero =>
    cases h
    exact ⟨rfl, rfl⟩
  | succ n ih =>
    obtain ⟨dot, mid, heat, h⟩ := exists_of_bind_eq_ok h
    obtain ⟨rfl, -⟩ | ⟨rfl, rfl⟩ := eat_inv heat
    · obtain ⟨m, mid', -, h⟩ := exists_of_bind_eq_ok h
      obtain ⟨t, mid'', -, h⟩ := exists_of_bind_eq_ok h
      split at h
      · obtain ⟨args, _, -, h⟩ := exists_of_bind_eq_ok h
        obtain ⟨hmethod, -⟩ := ih h
        cases hmethod
      · obtain ⟨hmember, -⟩ := ih h
        unfold memberOf at hmember
        split at hmember <;> cases hmember
    · obtain ⟨bracket, mid', heat, h⟩ := exists_of_bind_eq_ok h
      obtain ⟨rfl, -⟩ | ⟨rfl, rfl⟩ := eat_inv heat
      · obtain ⟨position, _, -, h⟩ := exists_of_bind_eq_ok h
        obtain ⟨_, _, -, h⟩ := exists_of_bind_eq_ok h
        obtain ⟨hindex, -⟩ := ih h
        cases hindex
      · cases h
        exact ⟨rfl, rfl⟩

/-! ### Where a member starts -/

theorem yields_newArray_ne :
    Yields (fun e : Expr => ∀ type name, e ≠ .property type name) (newArray again) := by
  have hrest (element : Option String) {sized : Parser Expr}
      (hsized : Yields (fun e : Expr => ∀ type name, e ≠ .property type name) sized) :
      Yields (fun e : Expr => ∀ type name, e ≠ .property type name) (do
        expect .lBracket
        if ← eat .rBracket then
          expect .lBrace
          return .array element (← items again .rBrace)
        sized) := by
    refine .after fun _ => .after fun closed => ?_
    split
    · exact .after fun _ => .after fun _ => .pure (by simp)
    · exact hsized
  have hlength (type : String) : Yields (fun e : Expr => ∀ type name, e ≠ .property type name) (do
      let length ← again .assignment false
      expect .rBracket
      return .newArray type length) := .after fun _ => .after fun _ => .pure (by simp)
  refine .after fun t => ?_
  split
  all_goals
    refine .after fun element => hrest element ?_
    cases element with
    | none => exact yields_unexpected _
    | some type => exact hlength type

theorem named_property {n : String} (h : named again n cs = .ok (.property type name, rest)) :
    n = type ∧ Passes cs (dotted [name]) rest := by
  unfold named at h
  split at h
  · cases h
  · cases h
  · cases h
  · exact absurd rfl (yields_newArray_ne cs _ rest h type name)
  · obtain ⟨t, mid, hpeek, h⟩ := exists_of_bind_eq_ok h
    obtain ⟨rfl, _, hdot⟩ := peek_inv hpeek
    split at h
    · obtain ⟨_, _, -, h⟩ := exists_of_bind_eq_ok h
      cases h
    · obtain ⟨_, mid, hnext, h⟩ := exists_of_bind_eq_ok h
      cases hdot.symm.trans hnext
      obtain ⟨member, mid', hname, h⟩ := exists_of_bind_eq_ok h
      obtain ⟨t, mid'', hpeek, h⟩ := exists_of_bind_eq_ok h
      obtain ⟨rfl, -⟩ := peek_inv hpeek
      split at h
      · obtain ⟨_, _, -, h⟩ := exists_of_bind_eq_ok h
        cases h
      · cases h
        exact ⟨rfl, .step hdot nofun (.step (expectName_inv hname) nofun (.none _))⟩
    · cases h

/-- A member of a type starts with the type, or with a parenthesis that opens no cast. -/
theorem operand_property (h : operand again cs = .ok (.property type name, rest)) :
    Passes cs (.ident type :: dotted [name]) rest ∨
      ∃ mid mid', token cs = .ok (.symbol .lParen, mid) ∧
        again .assignment false mid = .ok (.property type name, mid') ∧
        token mid' = .ok (.symbol .rParen, rest) := by
  obtain ⟨e, mid, hprimary, h⟩ := exists_of_bind_eq_ok h
  obtain ⟨rfl, rfl⟩ := suffixes_property (n := mid.length) h
  rw [primary_eq] at hprimary
  obtain ⟨t, _, hpeek, h⟩ := exists_of_bind_eq_ok hprimary
  obtain ⟨rfl, rest, htoken⟩ := peek_inv hpeek
  have hnext : next cs = .ok (t, rest) := htoken
  split at h
  · rw [bind_apply_of_ok hnext] at h
    obtain ⟨e, mid', hinner, h⟩ := exists_of_bind_eq_ok h
    obtain ⟨_, _, hexpect, h⟩ := exists_of_bind_eq_ok h
    cases h
    exact .inr ⟨_, _, htoken, hinner, expect_inv hexpect⟩
  · obtain ⟨_, _, -, h⟩ := exists_of_bind_eq_ok h
    obtain ⟨_, _, -, h⟩ := exists_of_bind_eq_ok h
    cases h
  · obtain ⟨_, _, -, h⟩ := exists_of_bind_eq_ok h
    cases h
  · obtain ⟨_, _, -, h⟩ := exists_of_bind_eq_ok h
    cases h
  · obtain ⟨_, _, -, h⟩ := exists_of_bind_eq_ok h
    cases h
  · rw [bind_apply_of_ok hnext] at h
    obtain ⟨rfl, hpasses⟩ := named_property h
    exact .inl (.step htoken nofun hpasses)
  · exact absurd h not_unexpected

/-- The parenthesis before a type opens a cast if the type is built in. -/
theorem builtin?_of_cast?_none {barEnds : Bool} {mid' : List Char} {head : String} {parts : List String}
    (h : cast? again barEnds cs = .ok (none, mid')) (hopen : token cs = .ok (.symbol .lParen, mid))
    (hpasses : Passes mid (.ident head :: dotted parts) rest) {more : List Char}
    (hclose : token rest = .ok (.symbol .rParen, more)) :
    (ValueType.builtin? (".".intercalate (head :: parts))).isSome = false := by
  have hnext : next cs = .ok (.symbol .lParen, mid) := hopen
  obtain ⟨start, _, hget, h⟩ := exists_of_bind_eq_ok h
  cases hget
  rw [bind_apply_of_ok hnext, bind_apply_of_ok (castType?_of_passes hpasses hclose)] at h
  obtain ⟨t, _, -, h⟩ := exists_of_bind_eq_ok h
  split at h
  · obtain ⟨_, _, -, h⟩ := exists_of_bind_eq_ok h
    cases h
  · cases hsome : (ValueType.builtin? (".".intercalate (head :: parts))).isSome with
    | false => rfl
    | true =>
      rw [hsome] at h
      obtain ⟨_, _, h, -⟩ := exists_of_bind_eq_ok h
      exact absurd h not_unexpected

theorem yields_cast?_ne {barEnds : Bool} :
    Yields (fun e? : Option Expr => ∀ type name, e? ≠ some (.property type name)) (cast? again barEnds) := by
  refine .after fun start => .after fun _ => .after fun type? => ?_
  split
  · exact .after fun _ => .pure nofun
  · refine .after fun t => ?_
    split
    · exact .after fun _ => .pure nofun
    · dsimp only
      split
      · exact .after fun _ => .after fun _ => .pure nofun
      · exact .after fun _ => .pure nofun

theorem cast?_none_inv {barEnds : Bool} (h : cast? again barEnds cs = .ok (none, mid)) : cs = mid := by
  rw [cast?_eq_attempt] at h
  obtain ⟨start, _, hget, h⟩ := exists_of_bind_eq_ok h
  cases hget
  obtain ⟨r, _, -, h⟩ := exists_of_bind_eq_ok h
  cases r <;> cases h
  rfl

/-- What starts with a parenthesis is no member that names a built-in type. -/
theorem enter_property {n : Nat} {barEnds : Bool}
    (h : enter n .assignment barEnds cs = .ok (.property type name, rest)) :
    Passes cs (.ident type :: dotted [name]) rest ∨
      (ValueType.builtin? (type ++ "." ++ name)).isSome = false := by
  induction n generalizing barEnds cs rest with
  | zero => exact absurd h not_unexpected
  | succ n ih =>
    have hunary := unary_of_property h
    obtain ⟨t, _, hpeek, hunary⟩ := exists_of_bind_eq_ok hunary
    obtain ⟨rfl, mid, htoken⟩ := peek_inv hpeek
    have hinner (hcast : t = .symbol .lParen → ∃ mid', cast? (enter n) barEnds cs = .ok (none, mid'))
        (h : operand (enter n) cs = .ok (.property type name, rest)) :
        Passes cs (.ident type :: dotted [name]) rest ∨
          (ValueType.builtin? (type ++ "." ++ name)).isSome = false := by
      refine (operand_property h).imp_right ?_
      rintro ⟨mid, mid', hopen, hinner, hclose⟩
      cases htoken.symm.trans hopen
      obtain ⟨_, hcast⟩ := hcast rfl
      rcases ih hinner with hpasses | hnone
      · have hnone := builtin?_of_cast?_none hcast hopen hpasses hclose
        rwa [String.intercalate_cons_cons, String.intercalate_singleton] at hnone
      · exact hnone
    cases t with
    | symbol s =>
      cases s with
      | lParen =>
        obtain ⟨e?, mid', hcast, hunary⟩ := exists_of_bind_eq_ok hunary
        cases e? with
        | some e =>
          cases hunary
          exact absurd rfl (yields_cast?_ne cs _ rest hcast type name)
        | none =>
          obtain rfl := cast?_none_inv hcast
          exact hinner (fun _ => ⟨_, hcast⟩) hunary
      | bang | minus | plus | tilde =>
        obtain ⟨_, _, -, hunary⟩ := exists_of_bind_eq_ok hunary
        obtain ⟨_, _, -, hunary⟩ := exists_of_bind_eq_ok hunary
        cases hunary
      | _ => exact hinner nofun hunary
    | _ => exact hinner nofun hunary

theorem token_dollar_ne_ident {n : String} : token ('$' :: cs) ≠ .ok (.ident n, mid) := by
  intro h
  have hnumber : startsNumber ('$' :: cs) = false := by simp [startsNumber]
  have hname : isNameStart '$' = false := by decide
  rw [token, skipSpace_cons (by decide) (by decide), tokenHere, if_neg (by simp [hnumber]),
    if_neg (by simp [hname]), if_neg (by decide), if_pos rfl] at h
  split at h <;> cases h

/-- No alternative that starts as an expression is a member that names a built-in type. -/
theorem builtin?_of_segmentExpr {c : Char} (hc : c = '$' ∨ c = '(')
    (h : segmentExpr (c :: cs) = .ok (.property type name, rest)) :
    (ValueType.builtin? (type ++ "." ++ name)).isSome = false := by
  obtain ⟨_, mid, hexpr, h⟩ := exists_of_bind_eq_ok h
  obtain ⟨_, _, -, h⟩ := exists_of_bind_eq_ok h
  cases h
  have hexpr : enter ((c :: cs).length + 1) .assignment true (c :: cs) = .ok (.property type name, mid) :=
    hexpr
  rcases enter_property hexpr with hpasses | hnone
  · cases hpasses with
    | step htoken =>
      obtain rfl | rfl := hc
      · exact absurd htoken token_dollar_ne_ident
      · cases (token_open cs).symm.trans htoken
  · exact hnone

end Notation.Parser

end ActionTree
