import ActionTree.Proofs.Notation.Formed

/-!
# Parsers on rows of tokens

What a parser does with a text depends on its tokens alone. A parser accepts a row of tokens if it
passes a first part of it for a result, from every text that is read as these tokens.
-/

namespace ActionTree.Notation.Parser

variable {α β : Type} {ts ts' ts'' : List Token} {a : α} {b : β}

/-- From every text that is read as `ts` the parser gives `a` and leaves one that is read as `ts'`. -/
def Accepts (x : Parser α) (ts : List Token) (a : α) (ts' : List Token) : Prop :=
  ∀ cs, Reads cs ts → ∃ cs', x cs = .ok (a, cs') ∧ Reads cs' ts'

theorem Accepts.pure (a : α) (ts : List Token) : Accepts (pure a) ts a ts :=
  fun cs h => ⟨cs, rfl, h⟩

theorem Accepts.bind {x : Parser α} {f : α → Parser β} (hx : Accepts x ts a ts')
    (hf : Accepts (f a) ts' b ts'') : Accepts (x >>= f) ts b ts'' := by
  intro cs h
  obtain ⟨cs', hxa, h'⟩ := hx cs h
  obtain ⟨cs'', hfa, h''⟩ := hf cs' h'
  refine ⟨cs'', ?_, h''⟩
  change Except.bind (x cs) _ = _
  rw [hxa]
  exact hfa

theorem Accepts.map {x : Parser α} (f : α → β) (hx : Accepts x ts a ts') :
    Accepts (f <$> x) ts (f a) ts' := by
  intro cs h
  obtain ⟨cs', hxa, h'⟩ := hx cs h
  refine ⟨cs', ?_, h'⟩
  change Except.bind (x cs) _ = _
  rw [hxa]
  rfl

/-! ## The state -/

theorem Accepts.get {f : List Char → Parser α} (hf : ∀ cs, Reads cs ts → Accepts (f cs) ts a ts') :
    Accepts (get >>= f) ts a ts' :=
  fun cs h => hf cs h cs h

theorem accepts_set {cs : List Char} (h : Reads cs ts') : Accepts (set cs) ts ⟨⟩ ts' :=
  fun _ _ => ⟨cs, rfl, h⟩

/-- The number of characters bounds the number of tokens. -/
theorem Accepts.fuel {f : Nat → Parser α} (hf : ∀ n, ts.length ≤ n → Accepts (f n) ts a ts') :
    Accepts (MonadState.get >>= fun cs : List Char => f cs.length) ts a ts' :=
  .get fun cs h => hf cs.length h.length_le

theorem Accepts.here {f : List Char → Parser α} (hf : ∀ cs, Accepts (f cs) ts a ts') :
    Accepts (here >>= f) ts a ts' :=
  fun cs h => hf (skipSpace cs) cs h

/-! ## Tokens -/

theorem accepts_peek (ts : List Token) : Accepts peek ts (ts.headD .eof) ts := by
  intro cs h
  obtain ⟨rest, htoken, -⟩ := h.token_eq
  exact ⟨cs, by rw [peek, htoken]; rfl, h⟩

theorem accepts_next (ts : List Token) : Accepts next ts (ts.headD .eof) ts.tail :=
  fun _ h => h.token_eq

theorem accepts_eat (s : Symbol) (ts : List Token) : Accepts (eat s) (.symbol s :: ts) true ts := by
  intro cs h
  obtain ⟨rest, htoken, hrest⟩ := h.token_eq
  refine ⟨rest, ?_, hrest⟩
  change Except.bind (token cs) _ = _
  rw [htoken]
  exact congrArg Except.ok (if_pos rfl)

theorem accepts_eat_other {s : Symbol} (hs : ts.head? ≠ some (.symbol s)) :
    Accepts (eat s) ts false ts := by
  intro cs h
  obtain ⟨rest, htoken, -⟩ := h.token_eq
  refine ⟨cs, ?_, h⟩
  change Except.bind (token cs) _ = _
  rw [htoken]
  match ts with
  | .symbol t :: _ => exact congrArg Except.ok (if_neg fun heq => hs (by rw [heq]; rfl))
  | [] | .eof :: _ | .number _ :: _ | .string _ :: _ | .ident _ :: _ | .var _ :: _ => rfl

theorem accepts_connective? {ops : List (Symbol × Connective)} {s : Symbol} {c : Connective}
    (h : ops.lookup s = some c) (ts : List Token) :
    Accepts (connective? ops) (.symbol s :: ts) (some c) ts := by
  intro cs hcs
  obtain ⟨rest, htoken, hrest⟩ := hcs.token_eq
  refine ⟨rest, ?_, hrest⟩
  change Except.bind (token cs) _ = _
  rw [htoken]
  simp only [Except.bind, List.headD_cons, h]
  rfl

theorem accepts_connective?_none {ops : List (Symbol × Connective)}
    (h : ∀ s, ts.head? = some (.symbol s) → ops.lookup s = none) :
    Accepts (connective? ops) ts none ts := by
  intro cs hcs
  obtain ⟨rest, htoken, -⟩ := hcs.token_eq
  refine ⟨cs, ?_, hcs⟩
  change Except.bind (token cs) _ = _
  rw [htoken]
  match ts with
  | .symbol s :: _ =>
    simp only [Except.bind, List.headD_cons, h s rfl]
    rfl
  | [] | .eof :: _ | .number _ :: _ | .string _ :: _ | .ident _ :: _ | .var _ :: _ => rfl

theorem accepts_expect (s : Symbol) (ts : List Token) : Accepts (expect s) (.symbol s :: ts) () ts :=
  .bind (accepts_eat s ts) (.pure () ts)

theorem accepts_expectName (name : String) (ts : List Token) :
    Accepts expectName (.ident name :: ts) name ts :=
  .bind (accepts_peek _) (.bind (accepts_next _) (.pure name ts))

theorem accepts_expectEnd : Accepts expectEnd [] () [] :=
  .bind (accepts_peek []) (.pure () [])

/-! ## Names with dots -/

theorem accepts_typeNameRest {n : Nat} {name : String} {parts : List String}
    (hn : (dotted parts ++ ts).length ≤ n) (hts : ts.head? ≠ some (.symbol .dot)) :
    Accepts (typeNameRest n name) (dotted parts ++ ts) (".".intercalate (name :: parts)) ts := by
  induction parts generalizing n name with
  | nil =>
    rw [String.intercalate_singleton]
    cases n with
    | zero => exact .pure name ts
    | succ n => exact .bind (accepts_eat_other hts) (.pure name ts)
  | cons part parts ih =>
    cases n with
    | zero => simp [dotted] at hn
    | succ n =>
      have hn' : (dotted parts ++ ts).length ≤ n := by
        simp only [dotted, List.flatMap_cons, List.length_append, List.length_cons] at hn ⊢
        omega
      have hjoin : ".".intercalate (name :: part :: parts) =
          ".".intercalate ((name ++ "." ++ part) :: parts) := by
        rw [String.intercalate_cons_append, String.intercalate_cons_cons]
      rw [hjoin]
      exact .bind (accepts_eat .dot _) (.bind (accepts_expectName part _) (ih hn'))

theorem accepts_typeName {head : String} {parts : List String}
    (hts : ts.head? ≠ some (.symbol .dot)) :
    Accepts typeName (.ident head :: (dotted parts ++ ts)) (".".intercalate (head :: parts)) ts :=
  .bind (accepts_expectName head _) (.fuel fun _ hn => accepts_typeNameRest hn hts)

/-! ## Types in parentheses -/

/-- Could this, after a name, be the rest of a type in parentheses? -/
def endsType : List Token → Bool
  | .symbol .dot :: .ident _ :: rest => endsType rest
  | .symbol .dot :: _ | .symbol .lBracket :: .symbol .rBracket :: _ | .symbol .rParen :: _ => true
  | _ => false

/-- Could this, after an opening parenthesis, be a type? -/
def opensCast : List Token → Bool
  | .ident _ :: rest => endsType rest
  | _ => false

/-- The tokens of a type in parentheses, but for the parentheses. -/
def castTokens (head : String) (parts : List String) (isArray : Bool) : List Token :=
  .ident head :: (dotted parts ++ if isArray then [.symbol .lBracket, .symbol .rBracket] else [])

theorem accepts_castType?_castTokens (head : String) (parts : List String) (isArray : Bool)
    (ts : List Token) : Accepts castType? (castTokens head parts isArray ++ .symbol .rParen :: ts)
      (some (".".intercalate (head :: parts), isArray)) ts := by
  rw [castTokens, List.cons_append, List.append_assoc]
  cases isArray with
  | true =>
    exact .bind (accepts_peek _) (.bind (accepts_typeName (by simp)) (.bind (accepts_eat .lBracket _)
      (.bind (accepts_eat .rBracket _) (.bind (accepts_eat .rParen _) (.pure _ _)))))
  | false =>
    exact .bind (accepts_peek _) (.bind (accepts_typeName (by simp)) (.bind (accepts_eat_other (by simp))
      (.bind (.pure false _) (.bind (accepts_eat .rParen _) (.pure _ _)))))

theorem accepts_castType? {type : String} (isArray : Bool) (ts : List Token) (htype : IsDotted type) :
    Accepts castType? (dottedName .ident type ++
      ((if isArray then [.symbol .lBracket, .symbol .rBracket] else []) ++ .symbol .rParen :: ts))
      (some (type, isArray)) ts := by
  obtain ⟨head, parts, -, htype, htokens⟩ := htype.dottedName .ident
  rw [htokens, htype, ← List.append_assoc]
  exact accepts_castType?_castTokens head parts isArray ts

theorem exists_dotted_of_endsType (h : endsType ts = false) :
    ∃ parts rest, ts = dotted parts ++ rest ∧ rest.head? ≠ some (.symbol .dot) ∧
      rest.head? ≠ some (.symbol .rParen) ∧
      ∀ rest', rest ≠ .symbol .lBracket :: .symbol .rBracket :: rest' := by
  fun_induction endsType ts with
  | case1 part rest ih =>
    obtain ⟨parts, rest', rfl, hrest⟩ := ih h
    exact ⟨part :: parts, rest', rfl, hrest⟩
  | case2 | case3 | case4 => cases h
  | case5 ts _ hdot hbrackets hparen =>
    refine ⟨[], ts, rfl, ?_, ?_, hbrackets⟩
    · rintro heq
      exact hdot _ (List.head?_eq_some_iff.mp heq).choose_spec
    · rintro heq
      exact hparen _ (List.head?_eq_some_iff.mp heq).choose_spec

/-- Where no type follows the parenthesis nothing is found, without a fault. -/
theorem accepts_castType?_none (h : opensCast ts = false) : ∃ ts', Accepts castType? ts none ts' := by
  match ts with
  | .ident name :: ts =>
    obtain ⟨parts, rest, rfl, hdot, hparen, hbrackets⟩ := exists_dotted_of_endsType h
    by_cases hbracket : rest.head? = some (.symbol .lBracket)
    · obtain ⟨rest, rfl⟩ := List.head?_eq_some_iff.mp hbracket
      have hopen : rest.head? ≠ some (.symbol .rBracket) := fun heq =>
        have ⟨rest', hrest'⟩ := List.head?_eq_some_iff.mp heq
        hbrackets rest' (by rw [hrest'])
      exact ⟨rest, .bind (accepts_peek _) (.bind (accepts_typeName hdot)
        (.bind (accepts_eat .lBracket rest) (.bind (accepts_eat_other hopen) (.pure none rest))))⟩
    · exact ⟨rest, .bind (accepts_peek _) (.bind (accepts_typeName hdot)
        (.bind (accepts_eat_other hbracket) (.bind (.pure false rest)
          (.bind (accepts_eat_other hparen) (.pure none rest)))))⟩
  | [] | .eof :: _ | .number _ :: _ | .string _ :: _ | .symbol _ :: _ | .var _ :: _ =>
    exact ⟨_, .bind (accepts_peek _) (.pure _ _)⟩

end ActionTree.Notation.Parser
