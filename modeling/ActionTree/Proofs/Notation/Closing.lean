import ActionTree.Proofs.Notation.Beside

/-!
# The grammar before a closing bracket

Where the grammar succeeds on a text, it gives the same tree and stops at the same place when a closing
bracket comes after the tokens of the text.
-/

namespace ActionTree.Notation.Parser

/-- A cast after the parenthesis that may open one. -/
def castBody? (again : Again) (barEnds : Bool) : Parser (Option Expr) := do
  let _ ← next
  match ← castType? with
  | none => return none
  | some (type, isArray) =>
    let isKeyword := isArray || (ValueType.builtin? type).isSome
    if startsCastOperand isKeyword (← peek) then
      return some (.cast type isArray (← again .unary barEnds))
    if isKeyword then unexpected s!"an operand for the cast to '{type}'"
    return none

theorem cast?_eq_attempt (again : Again) (barEnds : Bool) :
    cast? again barEnds = attempt (castBody? again barEnds) := by
  unfold cast? attempt castBody?
  refine bind_congr fun start => ?_
  rw [bind_assoc]
  refine bind_congr fun _ => ?_
  rw [bind_assoc]
  refine bind_congr fun type? => ?_
  cases type? with
  | none => rfl
  | some type =>
    dsimp only
    rw [bind_assoc]
    refine bind_congr fun t => ?_
    split
    · simp only [bind_assoc, pure_bind]
    · split
      · simp only [bind_assoc, pure_bind]
      · rfl

section

variable {last : List Char} {close : Symbol} {S : List Char → List Token → List Char → Prop}
  {ts : List Token}

variable (B : Beside last close S)

include B

theorem carries_typeNameRest {n n' : Nat} (hn : ts.length + last.length ≤ n) (hn' : ts.length < n')
    (name : String) : Carries last S (typeNameRest n name) (typeNameRest n' name) ts := by
  have hdot : Symbol.dot ≠ close := B.ne_close (by decide)
  obtain ⟨n', rfl⟩ := Nat.exists_eq_add_one_of_ne_zero (Nat.ne_zero_of_lt hn')
  induction n generalizing n' ts name with
  | zero =>
    obtain ⟨rfl, hlast⟩ : ts = [] ∧ last = [] := by simpa using hn
    exact .eat_end B hdot hlast (.pure name)
  | succ n ih =>
    refine .eat B (.inl hdot) ?_ fun _ => .pure name
    rintro rest rfl
    refine .expectName B ?_
    rintro part rest rfl
    simp only [List.length_cons] at hn hn'
    obtain ⟨n', rfl⟩ := Nat.exists_eq_add_one_of_ne_zero (show n' ≠ 0 by omega)
    exact ih (by omega) _ n' (by omega)

theorem carries_typeName : Carries last S typeName typeName ts :=
  .expectName B fun name _ _ => .fuel B fun _ _ hn hn' => carries_typeNameRest B hn hn' name

/-- The type of a cast, if its parenthesis is closed before the tokens are at their end. -/
theorem carries_castType? (hmem : .symbol .rParen ∈ ts) : Carries last S castType? castType? ts := by
  refine .peek B ?_
  match ts with
  | .ident head :: ts =>
    have htype : Within last typeName (.ident head :: ts) fun _ ts' => .symbol .rParen ∈ ts' := by
      refine within_typeName.mono ?_
      rintro _ ts' ⟨parts, rfl, rfl, -⟩
      simpa [dotted] using hmem
    refine (carries_typeName B).bindWithin htype fun type ts' _ hmem => ?_
    have hparen {isArray : Bool} {ts : List Token} (hmem : .symbol .rParen ∈ ts) :
        Carries last S (do
          if ← eat .rParen then return some (type, isArray)
          if isArray then unexpected "')' after array cast type"
          return none) (do
          if ← eat .rParen then return some (type, isArray)
          if isArray then unexpected "')' after array cast type"
          return none) ts := by
      refine .eat B (.inr (List.ne_nil_of_mem hmem)) (fun _ _ => .pure _) fun _ => ?_
      cases isArray with
      | true => exact .bind (.unexpected _) fun _ _ _ => .pure _
      | false => exact .pure _
    refine .eat B (.inr (List.ne_nil_of_mem hmem)) ?_ fun _ => ?_
    · rintro rest rfl
      have hmem : .symbol .rParen ∈ rest := by simpa using hmem
      refine .eat B (.inr (List.ne_nil_of_mem hmem)) ?_ fun _ => .pure none
      rintro rest rfl
      exact hparen (by simpa using hmem)
    · refine Carries.bindWithin (Q := fun isArray us => isArray = false ∧ ts' = us) (.pure false)
        (.pure ⟨rfl, rfl⟩) ?_
      rintro _ _ - ⟨rfl, rfl⟩
      exact hparen hmem
  | [] | .eof :: _ | .number _ :: _ | .string _ :: _ | .symbol _ :: _ | .var _ :: _ => exact .pure none

variable {again again' : Again}
  (hagain : ∀ entry barEnds ts, Carries last S (again entry barEnds) (again' entry barEnds) ts)

include hagain

theorem carries_itemsRest (s : Symbol) {n n' : Nat} (hn' : ts.length < n') :
    Carries last S (itemsRest again s n) (itemsRest again' s n') ts := by
  induction n generalizing n' ts with
  | zero => exact .unexpected _
  | succ n ih =>
    obtain ⟨n', rfl⟩ := Nat.exists_eq_add_one_of_ne_zero (Nat.ne_zero_of_lt hn')
    refine .bind (hagain _ _ _) fun e ts' hts' => .eat B (.inl (B.ne_close (by decide))) ?_ fun _ => ?_
    · rintro rest rfl
      have := hts'.length_le
      simp only [List.length_cons] at this
      exact .bind (ih (by omega)) fun es _ _ => .pure (e :: es)
    · exact .expect B fun rest _ => .pure [e]

omit B in
/-- Items end with a closing symbol. -/
theorem within_itemsRest_nil (s : Symbol) (n : Nat) :
    Within last (itemsRest again s n) [] fun _ _ => False := by
  cases n with
  | zero => exact within_unexpected _
  | succ n =>
    refine Within.bind (hagain _ _ _).within fun e ts' hts' => ?_
    obtain rfl := List.suffix_nil.mp hts'
    refine within_eat.bind ?_
    rintro _ _ (⟨-, h⟩ | ⟨rfl, rfl, -⟩)
    · cases h
    · refine within_expect.bind ?_
      rintro _ _ h
      cases h

theorem carries_items (s : Symbol) : Carries last S (items again s) (items again' s) ts := by
  have hrest : Carries last S (do itemsRest again s ((← get).length + 1))
      (do itemsRest again' s ((← get).length + 1)) ts :=
    .fuel B fun _ _ _ hn' => carries_itemsRest B hagain s (Nat.lt_succ_of_lt hn')
  by_cases hts : ts = []
  · subst hts
    refine .of_within_false (within_eat.bind ?_)
    rintro _ _ (⟨-, h⟩ | ⟨rfl, rfl, -⟩)
    · cases h
    · exact .get fun cs _ => within_itemsRest_nil hagain s _
  · exact .eat B (.inr hts) (fun _ _ => .pure []) fun _ => hrest

theorem carries_arguments : Carries last S (arguments again) (arguments again') ts :=
  .expect B fun _ _ => carries_items B hagain .rParen

/-- The items of an array, or the length of one whose type is known. -/
theorem carries_newArray_rest (element : Option String) : Carries last S (do
      expect .lBracket
      if ← eat .rBracket then
        expect .lBrace
        return .array element (← items again .rBrace)
      match element with
      | none => unexpected "']' in 'new[]'"
      | some type =>
        let length ← again .assignment false
        expect .rBracket
        return .newArray type length : Parser Expr) (do
      expect .lBracket
      if ← eat .rBracket then
        expect .lBrace
        return .array element (← items again' .rBrace)
      match element with
      | none => unexpected "']' in 'new[]'"
      | some type =>
        let length ← again' .assignment false
        expect .rBracket
        return .newArray type length : Parser Expr) ts := by
  refine .expect B fun rest _ => ?_
  by_cases hrest : rest = []
  · subst hrest
    refine .of_within_false (within_eat.bind ?_)
    rintro _ _ (⟨-, h⟩ | ⟨rfl, rfl, -⟩)
    · cases h
    · cases element with
      | none => exact within_unexpected _
      | some type =>
        refine Within.bind (hagain _ _ _).within fun length ts' hts' => ?_
        obtain rfl := List.suffix_nil.mp hts'
        refine within_expect.bind ?_
        rintro _ _ ⟨⟩
  · refine .eat B (.inr hrest) (fun _ _ => ?_) fun _ => ?_
    · exact .expect B fun _ _ => .bind (carries_items B hagain _) fun es _ _ => .pure _
    · cases element with
      | none => exact .unexpected _
      | some type => exact .bind (hagain _ _ _) fun e _ _ => .expect B fun _ _ => .pure _

theorem carries_newArray : Carries last S (newArray again) (newArray again') ts := by
  refine .peek B ?_
  cases ts with
  | nil => exact .of_within_false ((within_unexpected _).bind fun _ _ => False.elim)
  | cons t ts =>
    simp only [List.headD_cons]
    split
    · exact .bind (.pure none) fun _ _ _ => carries_newArray_rest B hagain _
    · exact .bind (.map some (carries_typeName B)) fun _ _ _ => carries_newArray_rest B hagain _
    · exact .bind (.unexpected _) fun _ _ _ => carries_newArray_rest B hagain _

theorem carries_named (name : String) : Carries last S (named again name) (named again' name) ts := by
  unfold named
  split
  · exact .pure _
  · exact .pure _
  · exact .pure _
  · exact carries_newArray B hagain
  · refine .peek B ?_
    cases ts with
    | nil =>
      obtain rfl | rfl | rfl := B.close_cases
      all_goals exact .pure _
    | cons t ts =>
      simp only [List.headD_cons]
      split
      · exact .bind (carries_arguments B hagain) fun args _ _ => .pure _
      · refine .next B (.expectName B fun member rest _ => .peek B ?_)
        cases rest with
        | nil =>
          obtain rfl | rfl | rfl := B.close_cases
          all_goals exact .pure _
        | cons t rest =>
          simp only [List.headD_cons]
          split
          · exact .bind (carries_arguments B hagain) fun args _ _ => .pure _
          · exact .pure _
      · exact .pure _

theorem carries_primary : Carries last S (primary again) (primary again') ts := by
  rw [primary_eq, primary_eq]
  refine .peek B ?_
  cases ts with
  | nil => exact .unexpected _
  | cons t ts =>
    simp only [List.headD_cons]
    split
    · exact .next B (.bind (hagain _ _ _) fun e _ _ => .expect B fun _ _ => .pure e)
    · exact .next B (.bind (carries_items B hagain _) fun es _ _ => .pure _)
    · exact .next B (.pure _)
    · exact .next B (.pure _)
    · exact .next B (.pure _)
    · exact .next B (carries_named B hagain _)
    · exact .unexpected _

theorem carries_suffixes {n n' : Nat} (hn : ts.length + last.length ≤ n) (hn' : ts.length < n')
    (e : Expr) : Carries last S (suffixes again n e) (suffixes again' n' e) ts := by
  have hdot : Symbol.dot ≠ close := B.ne_close (by decide)
  have hbracket : Symbol.lBracket ≠ close := B.ne_close (by decide)
  obtain ⟨n', rfl⟩ := Nat.exists_eq_add_one_of_ne_zero (Nat.ne_zero_of_lt hn')
  induction n generalizing n' ts e with
  | zero =>
    obtain ⟨rfl, hlast⟩ : ts = [] ∧ last = [] := by simpa using hn
    exact .eat_end B hdot hlast (.eat_end B hbracket hlast (.pure e))
  | succ n ih =>
    refine .eat B (.inl hdot) ?_ fun _ => .eat B (.inl hbracket) ?_ fun _ => .pure e
    · rintro rest rfl
      refine .expectName B ?_
      rintro name rest rfl
      simp only [List.length_cons] at hn hn'
      obtain ⟨n', rfl⟩ := Nat.exists_eq_add_one_of_ne_zero (show n' ≠ 0 by omega)
      have hcall : Carries last S (do suffixes again n (.method e name (← arguments again)))
          (do suffixes again' (n' + 1) (.method e name (← arguments again'))) rest :=
        .bind (carries_arguments B hagain) fun args ts' hts' => by
          have := hts'.length_le
          exact ih (by omega) _ n' (by omega)
      have hmember : Carries last S (suffixes again n (memberOf e name))
          (suffixes again' (n' + 1) (memberOf e name)) rest := ih (by omega) _ n' (by omega)
      refine .peek B ?_
      cases rest with
      | nil =>
        obtain rfl | rfl | rfl := B.close_cases
        all_goals exact hmember
      | cons t rest =>
        simp only [List.headD_cons]
        split
        · exact hcall
        · exact hmember
    · rintro rest rfl
      refine .bind (hagain _ _ _) fun position ts' hts' => .expect B ?_
      rintro rest rfl
      have := hts'.length_le
      simp only [List.length_cons] at this hn hn'
      obtain ⟨n', rfl⟩ := Nat.exists_eq_add_one_of_ne_zero (show n' ≠ 0 by omega)
      exact ih (by omega) _ n' (by omega)

theorem carries_operand : Carries last S (operand again) (operand again') ts :=
  .bind (carries_primary B hagain) fun e _ _ =>
    .fuel B fun _ _ hn hn' => carries_suffixes B hagain hn hn' e

/-! ### Parentheses -/

/-- An operand in parentheses is followed by the one that closes them. -/
theorem within_operand_lParen :
    Within last (operand again) (.symbol .lParen :: ts) fun _ _ => .symbol .rParen ∈ ts := by
  have hprimary : Within last (primary again) (.symbol .lParen :: ts) fun _ _ => .symbol .rParen ∈ ts := by
    rw [primary_eq]
    refine .peek ?_
    refine .next ?_
    refine Within.bind (hagain _ _ _).within fun e ts' hts' => within_expect.bind fun _ rest hrest => ?_
    exact .pure (hts'.subset (hrest ▸ List.mem_cons_self))
  refine hprimary.bind fun e ts' hmem => .get (f := fun cs => suffixes again cs.length e) fun cs hcs => ?_
  exact (carries_suffixes B hagain hcs.length_add_le (Nat.lt_succ_self _) e).within.mono fun _ _ _ => hmem

omit B hagain in
/-- A parenthesis that is never closed opens no cast. -/
theorem within_cast?_of_not_mem {barEnds : Bool} (hmem : .symbol .rParen ∉ ts) :
    Within last (cast? again barEnds) (.symbol .lParen :: ts)
      fun r ts' => r = none ∧ .symbol .lParen :: ts = ts' := by
  refine .get fun start hstart => .next (within_castType?.bind ?_)
  rintro _ ts' (⟨rfl, -⟩ | ⟨head, parts, isArray, rfl, rfl⟩)
  · refine (within_set hstart).bind ?_
    rintro _ _ rfl
    exact .pure ⟨rfl, rfl⟩
  · exact absurd (by simp) hmem

/-- What can start the operand of a cast starts none at the end, and no closing symbol does. -/
theorem carries_cast? (barEnds : Bool) (hmem : .symbol .rParen ∈ ts) :
    Carries last S (cast? again barEnds) (cast? again' barEnds) (.symbol .lParen :: ts) := by
  rw [cast?_eq_attempt, cast?_eq_attempt]
  refine .attempt (.next B (.bind (carries_castType? B hmem) fun type? ts' _ => ?_))
  cases type? with
  | none => exact .pure none
  | some type =>
    refine .peek B ?_
    have hstarts : startsCastOperand (type.2 || (ValueType.builtin? type.1).isSome)
        (ts'.headD (.symbol close)) =
        startsCastOperand (type.2 || (ValueType.builtin? type.1).isSome) (ts'.headD .eof) := by
      cases ts' with
      | nil =>
        obtain rfl | rfl | rfl := B.close_cases
        all_goals cases type.2 || (ValueType.builtin? type.1).isSome <;> rfl
      | cons t ts => rfl
    dsimp only
    rw [hstarts]
    split
    · exact .bind (hagain _ _ _) fun e _ _ => .pure _
    · split
      · exact .bind (.unexpected _) fun _ _ _ => .pure _
      · exact .pure _

/-! ### Operators -/

theorem carries_unary (barEnds : Bool) :
    Carries last S (unary again barEnds) (unary again' barEnds) ts := by
  have hoperand {ts : List Token} : Carries last S (operand again) (operand again') ts :=
    carries_operand B hagain
  refine .peek B ?_
  match ts with
  | [] =>
    obtain rfl | rfl | rfl := B.close_cases
    all_goals exact hoperand
  | .symbol s :: ts =>
    simp only [List.headD_cons]
    split
    next heq =>
      cases heq
      by_cases hmem : .symbol .rParen ∈ ts
      · refine .bind (carries_cast? B hagain barEnds hmem) fun r ts' _ => ?_
        cases r with
        | some e => exact .pure e
        | none => exact hoperand
      · refine .of_within_false ((within_cast?_of_not_mem hmem).bind ?_)
        rintro _ _ ⟨rfl, rfl⟩
        exact (within_operand_lParen B hagain).mono fun _ _ h => absurd h hmem
    next heq =>
      cases heq
      split
      · exact .next B (.bind (hagain _ _ _) fun e _ _ => .pure _)
      · exact hoperand
    next => exact hoperand
  | .eof :: _ | .number _ :: _ | .string _ :: _ | .ident _ :: _ | .var _ :: _ => exact hoperand

omit hagain in
theorem carries_joined {ops : List (Symbol × Connective)} {tight tight' : Parser Expr}
    (hops : ops.lookup close = none) (htight : ∀ ts, Carries last S tight tight' ts) {n n' : Nat}
    (hn : ts.length + last.length ≤ n) (hn' : ts.length < n') (left : Expr) :
    Carries last S (joined ops tight n left) (joined ops tight' n' left) ts := by
  obtain ⟨n', rfl⟩ := Nat.exists_eq_add_one_of_ne_zero (Nat.ne_zero_of_lt hn')
  induction n generalizing n' ts left with
  | zero =>
    obtain ⟨rfl, hlast⟩ : ts = [] ∧ last = [] := by simpa using hn
    exact .connective?_end B hops hlast (.pure left)
  | succ n ih =>
    refine .connective? B hops ?_ (.pure left)
    rintro s c rest rfl
    refine .bind (htight rest) fun r ts' hts' => ?_
    have := hts'.length_le
    simp only [List.length_cons] at hn hn'
    obtain ⟨n', rfl⟩ := Nat.exists_eq_add_one_of_ne_zero (show n' ≠ 0 by omega)
    exact ih (by omega) _ n' (by omega)

omit hagain in
theorem carries_leveled {tight tight' : Parser Expr} (htight : ∀ ts, Carries last S tight tight' ts)
    {levels : List (List (Symbol × Connective))} (hlevels : ∀ ops ∈ levels, ops.lookup close = none) :
    Carries last S (leveled tight levels) (leveled tight' levels) ts := by
  induction levels generalizing ts with
  | nil => exact htight ts
  | cons ops tighter ih =>
    rw [List.forall_mem_cons] at hlevels
    exact .bind (ih hlevels.2) fun left _ _ => .fuel B fun _ _ hn hn' =>
      carries_joined B hlevels.1 (fun _ => ih hlevels.2) hn hn' left

omit B hagain in
/-- No operator is a closing symbol. -/
theorem lookup_closing (barEnds : Bool) : ∀ s ∈ closingSymbols, ∀ ops ∈ levelsFor barEnds,
    ops.lookup s = none := by
  cases barEnds <;> decide

theorem carries_coalesce (barEnds : Bool) :
    Carries last S (coalesce again barEnds) (coalesce again' barEnds) ts := by
  refine .bind (carries_leveled B (fun _ => carries_unary B hagain barEnds)
    (lookup_closing barEnds close B.closing)) fun l _ _ =>
      .eat B (.inl (B.ne_close (by decide))) (fun _ _ => ?_) fun _ => .pure l
  exact .bind (hagain _ _ _) fun r _ _ => .pure _

theorem carries_ternary (barEnds : Bool) :
    Carries last S (ternary again barEnds) (ternary again' barEnds) ts := by
  refine .bind (carries_coalesce B hagain barEnds) fun c _ _ =>
    .eat B (.inl (B.ne_close (by decide))) (fun _ _ => ?_) fun _ => .pure c
  exact .bind (hagain _ _ _) fun t _ _ => .expect B fun _ _ => .bind (hagain _ _ _) fun e _ _ => .pure _

theorem carries_assignment (barEnds : Bool) :
    Carries last S (assignment again barEnds) (assignment again' barEnds) ts := by
  refine .here fun start start' => .bind (carries_ternary B hagain barEnds) fun l ts' _ => .peek B ?_
  cases ts' with
  | nil =>
    obtain rfl | rfl | rfl := B.close_cases
    all_goals exact .pure l
  | cons t ts' =>
    simp only [List.headD_cons]
    split
    · exact .pure l
    · split
      · exact fun _ _ _ _ _ h => by cases h
      · exact .next B (.bind (hagain _ _ _) fun e _ _ => .pure _)

omit hagain in
/-- The deeper the grammar may be entered the more it accepts. -/
theorem carries_entry {n n' : Nat} (hn : n ≤ n') (entry : Entry) (barEnds : Bool) (ts : List Token) :
    Carries last S (enter n entry barEnds) (enter n' entry barEnds) ts := by
  induction n generalizing n' entry barEnds ts with
  | zero => exact .unexpected _
  | succ n ih =>
    obtain ⟨n', rfl⟩ := Nat.exists_eq_add_one_of_ne_zero (Nat.ne_zero_of_lt hn)
    have ih (entry : Entry) (barEnds : Bool) (ts : List Token) :
        Carries last S (enter n entry barEnds) (enter n' entry barEnds) ts :=
      ih (Nat.le_of_succ_le_succ hn) entry barEnds ts
    cases entry with
    | assignment => exact carries_assignment B ih barEnds
    | ternary => exact carries_ternary B ih barEnds
    | coalesce => exact carries_coalesce B ih barEnds
    | unary => exact carries_unary B ih barEnds

end

/-! ## Before a closing parenthesis -/

variable {last : List Char} {ts : List Token}

/-- The tokens with a closing parenthesis after the last. -/
def closed (ts : List Token) : List Token := ts ++ [.symbol .rParen]

theorem length_closed : (closed ts).length = ts.length + 1 := List.length_append

/-- Texts that are read as the tokens and a closing parenthesis. -/
theorem beside_closed : Beside last .rParen fun _ ts ds => Reads ds (closed ts) where
  closing := by decide
  step := by
    intro cs mid ds t ts hds _ _
    exact Reads.token_eq hds
  stop := by
    intro ds rest hds _
    obtain ⟨ds', hds', -⟩ := Reads.token_eq hds
    exact ⟨ds', hds'⟩
  length_lt := by
    intro cs ds ts _ hds
    have hle : (closed ts).length ≤ ds.length := hds.length_le
    rwa [length_closed] at hle

theorem carries_enter {n n' : Nat} (hn : n ≤ n') (entry : Entry) (barEnds : Bool) (ts : List Token) :
    Within last (enter n entry barEnds) ts fun e ts' =>
      ts' <:+ ts ∧ Accepts (enter n' entry barEnds) (closed ts) e (closed ts') :=
  carries_entry beside_closed hn entry barEnds ts

theorem lookup_rParen (barEnds : Bool) : ∀ ops ∈ levelsFor barEnds, ops.lookup .rParen = none :=
  lookup_closing barEnds .rParen (by decide)

theorem endsType_closed (h : endsType (closed ts) = true) :
    endsType ts = true ∨ ∃ parts, ts = dotted parts := by
  fun_induction endsType ts with
  | case1 part rest ih =>
    refine (ih h).imp_right ?_
    rintro ⟨parts, rfl⟩
    exact ⟨part :: parts, rfl⟩
  | case2 | case3 | case4 => exact .inl rfl
  | case5 ts _ hdot hbrackets hparen =>
    cases ts with
    | nil => exact .inr ⟨[], rfl⟩
    | cons t ts =>
      refine absurd h (Bool.eq_false_iff.mp (endsType_eq_false ?_ ?_ ?_))
      · rintro ⟨⟩
        exact hdot _ rfl
      · rintro ⟨⟩
        exact hparen _ rfl
      · rintro rest heq
        cases ts with
        | nil => cases heq
        | cons u ts =>
          cases heq
          exact hbrackets ts rfl

/-- A type in parentheses that is completed by the closing parenthesis is all there is. -/
theorem opensCast_closed (h : opensCast (closed ts) = true) :
    opensCast ts = true ∨ ∃ head parts, ts = castTokens head parts false := by
  match ts with
  | .ident head :: ts =>
    refine (endsType_closed h).imp_right ?_
    rintro ⟨parts, rfl⟩
    exact ⟨head, parts, by simp [castTokens]⟩
  | [] | .eof :: _ | .number _ :: _ | .string _ :: _ | .symbol _ :: _ | .var _ :: _ => cases h

end ActionTree.Notation.Parser
