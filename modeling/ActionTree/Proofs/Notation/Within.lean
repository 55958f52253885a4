import ActionTree.Proofs.Notation.Scanning
import ActionTree.Proofs.Notation.Acceptance

/-!
# Parsers where they succeed

From a success of a parser one can tell which tokens it has passed. The statements are about texts of which
the first tokens are known: whether more can be read after them is left open.
-/

namespace ActionTree.Notation.Parser

variable {α β : Type} {last : List Char} {ts ts' : List Token}

/-- Where the parser succeeds on a text that ends like this after these tokens, its result and the tokens
that it leaves are so related. -/
def Within (last : List Char) (x : Parser α) (ts : List Token) (Q : α → List Token → Prop) : Prop :=
  ∀ ⦃cs a cs'⦄, Passes cs ts last → Spent last → x cs = .ok (a, cs') →
    ∃ ts', Passes cs' ts' last ∧ Q a ts'

namespace Within

variable {Q Q' : α → List Token → Prop} {R : β → List Token → Prop} {x : Parser α} {f : α → Parser β}

theorem pure {a : α} (h : Q a ts) : Within last (pure a) ts Q := by
  intro cs b cs' hpasses _ heq
  cases heq
  exact ⟨ts, hpasses, h⟩

theorem bind (hx : Within last x ts Q) (hf : ∀ a ts', Q a ts' → Within last (f a) ts' R) :
    Within last (x >>= f) ts R := by
  intro cs b cs' hpasses hlast h
  obtain ⟨⟨a, mid⟩, hxa, hfa⟩ := exists_of_bind_ok h
  obtain ⟨ts', hmid, ha⟩ := hx hpasses hlast hxa
  exact hf a ts' ha hmid hlast hfa

theorem mono (h : Within last x ts Q) (hQ : ∀ a ts', Q a ts' → Q' a ts') : Within last x ts Q' := by
  intro cs a cs' hpasses hlast heq
  obtain ⟨ts', hts', ha⟩ := h hpasses hlast heq
  exact ⟨ts', hts', hQ a ts' ha⟩

/-- The tokens that are left do not depend on what is asked of them. -/
theorem all {I : Type} {Q : I → α → List Token → Prop} (i : I) (h : ∀ i, Within last x ts (Q i)) :
    Within last x ts fun a ts' => ∀ i, Q i a ts' := by
  intro cs a cs' hpasses hlast heq
  obtain ⟨ts', hts', -⟩ := h i hpasses hlast heq
  refine ⟨ts', hts', fun j => ?_⟩
  obtain ⟨ts'', hts'', hj⟩ := h j hpasses hlast heq
  rwa [hts'.unique hlast hts'']

theorem get {f : List Char → Parser α} (hf : ∀ cs, Passes cs ts last → Within last (f cs) ts Q) :
    Within last (MonadState.get >>= f) ts Q :=
  fun cs _ _ hpasses hlast h => hf cs hpasses hpasses hlast h

/-- The number of characters bounds the number of tokens. -/
theorem fuel {f : Nat → Parser α} (hf : ∀ n, ts.length ≤ n → Within last (f n) ts Q) :
    Within last (MonadState.get >>= fun cs : List Char => f cs.length) ts Q :=
  fun cs _ _ hpasses hlast h => hf cs.length hpasses.length_le hpasses hlast h

theorem here {f : List Char → Parser α} (hf : ∀ cs, Within last (f cs) ts Q) : Within last (here >>= f) ts Q :=
  fun cs _ _ hpasses hlast h => hf (skipSpace cs) hpasses hlast h

end Within

theorem within_set {cs : List Char} (h : Passes cs ts' last) :
    Within last (set cs) ts fun _ us => ts' = us := by
  rintro _ _ _ _ _ ⟨⟩
  exact ⟨ts', h, rfl⟩

theorem within_unexpected (what : String) {Q : α → List Token → Prop} :
    Within last (unexpected what) ts Q := by
  intro cs a cs' _ _ h
  obtain ⟨t, _, h⟩ := exists_of_bind_ok h
  cases h

/-- The next token of the row. At its end there is none, or no more than the end of the text. -/
theorem Passes.headD_of_token {cs rest : List Char} {t : Token} (hpasses : Passes cs ts last)
    (hlast : Spent last) (h : token cs = .ok (t, rest)) :
    t = ts.headD .eof ∧ (ts ≠ [] → Passes rest ts.tail last) := by
  cases hpasses with
  | none => exact ⟨hlast t rest h, fun hne => absurd rfl hne⟩
  | step htoken ht hmid =>
    rw [htoken] at h
    cases h
    exact ⟨rfl, fun _ => hmid⟩

theorem within_peek : Within last peek ts fun t ts' => t = ts.headD .eof ∧ ts = ts' := by
  intro cs t cs' hpasses hlast h
  obtain ⟨⟨u, rest⟩, htoken, heq⟩ := exists_of_map_ok h
  cases heq
  exact ⟨ts, hpasses, (Passes.headD_of_token hpasses hlast htoken).1, rfl⟩

theorem within_next {t : Token} : Within last next (t :: ts) fun u ts' => u = t ∧ ts = ts' := by
  intro cs u cs' hpasses hlast h
  obtain ⟨rfl, hrest⟩ := Passes.headD_of_token hpasses hlast h
  exact ⟨ts, hrest (by simp), rfl, rfl⟩

theorem Within.peek {f : Token → Parser α} {Q : α → List Token → Prop}
    (h : Within last (f (ts.headD .eof)) ts Q) : Within last (peek >>= f) ts Q := by
  refine within_peek.bind ?_
  rintro _ _ ⟨rfl, rfl⟩
  exact h

theorem Within.next {f : Token → Parser α} {Q : α → List Token → Prop} {t : Token}
    (h : Within last (f t) ts Q) : Within last (next >>= f) (t :: ts) Q := by
  refine within_next.bind ?_
  rintro _ _ ⟨rfl, rfl⟩
  exact h

theorem within_eat {s : Symbol} : Within last (eat s) ts fun passed ts' =>
    (passed = true ∧ ts = .symbol s :: ts') ∨
      (passed = false ∧ ts = ts' ∧ ts.head? ≠ some (.symbol s)) := by
  intro cs passed cs' hpasses hlast h
  obtain ⟨⟨t, rest⟩, htoken, h⟩ := exists_of_bind_ok h
  obtain ⟨ht, hrest⟩ := Passes.headD_of_token hpasses hlast htoken
  match ts with
  | .symbol u :: ts =>
    obtain rfl : t = .symbol u := ht
    by_cases hs : s = u
    · obtain ⟨rfl, rfl⟩ := Prod.mk.inj ((if_pos hs).symm.trans (Except.ok.inj h))
      exact ⟨ts, hrest nofun, .inl ⟨rfl, by rw [hs]⟩⟩
    · obtain ⟨rfl, rfl⟩ := Prod.mk.inj ((if_neg hs).symm.trans (Except.ok.inj h))
      exact ⟨_, hpasses, .inr ⟨rfl, rfl, by simpa using Ne.symm hs⟩⟩
  | [] | .eof :: ts | .number _ :: ts | .string _ :: ts | .ident _ :: ts | .var _ :: ts =>
    subst ht
    cases h
    exact ⟨_, hpasses, .inr ⟨rfl, rfl, nofun⟩⟩

theorem within_connective? {ops : List (Symbol × Connective)} :
    Within last (connective? ops) ts fun c? ts' =>
      (∃ s c, c? = some c ∧ ts = .symbol s :: ts' ∧ ops.lookup s = some c) ∨
        (c? = none ∧ ts = ts' ∧ ∀ s, ts.head? = some (.symbol s) → ops.lookup s = none) := by
  intro cs c? cs' hpasses hlast h
  obtain ⟨⟨t, rest⟩, htoken, h⟩ := exists_of_bind_ok h
  obtain ⟨ht, hrest⟩ := Passes.headD_of_token hpasses hlast htoken
  match ts with
  | .symbol u :: ts =>
    obtain rfl : t = .symbol u := ht
    dsimp only at h
    split at h
    next c hc =>
      cases h
      exact ⟨ts, hrest nofun, .inl ⟨u, c, rfl, rfl, hc⟩⟩
    next hnone =>
      cases h
      exact ⟨_, hpasses, .inr ⟨rfl, rfl, by rintro s ⟨⟩; exact hnone⟩⟩
  | [] | .eof :: ts | .number _ :: ts | .string _ :: ts | .ident _ :: ts | .var _ :: ts =>
    subst ht
    cases h
    exact ⟨_, hpasses, .inr ⟨rfl, rfl, nofun⟩⟩

theorem within_expect {s : Symbol} : Within last (expect s) ts fun _ ts' => ts = .symbol s :: ts' := by
  refine within_eat.bind fun passed ts' h => ?_
  obtain ⟨rfl, h⟩ | ⟨rfl, -, -⟩ := h
  · exact .pure h
  · exact within_unexpected _

theorem within_expectName : Within last expectName ts fun name ts' => ts = .ident name :: ts' := by
  refine .peek ?_
  split
  next name h =>
    obtain ⟨rest, rfl⟩ : ∃ rest, ts = .ident name :: rest := by
      cases ts with
      | nil => cases h
      | cons t ts => exact ⟨ts, congrArg (· :: ts) h⟩
    refine .next ?_
    exact .pure rfl
  next => exact within_unexpected _

theorem within_expectEnd : Within last expectEnd ts fun _ ts' => ts.headD .eof = .eof ∧ ts = ts' := by
  refine .peek ?_
  split
  next h => exact .pure ⟨h, rfl⟩
  next => exact within_unexpected _

/-! ## Types in parentheses -/

theorem endsType_dotted (parts : List String) (ts : List Token) :
    endsType (dotted parts ++ ts) = endsType ts := by
  induction parts with
  | nil => rfl
  | cons part parts ih => exact ih

theorem endsType_eq_false (hdot : ts.head? ≠ some (.symbol .dot))
    (hparen : ts.head? ≠ some (.symbol .rParen))
    (hbrackets : ∀ rest, ts ≠ .symbol .lBracket :: .symbol .rBracket :: rest) : endsType ts = false := by
  unfold endsType
  split
  · exact absurd rfl hdot
  · exact absurd rfl hdot
  · exact absurd rfl (hbrackets _)
  · exact absurd rfl hparen
  · rfl

/-- A name with dots and what stops it. -/
theorem within_typeName {head : String} : Within last typeName (.ident head :: ts) fun type ts' =>
    ∃ parts, type = ".".intercalate (head :: parts) ∧ ts = dotted parts ++ ts' ∧
      ts'.head? ≠ some (.symbol .dot) := by
  have hrest (n : Nat) {name : String} (hn : ts.length ≤ n) : Within last (typeNameRest n name) ts
      fun type ts' => ∃ parts, type = ".".intercalate (name :: parts) ∧ ts = dotted parts ++ ts' ∧
        ts'.head? ≠ some (.symbol .dot) := by
    induction n generalizing ts name with
    | zero =>
      obtain rfl := List.eq_nil_of_length_eq_zero (Nat.le_zero.mp hn)
      exact .pure ⟨[], String.intercalate_singleton.symm, rfl, nofun⟩
    | succ n ih =>
      refine within_eat.bind ?_
      rintro _ rest (⟨rfl, rfl⟩ | ⟨rfl, rfl, hdot⟩)
      · refine within_expectName.bind ?_
        rintro part rest rfl
        simp only [List.length_cons] at hn
        refine (ih (by omega)).mono ?_
        rintro type ts' ⟨parts, rfl, rfl, hts'⟩
        refine ⟨part :: parts, ?_, rfl, hts'⟩
        rw [String.intercalate_cons_append, String.intercalate_cons_cons]
      · exact .pure ⟨[], String.intercalate_singleton.symm, rfl, hdot⟩
  refine within_expectName.bind ?_
  rintro _ _ ⟨⟩
  exact .fuel fun n hn => hrest n hn

/-- A type is found where one stands, and nothing only where no type could begin. -/
theorem within_castType? : Within last castType? ts fun type? ts' =>
    (type? = none ∧ opensCast ts = false) ∨
      ∃ head parts isArray, type? = some (".".intercalate (head :: parts), isArray) ∧
        ts = castTokens head parts isArray ++ .symbol .rParen :: ts' := by
  refine .peek ?_
  match ts with
  | .ident head :: ts =>
    refine within_typeName.bind ?_
    rintro _ ts' ⟨parts, rfl, rfl, hdot⟩
    refine within_eat.bind ?_
    rintro _ _ (⟨rfl, rfl⟩ | ⟨rfl, rfl, hbracket⟩)
    · refine within_eat.bind ?_
      rintro _ _ (⟨rfl, rfl⟩ | ⟨rfl, rfl, hclose⟩)
      · refine within_eat.bind ?_
        rintro _ _ (⟨rfl, rfl⟩ | ⟨rfl, rfl, hparen⟩)
        · exact .pure (.inr ⟨head, parts, true, rfl, by simp [castTokens]⟩)
        · exact (within_unexpected _).bind fun _ _ => False.elim
      · refine .pure (.inl ⟨rfl, ?_⟩)
        rw [opensCast, endsType_dotted]
        refine endsType_eq_false (by simp) (by simp) ?_
        rintro rest ⟨⟩
        exact hclose rfl
    · refine Within.bind (Q := fun isArray rest => isArray = false ∧ ts' = rest) (.pure ⟨rfl, rfl⟩) ?_
      rintro _ _ ⟨rfl, rfl⟩
      refine within_eat.bind ?_
      rintro _ _ (⟨rfl, rfl⟩ | ⟨rfl, rfl, hparen⟩)
      · exact .pure (.inr ⟨head, parts, false, rfl, by simp [castTokens]⟩)
      · refine .pure (.inl ⟨rfl, ?_⟩)
        rw [opensCast, endsType_dotted]
        refine endsType_eq_false hdot hparen ?_
        rintro rest rfl
        exact hbracket rfl
  | [] | .eof :: _ | .number _ :: _ | .string _ :: _ | .symbol _ :: _ | .var _ :: _ =>
    exact .pure (.inl ⟨rfl, rfl⟩)

end ActionTree.Notation.Parser
