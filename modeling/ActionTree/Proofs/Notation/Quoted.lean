import Mathlib.Data.List.Basic
import ActionTree.Proofs.Notation.Integer
import ActionTree.Proofs.Notation.Scanning

/-!
# String literals

What stands between the quotes of a literal is a list of items, each of which spells one character: a
character that spells itself, or an escape. A literal is read exactly if its items go on up to a closing
quote, and then as the characters that they spell. Among the items are escapes that the grammar of literals
does not have, with a plus sign in place of the first of four digits.
-/

namespace ActionTree.Notation

/-- The number that hexadecimal digits denote. -/
def hexNumber (digits : List Char) : Nat := Nat.ofDigits 16 (digits.map digitValue).reverse

theorem nat?_sixteen_eq_some_iff {digits : List Char} {n : Nat} :
    Numeral.nat? 16 digits = some n ↔ digits ≠ [] ∧
      (∀ c ∈ digits, Radix.isDigit (.hexadecimal false) c = true) ∧ hexNumber digits = n :=
  nat?_eq_some_iff (r := .hexadecimal false)

/-- What stands after `\u`: four digits, or three after a plus sign, of a number that is a character. -/
structure CodePoint where
  plus : Bool
  digits : List Char
  length_digits : digits.length = if plus then 3 else 4
  isDigit : ∀ c ∈ digits, Radix.isDigit (.hexadecimal false) c = true
  isValidChar : (hexNumber digits).isValidChar

namespace CodePoint

def chars (p : CodePoint) : List Char := (if p.plus then ['+'] else []) ++ p.digits

def char (p : CodePoint) : Char := Char.ofNat (hexNumber p.digits)

theorem length_chars (p : CodePoint) : p.chars.length = 4 := by
  rw [chars, List.length_append, p.length_digits]
  split <;> rfl

theorem digit_ne_plus {c : Char} (h : Radix.isDigit (.hexadecimal false) c = true) : c ≠ '+' :=
  ne_of_class h (by decide)

theorem escapedChar?_chars (p : CodePoint) : escapedChar? p.chars = some p.char := by
  obtain ⟨plus, digits, hlength, hdigits, hvalid⟩ := p
  have hne : digits ≠ [] := by
    rintro rfl
    cases plus <;> cases hlength
  have hnat := nat?_sixteen_eq_some_iff.mpr ⟨hne, hdigits, rfl⟩
  cases plus with
  | true => simp [escapedChar?, chars, char, hnat, hvalid]
  | false =>
    obtain ⟨d, ds, rfl⟩ := List.exists_cons_of_ne_nil hne
    have hplus := digit_ne_plus (hdigits d List.mem_cons_self)
    simp [escapedChar?, chars, char, hplus, hnat, hvalid]

theorem exists_of_escapedChar? {cs : List Char} {x : Char} (hlength : cs.length = 4)
    (h : escapedChar? cs = some x) : ∃ p : CodePoint, p.chars = cs ∧ p.char = x := by
  have hread {digits : List Char} (h : ((Numeral.nat? 16 digits).bind fun n =>
      if n.isValidChar then some (Char.ofNat n) else none) = some x) :
      (∀ c ∈ digits, Radix.isDigit (.hexadecimal false) c = true) ∧
        (hexNumber digits).isValidChar ∧ Char.ofNat (hexNumber digits) = x := by
    obtain ⟨n, hn, hchar⟩ := Option.bind_eq_some_iff.mp h
    obtain ⟨-, hdigits, rfl⟩ := nat?_sixteen_eq_some_iff.mp hn
    split at hchar
    next hvalid => exact ⟨hdigits, hvalid, Option.some.inj hchar⟩
    next => cases hchar
  unfold escapedChar? at h
  dsimp only at h
  split at h
  next digits =>
    obtain ⟨hdigits, hvalid, rfl⟩ := hread h
    exact ⟨⟨true, digits, Nat.succ.inj hlength, hdigits, hvalid⟩, rfl, rfl⟩
  next =>
    obtain ⟨hdigits, hvalid, rfl⟩ := hread h
    exact ⟨⟨false, cs, hlength, hdigits, hvalid⟩, rfl, rfl⟩

theorem eq_of_chars_eq {p q : CodePoint} (h : p.chars = q.chars) : p = q := by
  obtain ⟨plus, digits, _, hdigits, _⟩ := p
  obtain ⟨plus', digits', _, hothers, _⟩ := q
  cases plus <;> cases plus' <;> simp only [chars] at h
  · obtain rfl : digits = digits' := h
    rfl
  · obtain rfl : digits = '+' :: digits' := h
    exact absurd rfl (digit_ne_plus (hdigits '+' List.mem_cons_self))
  · obtain rfl : '+' :: digits = digits' := h
    exact absurd rfl (digit_ne_plus (hothers '+' List.mem_cons_self))
  · obtain rfl : digits = digits' := List.cons.inj h |>.2
    rfl

end CodePoint

/-- What spells one character of a literal. -/
inductive StringItem where
  | plain (c : Char)
  | escaped (c : Char)
  | code (p : CodePoint)

/-- The control characters and the letters that stand for them after a backslash. -/
def controls : List (Char × Char) := [('n', '\n'), ('r', '\r'), ('t', '\t'), ('0', Char.ofNat 0)]

theorem simpleEscape_eq (c : Char) : simpleEscape c = (controls.lookup c).getD c := by
  unfold simpleEscape
  split
  case h_5 hn hr ht hzero =>
    have hother : controls.lookup c = none := by
      rw [List.lookup_eq_none_iff]
      simpa [controls] using ⟨hn, hr, ht, hzero⟩
    rw [hother, Option.getD_none]
  all_goals rfl

namespace StringItem

def chars : StringItem → List Char
  | plain c => [c]
  | escaped c => ['\\', c]
  | code p => '\\' :: 'u' :: p.chars

def char : StringItem → Char
  | plain c => c
  | escaped c => (controls.lookup c).getD c
  | code p => p.char

/-- May the item stand in a literal with that quote? -/
def Fits (quote : Char) : StringItem → Prop
  | plain c => c ≠ quote ∧ c ≠ '\\'
  | escaped c => c ≠ 'u'
  | code _ => True

/-- The grammar of literals has escapes of four digits only. -/
def IsRegular : StringItem → Prop
  | plain _ | escaped _ => True
  | code p => p.plus = false

/-- No item starts with the closing quote. -/
theorem Fits.quote_ne {quote : Char} {i : StringItem} (hi : i.Fits quote) (hquote : quote ≠ '\\')
    {rest cs : List Char} : quote :: rest ≠ i.chars ++ cs := by
  intro h
  cases i with
  | plain c => exact hi.1 (List.cons.inj h).1.symm
  | escaped | code => exact hquote (List.cons.inj h).1

/-- The first item of a text can be seen from its characters. -/
theorem Fits.eq_of_append_eq {quote quote' : Char} {i j : StringItem} (hi : i.Fits quote) (hj : j.Fits quote')
    {cs ds : List Char} (h : i.chars ++ cs = j.chars ++ ds) : i = j ∧ cs = ds := by
  cases i with
  | plain c =>
    cases j with
    | plain d =>
      obtain ⟨rfl, hrest⟩ := List.cons.inj h
      exact ⟨rfl, hrest⟩
    | escaped | code => exact absurd (List.cons.inj h).1 hi.2
  | escaped c =>
    cases j with
    | plain d => exact absurd (List.cons.inj h).1.symm hj.2
    | escaped d =>
      obtain ⟨rfl, hrest⟩ := List.cons.inj (List.cons.inj h).2
      exact ⟨rfl, hrest⟩
    | code => exact absurd (List.cons.inj (List.cons.inj h).2).1 hi
  | code p =>
    cases j with
    | plain d => exact absurd (List.cons.inj h).1.symm hj.2
    | escaped d => exact absurd (List.cons.inj (List.cons.inj h).2).1.symm hj
    | code q =>
      have hchars : p.chars ++ cs = q.chars ++ ds := (List.cons.inj (List.cons.inj h).2).2
      obtain ⟨hpq, hrest⟩ := List.append_inj hchars (p.length_chars.trans q.length_chars.symm)
      exact ⟨congrArg code (CodePoint.eq_of_chars_eq hpq), hrest⟩

end StringItem

/-- The items at the front of a text up to the closing quote, and what follows it. -/
inductive StringItems (quote : Char) : List Char → List StringItem → List Char → Prop where
  | close (rest : List Char) : StringItems quote (quote :: rest) [] rest
  | item {i : StringItem} {cs rest : List Char} {items : List StringItem} (hi : i.Fits quote)
      (h : StringItems quote cs items rest) : StringItems quote (i.chars ++ cs) (i :: items) rest

/-! ## Reading -/

variable {quote : Char} {cs rest : List Char}

theorem stringBody_code (opening : Nat) (quote : Char) (p : CodePoint) (cs : List Char) :
    stringBody opening quote ('\\' :: 'u' :: (p.chars ++ cs)) =
      (stringBody opening quote cs).map fun r => (p.char :: r.1, r.2) := by
  obtain ⟨a, b, c, d, hchars⟩ := List.length_eq_four.mp p.length_chars
  have hread := p.escapedChar?_chars
  rw [hchars] at hread ⊢
  simp [stringBody, hread]

theorem stringBody_item {i : StringItem} (hi : i.Fits quote) (opening : Nat) (cs : List Char) :
    stringBody opening quote (i.chars ++ cs) =
      (stringBody opening quote cs).map fun r => (i.char :: r.1, r.2) := by
  cases i with
  | plain c => exact (stringBody_cons hi.2 cs).trans (if_neg hi.1)
  | escaped c => exact (stringBody_escape hi cs).trans (by rw [simpleEscape_eq]; rfl)
  | code p => exact stringBody_code opening quote p cs

namespace StringItems

variable {items : List StringItem}

theorem stringBody_eq (hquote : quote ≠ '\\') (h : StringItems quote cs items rest) (opening : Nat) :
    stringBody opening quote cs = .ok (items.map StringItem.char, rest) := by
  induction h with
  | close rest => exact (stringBody_cons hquote rest).trans (if_pos rfl)
  | item hi _ ih =>
    rw [stringBody_item hi, ih]
    rfl

theorem exists_of_stringBody {opening : Nat} {r : List Char × List Char}
    (h : stringBody opening quote cs = .ok r) :
    ∃ items, StringItems quote cs items r.2 ∧ items.map StringItem.char = r.1 := by
  fun_induction stringBody opening quote cs generalizing r with
  | case1 => cases h
  | case2 a b c d rest x hx ih =>
    obtain ⟨r, hr, rfl⟩ := exists_of_map_ok h
    obtain ⟨items, hitems, hchars⟩ := ih hr
    obtain ⟨p, hp, rfl⟩ := CodePoint.exists_of_escapedChar? rfl hx
    have hcode := StringItems.item (i := .code p) trivial hitems
    rw [StringItem.chars, hp] at hcode
    exact ⟨.code p :: items, hcode, congrArg (p.char :: ·) hchars⟩
  | case3 => cases h
  | case4 => cases h
  | case5 => cases h
  | case6 c rest _ hu ih =>
    obtain ⟨r, hr, rfl⟩ := exists_of_map_ok h
    obtain ⟨items, hitems, hchars⟩ := ih hr
    refine ⟨.escaped c :: items, .item (i := .escaped c) hu hitems, ?_⟩
    rw [List.map_cons, hchars, simpleEscape_eq]
    rfl
  | case7 =>
    cases h
    exact ⟨[], .close _, rfl⟩
  | case8 => cases h
  | case9 c rest _ _ _ hne hc ih =>
    obtain ⟨r, hr, rfl⟩ := exists_of_map_ok h
    obtain ⟨items, hitems, hchars⟩ := ih hr
    exact ⟨.plain c :: items, .item (i := .plain c) ⟨hne, hc⟩ hitems, congrArg (c :: ·) hchars⟩

/-- A text has items up to the closing quote in one way only. -/
theorem unique (hquote : quote ≠ '\\') {items' : List StringItem} {cs' rest' : List Char}
    (h : StringItems quote cs items rest) (h' : StringItems quote cs' items' rest') (hcs : cs = cs') :
    items = items' := by
  induction h generalizing cs' items' with
  | close rest =>
    cases h' with
    | close => rfl
    | item hi => exact absurd hcs (hi.quote_ne hquote)
  | item hi _ ih =>
    cases h' with
    | close => exact absurd hcs.symm (hi.quote_ne hquote)
    | item hi' h' =>
      obtain ⟨rfl, hrest⟩ := hi.eq_of_append_eq hi' hcs
      rw [ih h' hrest]

end StringItems

/-! ## Literals as tokens -/

theorem token_quoted {body : List Char} (hquote : quote = '\'' ∨ quote = '"')
    (hcs : skipSpace cs = quote :: body) : token cs = (stringBody (body.length + 1) quote body).map
      fun r => (.string (String.ofList r.1), r.2) := by
  rw [token, hcs]
  rcases hquote with rfl | rfl <;> rfl

theorem ne_backslash_of_quote (hquote : quote = '\'' ∨ quote = '"') : quote ≠ '\\' := by
  rcases hquote with rfl | rfl <;> decide

theorem StringItems.token_eq {body : List Char} {items : List StringItem}
    (h : StringItems quote body items rest) (hquote : quote = '\'' ∨ quote = '"') (hcs : skipSpace cs = quote :: body) :
    token cs = .ok (.string (String.ofList (items.map StringItem.char)), rest) := by
  rw [token_quoted hquote hcs, h.stringBody_eq (ne_backslash_of_quote hquote)]
  rfl

theorem StringItems.exists_of_token {body : List Char} {r : Token × List Char}
    (hquote : quote = '\'' ∨ quote = '"') (hcs : skipSpace cs = quote :: body) (h : token cs = .ok r) :
    ∃ items, StringItems quote body items r.2 ∧ r.1 = .string (String.ofList (items.map StringItem.char)) := by
  rw [token_quoted hquote hcs] at h
  obtain ⟨r, hr, rfl⟩ := exists_of_map_ok h
  obtain ⟨items, hitems, hchars⟩ := exists_of_stringBody hr
  exact ⟨items, hitems, by rw [hchars]⟩

/-- The reading of a literal, after its opening quote, by the grammar. -/
inductive StringAnswer (quote : Char) (body : List Char) : Read (Token × List Char) → Prop where
  | string {items : List StringItem} {rest : List Char} (h : StringItems quote body items rest)
      (hregular : ∀ i ∈ items, i.IsRegular) :
      StringAnswer quote body (.ok (.string (String.ofList (items.map StringItem.char)), rest))
  | fault {e : LocatedFault}
      (h : ∀ items rest, StringItems quote body items rest → ¬∀ i ∈ items, i.IsRegular) :
      StringAnswer quote body (.error e)

/-- A literal is read exactly if it has items up to its closing quote, as the characters that they spell.
This is its reading by the grammar exactly if no item has a plus sign among its digits. -/
theorem quoted_read_by_grammar_iff {quote : Char} {cs body : List Char} (hquote : quote = '\'' ∨ quote = '"')
    (hcs : skipSpace cs = quote :: body) :
    (∀ t rest, token cs = .ok (t, rest) ↔ ∃ items, StringItems quote body items rest ∧
      t = .string (String.ofList (items.map StringItem.char))) ∧
    (StringAnswer quote body (token cs) ↔
      ∀ items rest, StringItems quote body items rest → ∀ i ∈ items, i.IsRegular) := by
  refine ⟨fun t rest => ⟨StringItems.exists_of_token hquote hcs, ?_⟩, ?_, ?_⟩
  · rintro ⟨items, h, rfl⟩
    exact h.token_eq hquote hcs
  · intro hanswer items rest h
    rw [h.token_eq hquote hcs] at hanswer
    generalize hr : (Except.ok _ : Read (Token × List Char)) = r at hanswer
    cases hanswer with
    | string h' hregular => exact h.unique (ne_backslash_of_quote hquote) h' rfl ▸ hregular
    | fault => cases hr
  · intro hregular
    cases htoken : token cs with
    | error e =>
      refine .fault fun items rest h => ?_
      rw [h.token_eq hquote hcs] at htoken
      cases htoken
    | ok r =>
      obtain ⟨t, rest⟩ := r
      obtain ⟨items, h, rfl⟩ := StringItems.exists_of_token hquote hcs htoken
      exact .string h (hregular items rest h)

/-- The letter A after a plus sign and three digits. -/
def plusLetter : CodePoint where
  plus := true
  digits := ['0', '4', '1']
  length_digits := rfl
  isDigit := List.all_eq_true.mp (by decide)
  isValidChar := by decide

theorem plusLetter_read :
    let body := ['\\', 'u', '+', '0', '4', '1', '\'']
    skipSpace ('\'' :: body) = '\'' :: body ∧
      token ('\'' :: body) = .ok (.string "A", []) ∧ ¬StringAnswer '\'' body (token ('\'' :: body)) := by
  intro body
  have hcs : skipSpace ('\'' :: body) = '\'' :: body := by decide
  have hitems : StringItems '\'' body [.code plusLetter] [] :=
    .item (i := .code plusLetter) trivial (.close [])
  obtain ⟨hread, hanswer⟩ := quoted_read_by_grammar_iff (.inl rfl) hcs
  refine ⟨hcs, (hread _ _).mpr ⟨_, hitems, congrArg Token.string (by decide)⟩, fun h => ?_⟩
  cases hanswer.mp h _ _ hitems _ (List.mem_singleton_self _)

end ActionTree.Notation
