import ActionTree.Notation.Printer

/-!
# Tokens are read as they are spelled

Every row of tokens that have a spelling is read back from its text, token by token: a token is over
where the next one starts, whether or not a blank stands between them.
-/

namespace ActionTree

/-! ## Characters -/

namespace Text

theorem inRanges_iff {ranges : List (Nat × Nat)} {c : Char} :
    inRanges ranges c = true ↔ ∃ r ∈ ranges, r.1 ≤ c.toNat ∧ c.toNat ≤ r.2 := by
  simp [inRanges]

/-- Ranges that do not overlap have no character in common. -/
theorem inRanges_disjoint {ranges others : List (Nat × Nat)} {c : Char}
    (h : ∀ r ∈ ranges, ∀ q ∈ others, r.2 < q.1 ∨ q.2 < r.1) (hc : inRanges ranges c = true) :
    inRanges others c = false := by
  rw [← Bool.not_eq_true, inRanges_iff]
  rintro ⟨q, hq, hlow, hhigh⟩
  obtain ⟨r, hr, hrlow, hrhigh⟩ := inRanges_iff.mp hc
  rcases h r hr q hq with hlt | hlt <;> omega

theorem isAlpha_eq_inRanges (c : Char) : c.isAlpha = inRanges [(65, 90), (97, 122)] c := by
  have hcases : c.isAlpha =
      (decide (65 ≤ c.val ∧ c.val ≤ 90) || (decide (97 ≤ c.val) && decide (c.val ≤ 122))) := rfl
  rw [Bool.eq_iff_iff, inRanges_iff, hcases]
  simp [UInt32.le_iff_toNat_le, ← Char.toNat_val]

theorem isDigit_eq_inRanges (c : Char) : c.isDigit = inRanges [(48, 57)] c := by
  rw [Bool.eq_iff_iff, inRanges_iff]
  simp [Char.isDigit, UInt32.le_iff_toNat_le, ← Char.toNat_val]

theorem isAlphabetic_of_isBlank {c : Char} (h : isBlank c = true) : isAlphabetic c = false := by
  unfold isAlphabetic
  split
  · rw [isAlpha_eq_inRanges]
    exact inRanges_disjoint (by decide) h
  · exact inRanges_disjoint (by decide +kernel) h

theorem isAlphabetic_of_isDigit {c : Char} (h : c.isDigit = true) : isAlphabetic c = false := by
  rw [isDigit_eq_inRanges] at h
  unfold isAlphabetic
  split
  · rw [isAlpha_eq_inRanges]
    exact inRanges_disjoint (by decide) h
  · exact inRanges_disjoint (by decide +kernel) h

theorem isBlank_of_isDigit {c : Char} (h : c.isDigit = true) : isBlank c = false := by
  rw [isDigit_eq_inRanges] at h
  exact inRanges_disjoint (by decide) h

theorem isAlphanumeric_of_isAlphanum {c : Char} (h : c.isAlphanum = true) :
    isAlphanumeric c = true := by
  have hascii : c.toNat < 128 := by
    rw [Char.isAlphanum, isAlpha_eq_inRanges, isDigit_eq_inRanges, Bool.or_eq_true, inRanges_iff,
      inRanges_iff] at h
    grind
  rwa [isAlphanumeric, isAlphabetic, isNumeric, if_pos hascii, if_pos hascii]

end Text

theorem Integer.ofInt?_val (i : Integer) : Integer.ofInt? i.kind i.val = some i := by
  rw [Integer.ofInt?, dif_pos i.holds]

/-- No type holds numbers that large. -/
theorem IntKind.Holds.natAbs_lt {k : IntKind} {n : Int} (h : k.Holds n) : n.natAbs < twoTo 127 := by
  have hgreatest : k.greatest < twoTo 127 := by cases k <;> decide
  have hleast : -(twoTo 127 : Int) < k.least := by cases k <;> decide
  have hlow := h.1
  have hhigh := h.2
  omega

namespace Notation

theorem isNameChar_of_isNameStart {c : Char} (h : isNameStart c = true) : isNameChar c = true := by
  unfold isNameStart at h
  unfold isNameChar Text.isAlphanumeric
  rw [Bool.or_assoc, Bool.or_comm (Text.isNumeric c), ← Bool.or_assoc, h, Bool.true_or]

theorem isBlank_of_isNameStart {c : Char} (h : isNameStart c = true) : Text.isBlank c = false := by
  rw [← Bool.not_eq_true]
  intro hblank
  rw [isNameStart, Text.isAlphabetic_of_isBlank hblank, Bool.false_or, beq_iff_eq] at h
  subst h
  exact absurd hblank (by decide)

theorem isDigit_of_isNameStart {c : Char} (h : isNameStart c = true) : c.isDigit = false := by
  rw [← Bool.not_eq_true]
  intro hdigit
  rw [isNameStart, Text.isAlphabetic_of_isDigit hdigit, Bool.false_or, beq_iff_eq] at h
  subst h
  exact absurd hdigit (by decide)

/-- The class of a character tells it from a character outside of the class. -/
theorem ne_of_class {p : Char → Bool} {c d : Char} (hc : p c = true) (hd : p d = false) : c ≠ d := by
  rintro rfl
  rw [hc] at hd
  exact absurd hd (by decide)

theorem not_mem_of_class {p : Char → Bool} {c : Char} {l : List Char} (hc : p c = true)
    (hl : l.any p = false) : c ∉ l :=
  fun h => List.any_eq_false.mp hl c h hc

/-! ## Runs of characters -/

section Runs

variable {p : Char → Bool} {run tail : List Char}

theorem takeWhile_run (hrun : ∀ c ∈ run, p c = true) (htail : tail.head?.any p = false) :
    (run ++ tail).takeWhile p = run := by
  rw [List.takeWhile_append_of_pos hrun]
  cases tail with
  | nil => simp
  | cons c tail => simp_all

theorem dropWhile_run (hrun : ∀ c ∈ run, p c = true) (htail : tail.head?.any p = false) :
    (run ++ tail).dropWhile p = tail := by
  rw [List.dropWhile_append_of_pos hrun]
  cases tail with
  | nil => simp
  | cons c tail => simp_all

end Runs

theorem skipSpace_cons {c : Char} {rest : List Char} (hslash : c ≠ '/')
    (hblank : Text.isBlank c = false) : skipSpace (c :: rest) = c :: rest := by
  simp [skipSpace, skipSpaceIn, hslash, hblank]

theorem skipSpace_blank (rest : List Char) : skipSpace (' ' :: rest) = skipSpace rest := by
  have h : Text.isBlank ' ' = true := by decide
  simp [skipSpace, skipSpaceIn, h]

/-! ## Names -/

/-- The name of a variable, of a member or of a type without dots. -/
def IsName (s : String) : Prop :=
  s.toList.head?.any isNameStart = true ∧ ∀ c ∈ s.toList, isNameChar c = true

-- Over the characters of the text: an instance for all characters at once would not be evaluated.
instance (s : String) : Decidable (IsName s) :=
  @instDecidableAnd _ _ _ (List.decidableBAll _ _)

theorem IsName.cons {s : String} (h : IsName s) :
    ∃ c rest, s.toList = c :: rest ∧ isNameStart c = true := by
  obtain ⟨hstart, -⟩ := h
  cases hs : s.toList with
  | nil => simp [hs] at hstart
  | cons c rest => exact ⟨c, rest, rfl, by simpa [hs] using hstart⟩

theorem IsName.name_append {s : String} {tail : List Char} (h : IsName s)
    (htail : tail.head?.any isNameChar = false) : name (s.toList ++ tail) = (s, tail) := by
  rw [name, takeWhile_run h.2 htail, dropWhile_run h.2 htail, String.ofList_toList]

theorem skipSpace_of_isNameStart {c : Char} {rest : List Char} (h : isNameStart c = true) :
    skipSpace (c :: rest) = c :: rest :=
  skipSpace_cons (ne_of_class h (by decide)) (isBlank_of_isNameStart h)

theorem startsNumber_of_isNameStart {c : Char} {rest : List Char} (h : isNameStart c = true) :
    startsNumber (c :: rest) = false := by
  have hdot : c ≠ '.' := ne_of_class h (by decide)
  simp [startsNumber, hdot, isDigit_of_isNameStart h]

theorem token_ident {s : String} {tail : List Char} (h : IsName s)
    (htail : tail.head?.any isNameChar = false) :
    token (s.toList ++ tail) = .ok (.ident s, tail) := by
  obtain ⟨c, rest, hs, hstart⟩ := h.cons
  have hname := h.name_append htail
  rw [hs, List.cons_append] at hname ⊢
  rw [token, skipSpace_of_isNameStart hstart, tokenHere, startsNumber_of_isNameStart hstart]
  simp [hstart, hname]

theorem token_var {s : String} {tail : List Char} (h : IsName s)
    (htail : tail.head?.any isNameChar = false) :
    token ('$' :: (s.toList ++ tail)) = .ok (.var s, tail) := by
  obtain ⟨c, rest, hs, hstart⟩ := h.cons
  have hname := h.name_append htail
  have hdollar : isNameStart '$' = false := by decide
  rw [hs, List.cons_append] at hname ⊢
  rw [token, skipSpace_cons (by decide) (by decide), tokenHere]
  simp [startsNumber, hdollar, hstart, hname]

/-! ## Strings -/

theorem stringBody_quoted (opening : Nat) (cs tail : List Char) :
    stringBody opening '\'' (cs.flatMap quotedChar ++ '\'' :: tail) = .ok (cs, tail) := by
  induction cs with
  | nil => simp [stringBody]
  | cons c cs ih =>
    rw [List.flatMap_cons, List.append_assoc]
    by_cases h : c = '\'' ∨ c = '\\'
    · rw [quotedChar, if_pos h]
      rcases h with rfl | rfl <;> simp [stringBody, simpleEscape, ih, Except.map]
    · rw [quotedChar, if_neg h]
      rw [not_or] at h
      simp [stringBody, h.1, h.2, ih, Except.map]

theorem token_string (s : String) (tail : List Char) :
    token ((Token.string s).spelling ++ tail) = .ok (.string s, tail) := by
  have hquote : isNameStart '\'' = false := by decide
  have hspell : (Token.string s).spelling ++ tail =
      '\'' :: (s.toList.flatMap quotedChar ++ '\'' :: tail) := by simp [Token.spelling]
  rw [hspell, token, skipSpace_cons (by decide) (by decide), tokenHere]
  simp [startsNumber, hquote, stringBody_quoted, Except.map]

/-! ## Numbers -/

theorem digit?_ten {c : Char} (h : c.isDigit = true) :
    Numeral.digit? 10 c = some (c.toNat - '0'.toNat) := by
  have hsmall : c.toNat - 48 < 10 := by
    rw [Text.isDigit_eq_inRanges, Text.inRanges_iff] at h
    grind
  simp [Numeral.digit?, h, hsmall]

theorem natFrom?_ten {digits : List Char} (h : ∀ c ∈ digits, c.isDigit = true) (n : Nat) :
    Numeral.natFrom? 10 n digits = some (Nat.ofDigitChars 10 digits n) := by
  induction digits generalizing n with
  | nil => rfl
  | cons c digits ih =>
    rw [Numeral.natFrom?, digit?_ten (h c List.mem_cons_self), Option.bind_some,
      ih fun d hd => h d (List.mem_cons_of_mem c hd), Nat.ofDigitChars_cons, Nat.mul_comm]

theorem nat?_toDigits (n : Nat) : Numeral.nat? 10 (Nat.toDigits 10 n) = some n := by
  rw [Numeral.nat?, natFrom?_ten fun c hc => Nat.isDigit_of_mem_toDigits (by decide) (by decide) hc,
    Nat.ofDigitChars_ten_toDigits]
  simp [Nat.toDigits_ne_nil]

/-- Digits are the whole of a number where no letter, no digit and no fraction follows. -/
theorem numberBody_digits {digits tail : List Char} (hne : digits ≠ [])
    (hdigits : ∀ c ∈ digits, c.isDigit = true) (hdigit : tail.head?.any Char.isDigit = false)
    (hletter : tail.head?.any (fun c => c ∈ ['x', 'X', 'e', 'E']) = false)
    (hfraction : fraction tail = []) :
    numberBody (digits ++ tail) = .ok (some (.whole 10 digits, tail)) := by
  -- A second character that is a digit or after the digits starts no hexadecimal number.
  have hhex (c : Char) (rest : List Char) (hc : c ∈ ['x', 'X']) : digits ++ tail ≠ '0' :: c :: rest := by
    intro heq
    match digits, hne with
    | [d], _ => simp_all
    | d :: d' :: digits, _ =>
      simp only [List.cons_append, List.cons.injEq] at heq
      have := hdigits d' (by simp)
      simp only [List.mem_cons, List.not_mem_nil, or_false] at hc
      rcases hc with rfl | rfl <;> simp_all
  unfold numberBody
  split
  next heq => exact absurd heq (hhex _ _ (by simp))
  next heq => exact absurd heq (hhex _ _ (by simp))
  next =>
    have hexponent : exponent? tail = some [] := by
      cases tail with
      | nil => rfl
      | cons c tail => simp_all [exponent?]
    simp [takeWhile_run hdigits hdigit, hfraction, hexponent, hne]

/-- The types that a literal can have, and no sign. -/
def IsLiteral (i : Integer) : Prop := i.kind ∈ [.int, .uint, .long, .ulong] ∧ 0 ≤ i.val

instance (i : Integer) : Decidable (IsLiteral i) := inferInstanceAs (Decidable (_ ∧ _))

/-- The suffix leaves the type of the integer as the first that holds it. -/
theorem integerValue_suffix {i : Integer} (h : IsLiteral i) :
    integerValue i.val (String.ofList ((integerSuffix i.kind).map Char.toLower)) = .ok (.int i) := by
  have hsmall : ¬ twoTo 127 ≤ i.val.natAbs := Nat.not_le_of_lt i.holds.natAbs_lt
  obtain ⟨types, htypes⟩ : ∃ types, integerTypes?
      (String.ofList ((integerSuffix i.kind).map Char.toLower)) = some (i.kind :: types) := by
    obtain ⟨hkind, -⟩ := h
    simp only [List.mem_cons, List.not_mem_nil, or_false] at hkind
    rcases hkind with hk | hk | hk | hk <;> rw [hk] <;> exact ⟨_, rfl⟩
  simp only [integerValue, if_neg hsmall, htypes, Integer.firstOf?, Integer.ofInt?_val, Option.some_or]

theorem mem_integerSuffix {k : IntKind} {c : Char} (h : c ∈ integerSuffix k) : c = 'U' ∨ c = 'L' := by
  cases k <;> simp_all [integerSuffix]

theorem any_head?_of_imp {p q : Char → Bool} {tail : List Char} (h : ∀ c, p c = true → q c = true)
    (htail : tail.head?.any q = false) : tail.head?.any p = false := by
  cases tail with
  | nil => rfl
  | cons c tail =>
    simp only [List.head?_cons, Option.any_some] at htail ⊢
    rw [← Bool.not_eq_true] at htail ⊢
    exact mt (h c) htail

theorem isNameChar_of_isAlphanum {c : Char} (h : (c.isAlphanum || c == '_') = true) :
    isNameChar c = true := by
  rw [Bool.or_eq_true] at h
  rw [isNameChar, Bool.or_eq_true]
  exact h.imp_left Text.isAlphanumeric_of_isAlphanum

/-- After the digits of a number stands a letter of its suffix, or what follows the number. -/
theorem any_head?_suffix {k : IntKind} {p : Char → Bool} {tail : List Char} (hU : p 'U' = false)
    (hL : p 'L' = false) (htail : tail.head?.any p = false) :
    (integerSuffix k ++ tail).head?.any p = false := by
  cases k <;> simpa [integerSuffix]

/-- What may stand before a number. -/
inductive Sign where
  | absent | plus | minus

namespace Sign

def chars : Sign → List Char
  | absent => []
  | plus => ['+']
  | minus => ['-']

def isNegative : Sign → Bool
  | minus => true
  | absent | plus => false

end Sign

/-- A number is its sign, its body and its suffix. -/
theorem number_signed (sign : Sign) {cs suffix tail : List Char} {body : NumberBody}
    (hminus : cs.head? ≠ some '-') (hplus : cs.head? ≠ some '+')
    (hbody : numberBody cs = .ok (some (body, suffix ++ tail)))
    (hsuffix : ∀ c ∈ suffix, c.isAlpha = true)
    (htail : tail.head?.any (fun c => c.isAlphanum || c == '_') = false) :
    number (sign.chars ++ cs) =
      match body.value sign.isNegative (String.ofList (suffix.map Char.toLower)) with
      | .ok v => .ok (some (v, tail))
      | .error cause => faultAt (sign.chars ++ cs) (.numeral cause
          (String.ofList ((sign.chars ++ cs).take ((sign.chars ++ cs).length - tail.length)))) := by
  have htake : (suffix ++ tail).takeWhile Char.isAlpha = suffix :=
    takeWhile_run hsuffix (any_head?_of_imp (fun c hc => by simp [Char.isAlphanum, hc]) htail)
  cases cs with
  | nil => simp [numberBody, fraction] at hbody
  | cons c cs =>
    simp only [List.head?_cons, ne_eq, Option.some.injEq] at hminus hplus
    cases hvalue : body.value sign.isNegative (String.ofList (suffix.map Char.toLower)) <;>
      cases sign <;> rw [Sign.isNegative] at hvalue <;>
        simp [number, Sign.chars, hminus, hplus, hbody, htake, htail, hvalue]

theorem number_unsigned {cs suffix tail : List Char} {body : NumberBody} {v : Value}
    (hminus : cs.head? ≠ some '-') (hplus : cs.head? ≠ some '+')
    (hbody : numberBody cs = .ok (some (body, suffix ++ tail)))
    (hsuffix : ∀ c ∈ suffix, c.isAlpha = true) (htail : tail.head?.any isNameChar = false)
    (hvalue : body.value false (String.ofList (suffix.map Char.toLower)) = .ok v) :
    number cs = .ok (some (v, tail)) := by
  have hend : tail.head?.any (fun c => c.isAlphanum || c == '_') = false :=
    any_head?_of_imp (fun c hc => isNameChar_of_isAlphanum hc) htail
  have hnumber := number_signed .absent hminus hplus hbody hsuffix hend
  rwa [Sign.isNegative, hvalue] at hnumber

theorem spelling_number {i : Integer} {n : Nat} (h : i.val = n) :
    (Token.number (.int i)).spelling = Nat.toDigits 10 n ++ integerSuffix i.kind := by
  have htext : toString (n : Int) = toString n := rfl
  rw [Token.spelling, h, htext, Nat.toString_eq_ofList_toDigits, String.toList_ofList]

theorem isDigit_of_mem_toDigits {n : Nat} : ∀ c ∈ Nat.toDigits 10 n, c.isDigit = true :=
  fun _ hc => Nat.isDigit_of_mem_toDigits (by decide) (by decide) hc

theorem exists_cons_of_toDigits (n : Nat) : ∃ d ds, Nat.toDigits 10 n = d :: ds ∧ d.isDigit = true := by
  obtain ⟨d, ds, hds⟩ := List.exists_cons_of_ne_nil (Nat.toDigits_ne_nil (n := n) (b := 10))
  exact ⟨d, ds, hds, isDigit_of_mem_toDigits d (hds ▸ List.mem_cons_self)⟩

theorem number_spelling {i : Integer} {tail : List Char} (h : IsLiteral i)
    (htail : tail.head?.any isNameChar = false) (hfraction : fraction tail = []) :
    number ((Token.number (.int i)).spelling ++ tail) = .ok (some (.int i, tail)) := by
  obtain ⟨n, hn⟩ := Int.eq_ofNat_of_zero_le h.2
  have hbody : numberBody (Nat.toDigits 10 n ++ (integerSuffix i.kind ++ tail)) =
      .ok (some (.whole 10 (Nat.toDigits 10 n), integerSuffix i.kind ++ tail)) := by
    refine numberBody_digits Nat.toDigits_ne_nil isDigit_of_mem_toDigits ?_ ?_ ?_
    · refine any_head?_suffix (by decide) (by decide) (any_head?_of_imp (fun c hc => ?_) htail)
      exact isNameChar_of_isAlphanum (by simp [Char.isAlphanum, hc])
    · refine any_head?_suffix (by decide) (by decide) (any_head?_of_imp (fun c hc => ?_) htail)
      refine isNameChar_of_isAlphanum ?_
      simp only [List.mem_cons, List.not_mem_nil, or_false, decide_eq_true_eq] at hc
      rcases hc with rfl | rfl | rfl | rfl <;> decide
    · cases hk : integerSuffix i.kind with
      | nil => exact hfraction
      | cons c rest =>
        rcases mem_integerSuffix (hk ▸ List.mem_cons_self) with rfl | rfl <;> rfl
  have hsuffix (c : Char) (hc : c ∈ integerSuffix i.kind) : c.isAlpha = true := by
    rcases mem_integerSuffix hc with rfl | rfl <;> decide
  have hvalue : (NumberBody.whole 10 (Nat.toDigits 10 n)).value false
      (String.ofList ((integerSuffix i.kind).map Char.toLower)) = .ok (.int i) := by
    rw [NumberBody.value, nat?_toDigits, ← integerValue_suffix h, hn]
    rfl
  have hsign (c : Char) (hc : c.isDigit = false) :
      (Nat.toDigits 10 n ++ (integerSuffix i.kind ++ tail)).head? ≠ some c := by
    obtain ⟨d, ds, hds, hd⟩ := exists_cons_of_toDigits n
    rw [hds, List.cons_append, List.head?_cons, ne_eq, Option.some.injEq]
    exact ne_of_class hd hc
  rw [spelling_number hn, List.append_assoc]
  exact number_unsigned (hsign _ (by decide)) (hsign _ (by decide)) hbody hsuffix htail hvalue

/-- A number that begins with a digit is a token. -/
theorem token_of_number {d : Char} {ds tail : List Char} {v : Value} (hd : d.isDigit = true)
    (h : number (d :: ds) = .ok (some (v, tail))) : token (d :: ds) = .ok (.number v, tail) := by
  have hstart : startsNumber (d :: ds) = true := by
    have hdot : d ≠ '.' := ne_of_class hd (by decide)
    simp [startsNumber, hdot, hd]
  rw [token, skipSpace_cons (ne_of_class hd (by decide)) (Text.isBlank_of_isDigit hd), tokenHere,
    if_pos hstart, h]
  rfl

theorem token_number {i : Integer} {tail : List Char} (h : IsLiteral i)
    (htail : tail.head?.any isNameChar = false) (hfraction : fraction tail = []) :
    token ((Token.number (.int i)).spelling ++ tail) = .ok (.number (.int i), tail) := by
  obtain ⟨n, hn⟩ := Int.eq_ofNat_of_zero_le h.2
  obtain ⟨d, ds, hds, hd⟩ := exists_cons_of_toDigits n
  have hnumber := number_spelling h htail hfraction
  rw [spelling_number hn, hds] at hnumber ⊢
  exact token_of_number hd hnumber

/-! ## Symbols -/

/-- The characters that make a longer symbol of a symbol before them, or a comment. -/
def lengthening : List Char := ['=', '&', '|', '?', '<', '>', '/', '*']

/-- Could the character make something else of the symbol before it? -/
def lengthens (s : Symbol) (c : Char) : Bool :=
  !(Token.symbol s).opens && (c ∈ lengthening || (s == .dot && c.isDigit))

theorem not_mem_lengthening {s : Symbol} {c : Char} (h : lengthens s c = false)
    (hs : (Token.symbol s).opens = false) : c ∉ lengthening := by
  rw [lengthens, hs, Bool.not_false, Bool.true_and, Bool.or_eq_false_iff] at h
  exact of_decide_eq_false h.1

theorem symbol?_text {s : Symbol} {tail : List Char} (h : tail.head?.any (lengthens s) = false) :
    symbol? (s.text.toList ++ tail) = some (s, tail) := by
  cases tail with
  | nil => cases s <;> rfl
  | cons c tail =>
    cases hs : (Token.symbol s).opens with
    | true => cases s <;> first | rfl | cases hs
    | false =>
      have hc := not_mem_lengthening h hs
      simp only [lengthening, List.mem_cons, List.not_mem_nil, or_false, not_or] at hc
      cases s <;> first | rfl | simp [Symbol.text, symbol?, hc]

/-- A symbol starts with a character that starts no other kind of token. -/
structure Symbol.Front (s : Symbol) (c : Char) : Prop where
  isBlank : Text.isBlank c = false
  isDigit : c.isDigit = false
  isNameStart : isNameStart c = false
  ne : c ∉ ['\'', '"', '$']
  slash : c = '/' → s = .slash ∨ s = .slashAssign
  dot : c = '.' → s = .dot

theorem Symbol.text_cons (s : Symbol) : ∃ c rest, s.text.toList = c :: rest ∧ s.Front c := by
  cases s <;> exact ⟨_, _, rfl, by constructor <;> decide⟩

theorem skipSpace_symbol {s : Symbol} {tail : List Char} (h : tail.head?.any (lengthens s) = false) :
    skipSpace (s.text.toList ++ tail) = s.text.toList ++ tail := by
  obtain ⟨c, rest, hs, hfront⟩ := s.text_cons
  by_cases hslash : c = '/'
  · have hblank : Text.isBlank '/' = false := by decide
    rcases hfront.slash hslash with rfl | rfl
    · cases tail with
      | nil => rfl
      | cons d tail =>
        have hd := not_mem_lengthening h rfl
        simp only [lengthening, List.mem_cons, List.not_mem_nil, or_false, not_or] at hd
        simp [Symbol.text, skipSpace, skipSpaceIn, hd, hblank]
    · simp [Symbol.text, skipSpace, skipSpaceIn, hblank]
  · rw [hs, List.cons_append, skipSpace_cons hslash hfront.isBlank]

theorem startsNumber_symbol {s : Symbol} {tail : List Char} (h : tail.head?.any (lengthens s) = false) :
    startsNumber (s.text.toList ++ tail) = false := by
  obtain ⟨c, rest, hs, hfront⟩ := s.text_cons
  by_cases hdot : c = '.'
  · obtain rfl := hfront.dot hdot
    cases tail with
    | nil => rfl
    | cons d tail => simp_all [lengthens, Token.opens, Symbol.text, startsNumber]
  · simp [hs, startsNumber, hdot, hfront.isDigit]

theorem token_symbol {s : Symbol} {tail : List Char} (h : tail.head?.any (lengthens s) = false) :
    token (s.text.toList ++ tail) = .ok (.symbol s, tail) := by
  obtain ⟨c, rest, hs, hfront⟩ := s.text_cons
  have hstart := startsNumber_symbol h
  have hsymbol := symbol?_text h
  have hne := hfront.ne
  simp only [List.mem_cons, List.not_mem_nil, or_false, not_or] at hne
  rw [token, skipSpace_symbol h]
  rw [hs, List.cons_append] at hstart hsymbol ⊢
  simp [tokenHere, hstart, hfront.isNameStart, hne, hsymbol]

/-! ## Tokens in a row -/

/-- Tokens that can be spelled: names are names, and numbers are integers that literals can have. -/
inductive Token.Proper : Token → Prop where
  | number {i : Integer} : IsLiteral i → Proper (.number (.int i))
  | string (s : String) : Proper (.string s)
  | ident {name : String} : IsName name → Proper (.ident name)
  | var {name : String} : IsName name → Proper (.var name)
  | symbol (s : Symbol) : Proper (.symbol s)

/-- Is the token over where the rest of the text starts? -/
def Token.Ends (tail : List Char) : Token → Prop
  | number _ => tail.head?.any isNameChar = false ∧ fraction tail = []
  | ident _ | var _ => tail.head?.any isNameChar = false
  | symbol s => tail.head?.any (lengthens s) = false
  | _ => True

theorem token_spelling {t : Token} {tail : List Char} (h : t.Proper) (hend : t.Ends tail) :
    token (t.spelling ++ tail) = .ok (t, tail) := by
  cases h with
  | number hi => exact token_number hi hend.1 hend.2
  | string s => exact token_string s tail
  | ident hname => exact token_ident hname hend
  | var hname => exact token_var hname hend
  | symbol s => exact token_symbol hend

theorem Token.ends_nil (t : Token) : t.Ends [] := by
  cases t <;> simp [Token.Ends, fraction]

theorem Token.ends_blank (t : Token) (tail : List Char) : t.Ends (' ' :: tail) := by
  have hname : isNameChar ' ' = false := by decide
  have hlong : ' ' ∉ lengthening := by decide
  cases t <;> simp [Token.Ends, fraction, lengthens, hname, hlong]

/-- The symbols that may stand right after another token. -/
def clinging : List Symbol :=
  [.rParen, .rBracket, .rBrace, .comma, .dot, .lParen, .lBracket, .lBrace]

theorem mem_clinging_of_opens {t : Token} (h : t.opens = true) : ∃ s ∈ clinging, t = .symbol s := by
  unfold Token.opens at h
  split at h
  case h_4 => exact absurd h (by decide)
  all_goals exact ⟨_, by decide, rfl⟩

theorem mem_clinging_of_closes {t : Token} (h : t.closes = true) : ∃ s ∈ clinging, t = .symbol s := by
  unfold Token.closes at h
  split at h
  case h_4 => exact absurd h (by decide)
  all_goals exact ⟨_, by decide, rfl⟩

theorem adjacent_cases {t u : Token} (h : adjacent t u = true) :
    t.opens = true ∨ (∃ s ∈ clinging, u = .symbol s) ∨ (t = .symbol .dot ∧ ∃ n, u = .ident n) ∨
      ((t = .symbol .bang ∨ t = .symbol .tilde) ∧ u.isWord = true) := by
  unfold adjacent at h
  rw [Bool.or_eq_true, Bool.or_eq_true] at h
  rcases h with (hopens | hcloses) | h
  · exact .inl hopens
  · exact .inr (.inl (mem_clinging_of_closes hcloses))
  split at h
  · exact .inr (.inl ⟨_, by decide, rfl⟩)
  · exact .inr (.inr (.inl ⟨rfl, _, rfl⟩))
  · rw [Bool.or_eq_true] at h
    exact h.elim (fun hword => .inr (.inr (.inr ⟨.inl rfl, hword⟩)))
      fun hopens => .inr (.inl (mem_clinging_of_opens hopens))
  · rw [Bool.or_eq_true] at h
    exact h.elim (fun hword => .inr (.inr (.inr ⟨.inr rfl, hword⟩)))
      fun hopens => .inr (.inl (mem_clinging_of_opens hopens))
  · exact .inr (.inl ⟨_, by decide, rfl⟩)
  · rw [Bool.and_eq_true] at h
    exact .inr (.inl (mem_clinging_of_opens h.2))

/-- After a point that ends a token no fraction stands. -/
theorem fraction_dot {tail : List Char} (h : (Token.symbol .dot).Ends tail) :
    fraction ('.' :: tail) = [] := by
  cases tail with
  | nil => rfl
  | cons c tail => simp_all [Token.Ends, lengthens, Token.opens, fraction]

/-- Every token is over before a symbol that may stand right after it. -/
theorem Token.ends_clinging {t : Token} {s : Symbol} {tail : List Char} (hs : s ∈ clinging)
    (hend : (Token.symbol s).Ends tail) : t.Ends ((Token.symbol s).spelling ++ tail) := by
  obtain ⟨c, hc, hname, hlong, hdot⟩ : ∃ c, s.text.toList = [c] ∧ isNameChar c = false ∧
      (∀ s', lengthens s' c = false) ∧ (c = '.' → s = .dot) := by
    simp only [clinging, List.mem_cons, List.not_mem_nil, or_false] at hs
    rcases hs with rfl | rfl | rfl | rfl | rfl | rfl | rfl | rfl <;>
      exact ⟨_, rfl, by decide, fun s' => by cases s' <;> decide, by decide⟩
  have hfraction : fraction (c :: tail) = [] := by
    by_cases h : c = '.'
    · obtain rfl := hdot h
      exact h ▸ fraction_dot hend
    · simp [fraction, h]
  rw [Token.spelling, hc]
  cases t <;> simp [Token.Ends, hname, hlong, hfraction]

theorem Token.Proper.spelling_cons {t : Token} (h : t.Proper) :
    ∃ c rest, t.spelling = c :: rest ∧ (t.isWord = true → c ∉ lengthening) := by
  cases h with
  | number hi =>
    obtain ⟨n, hn⟩ := Int.eq_ofNat_of_zero_le hi.2
    obtain ⟨d, ds, hds, hd⟩ := exists_cons_of_toDigits n
    exact ⟨d, _, by rw [spelling_number hn, hds, List.cons_append], fun _ => not_mem_of_class hd (by decide)⟩
  | string s => exact ⟨_, _, rfl, fun _ => by decide⟩
  | ident hname =>
    obtain ⟨c, rest, hs, hstart⟩ := hname.cons
    exact ⟨c, rest, hs, fun _ => not_mem_of_class hstart (by decide)⟩
  | var hname => exact ⟨_, _, rfl, fun _ => by decide⟩
  | symbol s =>
    obtain ⟨c, rest, hs, -⟩ := s.text_cons
    exact ⟨c, rest, hs, fun hword => absurd hword (by simp [Token.isWord])⟩

theorem Token.ends_adjacent {t u : Token} {tail : List Char} (h : adjacent t u = true)
    (hu : u.Proper) (hend : u.Ends tail) : t.Ends (u.spelling ++ tail) := by
  obtain ⟨c, rest, hc, hword⟩ := hu.spelling_cons
  rcases adjacent_cases h with hopens | ⟨s, hs, rfl⟩ | ⟨rfl, n, rfl⟩ | ⟨ht, hw⟩
  · obtain ⟨s, -, rfl⟩ := mem_clinging_of_opens hopens
    simp [Token.Ends, hc, lengthens, hopens]
  · exact ends_clinging hs hend
  · have hdigit : c.isDigit = false := by
      cases hu with
      | ident hname =>
        obtain ⟨d, _, hd, hstart⟩ := hname.cons
        obtain ⟨rfl, -⟩ := List.cons.inj (hd.symm.trans hc)
        exact isDigit_of_isNameStart hstart
    simp [Token.Ends, hc, lengthens, hword rfl, hdigit]
  · rcases ht with rfl | rfl <;> simp [Token.Ends, hc, lengthens, hword hw]

/-- The characters are read as the tokens, with nothing after them. -/
inductive Reads : List Char → List Token → Prop where
  | done {cs : List Char} : skipSpace cs = [] → Reads cs []
  | step {cs rest : List Char} {t : Token} {ts : List Token} : token cs = .ok (t, rest) →
      t ≠ .eof → rest.length < cs.length → Reads rest ts → Reads cs (t :: ts)

theorem token_blank (cs : List Char) : token (' ' :: cs) = token cs := by
  rw [token, token, skipSpace_blank]

theorem Reads.blank {cs : List Char} {ts : List Token} (h : Reads cs ts) : Reads (' ' :: cs) ts := by
  cases h with
  | done h => exact .done (by rw [skipSpace_blank, h])
  | step htoken hne hlt hrest =>
    exact .step (by rw [token_blank, htoken]) hne (Nat.lt_succ_of_lt hlt) hrest

theorem Reads.length_le {cs : List Char} {ts : List Token} (h : Reads cs ts) :
    ts.length ≤ cs.length := by
  induction h with
  | done => exact Nat.zero_le _
  | step _ _ hlt _ ih => exact Nat.lt_of_le_of_lt ih hlt

/-- The next token and the tokens after it; after the last one comes the end. -/
theorem Reads.token_eq {cs : List Char} {ts : List Token} (h : Reads cs ts) :
    ∃ rest, token cs = .ok (ts.headD .eof, rest) ∧ Reads rest ts.tail := by
  cases h with
  | done h => exact ⟨[], by rw [token, h]; rfl, .done rfl⟩
  | step htoken _ _ hrest => exact ⟨_, htoken, hrest⟩

theorem Token.Proper.ne_eof {t : Token} (h : t.Proper) : t ≠ .eof := by
  rintro rfl
  cases h

theorem Reads.cons {t : Token} {tail : List Char} {ts : List Token} (ht : t.Proper)
    (hend : t.Ends tail) (h : Reads tail ts) : Reads (t.spelling ++ tail) (t :: ts) := by
  refine .step (token_spelling ht hend) ht.ne_eof ?_ h
  obtain ⟨c, rest, hc, -⟩ := ht.spelling_cons
  simp only [hc, List.length_append, List.length_cons]
  omega

/-- A row of tokens is read back from its spelling, which goes on after its first token with what that
token ends before. -/
theorem spell_cons {t : Token} {ts : List Token} (ht : t.Proper) (h : ∀ u ∈ ts, u.Proper) :
    ∃ tail, spell (t :: ts) = t.spelling ++ tail ∧ t.Ends tail ∧ Reads tail ts := by
  induction ts generalizing t with
  | nil => exact ⟨[], (List.append_nil _).symm, t.ends_nil, .done rfl⟩
  | cons u ts ih =>
    have hu := h u List.mem_cons_self
    obtain ⟨tail, hspell, hend, hreads⟩ := ih hu fun v hv => h v (List.mem_cons_of_mem u hv)
    have hrest : Reads (spell (u :: ts)) (u :: ts) := hspell ▸ hreads.cons hu hend
    by_cases hadj : adjacent t u = true
    · refine ⟨spell (u :: ts), by simp [spell, hadj], ?_, hrest⟩
      exact hspell ▸ t.ends_adjacent hadj hu hend
    · exact ⟨' ' :: spell (u :: ts), by simp [spell, hadj], t.ends_blank _, hrest.blank⟩

/-- A row of tokens is read back from its spelling. -/
theorem reads_spell {ts : List Token} (h : ∀ t ∈ ts, t.Proper) : Reads (spell ts) ts := by
  cases ts with
  | nil => exact .done rfl
  | cons t ts =>
    have ht := h t List.mem_cons_self
    obtain ⟨tail, hspell, hend, hreads⟩ := spell_cons ht fun u hu => h u (List.mem_cons_of_mem t hu)
    exact hspell ▸ hreads.cons ht hend

end Notation

end ActionTree
