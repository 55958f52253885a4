import Mathlib.Data.Nat.Digits.Defs
import ActionTree.Proofs.Notation.Spelling
import ActionTree.Proofs.Text.Case

/-!
# Integer literals

A literal with or without a sign, in either radix and with any suffix for integers, is read as the number it
denotes, in the first of the types of its suffix that hold this number; it is a fault if none does.
-/

namespace ActionTree

/-- The first type that holds the number has it. -/
theorem Integer.firstOf?_eq_bind (types : List IntKind) (n : Int) :
    firstOf? types n = (types.find? fun k => k.Holds n).bind fun k => ofInt? k n := by
  induction types with
  | nil => rfl
  | cons k types ih =>
    rw [firstOf?, List.find?_cons]
    by_cases h : k.Holds n
    · simp [ofInt?, h]
    · simp [ofInt?, h, ih]

theorem Integer.exists_firstOf? {types : List IntKind} {k : IntKind} {n : Int} (hk : k ∈ types)
    (h : k.Holds n) : ∃ i, firstOf? types n = some i := by
  have hfound : (types.find? fun k => k.Holds n).isSome = true :=
    List.find?_isSome.mpr ⟨k, hk, decide_eq_true h⟩
  obtain ⟨first, hfirst⟩ := Option.isSome_iff_exists.mp hfound
  have hholds : first.Holds n := by simpa using List.find?_some hfirst
  rw [firstOf?_eq_bind, hfirst]
  exact ⟨_, dif_pos hholds⟩

namespace Notation

/-! ## What literals are made of -/

/-- The number with that sign. -/
def Sign.apply (sign : Sign) (n : Nat) : Int := if sign.isNegative then -(n : Int) else n

/-- Digits up to those of the largest radix, in the order of their values. -/
def digitChars : List Char := "0123456789abcdef".toList

def digitValue (c : Char) : Nat := digitChars.idxOf c.toLower

inductive Radix where
  | decimal
  | hexadecimal (capital : Bool)

namespace Radix

def chars : Radix → List Char
  | decimal => []
  | hexadecimal capital => ['0', if capital then 'X' else 'x']

def base : Radix → Nat
  | decimal => 10
  | hexadecimal _ => 16

def isDigit (r : Radix) (c : Char) : Bool := (digitChars.take r.base).contains c.toLower

end Radix

/-- What is said of the type after the digits. -/
inductive IntegerSuffix where
  | plain | long | unsigned | unsignedLong

namespace IntegerSuffix

def spellings : IntegerSuffix → List String
  | plain => [""]
  | long => ["l"]
  | unsigned => ["u"]
  | unsignedLong => ["ul", "lu"]

/-- The types that the literal may have, in the order of preference. -/
def types : IntegerSuffix → List IntKind
  | plain => [.int, .long, .ulong]
  | long => [.long, .ulong]
  | unsigned => [.uint, .ulong]
  | unsignedLong => [.ulong]

end IntegerSuffix

structure IntegerLiteral where
  sign : Sign
  radix : Radix
  digits : List Char
  suffix : IntegerSuffix
  /-- The suffix as it is written, in letters of either case. -/
  letters : List Char
  digits_ne_nil : digits ≠ []
  isDigit : ∀ c ∈ digits, radix.isDigit c = true
  spells : String.ofList (letters.map Char.toLower) ∈ suffix.spellings

namespace IntegerLiteral

/-- Without the sign. -/
def unsigned (l : IntegerLiteral) : List Char := l.radix.chars ++ l.digits ++ l.letters

def chars (l : IntegerLiteral) : List Char := l.sign.chars ++ l.unsigned

/-- The number it denotes; the last digit counts least. -/
def value (l : IntegerLiteral) : Int :=
  l.sign.apply (Nat.ofDigits l.radix.base (l.digits.map digitValue).reverse)

/-- The first type of the suffix that holds the number. -/
def type? (l : IntegerLiteral) : Option IntKind := l.suffix.types.find? fun k => k.Holds l.value

end IntegerLiteral

/-! ## Digits -/

namespace Radix

variable {r : Radix} {c : Char}

theorem base_cases (r : Radix) : r.base = 10 ∨ r.base = 16 := by
  cases r
  · exact .inl rfl
  · exact .inr rfl

theorem digit?_base (h : r.isDigit c = true) : Numeral.digit? r.base c = some (digitValue c) := by
  have hbase := r.base_cases
  unfold isDigit at h
  generalize r.base = base at hbase h
  have hsmall : (digitChars.take base).all (fun d => Numeral.digit? base d == some (digitValue d)) = true := by
    rcases hbase with rfl | rfl <;> decide
  have hlower : Numeral.digit? base c.toLower = Numeral.digit? base c :=
    Text.apply_toLower (by rcases hbase with rfl | rfl <;> decide) c
  have hvalue : digitValue c.toLower = digitValue c := Text.apply_toLower (by decide) c
  rw [← hlower, ← hvalue]
  exact eq_of_beq (List.all_eq_true.mp hsmall _ (List.contains_iff_mem.mp h))

theorem isDigit_decimal_iff : decimal.isDigit c = true ↔ c.isDigit = true := by
  constructor
  · intro h
    have hsmall : (digitChars.take 10).all Char.isDigit = true := by decide
    have hlower := List.all_eq_true.mp hsmall _ (List.contains_iff_mem.mp h)
    exact (Text.apply_toLower (by decide) c).symm.trans hlower
  · intro h
    have hsmall : ∀ n < 10, decimal.isDigit (Char.ofNat (48 + n)) = true := by decide
    rw [Text.isDigit_eq_inRanges, Text.inRanges_iff] at h
    obtain ⟨r, hr, hlow, hhigh⟩ := h
    obtain rfl := List.mem_singleton.mp hr
    have hc := hsmall (c.toNat - 48) (by omega)
    rwa [Nat.add_sub_cancel' hlow, Char.ofNat_toNat] at hc

theorem isHexDigit_of_hexadecimal {capital : Bool} (h : (hexadecimal capital).isDigit c = true) :
    isHexDigit c = true := by
  have hdigit := digit?_base h
  exact Option.isSome_iff_exists.mpr ⟨_, hdigit⟩

end Radix

/-- The digits that are read continue the number that was read before. -/
theorem natFrom?_eq {r : Radix} {digits : List Char} (h : ∀ c ∈ digits, r.isDigit c = true) (n : Nat) :
    Numeral.natFrom? r.base n digits =
      some (n * r.base ^ digits.length + Nat.ofDigits r.base (digits.map digitValue).reverse) := by
  induction digits generalizing n with
  | nil => simp [Numeral.natFrom?]
  | cons c digits ih =>
    obtain ⟨hc, hdigits⟩ := List.forall_mem_cons.mp h
    rw [Numeral.natFrom?, Radix.digit?_base hc, Option.bind_some, ih hdigits]
    simp only [List.map_cons, List.reverse_cons, Nat.ofDigits_append, Nat.ofDigits_singleton,
      List.length_reverse, List.length_map, List.length_cons, Nat.pow_succ]
    congr 1
    grind

/-- The characters of all digits. -/
theorem mem_of_isHexDigit {c : Char} (h : isHexDigit c = true) : c ∈ "0123456789abcdefABCDEF".toList := by
  have hranges : Text.inRanges [(48, 57), (97, 102), (65, 70)] c = true := by
    by_contra hnone
    have hcases : ¬c.isDigit ∧ ¬('a' ≤ c ∧ c ≤ 'f') ∧ ¬('A' ≤ c ∧ c ≤ 'F') := by
      rw [Text.isDigit_eq_inRanges]
      simp only [Text.inRanges_iff, List.mem_cons, List.not_mem_nil, or_false, exists_eq_or_imp,
        exists_eq_left, not_or] at hnone ⊢
      exact hnone
    simp [isHexDigit, Numeral.digit?, hcases] at h
  obtain ⟨⟨low, high⟩, hrange, hlow, hhigh⟩ := Text.inRanges_iff.mp hranges
  have hall : ∀ r ∈ [(48, 57), (97, 102), (65, 70)], ∀ n < 10, r.1 + n ≤ r.2 →
      Char.ofNat (r.1 + n) ∈ "0123456789abcdefABCDEF".toList := by decide
  have hwidth : high ≤ low + 9 := by
    simp only [List.mem_cons, List.not_mem_nil, or_false, Prod.mk.injEq] at hrange
    omega
  have hc := hall (low, high) hrange (c.toNat - low) (by omega) (by omega)
  rwa [Nat.add_sub_cancel' hlow, Char.ofNat_toNat] at hc

theorem Radix.isDigit_of_digit? {r : Radix} {c : Char} {d : Nat} (h : Numeral.digit? r.base c = some d) :
    r.isDigit c = true := by
  have hbase := r.base_cases
  unfold isDigit
  generalize r.base = base at h hbase
  have hhex : isHexDigit c = true := by
    obtain ⟨hvalue, hd⟩ := Option.filter_eq_some_iff.mp h
    have hsmall : d < 16 := by
      have hlt := of_decide_eq_true hd
      omega
    exact Option.isSome_iff_exists.mpr ⟨d, Option.filter_eq_some_iff.mpr ⟨hvalue, decide_eq_true hsmall⟩⟩
  have hall : "0123456789abcdefABCDEF".toList.all (fun c =>
      !(Numeral.digit? base c).isSome || (digitChars.take base).contains c.toLower) = true := by
    rcases hbase with rfl | rfl <;> decide
  have hc := List.all_eq_true.mp hall c (mem_of_isHexDigit hhex)
  simpa [h] using hc

/-- One or more digits, of which the last counts least. -/
theorem nat?_eq_some_iff {r : Radix} {digits : List Char} {n : Nat} :
    Numeral.nat? r.base digits = some n ↔ digits ≠ [] ∧ (∀ c ∈ digits, r.isDigit c = true) ∧
      Nat.ofDigits r.base (digits.map digitValue).reverse = n := by
  have hdigits {m : Nat} (h : Numeral.natFrom? r.base m digits = some n) :
      ∀ c ∈ digits, r.isDigit c = true := by
    induction digits generalizing m with
    | nil => simp
    | cons c digits ih =>
      obtain ⟨d, hd, hrest⟩ := Option.bind_eq_some_iff.mp h
      exact List.forall_mem_cons.mpr ⟨Radix.isDigit_of_digit? hd, ih hrest⟩
  cases hempty : digits with
  | nil => simp [Numeral.nat?]
  | cons c rest =>
    have hnat : Numeral.nat? r.base (c :: rest) = Numeral.natFrom? r.base 0 (c :: rest) := rfl
    rw [hnat, ← hempty]
    constructor
    · intro h
      have hall := hdigits h
      rw [natFrom?_eq hall, Nat.zero_mul, Nat.zero_add] at h
      exact ⟨by simp [hempty], hall, Option.some.inj h⟩
    · rintro ⟨-, hall, rfl⟩
      rw [natFrom?_eq hall, Nat.zero_mul, Nat.zero_add]

theorem IntegerLiteral.nat?_digits (l : IntegerLiteral) :
    Numeral.nat? l.radix.base l.digits =
      some (Nat.ofDigits l.radix.base (l.digits.map digitValue).reverse) :=
  nat?_eq_some_iff.mpr ⟨l.digits_ne_nil, l.isDigit, rfl⟩

/-! ## The parts of a literal in the text -/

theorem isAlphanum_of_isHexDigit {c : Char} (h : isHexDigit c = true) : c.isAlphanum = true := by
  have hall : "0123456789abcdefABCDEF".toList.all Char.isAlphanum = true := by decide
  exact List.all_eq_true.mp hall c (mem_of_isHexDigit h)

/-- A character that might go on with a number. -/
def continuesNumber (c : Char) : Bool := c.isAlphanum || c == '_' || c == '.'

theorem fraction_eq_nil {tail : List Char} (h : tail.head?.any (· == '.') = false) : fraction tail = [] := by
  cases tail with
  | nil => rfl
  | cons c tail => simp_all [fraction]

namespace IntegerLiteral

variable {l : IntegerLiteral} {rest : List Char}

theorem letter_cases {c : Char} (h : c ∈ l.letters) : c ∈ ['l', 'L', 'u', 'U'] := by
  have hlower : c.toLower ∈ ['l', 'u'] := by
    have hspells : l.letters.map Char.toLower ∈ l.suffix.spellings.map String.toList :=
      List.mem_map.mpr ⟨_, l.spells, String.toList_ofList⟩
    have hletters : (l.suffix.spellings.map String.toList).all (·.all ['l', 'u'].contains) = true := by
      cases l.suffix <;> decide
    have hword := List.all_eq_true.mp hletters _ hspells
    exact List.contains_iff_mem.mp (List.all_eq_true.mp hword _ (List.mem_map_of_mem h))
  rcases Text.toLower_cases c with hc | ⟨n, hn, rfl⟩
  · rw [hc] at hlower
    have hsmall : ['l', 'u'] ⊆ ['l', 'L', 'u', 'U'] := by simp
    exact hsmall hlower
  · clear h
    revert n
    decide

/-- After the digits stands a letter of the suffix, or what follows the literal. -/
theorem any_head?_letters {p : Char → Bool} (hletters : ['l', 'L', 'u', 'U'].any p = false)
    (hrest : rest.head?.any p = false) : (l.letters ++ rest).head?.any p = false := by
  cases h : l.letters with
  | nil => exact hrest
  | cons c cs =>
    have hc := List.any_eq_false.mp hletters c (letter_cases (h ▸ List.mem_cons_self))
    exact Bool.eq_false_iff.mpr hc

theorem numberBody_unsigned (hrest : rest.head?.any continuesNumber = false) :
    numberBody (l.unsigned ++ rest) = .ok (some (.whole l.radix.base l.digits, l.letters ++ rest)) := by
  -- No letter of a suffix is a digit in either radix: the digits end where the suffix begins.
  have hafter {p : Char → Bool} (hletters : ['l', 'L', 'u', 'U'].any p = false)
      (h : ∀ c, p c = true → continuesNumber c = true) : (l.letters ++ rest).head?.any p = false :=
    any_head?_letters hletters (any_head?_of_imp h hrest)
  have hdigits := l.isDigit
  rw [unsigned, List.append_assoc, List.append_assoc]
  cases hradix : l.radix with
  | decimal =>
    rw [hradix] at hdigits
    refine numberBody_digits l.digits_ne_nil (fun c hc => Radix.isDigit_decimal_iff.mp (hdigits c hc)) ?_ ?_ ?_
    · exact hafter (by decide) fun c hc => by simp [continuesNumber, Char.isAlphanum, hc]
    · refine hafter (by decide) fun c hc => ?_
      have hletter : ['x', 'X', 'e', 'E'].all continuesNumber = true := by decide
      exact List.all_eq_true.mp hletter c (of_decide_eq_true hc)
    · exact fraction_eq_nil (hafter (by decide) fun c hc => by simp [continuesNumber, hc])
  | hexadecimal capital =>
    rw [hradix] at hdigits
    have htake : (l.digits ++ (l.letters ++ rest)).takeWhile isHexDigit = l.digits := by
      refine takeWhile_run (fun c hc => Radix.isHexDigit_of_hexadecimal (hdigits c hc)) ?_
      exact hafter (by decide) fun c hc => by simp [continuesNumber, isAlphanum_of_isHexDigit hc]
    cases capital <;> simp [Radix.chars, Radix.base, numberBody, htake, l.digits_ne_nil]

end IntegerLiteral

/-! ## The literal in the text -/

theorem integerValue_of_types {n : Int} {suffix : String} {types : List IntKind}
    (h : integerTypes? suffix = some types) : integerValue n suffix =
      (Integer.firstOf? types n).elim (.error .tooLarge) fun i => .ok (.int i) := by
  unfold integerValue
  split
  · rename_i hlarge
    have hnone : (types.find? fun k => k.Holds n) = none :=
      List.find?_eq_none.mpr fun k _ hk => Nat.not_le_of_lt (of_decide_eq_true hk).natAbs_lt hlarge
    rw [Integer.firstOf?_eq_bind, hnone]
    rfl
  · simp only [h]
    cases Integer.firstOf? types n <;> rfl

namespace IntegerLiteral

variable {l : IntegerLiteral} {rest : List Char}

theorem integerTypes?_letters (l : IntegerLiteral) :
    integerTypes? (String.ofList (l.letters.map Char.toLower)) = some l.suffix.types := by
  have htypes : ∀ w ∈ l.suffix.spellings, integerTypes? w = some l.suffix.types := by
    cases l.suffix <;> simp [IntegerSuffix.spellings, integerTypes?, IntegerSuffix.types]
  exact htypes _ l.spells

theorem value_whole (l : IntegerLiteral) :
    (NumberBody.whole l.radix.base l.digits).value l.sign.isNegative
      (String.ofList (l.letters.map Char.toLower)) =
      (Integer.firstOf? l.suffix.types l.value).elim (.error .tooLarge) fun i => .ok (.int i) := by
  rw [← integerValue_of_types l.integerTypes?_letters, NumberBody.value, l.nat?_digits]
  rfl

/-- Without its sign a literal begins with a digit. -/
theorem isDigit_of_head? {c : Char} (h : (l.unsigned ++ rest).head? = some c) : c.isDigit = true := by
  have hdigits := l.isDigit
  obtain ⟨d, ds, hd⟩ := List.exists_cons_of_ne_nil l.digits_ne_nil
  rw [unsigned, hd] at h
  rw [hd] at hdigits
  cases hradix : l.radix with
  | decimal =>
    rw [hradix] at h hdigits
    cases h
    exact Radix.isDigit_decimal_iff.mp (hdigits c List.mem_cons_self)
  | hexadecimal capital =>
    rw [hradix] at h
    cases h
    decide

theorem number_chars (l : IntegerLiteral) (hrest : rest.head?.any continuesNumber = false) :
    number (l.chars ++ rest) =
      (Integer.firstOf? l.suffix.types l.value).elim
        (faultAt (l.chars ++ rest) (.numeral .tooLarge (String.ofList l.chars)))
        fun i => .ok (some (.int i, rest)) := by
  have hletters : ∀ c ∈ l.letters, c.isAlpha = true := by
    have hsmall : ['l', 'L', 'u', 'U'].all Char.isAlpha = true := by decide
    exact fun c hc => List.all_eq_true.mp hsmall c (letter_cases hc)
  have htail : rest.head?.any (fun c => c.isAlphanum || c == '_') = false :=
    any_head?_of_imp (fun c hc => by rw [continuesNumber, hc, Bool.true_or]) hrest
  have hsign {c : Char} (hc : c.isDigit = false) : (l.unsigned ++ rest).head? ≠ some c := by
    intro hhead
    rw [isDigit_of_head? hhead] at hc
    cases hc
  have htake : (l.chars ++ rest).take ((l.chars ++ rest).length - rest.length) = l.chars := by
    rw [List.length_append, Nat.add_sub_cancel, List.take_left]
  have hnumber := number_signed l.sign (hsign (by decide)) (hsign (by decide))
    (numberBody_unsigned hrest) hletters htail
  rw [← List.append_assoc, ← chars, htake, l.value_whole] at hnumber
  rw [hnumber]
  cases Integer.firstOf? l.suffix.types l.value with
  | some i => rfl
  | none => rfl

theorem holds_of_type? {k : IntKind} (h : l.type? = some k) : k.Holds l.value := by
  unfold type? at h
  simpa using List.find?_some h

/-- A literal is read as the number that it denotes, in the first of the types of its suffix that hold this
number, and the text is then read from the end of the literal. Only where no type holds the number is it a
fault, which lies at the start of the literal. -/
theorem read_in_first_type (l : IntegerLiteral) (before : List Char) {rest : List Char}
    (hrest : rest.head?.any continuesNumber = false) :
    (∀ k, l.type? = some k ↔
      ∃ i : Integer, i.kind = k ∧ i.val = l.value ∧ number (l.chars ++ rest) = .ok (some (.int i, rest))) ∧
    (l.type? = none ↔ ∃ e, number (l.chars ++ rest) = .error e ∧
      e.inText (String.ofList (before ++ l.chars ++ rest)) =
        ⟨.numeral .tooLarge (String.ofList l.chars), before.length,
          some (String.ofList (before ++ l.chars ++ rest))⟩) := by
  have hnumber := l.number_chars hrest
  rw [Integer.firstOf?_eq_bind, ← type?] at hnumber
  cases htype : l.type? with
  | none =>
    rw [htype] at hnumber
    replace hnumber : number (l.chars ++ rest) = .error _ := hnumber
    constructor
    · intro k
      constructor
      · intro h
        cases h
      · rintro ⟨i, -, -, hi⟩
        cases hi.symm.trans hnumber
    · refine ⟨fun _ => ⟨_, hnumber, ?_⟩, fun _ => rfl⟩
      simp [LocatedFault.inText]
  | some k =>
    have hholds := holds_of_type? htype
    rw [htype, Option.bind_some, Integer.ofInt?, dif_pos hholds] at hnumber
    replace hnumber : number (l.chars ++ rest) = .ok (some (.int ⟨k, l.value, hholds⟩, rest)) := hnumber
    constructor
    · intro k'
      constructor
      · intro h
        cases h
        exact ⟨_, rfl, rfl, hnumber⟩
      · rintro ⟨i, rfl, -, hi⟩
        cases hi.symm.trans hnumber
        rfl
    · constructor
      · intro h
        cases h
      · rintro ⟨e, he, -⟩
        cases he.symm.trans hnumber

/-- The least number of the largest type with a sign. -/
def leastLong : IntegerLiteral where
  sign := .minus
  radix := .hexadecimal true
  digits := "008000000000000000".toList
  suffix := .long
  letters := ['L']
  digits_ne_nil := by decide
  isDigit := List.all_eq_true.mp (by decide)
  spells := by decide

theorem leastLong_read : [')'].head?.any continuesNumber = false ∧
    ∃ i : Integer, i.kind = .long ∧ i.val = -9223372036854775808 ∧
      number "-0X008000000000000000L)".toList = .ok (some (.int i, [')'])) := by
  have hend : [')'].head?.any continuesNumber = false := by decide
  have htype : leastLong.type? = some .long := by decide
  have hvalue : leastLong.value = -9223372036854775808 := by decide
  obtain ⟨i, hkind, hval, hread⟩ := ((leastLong.read_in_first_type "1 + ".toList hend).1 .long).mp htype
  exact ⟨hend, i, hkind, hval.trans hvalue, hread⟩

end IntegerLiteral

end Notation

end ActionTree
