import ActionTree.Convert
import ActionTree.Proofs.Notation.Integer

/-!
# Integers in texts

A text is converted to an integer type exactly if, without the white space around it, it spells an integer
that the type holds: a sign and decimal digits, or the mark of the hexadecimal radix, a sign and
hexadecimal digits. Among these are spellings that no numeral has, with a sign between the mark and the
digits.
-/

namespace ActionTree

open Notation

/-- An integer as a text may spell it. -/
structure IntegerText where
  radix : Radix
  sign : Sign
  digits : List Char
  digits_ne_nil : digits ≠ []
  isDigit : ∀ c ∈ digits, radix.isDigit c = true

namespace IntegerText

/-- The sign stands before the digits, after the mark of the radix. -/
def chars (t : IntegerText) : List Char := t.radix.chars ++ (t.sign.chars ++ t.digits)

/-- The number it denotes; the last digit counts least. -/
def value (t : IntegerText) : Int :=
  t.sign.apply (Nat.ofDigits t.radix.base (t.digits.map digitValue).reverse)

/-- A numeral has a sign before decimal digits only. -/
def IsNumeral (t : IntegerText) : Prop := t.radix = .decimal ∨ t.sign = .absent

end IntegerText

/-! ## Integers as they are written -/

theorem toString_natCast (n : Nat) : toString (n : Int) = String.ofList (Nat.toDigits 10 n) :=
  Nat.toString_eq_ofList_toDigits

theorem toString_negSucc (n : Nat) :
    toString (Int.negSucc n) = String.ofList ('-' :: Nat.toDigits 10 (n + 1)) := by
  change "-" ++ toString (n + 1) = _
  rw [Nat.toString_eq_ofList_toDigits]
  apply String.toList_inj.mp
  simp

namespace IntegerText

theorem exists_of_toDigits (sign : Sign) (n : Nat) : ∃ t : IntegerText, t.radix = .decimal ∧
    t.chars = sign.chars ++ Nat.toDigits 10 n ∧ t.value = sign.apply n := by
  obtain ⟨hne, hdigits, hvalue⟩ := (nat?_eq_some_iff (r := .decimal)).mp (nat?_toDigits n)
  exact ⟨⟨.decimal, sign, Nat.toDigits 10 n, hne, hdigits⟩, rfl, rfl, congrArg sign.apply hvalue⟩

/-- An integer is written in decimal digits, after a minus sign if it is negative. -/
theorem exists_of_toString (n : Int) :
    ∃ t : IntegerText, t.radix = .decimal ∧ t.chars = (toString n).toList ∧ t.value = n := by
  cases n with
  | ofNat m =>
    rw [Int.ofNat_eq_natCast, toString_natCast, String.toList_ofList]
    exact exists_of_toDigits .absent m
  | negSucc m =>
    rw [toString_negSucc, String.toList_ofList]
    exact exists_of_toDigits .minus (m + 1)

end IntegerText

namespace Convert

/-! ## Digits after a sign -/

theorem isDigit_sign {r : Radix} {c : Char} (hc : c = '+' ∨ c = '-') : r.isDigit c = false := by
  cases r with
  | decimal | hexadecimal => rcases hc with rfl | rfl <;> rfl

theorem int?_eq_some_iff {r : Radix} {cs : List Char} {n : Int} :
    Numeral.int? r.base cs = some n ↔ ∃ (sign : Sign) (digits : List Char), cs = sign.chars ++ digits ∧
      digits ≠ [] ∧ (∀ c ∈ digits, r.isDigit c = true) ∧
      sign.apply (Nat.ofDigits r.base (digits.map digitValue).reverse) = n := by
  constructor
  · intro h
    unfold Numeral.int? at h
    split at h
    next digits =>
      obtain ⟨m, hm, rfl⟩ := Option.map_eq_some_iff.mp h
      obtain ⟨hne, hdigits, rfl⟩ := nat?_eq_some_iff.mp hm
      exact ⟨.plus, digits, rfl, hne, hdigits, rfl⟩
    next digits =>
      obtain ⟨_, hm, rfl⟩ := Option.map_eq_some_iff.mp h
      obtain ⟨m, hnat, ⟨⟩⟩ := Option.bind_eq_some_iff.mp hm
      obtain ⟨hne, hdigits, rfl⟩ := nat?_eq_some_iff.mp hnat
      exact ⟨.minus, digits, rfl, hne, hdigits, rfl⟩
    next =>
      obtain ⟨m, hm, rfl⟩ := Option.map_eq_some_iff.mp h
      obtain ⟨hne, hdigits, rfl⟩ := nat?_eq_some_iff.mp hm
      exact ⟨.absent, cs, rfl, hne, hdigits, rfl⟩
  · rintro ⟨sign, digits, rfl, hne, hdigits, rfl⟩
    have hnat := nat?_eq_some_iff.mpr ⟨hne, hdigits, rfl⟩
    obtain ⟨d, ds, rfl⟩ := List.exists_cons_of_ne_nil hne
    have hsign {c : Char} (hc : c = '+' ∨ c = '-') : d ≠ c :=
      ne_of_class (hdigits d List.mem_cons_self) (isDigit_sign hc)
    cases sign with
    | absent =>
      have hplus := hsign (.inl rfl)
      have hminus := hsign (.inr rfl)
      simp [Sign.chars, Numeral.int?, hplus, hminus, hnat, Sign.apply, Sign.isNegative]
    | plus | minus => simp [Sign.chars, Numeral.int?, hnat, Sign.apply, Sign.isNegative]

/-! ## Texts that spell integers -/

/-- Decimal digits after a sign do not look like hexadecimal ones. -/
theorem not_marked {sign : Sign} {digits rest : List Char} {x : Char} (hx : x = 'x' ∨ x = 'X')
    (hdigits : ∀ c ∈ digits, Radix.decimal.isDigit c = true) : sign.chars ++ digits ≠ '0' :: x :: rest := by
  have hother : Radix.decimal.isDigit x = false := by rcases hx with rfl | rfl <;> rfl
  intro h
  cases sign with
  | absent =>
    have hspelled : digits = '0' :: x :: rest := h
    have hdigit := hdigits x (by simp [hspelled])
    rw [hother] at hdigit
    cases hdigit
  | plus | minus => exact absurd (List.cons.inj h).1 (by decide)

theorem intText?_chars (t : IntegerText) : intText? t.chars = some t.value := by
  obtain ⟨radix, sign, digits, hne, hdigits⟩ := t
  have hint : Numeral.int? radix.base (sign.chars ++ digits) = some _ :=
    int?_eq_some_iff.mpr ⟨sign, digits, rfl, hne, hdigits, rfl⟩
  cases radix with
  | decimal =>
    change intText? (sign.chars ++ digits) = _
    unfold intText?
    split
    next heq => exact absurd heq (not_marked (.inl rfl) hdigits)
    next heq => exact absurd heq (not_marked (.inr rfl) hdigits)
    next => exact hint
  | hexadecimal capital => cases capital <;> exact hint

theorem exists_of_intText? {cs : List Char} {n : Int} (h : intText? cs = some n) :
    ∃ t : IntegerText, t.chars = cs ∧ t.value = n := by
  have hmarked (r : Radix) {rest : List Char} (h : Numeral.int? r.base rest = some n) :
      ∃ t : IntegerText, t.chars = r.chars ++ rest ∧ t.value = n := by
    obtain ⟨sign, digits, rfl, hne, hdigits, hn⟩ := int?_eq_some_iff.mp h
    exact ⟨⟨r, sign, digits, hne, hdigits⟩, rfl, hn⟩
  unfold intText? at h
  split at h
  next => exact hmarked (.hexadecimal false) h
  next => exact hmarked (.hexadecimal true) h
  next => exact hmarked .decimal h

/-- A text is read as the integer that it spells. -/
theorem intText?_eq_some_iff {cs : List Char} {n : Int} :
    intText? cs = some n ↔ ∃ t : IntegerText, t.chars = cs ∧ t.value = n := by
  refine ⟨exists_of_intText?, ?_⟩
  rintro ⟨t, rfl, rfl⟩
  exact intText?_chars t

/-- Whether a text is a numeral can be seen from its characters. -/
theorem isNumeral_of_chars_eq {t u : IntegerText} (h : t.chars = u.chars) (ht : t.IsNumeral) :
    u.IsNumeral := by
  obtain ⟨tradix, tsign, tdigits, htne, htdigits⟩ := t
  obtain ⟨uradix, usign, udigits, hune, hudigits⟩ := u
  cases uradix with
  | decimal => exact .inl rfl
  | hexadecimal capital =>
    have hmark : (if capital then 'X' else 'x') = 'x' ∨ (if capital then 'X' else 'x') = 'X' := by
      cases capital <;> decide
    cases tradix with
    | decimal => exact absurd h (not_marked hmark htdigits)
    | hexadecimal capital' =>
      obtain rfl : tsign = .absent := ht.resolve_left nofun
      have hdigits : tdigits = usign.chars ++ udigits := (List.append_inj h rfl).2
      cases usign with
      | absent => exact .inr rfl
      | plus | minus =>
        subst hdigits
        have hdigit := htdigits _ (List.mem_append_left udigits (List.mem_singleton_self _))
        rw [isDigit_sign (by simp)] at hdigit
        cases hdigit

/-! ## Conversion -/

variable {k : IntKind} {s : String}

theorem convert_of_holds {t : IntegerText} (hs : t.chars = (Text.trim s).toList) (h : k.Holds t.value) :
    convert (.int k) (.str s) = .ok (.int ⟨k, t.value, h⟩) := by
  have hread : (intText? (Text.trim s).toList).bind (Integer.ofInt? k) = some ⟨k, t.value, h⟩ := by
    rw [← hs, intText?_chars, Option.bind_some, Integer.ofInt?, dif_pos h]
  simp [convert, toInteger, hread, Except.map]

theorem convert_of_not_holds
    (h : ∀ t : IntegerText, t.chars = (Text.trim s).toList → ¬k.Holds t.value) :
    convert (.int k) (.str s) = .error (malformed s (.int k)) := by
  have hread : (intText? (Text.trim s).toList).bind (Integer.ofInt? k) = none := by
    rw [Option.bind_eq_none_iff]
    intro n hn
    obtain ⟨t, hs, rfl⟩ := exists_of_intText? hn
    exact dif_neg (h t hs)
  simp [convert, toInteger, hread, Except.map]

/-- A text spells an integer that the type holds, and is converted to it, or spells none and is malformed. -/
theorem convert_cases (k : IntKind) (s : String) :
    (∃ (t : IntegerText) (h : k.Holds t.value), t.chars = (Text.trim s).toList ∧
      convert (.int k) (.str s) = .ok (.int ⟨k, t.value, h⟩)) ∨
    ((∀ t : IntegerText, t.chars = (Text.trim s).toList → ¬k.Holds t.value) ∧
      convert (.int k) (.str s) = .error (malformed s (.int k))) := by
  by_cases hspelled : ∃ t : IntegerText, t.chars = (Text.trim s).toList ∧ k.Holds t.value
  · obtain ⟨t, hs, hholds⟩ := hspelled
    exact .inl ⟨t, hholds, hs, convert_of_holds hs hholds⟩
  · simp only [not_exists, not_and] at hspelled
    exact .inr ⟨hspelled, convert_of_not_holds hspelled⟩

/-- The conversion of a text by numerals: if the text without the white space around it is a numeral whose
number the type holds, it is this number, and else the text is malformed. -/
inductive NumeralAnswer (k : IntKind) (s : String) : Result Value → Prop where
  | number {t : IntegerText} (ht : t.IsNumeral) (hs : t.chars = (Text.trim s).toList)
      (h : k.Holds t.value) : NumeralAnswer k s (.ok (.int ⟨k, t.value, h⟩))
  | malformed (h : ∀ t : IntegerText, t.IsNumeral → t.chars = (Text.trim s).toList → ¬k.Holds t.value) :
      NumeralAnswer k s (.error (malformed s (.int k)))

theorem NumeralAnswer.exists_of_ok {v : Value} (h : NumeralAnswer k s (.ok v)) :
    ∃ t : IntegerText, t.IsNumeral ∧ t.chars = (Text.trim s).toList := by
  cases h with
  | number ht hs => exact ⟨_, ht, hs⟩

/-- A text is converted to the integer that it spells, if the type holds this integer, and is malformed
otherwise. This is its conversion by numerals exactly if it does not spell such an integer with a sign
after the mark of the radix. -/
theorem text_converted_by_numeral_iff (k : IntKind) (s : String) :
    (∀ i, convert (.int k) (.str s) = .ok (.int i) ↔
      i.kind = k ∧ ∃ t : IntegerText, t.chars = (Text.trim s).toList ∧ t.value = i.val) ∧
    ((∀ t : IntegerText, t.chars = (Text.trim s).toList → ¬k.Holds t.value) ↔
      convert (.int k) (.str s) = .error (malformed s (.int k))) ∧
    (NumeralAnswer k s (convert (.int k) (.str s)) ↔
      ∀ t : IntegerText, t.chars = (Text.trim s).toList → k.Holds t.value → t.IsNumeral) := by
  refine ⟨fun i => ⟨fun h => ?_, ?_⟩, ⟨convert_of_not_holds, fun h t hs hholds => ?_⟩, ?_⟩
  · obtain ⟨t, hholds, hs, hconvert⟩ | ⟨-, hconvert⟩ := convert_cases k s
    · cases h.symm.trans hconvert
      exact ⟨rfl, t, hs, rfl⟩
    · cases h.symm.trans hconvert
  · obtain ⟨kind, n, hn⟩ := i
    rintro ⟨rfl, t, hs, rfl⟩
    exact convert_of_holds hs hn
  · cases h.symm.trans (convert_of_holds hs hholds)
  · obtain ⟨t, hholds, hs, hconvert⟩ | ⟨hnone, hconvert⟩ := convert_cases k s
    · rw [hconvert]
      constructor
      · intro hanswer u hu _
        obtain ⟨t', ht', hs'⟩ := hanswer.exists_of_ok
        exact isNumeral_of_chars_eq (hs'.trans hu.symm) ht'
      · exact fun hnumeral => .number (hnumeral t hs hholds) hs hholds
    · rw [hconvert]
      exact ⟨fun _ t hs hholds => absurd hholds (hnone t hs), fun _ => .malformed fun t _ => hnone t⟩

/-- A minus sign after the mark of the radix. -/
def markedNegative : IntegerText where
  radix := .hexadecimal false
  sign := .minus
  digits := ['5']
  digits_ne_nil := by decide
  isDigit := List.all_eq_true.mp (by decide)

theorem markedNegative_converted :
    convert (.int .int) (.str " 0x-5 ") = .ok (.int ⟨.int, -5, by decide⟩) ∧
      ¬NumeralAnswer .int " 0x-5 " (convert (.int .int) (.str " 0x-5 ")) := by
  have hs : markedNegative.chars = (Text.trim " 0x-5 ").toList := by decide +kernel
  obtain ⟨hnumber, -, hanswer⟩ := text_converted_by_numeral_iff .int " 0x-5 "
  refine ⟨(hnumber _).mpr ⟨rfl, markedNegative, hs, by decide⟩, fun h => ?_⟩
  exact (hanswer.mp h markedNegative hs (by decide)).elim nofun nofun

end Convert

end ActionTree
