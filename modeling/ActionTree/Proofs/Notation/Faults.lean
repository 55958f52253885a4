import ActionTree.Proofs.Notation.Quoted

/-!
# Where a fault lies

A fault of the notation lies at a place in the text where what it says is true: a malformed number starts
there, a literal does not end, or the token there is not the one that the grammar asks for. The tokens of a
text have no other faults.
-/

namespace ActionTree

open Notation

/-- A number with or without a sign is at the front. -/
def Notation.StartsNumeral (cs : List Char) : Prop :=
  ∃ (sign : Sign) (body : List Char), cs = sign.chars ++ body ∧ startsNumber body = true

/-- What the fault says is true between what is before its place and what follows it. Some faults are never
true: they could only come from a lexer or parser that contradicts itself, or from what is no expression. -/
def SyntaxFault.HoldsAt (before rest : List Char) : SyntaxFault → Prop
  | hexWithoutDigits | exponentWithoutDigits | malformedNumber => StartsNumeral rest
  | numeral _ literal => StartsNumeral rest ∧ literal.toList <+: rest
  | unterminatedString => ∃ quote body, (quote = '\'' ∨ quote = '"') ∧ rest = quote :: body ∧
      ∀ items last, ¬StringItems quote body items last
  | badEscape => ['\\', 'u'] <:+ before ∧ ∀ p : CodePoint, ¬p.chars <+: rest
  | missingVariableName => ∃ body, rest = '$' :: body ∧ body.head?.any isNameStart = false
  | unexpectedCharacter c | trailing c => skipSpace rest = rest ∧ rest.head? = some c
  | expected _ found => skipSpace rest = rest ∧ ∃ t last, token rest = .ok (t, last) ∧ t.describe = found
  | assignmentTarget => skipSpace rest = rest
  | noNumber | lostLookahead | unexpectedToken | unclosedMarker _ | orphanHandlers _
  | duplicateParameter _ _ => False

/-- The fault lies at a place in the text where it holds. -/
def Notation.LocatedFault.LiesIn (e : LocatedFault) (text : List Char) : Prop :=
  ∃ before rest, text = before ++ rest ∧ rest.length = e.remaining ∧ e.fault.HoldsAt before rest

namespace Notation

variable {text cs rest : List Char} {e : LocatedFault}

theorem LocatedFault.LiesIn.of_suffix (h : e.LiesIn cs) (hcs : cs <:+ text) : e.LiesIn text := by
  obtain ⟨before, rest, rfl, hlength, hholds⟩ := h
  obtain ⟨front, rfl⟩ := hcs
  refine ⟨front ++ before, rest, (List.append_assoc _ _ _).symm, hlength, ?_⟩
  cases hfault : e.fault <;> rw [hfault] at hholds
  case badEscape => exact ⟨hholds.1.trans (List.suffix_append _ _), hholds.2⟩
  all_goals exact hholds

/-- A fault that holds whatever is before it. -/
theorem liesIn_of_holdsAt {fault : SyntaxFault} (hrest : rest <:+ text)
    (h : ∀ before, fault.HoldsAt before rest) : LocatedFault.LiesIn ⟨fault, rest.length⟩ text := by
  obtain ⟨before, rfl⟩ := hrest
  exact ⟨before, rest, rfl, rfl, h before⟩

/-! ## Numbers -/

theorem startsNumber_eq_false_iff : startsNumber cs = false ↔ (cs.takeWhile Char.isDigit).isEmpty = true ∧
    (fraction (cs.drop (cs.takeWhile Char.isDigit).length)).isEmpty = true := by
  match cs with
  | [] => simp [startsNumber, fraction]
  | c :: cs =>
    by_cases hdigit : c.isDigit = true
    · have hpoint : c ≠ '.' := ne_of_class hdigit (by decide)
      simp [startsNumber, hdigit, hpoint]
    · match cs with
      | [] => simp [startsNumber, fraction, hdigit]
      | x :: cs =>
        by_cases hpoint : c = '.'
        · by_cases hx : x.isDigit = true <;> simp [startsNumber, fraction, hpoint, hx]
        · simp [startsNumber, fraction, hdigit, hpoint]

/-- The faults of a number that starts and is no literal. -/
def numberFaults : List SyntaxFault := [.hexWithoutDigits, .exponentWithoutDigits, .malformedNumber]

/-- Where a number starts, one is read, or its digits are missing. -/
theorem numberBody_of_startsNumber (h : startsNumber cs = true) :
    (∃ r, numberBody cs = .ok (some r)) ∨
      ∃ fault ∈ numberFaults, numberBody cs = .error fault := by
  by_cases hhex : ∃ x digits, (x = 'x' ∨ x = 'X') ∧ cs = '0' :: x :: digits
  · obtain ⟨x, digits, hx, rfl⟩ := hhex
    rw [numberBody_hex hx]
    split
    · exact .inr ⟨_, by simp [numberFaults], rfl⟩
    · exact .inl ⟨_, rfl⟩
  · have hx (digits : List Char) : cs ≠ '0' :: 'x' :: digits :=
      fun heq => hhex ⟨'x', digits, .inl rfl, heq⟩
    have hX (digits : List Char) : cs ≠ '0' :: 'X' :: digits :=
      fun heq => hhex ⟨'X', digits, .inr rfl, heq⟩
    rw [numberBody_decimal hx hX]
    dsimp only
    rw [if_neg fun hnone => Bool.false_ne_true ((startsNumber_eq_false_iff.mpr hnone).symm.trans h)]
    split
    · exact .inr ⟨_, by simp [numberFaults], rfl⟩
    · split <;> exact .inl ⟨_, rfl⟩

theorem numberBody_of_not_startsNumber (h : startsNumber cs = false) : numberBody cs = .ok none := by
  have hx (x : Char) (digits : List Char) : cs ≠ '0' :: x :: digits := by
    rintro rfl
    cases h
  rw [numberBody_decimal (hx 'x') (hx 'X')]
  exact if_pos (startsNumber_eq_false_iff.mp h)

/-- Behind the sign, if there is one, a number starts and is read or has a fault, or none starts. -/
theorem number_cases (cs : List Char) : ∃ (sign : Sign) (body : List Char), cs = sign.chars ++ body ∧
    ((startsNumber body = false ∧ number cs = .ok none) ∨ (startsNumber body = true ∧
      ((∃ r, number cs = .ok (some r)) ∨ ∃ fault : SyntaxFault, number cs = faultAt cs fault ∧
        (fault ∈ numberFaults ∨ ∃ cause n, fault = .numeral cause (String.ofList (cs.take n)))))) := by
  unfold number
  split
  next negative body hsplit =>
  obtain ⟨sign, hcs⟩ : ∃ sign : Sign, cs = sign.chars ++ body := by
    split at hsplit <;> cases hsplit
    · exact ⟨.minus, rfl⟩
    · exact ⟨.plus, rfl⟩
    · exact ⟨.absent, rfl⟩
  refine ⟨sign, body, hcs, ?_⟩
  cases hstart : startsNumber body with
  | false =>
    rw [numberBody_of_not_startsNumber hstart]
    exact .inl ⟨rfl, rfl⟩
  | true =>
    refine .inr ⟨rfl, ?_⟩
    rcases numberBody_of_startsNumber hstart with ⟨⟨b, rest⟩, hbody⟩ | ⟨fault, hfault, hbody⟩
    · simp only [hbody]
      split
      · exact .inr ⟨_, rfl, .inl (by simp [numberFaults])⟩
      split
      · exact .inl ⟨_, rfl⟩
      · exact .inr ⟨_, rfl, .inr ⟨_, _, rfl⟩⟩
    · simp only [hbody]
      exact .inr ⟨_, rfl, .inl hfault⟩

/-- The fault of a number is about the number that starts there. -/
theorem liesIn_of_number (h : number cs = .error e) : e.LiesIn cs := by
  obtain ⟨sign, body, hcs, ⟨-, hnumber⟩ | ⟨hstart, ⟨r, hnumber⟩ | ⟨fault, hnumber, hfault⟩⟩⟩ := number_cases cs
  · cases hnumber.symm.trans h
  · cases hnumber.symm.trans h
  · have hstarts : StartsNumeral cs := ⟨sign, body, hcs, hstart⟩
    cases hnumber.symm.trans h
    refine liesIn_of_holdsAt (List.suffix_refl cs) fun _ => ?_
    rcases hfault with hfault | ⟨cause, n, rfl⟩
    · simp only [numberFaults, List.mem_cons, List.not_mem_nil, or_false] at hfault
      rcases hfault with rfl | rfl | rfl <;> exact hstarts
    · refine ⟨hstarts, ?_⟩
      rw [String.toList_ofList]
      exact List.take_prefix n cs

/-- Where a number starts without a sign, one is read. -/
theorem number_ne_ok_none (hstart : startsNumber cs = true) : number cs ≠ .ok none := by
  obtain ⟨sign, body, hcs, ⟨hother, -⟩ | ⟨-, ⟨r, hnumber⟩ | ⟨fault, hnumber, -⟩⟩⟩ := number_cases cs
  · cases sign with
    | absent =>
      rw [hcs] at hstart
      exact absurd hstart (Bool.eq_false_iff.mp hother)
    | plus | minus => rw [hcs] at hstart; cases hstart
  · rw [hnumber]
    nofun
  · rw [hnumber]
    nofun

/-! ## Strings and tokens -/

theorem error_of_map {α β : Type} {x : Read α} {f : α → β} (h : x.map f = .error e) : x = .error e := by
  cases x with
  | error e' =>
    cases h
    rfl
  | ok a => cases h

/-- A fault between two quotes is that there is no second one, or lies behind a `\u`. -/
theorem fault_of_stringBody {opening : Nat} {quote : Char} (h : stringBody opening quote cs = .error e) :
    e = ⟨.unterminatedString, opening⟩ ∨ (e.fault = .badEscape ∧ e.LiesIn cs) := by
  fun_induction stringBody opening quote cs generalizing e with
  | case1 => exact .inl (Except.error.inj h).symm
  | case2 a b c d rest x _ ih =>
    exact (ih (error_of_map h)).imp_right fun h =>
      ⟨h.1, h.2.of_suffix (List.suffix_append ['\\', 'u', a, b, c, d] rest)⟩
  | case3 a b c d rest hnone =>
    cases h
    refine .inr ⟨rfl, ['\\', 'u'], a :: b :: c :: d :: rest, rfl, rfl, List.suffix_refl _, fun p hp => ?_⟩
    have hchars : p.chars = [a, b, c, d] := by
      rw [List.prefix_iff_eq_take.mp hp, p.length_chars]
      rfl
    rw [← hchars, p.escapedChar?_chars] at hnone
    cases hnone
  | case4 => exact .inl (Except.error.inj h).symm
  | case5 digits hshort hnone =>
    cases h
    refine .inr ⟨rfl, ['\\', 'u'], digits, rfl, rfl, List.suffix_refl _, ?_⟩
    rintro p ⟨rest, hp⟩
    obtain ⟨a, b, c, d, hchars⟩ := List.length_eq_four.mp p.length_chars
    rw [hchars] at hp
    exact hshort a b c d rest hp.symm
  | case6 c rest _ hu ih =>
    exact (ih (error_of_map h)).imp_right fun h => ⟨h.1, h.2.of_suffix (List.suffix_append ['\\', c] rest)⟩
  | case7 => cases h
  | case8 => exact .inl (Except.error.inj h).symm
  | case9 c rest _ _ _ hne hc ih =>
    exact (ih (error_of_map h)).imp_right fun h => ⟨h.1, h.2.of_suffix (List.suffix_cons c rest)⟩

/-- The fault of a token that cannot be read lies in it. -/
theorem liesIn_of_tokenHere (hskip : skipSpace cs = cs) (h : tokenHere cs = .error e) : e.LiesIn cs := by
  have here {fault : SyntaxFault} (hfault : ∀ before, fault.HoldsAt before cs) :
      LocatedFault.LiesIn ⟨fault, cs.length⟩ cs := liesIn_of_holdsAt (List.suffix_refl cs) hfault
  unfold tokenHere at h
  split at h
  · cases h
  next c body =>
  split at h
  next hstart =>
    cases hnumber : number (c :: body) with
    | error e' =>
      rw [hnumber] at h
      cases h
      exact liesIn_of_number hnumber
    | ok r =>
      cases r with
      | none => exact absurd hnumber (number_ne_ok_none hstart)
      | some r =>
        rw [hnumber] at h
        cases h
  split at h
  · cases h
  split at h
  next hquote =>
    have hbody := error_of_map h
    rcases fault_of_stringBody hbody with rfl | ⟨-, hlies⟩
    · refine here fun _ => ⟨c, body, hquote, rfl, fun items last hitems => ?_⟩
      rw [hitems.stringBody_eq (ne_backslash_of_quote hquote)] at hbody
      cases hbody
    · exact hlies.of_suffix (List.suffix_cons c body)
  split at h
  next hdollar =>
    split at h
    · cases h
    next hname =>
      cases h
      exact here fun _ => ⟨body, by rw [hdollar], Bool.eq_false_iff.mpr hname⟩
  split at h
  · cases h
  · cases h
    exact here fun _ => ⟨hskip, rfl⟩

theorem skipSpaceIn_skipSpaceIn (mode : SpaceMode) (cs : List Char) :
    skipSpaceIn .between (skipSpaceIn mode cs) = skipSpaceIn mode cs := by
  fun_induction skipSpaceIn mode cs with
  | case1 rest ih | case2 rest ih | case3 c rest _ _ _ ih | case5 c rest ih | case6 rest ih
  | case7 c rest _ ih => exact ih
  | case4 c rest hline hblock hblank =>
    rw [skipSpaceIn_between (fun _ hc hrest => hline _ hc hrest) (fun _ hc hrest => hblock _ hc hrest),
      if_neg hblank]
  | case8 => rfl

/-- Nothing is skipped twice. -/
theorem skipSpace_skipSpace (cs : List Char) : skipSpace (skipSpace cs) = skipSpace cs :=
  skipSpaceIn_skipSpaceIn .between cs

theorem liesIn_of_token (h : token cs = .error e) : e.LiesIn cs :=
  (liesIn_of_tokenHere (skipSpace_skipSpace cs) h).of_suffix (skipSpaceIn_suffix .between cs)

end Notation

end ActionTree
