import ActionTree.Proofs.Notation.Formed

/-!
# Tokens before a closing bracket

A token takes up characters, and the same ones when a closing bracket comes after the text, whatever
follows that. So a text in parentheses has the tokens of the text between two more, unless the last
parenthesis is in a comment.
-/

namespace ActionTree.Notation

variable {cs rest : List Char} {t : Token} {ts : List Token}

/-- The characters that close brackets. -/
def closers : List Char := [')', ']', '\x7d']

theorem of_mem_closers (p : Char → Prop) [DecidablePred p] {c : Char} (hc : c ∈ closers)
    (h : closers.all p = true) : p c := of_decide_eq_true (List.all_eq_true.mp h c hc)

/-! ## One token -/

section

variable {d : Char} (hd : d ∈ closers) (more : List Char)

theorem takeWhile_closed {p : Char → Bool} (hp : p d = false) (cs : List Char) :
    (cs ++ d :: more).takeWhile p = cs.takeWhile p := by
  induction cs with
  | nil => simp [hp]
  | cons c cs ih => simp [List.takeWhile_cons, ih]

theorem dropWhile_closed {p : Char → Bool} (hp : p d = false) (cs : List Char) :
    (cs ++ d :: more).dropWhile p = cs.dropWhile p ++ d :: more := by
  induction cs with
  | nil => simp [hp]
  | cons c cs ih =>
    rw [List.cons_append, List.dropWhile_cons, List.dropWhile_cons, ih]
    split <;> rfl

theorem drop_closed {front : List Char} (h : front <+: cs) :
    (cs ++ d :: more).drop front.length = cs.drop front.length ++ d :: more :=
  List.drop_append_of_le_length h.length_le

theorem head?_closed {p : Char → Bool} (hp : p d = false) (cs : List Char) :
    (cs ++ d :: more).head?.any p = cs.head?.any p := by
  cases cs with
  | nil => simpa using hp
  | cons c cs => rfl

theorem ne_cons_closed {c : Char} (hc : d ≠ c) (h : ∀ rest, cs ≠ c :: rest) (rest : List Char) :
    cs ++ d :: more ≠ c :: rest := by
  cases cs with
  | nil =>
    rintro ⟨⟩
    exact hc rfl
  | cons x cs =>
    rintro ⟨⟩
    exact h cs rfl

include hd

/-! ### Numbers -/

omit hd in
theorem fraction_front (cs : List Char) : fraction cs <+: cs := by
  unfold fraction
  split
  · split
    · exact (List.prefix_cons_inj '.').mpr (List.takeWhile_prefix _)
    · exact List.nil_prefix
  · exact List.nil_prefix

theorem fraction_closed (cs : List Char) : fraction (cs ++ d :: more) = fraction cs := by
  have hpoint : d ≠ '.' := of_mem_closers (fun c => c ≠ '.') hd (by decide)
  have hdigit : d.isDigit = false := of_mem_closers (fun c => c.isDigit = false) hd (by decide)
  match cs with
  | [] => simp [fraction, hpoint]
  | [c] => by_cases h : c = '.' <;> simp [fraction, h, hdigit]
  | c :: x :: cs =>
    by_cases h : c = '.'
    · have hclosed := takeWhile_closed more hdigit (x :: cs)
      simp_all [fraction]
    · simp [fraction, h]

omit hd in
theorem exponentSign_front (cs : List Char) : exponentSign cs <+: cs := by
  unfold exponentSign
  split
  · split
    · exact (List.prefix_cons_inj _).mpr List.nil_prefix
    · exact List.nil_prefix
  · exact List.nil_prefix

theorem exponentSign_closed (cs : List Char) : exponentSign (cs ++ d :: more) = exponentSign cs := by
  have hsign : ¬(d = '+' ∨ d = '-') := of_mem_closers (fun c => ¬(c = '+' ∨ c = '-')) hd (by decide)
  cases cs with
  | nil => exact if_neg hsign
  | cons c cs => rfl

theorem exponent?_closed (cs : List Char) : exponent? (cs ++ d :: more) = exponent? cs := by
  have hletter : ¬(d = 'e' ∨ d = 'E') := of_mem_closers (fun c => ¬(c = 'e' ∨ c = 'E')) hd (by decide)
  have hdigit : d.isDigit = false := of_mem_closers (fun c => c.isDigit = false) hd (by decide)
  cases cs with
  | nil => exact if_neg hletter
  | cons c cs =>
    simp only [List.cons_append, exponent?, exponentSign_closed hd, drop_closed more (exponentSign_front cs),
      takeWhile_closed more hdigit]

omit hd in
theorem prefix_append_drop {front more : List Char} (hfront : front <+: cs)
    (hmore : more <+: cs.drop front.length) : front ++ more <+: cs := by
  rw [List.prefix_iff_eq_append] at hfront
  conv => rhs; rw [← hfront]
  exact (List.prefix_append_right_inj front).mpr hmore

omit hd in
theorem exponent?_front {exponent : List Char} (h : exponent? cs = some exponent) : exponent <+: cs := by
  unfold exponent? at h
  split at h
  · split at h
    · dsimp only at h
      split at h
      · cases h
      · cases h
        refine (List.prefix_cons_inj _).mpr ?_
        exact prefix_append_drop (exponentSign_front _) (List.takeWhile_prefix _)
    · cases h
      exact List.nil_prefix
  · cases h
    exact List.nil_prefix

omit hd in
/-- A number that does not start as a hexadecimal one. -/
theorem numberBody_decimal (hx : ∀ digits, cs ≠ '0' :: 'x' :: digits)
    (hX : ∀ digits, cs ≠ '0' :: 'X' :: digits) : numberBody cs =
      (let digits := cs.takeWhile Char.isDigit
      let rest := cs.drop digits.length
      let fraction := fraction rest
      let rest := rest.drop fraction.length
      if digits.isEmpty ∧ fraction.isEmpty then .ok none
      else match exponent? rest with
        | none => .error .exponentWithoutDigits
        | some exponent =>
          let rest := rest.drop exponent.length
          if fraction.isEmpty ∧ exponent.isEmpty then .ok (some (.whole 10 digits, rest))
          else .ok (some (.real (digits ++ fraction) exponent, rest))) := by
  unfold numberBody
  split
  next digits => exact absurd rfl (hx digits)
  next digits => exact absurd rfl (hX digits)
  next => rfl

theorem ne_hex_closed {x : Char} (hx : d ≠ x) (h : ∀ digits, cs ≠ '0' :: x :: digits)
    (digits : List Char) : cs ++ d :: more ≠ '0' :: x :: digits := by
  have hzero : d ≠ '0' := of_mem_closers (fun c => c ≠ '0') hd (by decide)
  cases cs with
  | nil =>
    rintro ⟨⟩
    exact hzero rfl
  | cons c cs =>
    rw [List.cons_append, ne_eq, List.cons.injEq, not_and]
    rintro rfl
    exact ne_cons_closed more hx (fun digits heq => h digits (by rw [heq])) digits

omit hd in
theorem numberBody_hex {x : Char} (hx : x = 'x' ∨ x = 'X') (digits : List Char) :
    numberBody ('0' :: x :: digits) =
      if (digits.takeWhile isHexDigit).isEmpty then .error .hexWithoutDigits
      else .ok (some (.whole 16 (digits.takeWhile isHexDigit),
        digits.drop (digits.takeWhile isHexDigit).length)) := by
  rcases hx with rfl | rfl <;> rfl

theorem numberBody_closed {body : NumberBody} (h : numberBody cs = .ok (some (body, rest))) :
    (rest <:+ cs ∧ rest.length < cs.length) ∧
      numberBody (cs ++ d :: more) = .ok (some (body, rest ++ d :: more)) := by
  have hdigit : d.isDigit = false := of_mem_closers (fun c => c.isDigit = false) hd (by decide)
  have hhexDigit : isHexDigit d = false := of_mem_closers (fun c => isHexDigit c = false) hd (by decide)
  by_cases hhex : ∃ x digits, (x = 'x' ∨ x = 'X') ∧ cs = '0' :: x :: digits
  · obtain ⟨x, digits, hx, rfl⟩ := hhex
    rw [numberBody_hex hx] at h
    rw [List.cons_append, List.cons_append, numberBody_hex hx, takeWhile_closed more hhexDigit,
      drop_closed more (List.takeWhile_prefix _)]
    split at h
    · cases h
    · rename_i hsome
      cases h
      rw [if_neg hsome]
      refine ⟨⟨?_, by simp; omega⟩, rfl⟩
      exact (List.drop_suffix _ _).trans (List.suffix_append ['0', x] digits)
  have hx (digits : List Char) : cs ≠ '0' :: 'x' :: digits :=
    fun heq => hhex ⟨'x', digits, .inl rfl, heq⟩
  have hX (digits : List Char) : cs ≠ '0' :: 'X' :: digits :=
    fun heq => hhex ⟨'X', digits, .inr rfl, heq⟩
  have hlower : d ≠ 'x' := of_mem_closers (fun c => c ≠ 'x') hd (by decide)
  have hupper : d ≠ 'X' := of_mem_closers (fun c => c ≠ 'X') hd (by decide)
  rw [numberBody_decimal hx hX] at h
  rw [numberBody_decimal (ne_hex_closed hd more hlower hx) (ne_hex_closed hd more hupper hX)]
  simp only [takeWhile_closed more hdigit, drop_closed more (List.takeWhile_prefix _),
    fraction_closed hd, drop_closed more (fraction_front _), exponent?_closed hd]
  dsimp only at h
  have hdigits := (List.takeWhile_prefix Char.isDigit (l := cs)).length_le
  have hfraction := (fraction_front (cs.drop (cs.takeWhile Char.isDigit).length)).length_le
  split at h
  · cases h
  rename_i hsome
  rw [if_neg hsome]
  split at h
  · cases h
  rename_i exponent hexponent
  have hprefix := exponent?_front hexponent
  have hpos : 0 < (cs.takeWhile Char.isDigit).length +
      (fraction (cs.drop (cs.takeWhile Char.isDigit).length)).length := by
    simp only [List.isEmpty_iff_length_eq_zero] at hsome
    omega
  have hsuffix : (((cs.drop (cs.takeWhile Char.isDigit).length).drop
      (fraction (cs.drop (cs.takeWhile Char.isDigit).length)).length)).drop exponent.length <:+ cs :=
    (List.drop_suffix _ _).trans ((List.drop_suffix _ _).trans (List.drop_suffix _ _))
  have hlt : ((((cs.drop (cs.takeWhile Char.isDigit).length).drop
      (fraction (cs.drop (cs.takeWhile Char.isDigit).length)).length)).drop exponent.length).length <
      cs.length := by
    simp only [List.length_drop] at hfraction ⊢
    omega
  simp only [drop_closed more hprefix]
  split at h
  · rename_i hwhole
    cases h
    exact ⟨⟨hsuffix, hlt⟩, if_pos hwhole⟩
  · rename_i hreal
    cases h
    exact ⟨⟨hsuffix, hlt⟩, if_neg hreal⟩

omit hd in
/-- A number without a sign: its body, and the letters after it as its suffix. -/
theorem number_eq_ok_iff {c : Char} {v : Value} (hminus : c ≠ '-') (hplus : c ≠ '+') :
    number (c :: cs) = .ok (some (v, rest)) ↔ ∃ body tail,
      numberBody (c :: cs) = .ok (some (body, tail)) ∧
      rest = tail.drop (tail.takeWhile Char.isAlpha).length ∧
      rest.head?.any (fun c => c.isAlphanum || c == '_') = false ∧
      body.value false (String.ofList ((tail.takeWhile Char.isAlpha).map Char.toLower)) = .ok v := by
  constructor
  · intro h
    simp only [number] at h
    split at h
    · cases h
    · cases h
    · rename_i body tail hbody
      split at h
      · cases h
      rename_i hend
      split at h
      · rename_i hv
        cases h
        exact ⟨body, tail, by simpa [hminus, hplus] using hbody, rfl, Bool.eq_false_iff.mpr hend,
          by simpa [hminus, hplus] using hv⟩
      · cases h
  · rintro ⟨body, tail, hbody, rfl, hend, hv⟩
    simp [number, hminus, hplus, hbody, hv, if_neg (Bool.eq_false_iff.mp hend), -List.head?_drop]

theorem number_closed {v : Value} (hstart : startsNumber cs = true)
    (h : number cs = .ok (some (v, rest))) :
    (rest <:+ cs ∧ rest.length < cs.length) ∧
      number (cs ++ d :: more) = .ok (some (v, rest ++ d :: more)) := by
  obtain ⟨c, cs, rfl⟩ : ∃ c cs', cs = c :: cs' := by
    cases cs with
    | nil => cases hstart
    | cons c cs => exact ⟨c, cs, rfl⟩
  have hminus : c ≠ '-' := by rintro rfl; simp [startsNumber] at hstart
  have hplus : c ≠ '+' := by rintro rfl; simp [startsNumber] at hstart
  obtain ⟨body, tail, hbody, rfl, hend, hv⟩ := (number_eq_ok_iff hminus hplus).mp h
  have halpha : d.isAlpha = false := of_mem_closers (fun c => c.isAlpha = false) hd (by decide)
  have hword : (d.isAlphanum || d == '_') = false :=
    of_mem_closers (fun c => (c.isAlphanum || c == '_') = false) hd (by decide)
  obtain ⟨⟨hsuffix, hlt⟩, hclosed⟩ := numberBody_closed hd more hbody
  refine ⟨⟨(List.drop_suffix _ _).trans hsuffix, by rw [List.length_drop]; omega⟩,
    (number_eq_ok_iff hminus hplus).mpr ⟨body, _, hclosed, ?_, ?_, ?_⟩⟩
  · rw [takeWhile_closed more halpha, drop_closed more (List.takeWhile_prefix _)]
  · rwa [head?_closed more hword]
  · rwa [takeWhile_closed more halpha]

/-! ### Strings, symbols and names -/

omit hd in
theorem stringBody_escape {opening : Nat} {quote c : Char} (hc : c ≠ 'u') (cs : List Char) :
    stringBody opening quote ('\\' :: c :: cs) =
      (stringBody opening quote cs).map fun r => (simpleEscape c :: r.1, r.2) := by
  conv => lhs; unfold stringBody
  split <;> grind

omit hd in
theorem stringBody_cons {opening : Nat} {quote c : Char} (hc : c ≠ '\\') (cs : List Char) :
    stringBody opening quote (c :: cs) = if c = quote then .ok ([], cs)
      else (stringBody opening quote cs).map fun r => (c :: r.1, r.2) := by
  conv => lhs; unfold stringBody
  split <;> simp_all

omit hd in
theorem stringBody_closed {opening : Nat} {quote : Char} {r : List Char × List Char}
    (hquote : quote ≠ '\\') (h : stringBody opening quote cs = .ok r) (opening' : Nat) :
    (r.2 <:+ cs ∧ r.2.length < cs.length) ∧
      stringBody opening' quote (cs ++ d :: more) = .ok (r.1, r.2 ++ d :: more) := by
  fun_induction stringBody opening quote cs generalizing r with
  | case1 => cases h
  | case2 a b c x rest y hy ih =>
    obtain ⟨r, hr, rfl⟩ := exists_of_map_ok h
    obtain ⟨⟨hsuffix, hlt⟩, hclosed⟩ := ih hr
    refine ⟨⟨hsuffix.trans (List.suffix_append ['\\', 'u', a, b, c, x] rest), ?_⟩, ?_⟩
    · simp only [List.length_cons]
      omega
    · simp [stringBody, hy, hclosed, Except.map]
  | case3 => cases h
  | case4 => cases h
  | case5 => cases h
  | case6 c rest hu hu' ih =>
    obtain ⟨r, hr, rfl⟩ := exists_of_map_ok h
    obtain ⟨⟨hsuffix, hlt⟩, hclosed⟩ := ih hr
    refine ⟨⟨hsuffix.trans (List.suffix_append ['\\', c] rest), ?_⟩, ?_⟩
    · simp only [List.length_cons]
      omega
    · rw [List.cons_append, List.cons_append, stringBody_escape hu', hclosed]
      rfl
  | case7 =>
    cases h
    rw [List.cons_append, stringBody_cons hquote, if_pos rfl]
    exact ⟨⟨List.suffix_cons _ _, Nat.lt_succ_self _⟩, rfl⟩
  | case8 => cases h
  | case9 c rest _ _ _ hne hc ih =>
    obtain ⟨r, hr, rfl⟩ := exists_of_map_ok h
    obtain ⟨⟨hsuffix, hlt⟩, hclosed⟩ := ih hr
    refine ⟨⟨hsuffix.trans (List.suffix_cons _ _), Nat.lt_succ_of_lt hlt⟩, ?_⟩
    rw [List.cons_append, stringBody_cons hc, if_neg hne, hclosed]
    rfl

theorem symbol?_closed {s : Symbol} (h : symbol? cs = some (s, rest)) :
    (rest <:+ cs ∧ rest.length < cs.length) ∧
      symbol? (cs ++ d :: more) = some (s, rest ++ d :: more) := by
  unfold symbol? at h
  split at h <;> cases h
  all_goals
    refine ⟨⟨?_, by simp +arith⟩, ?_⟩
    · first
      | exact List.suffix_append [_] rest
      | exact List.suffix_append [_, _] rest
    · first
      | rfl
      -- A symbol that could be longer: a closing bracket right after it does not make it so.
      | cases rest with
        | nil =>
          simp only [closers, List.mem_cons, List.not_mem_nil, or_false] at hd
          rcases hd with rfl | rfl | rfl <;> rfl
        | cons d rest => simp_all [symbol?]

theorem startsNumber_closed (cs : List Char) : startsNumber (cs ++ d :: more) = startsNumber cs := by
  have hpoint : d ≠ '.' := of_mem_closers (fun c => c ≠ '.') hd (by decide)
  have hdigit : d.isDigit = false := of_mem_closers (fun c => c.isDigit = false) hd (by decide)
  match cs with
  | [] => simp [startsNumber, hpoint, hdigit]
  | [c] => by_cases h : c = '.' <;> simp [startsNumber, h, hdigit]
  | c :: x :: cs => by_cases h : c = '.' <;> simp [startsNumber, h]

omit hd in
theorem name_suffix (cs : List Char) : (name cs).2 <:+ cs := List.dropWhile_suffix isNameChar

theorem name_closed (cs : List Char) :
    name (cs ++ d :: more) = ((name cs).1, (name cs).2 ++ d :: more) := by
  have hname : isNameChar d = false := of_mem_closers (fun c => isNameChar c = false) hd (by decide)
  rw [name, name, takeWhile_closed more hname, dropWhile_closed more hname]

theorem tokenHere_closed (h : tokenHere cs = .ok (t, rest)) (ht : t ≠ .eof) :
    (rest <:+ cs ∧ rest.length < cs.length) ∧
      tokenHere (cs ++ d :: more) = .ok (t, rest ++ d :: more) := by
  unfold tokenHere at h
  split at h
  · cases h
    exact absurd rfl ht
  rename_i c cs
  have hstart := startsNumber_closed hd more (c :: cs)
  have hname := name_closed hd more (c :: cs)
  rw [List.cons_append] at hstart hname ⊢
  unfold tokenHere
  dsimp only
  rw [hstart, hname]
  split at h
  next hnumber =>
    obtain ⟨r, hr, h⟩ := exists_of_bind_ok h
    split at h
    · cases h
      obtain ⟨hpassed, hclosed⟩ := number_closed hd more hnumber hr
      rw [List.cons_append] at hclosed
      exact ⟨hpassed, by rw [if_pos hnumber, hclosed]; rfl⟩
    · cases h
  next hnumber =>
  rw [if_neg hnumber]
  split at h
  next hident =>
    cases h
    have htail : (name (c :: cs)).2 <:+ cs := by
      rw [name, List.dropWhile_cons, if_pos (isNameChar_of_isNameStart hident)]
      exact List.dropWhile_suffix isNameChar
    exact ⟨⟨htail.trans (List.suffix_cons _ _), Nat.lt_succ_of_le htail.length_le⟩, if_pos hident⟩
  next hident =>
  rw [if_neg hident]
  split at h
  next hquote =>
    obtain ⟨r, hr, h⟩ := exists_of_map_ok h
    cases h
    have hescape : c ≠ '\\' := by rintro rfl; simp at hquote
    obtain ⟨⟨hsuffix, hlt⟩, hclosed⟩ := stringBody_closed more hescape hr (c :: (cs ++ d :: more)).length
    refine ⟨⟨hsuffix.trans (List.suffix_cons _ _), Nat.lt_succ_of_lt hlt⟩, ?_⟩
    rw [if_pos hquote, hclosed]
    rfl
  next hquote =>
  rw [if_neg hquote]
  split at h
  next hdollar =>
    have hstart : isNameStart d = false := of_mem_closers (fun c => isNameStart c = false) hd (by decide)
    rw [if_pos hdollar, head?_closed more hstart, name_closed hd]
    split at h
    next hhead =>
      cases h
      have htail := name_suffix cs
      exact ⟨⟨htail.trans (List.suffix_cons _ _), Nat.lt_succ_of_le htail.length_le⟩, if_pos hhead⟩
    next => cases h
  next hdollar =>
  rw [if_neg hdollar]
  split at h
  next s _ hsymbol =>
    cases h
    obtain ⟨hpassed, hclosed⟩ := symbol?_closed hd more hsymbol
    rw [List.cons_append] at hclosed
    exact ⟨hpassed, by rw [hclosed]⟩
  next => cases h

omit hd in
theorem tokenHere_ne_eof (c : Char) (cs : List Char) :
    tokenHere (c :: cs) ≠ .ok (.eof, rest) := by
  intro h
  unfold tokenHere at h
  dsimp only at h
  split at h
  · obtain ⟨r, -, h⟩ := exists_of_bind_ok h
    split at h <;> cases h
  split at h
  · cases h
  split at h
  · obtain ⟨r, -, ⟨⟩⟩ := exists_of_map_ok h
  split at h
  · split at h <;> cases h
  · split at h <;> cases h

/-! ### Blanks and comments -/

omit hd in
theorem skipSpaceIn_suffix (mode : SpaceMode) (cs : List Char) : skipSpaceIn mode cs <:+ cs := by
  fun_induction skipSpaceIn mode cs with
  | case1 rest ih | case2 rest ih | case6 rest ih =>
    exact ih.trans ((List.suffix_cons _ _).trans (List.suffix_cons _ _))
  | case3 c rest _ _ _ ih | case5 c rest ih | case7 c rest _ ih => exact ih.trans (List.suffix_cons _ _)
  | case4 => exact List.suffix_refl _
  | case8 => exact List.suffix_refl _

omit hd in
theorem skipSpaceIn_between {c : Char} {cs : List Char} (hline : ∀ rest, c = '/' → cs ≠ '/' :: rest)
    (hblock : ∀ rest, c = '/' → cs ≠ '*' :: rest) : skipSpaceIn .between (c :: cs) =
      if Text.isBlank c then skipSpaceIn .between cs else c :: cs := by
  conv => lhs; unfold skipSpaceIn
  split <;> grind

omit hd in
theorem skipSpaceIn_blockComment {c : Char} {cs : List Char} (hclose : ∀ rest, c = '*' → cs ≠ '/' :: rest) :
    skipSpaceIn .blockComment (c :: cs) = skipSpaceIn .blockComment cs := by
  conv => lhs; unfold skipSpaceIn
  split <;> grind

/-- A closing bracket after a token is in no comment. -/
theorem skipSpaceIn_closed {mode : SpaceMode} {cs : List Char} (h : skipSpaceIn mode cs ≠ []) :
    skipSpaceIn mode (cs ++ d :: more) = skipSpaceIn mode cs ++ d :: more := by
  have hslash : d ≠ '/' := of_mem_closers (fun c => c ≠ '/') hd (by decide)
  have hstar : d ≠ '*' := of_mem_closers (fun c => c ≠ '*') hd (by decide)
  fun_induction skipSpaceIn mode cs with
  | case1 rest ih | case2 rest ih | case5 c rest ih | case6 rest ih => exact ih h
  | case3 c rest hline hblock hblank ih =>
    have hclosed := skipSpaceIn_between (fun tail hc => ne_cons_closed more hslash (hline · hc) tail)
      (fun tail hc => ne_cons_closed more hstar (hblock · hc) tail)
    rw [List.cons_append, hclosed, if_pos hblank, ih h]
  | case4 c rest hline hblock hblank =>
    have hclosed := skipSpaceIn_between (fun tail hc => ne_cons_closed more hslash (hline · hc) tail)
      (fun tail hc => ne_cons_closed more hstar (hblock · hc) tail)
    rw [List.cons_append, hclosed, if_neg hblank]
  | case7 c rest hclose ih =>
    have hclosed := skipSpaceIn_blockComment
      (fun tail hc => ne_cons_closed more hslash (hclose · hc) tail)
    rw [List.cons_append, hclosed, ih h]
  | case8 => exact absurd rfl h

/-- Every token takes up characters, and the same ones before a closing bracket. -/
theorem token_closed (h : token cs = .ok (t, rest)) (ht : t ≠ .eof) :
    (rest <:+ cs ∧ rest.length < cs.length) ∧
      token (cs ++ d :: more) = .ok (t, rest ++ d :: more) := by
  have hne : skipSpace cs ≠ [] := by
    intro heq
    rw [token, heq] at h
    cases h
    exact ht rfl
  obtain ⟨⟨hsuffix, hlt⟩, hclosed⟩ := tokenHere_closed hd more h ht
  have hskip : skipSpace cs <:+ cs := skipSpaceIn_suffix .between cs
  refine ⟨⟨hsuffix.trans hskip, Nat.lt_of_lt_of_le hlt hskip.length_le⟩, ?_⟩
  rw [token, skipSpace, skipSpaceIn_closed hd more hne]
  exact hclosed

end

theorem token_suffix (h : token cs = .ok (t, rest)) (ht : t ≠ .eof) : rest <:+ cs :=
  (token_closed (d := ')') (by decide) [] h ht).1.1

theorem length_lt_of_token (h : token cs = .ok (t, rest)) (ht : t ≠ .eof) : rest.length < cs.length :=
  (token_closed (d := ')') (by decide) [] h ht).1.2

/-! ## Tokens in a row -/

/-- The tokens that are passed from one place of a text to another. -/
inductive Passes : List Char → List Token → List Char → Prop where
  | none (cs : List Char) : Passes cs [] cs
  | step {cs mid rest : List Char} {t : Token} {ts : List Token} : token cs = .ok (t, mid) → t ≠ .eof →
      Passes mid ts rest → Passes cs (t :: ts) rest

/-- No token is left: the text is over, or what is left is none. -/
def Spent (cs : List Char) : Prop := ∀ t rest, token cs = .ok (t, rest) → t = .eof

theorem exists_passes (cs : List Char) : ∃ ts last, Passes cs ts last ∧ Spent last := by
  by_cases hspent : Spent cs
  · exact ⟨[], cs, .none cs, hspent⟩
  · simp only [Spent, Classical.not_forall] at hspent
    obtain ⟨t, rest, htoken, ht⟩ := hspent
    have hlt := length_lt_of_token htoken ht
    obtain ⟨ts, last, hpasses, hlast⟩ := exists_passes rest
    exact ⟨t :: ts, last, .step htoken ht hpasses, hlast⟩
termination_by cs.length

namespace Passes

variable {last : List Char}

theorem length_add_le (h : Passes cs ts last) : ts.length + last.length ≤ cs.length := by
  induction h with
  | none => exact Nat.le_of_eq (Nat.zero_add _)
  | step htoken ht _ ih =>
    have := length_lt_of_token htoken ht
    simp only [List.length_cons]
    omega

theorem length_le (h : Passes cs ts last) : ts.length ≤ cs.length :=
  Nat.le_trans (Nat.le_add_right _ _) h.length_add_le

theorem unique {us : List Token} (h : Passes cs ts last) (hlast : Spent last)
    (h' : Passes cs us last) : ts = us := by
  induction h generalizing us with
  | none =>
    cases h' with
    | none => rfl
    | step htoken ht _ => exact absurd (hlast _ _ htoken) ht
  | step htoken ht _ ih =>
    cases h' with
    | none => exact absurd (hlast _ _ htoken) ht
    | step htoken' _ hmid =>
      rw [htoken] at htoken'
      cases htoken'
      rw [ih hlast hmid]

/-- What is passed to the end is the whole text. -/
theorem reads (h : Passes cs ts last) (hlast : skipSpace last = []) : Reads cs ts := by
  induction h with
  | none => exact .done hlast
  | step htoken ht _ ih => exact .step htoken ht (length_lt_of_token htoken ht) (ih hlast)

end Passes

theorem Reads.unique {us : List Token} (h : Reads cs ts) (h' : Reads cs us) : ts = us := by
  induction h generalizing us with
  | done hskip =>
    cases h' with
    | done => rfl
    | step htoken ht =>
      rw [token, hskip] at htoken
      cases htoken
      exact absurd rfl ht
  | step htoken ht _ _ ih =>
    cases h' with
    | done hskip =>
      rw [token, hskip] at htoken
      cases htoken
      exact absurd rfl ht
    | step htoken' _ _ hrest =>
      rw [htoken] at htoken'
      cases htoken'
      rw [ih hrest]

/-- Only blanks stand before and after the tokens of the text. -/
def Uncommented (text : String) : Prop :=
  ∀ ts rest, Passes text.toList ts rest → skipSpace rest = rest.dropWhile Text.isBlank

/-- Is there no comment between the first `n` tokens, and no more of them? -/
def commentFree : Nat → List Char → Bool
  | 0, _ => false
  | n + 1, cs => skipSpace cs == cs.dropWhile Text.isBlank && match token cs with
    | .ok (.eof, _) | .error _ => true
    | .ok (_, rest) => commentFree n rest

theorem uncommented_of_commentFree {n : Nat} {text : String} (h : commentFree n text.toList = true) :
    Uncommented text := by
  intro ts rest hpasses
  generalize text.toList = cs at h hpasses
  induction hpasses generalizing n with
  | none cs =>
    cases n with
    | zero => cases h
    | succ n =>
      rw [commentFree, Bool.and_eq_true] at h
      exact eq_of_beq h.1
  | @step cs mid rest t ts htoken ht _ ih =>
    cases n with
    | zero => cases h
    | succ n =>
      rw [commentFree, Bool.and_eq_true, htoken] at h
      refine ih (n := n) ?_
      cases t with
      | eof => exact absurd rfl ht
      | _ => exact h.2

theorem skipSpace_of_isBlank {c : Char} (h : Text.isBlank c = true) (cs : List Char) :
    skipSpace (c :: cs) = skipSpace cs := by
  have hslash : c ≠ '/' := ne_of_class h (by decide)
  rw [skipSpace, skipSpaceIn_between (fun _ hc => absurd hc hslash) (fun _ hc => absurd hc hslash),
    if_pos h]

theorem skipSpace_blanks_closed {d : Char} (hd : d ∈ closers) (more : List Char)
    (h : cs.dropWhile Text.isBlank = []) : skipSpace (cs ++ d :: more) = d :: more := by
  induction cs with
  | nil =>
    have hslash : d ≠ '/' := of_mem_closers (fun c => c ≠ '/') hd (by decide)
    have hblank : Text.isBlank d = false := of_mem_closers (fun c => Text.isBlank c = false) hd (by decide)
    rw [List.nil_append, skipSpace, skipSpaceIn_between (fun _ hc => absurd hc hslash)
      (fun _ hc => absurd hc hslash), if_neg (Bool.eq_false_iff.mp hblank)]
  | cons c cs ih =>
    rw [List.dropWhile_cons] at h
    split at h
    next hblank => rw [List.cons_append, skipSpace_of_isBlank hblank, ih h]
    next => cases h

theorem token_rParen (h : skipSpace cs = [')']) : token cs = .ok (.symbol .rParen, []) := by
  rw [token, h]
  rfl

theorem Passes.reads_closed {last : List Char} (h : Passes cs ts last)
    (hlast : last.dropWhile Text.isBlank = []) : Reads (cs ++ [')']) (ts ++ [.symbol .rParen]) := by
  induction h with
  | none cs =>
    refine .step (token_rParen (skipSpace_blanks_closed (by decide) [] hlast)) nofun ?_ (.done rfl)
    simp
  | step htoken ht _ ih =>
    obtain ⟨⟨_, hlt⟩, hclosed⟩ := token_closed (d := ')') (by decide) [] htoken ht
    exact .step hclosed ht (by simpa using hlt) (ih hlast)

/-- A text in parentheses has the tokens of the text between two more. -/
theorem Uncommented.reads_parenthesized {text : String} {last : List Char} (h : Uncommented text)
    (hpasses : Passes text.toList ts last) (hlast : skipSpace last = []) :
    Reads ("(" ++ text ++ ")").toList (parenthesized ts) := by
  have hblanks : last.dropWhile Text.isBlank = [] := (h ts last hpasses) ▸ hlast
  have hopened : Reads ((Token.symbol .lParen).spelling ++ (text.toList ++ [')']))
      (.symbol .lParen :: (ts ++ [.symbol .rParen])) := by
    refine .cons (.symbol .lParen) ?_ (hpasses.reads_closed hblanks)
    cases text.toList ++ [')'] <;> rfl
  simpa [parenthesized, Token.spelling, Symbol.text] using hopened

end ActionTree.Notation
