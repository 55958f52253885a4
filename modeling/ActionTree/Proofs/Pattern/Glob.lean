import ActionTree.Pattern.Glob
import Mathlib.Data.List.Forall2

/-!
# Glob patterns and the texts they match

A pattern that passes its check is written from elements in one way only. The matcher goes back to the
last star alone, and still finds a split of the text over the elements whenever there is one: what an
earlier star could take instead, the last one can take as well.
-/

namespace ActionTree.Glob

/-! ## What a pattern means -/

/-- What stands in a class. -/
inductive ClassItem where
  | single (c : Char)
  | range (low high : Char)

/-- The parts of a pattern that match on their own. -/
inductive Element where
  | star
  | any
  | literal (c : Char)
  | oneOf (negated : Bool) (items : List ClassItem)

/-- Equal, up to case if it does not matter. -/
def Same (ignoreCase : Bool) (a b : Char) : Prop :=
  a = b ∨ ignoreCase = true ∧ Text.lowerChars a = Text.lowerChars b

/-- The item has the character, or a small or capital form of it if case does not matter. -/
def ClassItem.Holds (ignoreCase : Bool) (c : Char) : ClassItem → Prop
  | single d => Same ignoreCase d c
  | range low high =>
    ∃ x, (x = c ∨ ignoreCase = true ∧ (x ∈ Text.lowerChars c ∨ x ∈ Text.upperChars c)) ∧
      low ≤ x ∧ x ≤ high

/-- The element stands for the one character. A star is not read as such an element. -/
def Element.Takes (ignoreCase : Bool) : Element → Char → Prop
  | star, _ => False
  | any, _ => True
  | literal d, c => Same ignoreCase d c
  | oneOf negated items, c => (∃ item ∈ items, item.Holds ignoreCase c) ↔ negated = false

/-- The text splits into a piece for every element, in their order. -/
inductive Splits (ignoreCase : Bool) : List Element → List Char → Prop
  | nil : Splits ignoreCase [] []
  | star {es text} (run : List Char) (hrest : Splits ignoreCase es text) :
    Splits ignoreCase (.star :: es) (run ++ text)
  | one {e es c text} (htakes : e.Takes ignoreCase c) (hrest : Splits ignoreCase es text) :
    Splits ignoreCase (e :: es) (c :: text)

/-- The characters between the brackets of a class: a minus between two others makes a range of them. -/
def classItems : List Char → List ClassItem
  | low :: '-' :: high :: body => .range low high :: classItems body
  | c :: body => .single c :: classItems body
  | [] => []

def Element.ofClass : List Char → Element
  | '^' :: body => .oneOf true (classItems body)
  | body => .oneOf false (classItems body)

/-- The characters that write one element. A class ends at the first bracket, and nothing is escaped in it. -/
inductive Element.Written : List Char → Element → Prop
  | star : Written ['*'] star
  | any : Written ['?'] any
  | escaped (c : Char) : Written ['\\', c] (literal c)
  | literal {c : Char} (h : c ∉ ['*', '?', '\\', '[']) : Written [c] (literal c)
  | oneOf {body : List Char} (h : ']' ∉ body) : Written ('[' :: (body ++ [']'])) (ofClass body)

/-- The pattern is written from the elements. -/
inductive Spells : List Char → List Element → Prop
  | nil : Spells [] []
  | cons {front rest e es} (hfront : e.Written front) (hrest : Spells rest es) :
    Spells (front ++ rest) (e :: es)

variable {ignoreCase : Bool} {pattern front front' rest rest' : List Char} {e e' : Element}
  {es es' : List Element} {c : Char} {text : List Char}

/-! ## The check -/

/-- What is left of a pattern, inside of a class or not, can be read on. -/
def Readable : (inClass : Bool) → List Char → Prop
  | false, pattern => ∃ es, Spells pattern es
  | true, pattern => ∃ body rest, ']' ∉ body ∧ pattern = body ++ ']' :: rest ∧ ∃ es, Spells rest es

theorem readable_of_checkFrom {source : String} {inClass : Bool}
    (h : checkFrom source inClass pattern = .ok ()) : Readable inClass pattern := by
  induction inClass, pattern using checkFrom.induct with
  | case1 => exact ⟨[], .nil⟩
  | case2 => cases h
  | case3 c rest ih =>
    rw [checkFrom] at h
    have hrest := ih h
    by_cases hc : c = ']'
    · subst hc
      exact ⟨[], rest, nofun, rfl, hrest⟩
    · rw [bne_iff_ne.mpr hc] at hrest
      obtain ⟨body, rest, hbody, rfl, hes⟩ := hrest
      exact ⟨c :: body, rest, by simp [hbody, Ne.symm hc], rfl, hes⟩
  | case4 => cases h
  | case5 c rest ih =>
    rw [checkFrom] at h
    obtain ⟨es, hes⟩ := ih h
    exact ⟨_, .cons (.escaped c) hes⟩
  | case6 c rest hlast hescape ih =>
    have hplain : c ≠ '\\' := fun hc => by
      cases rest with
      | nil => exact hlast hc rfl
      | cons d rest => exact hescape d rest hc rfl
    rw [checkFrom.eq_6 source c rest hlast hescape] at h
    have hrest := ih h
    by_cases hopen : c = '['
    · subst hopen
      obtain ⟨body, rest, hbody, rfl, es, hes⟩ := hrest
      refine ⟨.ofClass body :: es, ?_⟩
      simpa using Spells.cons (.oneOf hbody) hes
    · rw [beq_eq_false_iff_ne.mpr hopen] at hrest
      obtain ⟨es, hes⟩ := hrest
      by_cases hstar : c = '*'
      · subst hstar
        exact ⟨_, .cons .star hes⟩
      by_cases hany : c = '?'
      · subst hany
        exact ⟨_, .cons .any hes⟩
      · exact ⟨_, .cons (.literal (by simp [*])) hes⟩

/-- Characters up to a bracket are passed as a class. -/
theorem checkFrom_class {source : String} {body : List Char} (h : ']' ∉ body) :
    checkFrom source true (body ++ ']' :: rest) = checkFrom source false rest := by
  induction body with
  | nil => rfl
  | cons c body ih =>
    obtain ⟨hc, hbody⟩ := List.ne_and_not_mem_of_not_mem_cons h
    rw [List.cons_append, checkFrom, bne_iff_ne.mpr (Ne.symm hc), ih hbody]

theorem checkFrom_of_spells {source : String} (h : Spells pattern es) :
    checkFrom source false pattern = .ok () := by
  induction h with
  | nil => rfl
  | cons hfront _ ih =>
    cases hfront with
    | star | any | escaped => exact ih
    | literal hc =>
      simp only [List.mem_cons, List.not_mem_nil, or_false, not_or] at hc
      obtain ⟨-, -, hescape, hopen⟩ := hc
      rw [List.singleton_append, checkFrom.eq_6 source _ _ (fun hc => absurd hc hescape)
        (fun _ _ hc => absurd hc hescape), beq_eq_false_iff_ne.mpr hopen, ih]
    | oneOf hbody =>
      rw [List.cons_append, List.append_assoc]
      exact (checkFrom_class hbody).trans ih

/-- The check accepts the patterns that are written from elements. -/
theorem check_eq_ok_iff {source : String} : check source = .ok () ↔ ∃ es, Spells source.toList es :=
  ⟨readable_of_checkFrom, fun ⟨_, hes⟩ => checkFrom_of_spells hes⟩

/-! ## One way to read a pattern -/

/-- The characters before the first bracket are determined. -/
theorem append_bracket_inj {body body' : List Char} (hbody : ']' ∉ body) (hbody' : ']' ∉ body')
    (h : body ++ ']' :: rest = body' ++ ']' :: rest') : body = body' ∧ rest = rest' := by
  obtain ⟨more, hmore, hrests⟩ | ⟨more, hmore, hrests⟩ := List.append_eq_append_iff.mp h
  all_goals cases more <;> simp_all

theorem Element.Written.inj (h : e.Written front) (h' : e'.Written front')
    (happend : front ++ rest = front' ++ rest') : e = e' ∧ rest = rest' := by
  cases h <;> cases h'
  case oneOf.oneOf hbody _ hbody' =>
    simp only [List.cons_append, List.append_assoc, List.cons.injEq, true_and] at happend
    obtain ⟨rfl, hrest⟩ := append_bracket_inj hbody hbody' happend
    exact ⟨rfl, hrest⟩
  all_goals grind

theorem Element.Written.ne_nil (h : e.Written front) : front ≠ [] := by
  cases h <;> exact List.cons_ne_nil _ _

theorem Element.ofClass_ne_star (body : List Char) : ofClass body ≠ star := by
  unfold ofClass
  split <;> nofun

theorem Element.Written.eq_star (h : e.Written front) (hstar : e = .star) : front = ['*'] := by
  cases h with
  | star => rfl
  | oneOf => exact absurd hstar (ofClass_ne_star _)
  | any | escaped | literal => cases hstar

/-- An asterisk at the front is a star. -/
theorem Element.Written.head?_eq_star_iff (h : e.Written front) (rest : List Char) :
    (front ++ rest).head? = some '*' ↔ e = .star := by
  cases h with
  | literal => grind
  | oneOf => simp [ofClass_ne_star]
  | star | any | escaped => simp

theorem Spells.unique (h : Spells pattern es) (h' : Spells pattern es') : es = es' := by
  induction h generalizing es' with
  | nil =>
    generalize hpattern : [] = pattern at h'
    cases h' with
    | nil => rfl
    | cons hfront => exact absurd (List.nil_eq_append_iff.mp hpattern).1 hfront.ne_nil
  | @cons front rest e es hfront _ ih =>
    generalize hpattern : front ++ rest = pattern at h'
    cases h' with
    | nil => exact absurd (List.append_eq_nil_iff.mp hpattern).1 hfront.ne_nil
    | cons hfront' hrest' =>
      obtain ⟨rfl, rfl⟩ := hfront.inj hfront' hpattern
      rw [ih hrest']

/-! ## One character of the text -/

theorem sameChar_iff {a b : Char} : sameChar ignoreCase a b = true ↔ Same ignoreCase a b := by
  simp [sameChar, Same]

theorem inRange_iff {low high : Char} :
    inRange ignoreCase low high c = true ↔ (ClassItem.range low high).Holds ignoreCase c := by
  simp only [inRange, ClassItem.Holds, Bool.or_eq_true, Bool.and_eq_true, List.any_eq_true, decide_eq_true_eq]
  grind

theorem scanClass_range {low high : Char} (hlow : low ≠ ']') (hhigh : high ≠ ']') :
    scanClass ignoreCase c (low :: '-' :: high :: rest) =
      (inRange ignoreCase low high c || (scanClass ignoreCase c rest).1,
        (scanClass ignoreCase c rest).2 + 3) := by
  rw [scanClass, if_neg hlow]
  exact if_neg hhigh

theorem scanClass_single {d : Char} (hd : d ≠ ']')
    (h : ∀ high more, rest = '-' :: high :: more → high = ']') :
    scanClass ignoreCase c (d :: rest) =
      (sameChar ignoreCase d c || (scanClass ignoreCase c rest).1, (scanClass ignoreCase c rest).2 + 1) := by
  rw [scanClass, if_neg hd]
  dsimp only
  split
  · rw [if_pos (h _ _ rfl)]
  · rfl

/-- A class is scanned up to its bracket. -/
theorem scanClass_class (ignoreCase : Bool) (c : Char) {body : List Char} (h : ']' ∉ body)
    (rest : List Char) :
    ∃ found : Bool, scanClass ignoreCase c (body ++ ']' :: rest) = (found, body.length) ∧
      (found = true ↔ ∃ item ∈ classItems body, item.Holds ignoreCase c) := by
  induction body using classItems.induct with
  | case1 low high body ih =>
    simp only [List.mem_cons, not_or] at h
    obtain ⟨hlow, -, hhigh, hbody⟩ := h
    obtain ⟨found, hscan, hfound⟩ := ih hbody
    refine ⟨inRange ignoreCase low high c || found, ?_, ?_⟩
    · simp only [List.cons_append]
      rw [scanClass_range (Ne.symm hlow) (Ne.symm hhigh), hscan]
      rfl
    · simp only [classItems, List.mem_cons, exists_eq_or_imp, Bool.or_eq_true, inRange_iff, hfound]
  | case2 d body hrange ih =>
    obtain ⟨hd, hbody⟩ := List.ne_and_not_mem_of_not_mem_cons h
    obtain ⟨found, hscan, hfound⟩ := ih hbody
    have hbracket : ∀ high more, body ++ ']' :: rest = '-' :: high :: more → high = ']' := by
      intro high more heq
      match body, hrange, heq with
      | [], _, heq => cases heq
      | [_], _, heq => exact (List.cons.inj (List.cons.inj heq).2).1.symm
      | x :: y :: body, hrange, heq =>
        obtain ⟨rfl, -⟩ := List.cons.inj heq
        exact absurd rfl (hrange y body)
    refine ⟨sameChar ignoreCase d c || found, ?_, ?_⟩
    · rw [List.cons_append, scanClass_single (Ne.symm hd) hbracket, hscan]
      rfl
    · simp only [classItems.eq_2 _ _ hrange, List.mem_cons, exists_eq_or_imp, Bool.or_eq_true, hfound]
      exact or_congr_left sameChar_iff
  | case3 => exact ⟨false, by rw [List.nil_append, scanClass, if_pos rfl]; rfl, by simp [classItems]⟩

/-- Whether an element stands for the character is found at the front of what it is written in. -/
def Passes (ignoreCase : Bool) (c : Char) (front rest : List Char) (e : Element) : Prop :=
  matchOne ignoreCase c (front ++ rest) = some front.length ∧ e.Takes ignoreCase c ∨
    matchOne ignoreCase c (front ++ rest) = none ∧ ¬e.Takes ignoreCase c

/-- A class is passed if it stands for the character. -/
theorem passes_class {body : List Char} (h : ']' ∉ body) :
    Passes ignoreCase c ('[' :: (body ++ [']'])) rest (.ofClass body) := by
  have happend : '[' :: (body ++ [']']) ++ rest = '[' :: (body ++ ']' :: rest) := by simp
  rw [Passes, happend, List.length_cons, List.length_append, List.length_singleton]
  by_cases hnegated : ∃ items, body = '^' :: items
  · obtain ⟨items, rfl⟩ := hnegated
    obtain ⟨found, hscan, hfound⟩ :=
      scanClass_class ignoreCase c (List.ne_and_not_mem_of_not_mem_cons h).2 rest
    rw [List.cons_append, matchOne, hscan, Element.ofClass, Element.Takes, ← hfound]
    cases found <;> simp
  · have hplain : ∀ items, body = '^' :: items → False := fun items hitems => hnegated ⟨items, hitems⟩
    have hplain' : ∀ items, body ++ ']' :: rest = '^' :: items → False := by
      intro items hitems
      cases body with
      | nil => cases hitems
      | cons d body =>
        obtain ⟨rfl, -⟩ := List.cons.inj hitems
        exact hplain body rfl
    obtain ⟨found, hscan, hfound⟩ := scanClass_class ignoreCase c h rest
    rw [matchOne.eq_5 _ _ _ hplain', hscan, Element.ofClass.eq_2 _ hplain, Element.Takes, ← hfound]
    cases found <;> simp

/-- An element other than a star is passed if it stands for the character. -/
theorem passes_written (ignoreCase : Bool) (c : Char) (h : e.Written front) (hstar : e ≠ .star)
    (rest : List Char) : Passes ignoreCase c front rest e := by
  cases h with
  | star => exact absurd rfl hstar
  | any => exact .inl ⟨rfl, trivial⟩
  | escaped d =>
    by_cases hsame : sameChar ignoreCase d c
    · exact .inl ⟨if_pos hsame, sameChar_iff.mp hsame⟩
    · exact .inr ⟨if_neg hsame, mt sameChar_iff.mpr hsame⟩
  | @literal d h =>
    simp only [List.mem_cons, List.not_mem_nil, or_false, not_or] at h
    obtain ⟨-, hany, hescape, hopen⟩ := h
    have hone : matchOne ignoreCase c (d :: rest) = if sameChar ignoreCase d c then some 1 else none :=
      matchOne.eq_6 _ _ _ _ hany (fun _ _ hc _ => hescape hc) (fun _ hc _ => hopen hc) hopen
    by_cases hsame : sameChar ignoreCase d c
    · exact .inl ⟨hone.trans (if_pos hsame), sameChar_iff.mp hsame⟩
    · exact .inr ⟨hone.trans (if_neg hsame), mt sameChar_iff.mpr hsame⟩
  | oneOf h => exact passes_class h

/-! ## Splits of a text -/

theorem Splits.inv (h : Splits ignoreCase (e :: es) text) :
    (e = .star ∧ ∃ run rest, text = run ++ rest ∧ Splits ignoreCase es rest) ∨
      ∃ c rest, text = c :: rest ∧ e.Takes ignoreCase c ∧ Splits ignoreCase es rest := by
  generalize hall : e :: es = all at h
  cases h with
  | nil => cases hall
  | star run hrest =>
    obtain ⟨rfl, rfl⟩ := List.cons.inj hall
    exact .inl ⟨rfl, run, _, rfl, hrest⟩
  | one htakes hrest =>
    obtain ⟨rfl, rfl⟩ := List.cons.inj hall
    exact .inr ⟨_, _, rfl, htakes, hrest⟩

/-- A star takes any characters more. -/
theorem Splits.star_append (run : List Char) (h : Splits ignoreCase (.star :: es) text) :
    Splits ignoreCase (.star :: es) (run ++ text) := by
  obtain ⟨-, run', rest, rfl, hrest⟩ | ⟨_, _, -, hstar, -⟩ := h.inv
  · rw [← List.append_assoc]
    exact .star (run ++ run') hrest
  · exact hstar.elim

/-- Only stars are for an empty text. -/
theorem Spells.all_star_iff (h : Spells pattern es) :
    pattern.all (· == '*') = true ↔ Splits ignoreCase es [] := by
  induction h with
  | nil => exact ⟨fun _ => .nil, fun _ => rfl⟩
  | @cons front rest e es hfront hrest ih =>
    by_cases hstar : e = .star
    · rw [hfront.eq_star hstar, hstar]
      refine ih.trans ⟨.star [], fun h => ?_⟩
      obtain ⟨-, run, text, hnil, hsplits⟩ | ⟨_, _, hcons, -⟩ := h.inv
      · rwa [(List.nil_eq_append_iff.mp hnil).2] at hsplits
      · cases hcons
    · refine iff_of_false (fun hall => ?_) fun h => ?_
      · obtain ⟨c, front, rfl⟩ := List.exists_cons_of_ne_nil hfront.ne_nil
        have hc := List.all_eq_true.mp hall c (by simp)
        exact hstar ((hfront.head?_eq_star_iff rest).mp (congrArg some (beq_iff_eq.mp hc)))
      · obtain ⟨rfl, -⟩ | ⟨_, _, hcons, -⟩ := h.inv
        · exact hstar rfl
        · cases hcons

/-- Elements that stand for one character each. -/
abbrev TakesEach (ignoreCase : Bool) : List Element → List Char → Prop :=
  List.Forall₂ (Element.Takes ignoreCase)

theorem TakesEach.splits_append {taken : List Char} {passed : List Element}
    (h : TakesEach ignoreCase passed taken) (hrest : Splits ignoreCase es text) :
    Splits ignoreCase (passed ++ es) (taken ++ text) := by
  induction h with
  | nil => exact hrest
  | cons htakes _ ih => exact .one htakes ih

/-- What such elements take of any text is as long as they are. -/
theorem TakesEach.splits_inv {taken : List Char} {passed : List Element}
    (h : TakesEach ignoreCase passed taken) (hsplits : Splits ignoreCase (passed ++ es) text) :
    ∃ front rest, text = front ++ rest ∧ front.length = taken.length ∧ Splits ignoreCase es rest := by
  induction h generalizing text with
  | nil => exact ⟨[], text, rfl, rfl, hsplits⟩
  | cons htakes _ ih =>
    obtain ⟨rfl, -⟩ | ⟨c, text, rfl, -, hrest⟩ := hsplits.inv
    · exact htakes.elim
    · obtain ⟨front, rest, rfl, hlength, hrest⟩ := ih hrest
      exact ⟨c :: front, rest, rfl, congrArg (· + 1) hlength, hrest⟩

/-! ## The next element -/

theorem Spells.star_of_head? (h : Spells pattern es) (hstar : pattern.head? = some '*') :
    ∃ es', es = .star :: es' ∧ Spells pattern.tail es' := by
  cases h with
  | nil => cases hstar
  | cons hfront hrest =>
    obtain rfl := (hfront.head?_eq_star_iff _).mp hstar
    rw [hfront.eq_star rfl]
    exact ⟨_, rfl, hrest⟩

/-- The next element takes the character, or there is no split of what starts with it. -/
theorem Spells.matchOne (h : Spells pattern es) (ignoreCase : Bool) (c : Char)
    (hstar : pattern.head? ≠ some '*') :
    (∃ n e es', matchOne ignoreCase c pattern = some n ∧ es = e :: es' ∧ e.Takes ignoreCase c ∧
        n ≤ pattern.length ∧ Spells (pattern.drop n) es') ∨
      matchOne ignoreCase c pattern = none ∧ ∀ text, ¬Splits ignoreCase es (c :: text) := by
  cases h with
  | nil => exact .inr ⟨rfl, nofun⟩
  | @cons front rest e es hfront hrest =>
    have hne : e ≠ .star := mt (hfront.head?_eq_star_iff rest).mpr hstar
    obtain ⟨hsome, htakes⟩ | ⟨hnone, htakes⟩ := passes_written ignoreCase c hfront hne rest
    · refine .inl ⟨front.length, e, es, hsome, rfl, htakes, by simp, ?_⟩
      rwa [List.drop_left]
    · refine .inr ⟨hnone, fun text hsplits => ?_⟩
      obtain ⟨rfl, -⟩ | ⟨_, _, hcons, htakes', -⟩ := hsplits.inv
      · exact hne rfl
      · obtain ⟨rfl, -⟩ := List.cons.inj hcons
        exact htakes htakes'

/-! ## The run of the matcher -/

/-- What a match is to decide when the elements are left for the text: whether there is a split for all
that was passed since the last star and for them, with the star in front. What was passed took one
character each. -/
inductive Since (ignoreCase : Bool) (pattern : List Char) (es : List Element) (text : List Char) :
    Option (LastStar text) → List Element → List Char → Prop
  | start {passed taken} (htakes : TakesEach ignoreCase passed taken) :
    Since ignoreCase pattern es text none (passed ++ es) (taken ++ text)
  | star {passed taken} (s : LastStar text) (hposition : s.position ≤ pattern.length)
    (hspells : Spells (pattern.drop s.position) (passed ++ es)) (htext : s.text = taken ++ text)
    (htakes : TakesEach ignoreCase passed taken) :
    Since ignoreCase pattern es text (some s) (.star :: (passed ++ es)) s.text

namespace Since

variable {star : Option (LastStar text)} {all : List Element} {whole : List Char}

theorem splits (h : Since ignoreCase pattern es text star all whole) (hsplits : Splits ignoreCase es text) :
    Splits ignoreCase all whole := by
  cases h with
  | start htakes => exact htakes.splits_append hsplits
  | star s _ _ htext htakes =>
    rw [htext]
    exact .star [] (htakes.splits_append hsplits)

/-- Nothing but what was passed takes the characters it took, as long as no star did. -/
theorem splits_of_taken {passed : List Element} {taken : List Char} (h : TakesEach ignoreCase passed taken)
    (hsplits : Splits ignoreCase (passed ++ es) (taken ++ text)) : Splits ignoreCase es text := by
  obtain ⟨front, rest, happend, hlength, hrest⟩ := h.splits_inv hsplits
  rwa [(List.append_inj happend hlength.symm).2]

/-- Before the first star there is no choice. -/
theorem start_iff (h : Since ignoreCase pattern es text none all whole) :
    Splits ignoreCase all whole ↔ Splits ignoreCase es text := by
  refine ⟨fun hsplits => ?_, h.splits⟩
  cases h with
  | start htakes => exact splits_of_taken htakes hsplits

/-- At the end of the text the last star cannot take more. -/
theorem end_iff {star : Option (LastStar [])} (h : Since ignoreCase pattern es [] star all whole) :
    Splits ignoreCase all whole ↔ Splits ignoreCase es [] := by
  refine ⟨fun hsplits => ?_, h.splits⟩
  cases h with
  | start htakes => exact splits_of_taken htakes hsplits
  | star s _ _ htext htakes =>
    obtain ⟨-, run, rest, hwhole, hsplits⟩ | ⟨_, _, -, htakes, -⟩ := hsplits.inv
    · obtain ⟨front, rest, rfl, hlength, hrest⟩ := htakes.splits_inv hsplits
      have hrest' : rest = [] := by
        have := congrArg List.length (htext.symm.trans hwhole)
        simp only [List.length_append, List.length_nil] at this
        exact List.eq_nil_of_length_eq_zero (by omega)
      rwa [hrest'] at hrest
    · exact htakes.elim

/-- At a new star the one before it need not be tried again: the new one takes what it would take. -/
theorem star_iff (h : Since ignoreCase pattern (.star :: es) text star all whole) :
    Splits ignoreCase all whole ↔ Splits ignoreCase (.star :: es) text := by
  refine ⟨fun hsplits => ?_, h.splits⟩
  cases h with
  | start htakes => exact splits_of_taken htakes hsplits
  | @star passed taken s _ _ htext htakes =>
    obtain ⟨-, run, rest, hwhole, hsplits⟩ | ⟨_, _, -, htakes, -⟩ := hsplits.inv
    · obtain ⟨front, rest, rfl, hlength, hrest⟩ := htakes.splits_inv hsplits
      obtain ⟨more, htext'⟩ : ∃ more, text = more ++ rest := by
        rw [htext, ← List.append_assoc] at hwhole
        have hdrop := congrArg (List.drop taken.length) hwhole
        rw [List.drop_left, List.drop_append_of_le_length (by simp [hlength])] at hdrop
        exact ⟨_, hdrop⟩
      rw [htext']
      exact hrest.star_append more
    · exact htakes.elim

/-- An element that stands for the next character is passed. -/
theorem next {star : Option (LastStar (c :: text))}
    (h : Since ignoreCase pattern (e :: es) (c :: text) star all whole) (htakes : e.Takes ignoreCase c) :
    Since ignoreCase pattern es text (star.map LastStar.later) all whole := by
  cases h with
  | @start passed taken hpassed =>
    have hmore : TakesEach ignoreCase (passed ++ [e]) (taken ++ [c]) :=
      List.rel_append hpassed (.cons htakes .nil)
    rw [List.append_cons passed, List.append_cons taken]
    exact .start hmore
  | @star passed taken s hposition hspells htext hpassed =>
    have hmore : TakesEach ignoreCase (passed ++ [e]) (taken ++ [c]) :=
      List.rel_append hpassed (.cons htakes .nil)
    rw [List.append_cons passed] at hspells ⊢
    rw [List.append_cons taken] at htext
    exact .star s.later hposition hspells htext hmore

/-- Where the elements have no split of the text, the last star takes one character more. -/
theorem back {s : LastStar (c :: text)} (h : Since ignoreCase pattern es (c :: text) (some s) all whole)
    (hsplits : ¬Splits ignoreCase es (c :: text)) :
    ∃ es', s.position ≤ pattern.length ∧ Spells (pattern.drop s.position) es' ∧ all = .star :: es' ∧
      (Splits ignoreCase all whole ↔ Splits ignoreCase (.star :: es') s.text.tail) := by
  cases h with
  | @star passed taken _ hposition hspells htext htakes =>
    refine ⟨passed ++ es, hposition, hspells, rfl, fun h => ?_, fun h => ?_⟩
    · obtain ⟨-, run, rest, hwhole, hrest⟩ | ⟨_, _, -, htakes, -⟩ := h.inv
      · cases run with
        | nil =>
          rw [List.nil_append] at hwhole
          rw [← hwhole, htext] at hrest
          exact absurd (splits_of_taken htakes hrest) hsplits
        | cons d run =>
          rw [hwhole]
          exact .star run hrest
      · exact htakes.elim
    · have hcons : s.text ≠ [] := by
        rw [htext]
        simp
      rw [← List.cons_head_tail hcons]
      exact h.star_append [s.text.head hcons]

/-- Right after a star nothing is passed yet. -/
theorem after {position : Nat} (hposition : position ≤ pattern.length)
    (hspells : Spells (pattern.drop position) es) :
    Since ignoreCase pattern es text (some ⟨position, text, Nat.le_refl _⟩) (.star :: es) text :=
  @star _ _ _ _ [] [] ⟨position, text, Nat.le_refl _⟩ hposition hspells rfl .nil

end Since

/-- From wherever a match stands, it ends at a position of the pattern and finds a split if there is one. -/
theorem matchFrom?_eq_some {position : Nat} {star : Option (LastStar text)} {all : List Element}
    {whole : List Char} (hposition : position ≤ pattern.length)
    (hspells : Spells (pattern.drop position) es) (hsince : Since ignoreCase pattern es text star all whole) :
    ∃ matched, matchFrom? ignoreCase pattern position text star = some matched ∧
      (matched = true ↔ Splits ignoreCase all whole) := by
  induction position, text, star using matchFrom?.induct ignoreCase pattern generalizing es all whole with
  | case1 position h star =>
    rw [matchFrom?, if_pos hposition]
    exact ⟨_, rfl, hspells.all_star_iff.trans hsince.end_iff.symm⟩
  | case2 position h => exact absurd hposition h
  | case3 position c text hstar star ih =>
    obtain ⟨es, rfl, hrest⟩ := hspells.star_of_head? hstar
    rw [List.tail_drop] at hrest
    have hlt : position < pattern.length := by
      have := List.isSome_head?.mp (Option.isSome_of_eq_some hstar)
      simpa using this
    rw [matchFrom?.eq_def]
    dsimp only
    rw [if_pos hstar, hsince.star_iff]
    exact ih hlt hrest (.after hlt hrest)
  | case4 position c text hstar n hn star ih =>
    obtain ⟨n', e, es, hn', rfl, htakes, hlength, hrest⟩ | ⟨hnone, -⟩ :=
      hspells.matchOne ignoreCase c hstar
    · obtain rfl := Option.some.inj (hn.symm.trans hn')
      rw [List.length_drop] at hlength
      rw [List.drop_drop] at hrest
      rw [matchFrom?.eq_def]
      dsimp only
      rw [if_neg hstar, hn]
      exact ih (by omega) hrest (hsince.next htakes)
    · rw [hn] at hnone
      cases hnone
  | case5 position c text hstar hnone =>
    obtain ⟨n, _, _, hn, -⟩ | ⟨-, hsplits⟩ := hspells.matchOne ignoreCase c hstar
    · rw [hnone] at hn
      cases hn
    · rw [matchFrom?, if_neg hstar, hnone]
      exact ⟨false, rfl, iff_of_false nofun (mt hsince.start_iff.mp (hsplits text))⟩
  | case6 position c text hstar hnone s ih =>
    obtain ⟨n, _, _, hn, -⟩ | ⟨-, hsplits⟩ := hspells.matchOne ignoreCase c hstar
    · rw [hnone] at hn
      cases hn
    · obtain ⟨es, hposition, hspells, -, hback⟩ := hsince.back (hsplits text)
      rw [matchFrom?, if_neg hstar, hnone, hback]
      exact ih hposition hspells (.after hposition hspells)

/-- A pattern that passes its check is written from elements in one way only, and the matcher decides for
every text whether it splits over them: it comes to an end, at a position of the pattern. -/
theorem match?_eq_some {source : String} (h : check source = .ok ()) :
    ∃ elements, (∀ es, Spells source.toList es ↔ es = elements) ∧
      ∀ (ignoreCase : Bool) (text : List Char), ∃ matched,
        match? ignoreCase source.toList text = some matched ∧
          (matched = true ↔ Splits ignoreCase elements text) := by
  obtain ⟨elements, hspells⟩ := check_eq_ok_iff.mp h
  refine ⟨elements, fun es => ⟨fun hes => hes.unique hspells, fun hes => hes ▸ hspells⟩, ?_⟩
  intro ignoreCase text
  exact matchFrom?_eq_some (Nat.zero_le _) hspells (.start .nil)

/-- A class of anything, an escaped asterisk, and a class with a range and a minus before its bracket. -/
theorem match?_eq_some_classes :
    check "*[^]\\*[a-c-]?" = .ok () ∧ match? true "*[^]\\*[a-c-]?".toList "xx*B!".toList = some true := by
  have hcheck : check "*[^]\\*[a-c-]?" = .ok () := by decide +kernel
  have hclass : Element.Written ['[', 'a', '-', 'c', '-', ']'] (.oneOf false [.range 'a' 'c', .single '-']) :=
    @Element.Written.oneOf ['a', '-', 'c', '-'] (by decide)
  have hspells : Spells "*[^]\\*[a-c-]?".toList
      [.star, .oneOf true [], .literal '*', .oneOf false [.range 'a' 'c', .single '-'], .any] :=
    .cons .star (.cons (@Element.Written.oneOf ['^'] (by decide)) (.cons (.escaped '*')
      (.cons hclass (.cons .any .nil))))
  have hsplits : Splits true
      [.star, .oneOf true [], .literal '*', .oneOf false [.range 'a' 'c', .single '-'], .any]
      "xx*B!".toList := by
    refine .star ['x'] (.one (by simp [Element.Takes]) (.one (.inl rfl) (.one ?_ (.one trivial .nil))))
    refine iff_of_true ⟨_, List.mem_cons_self, 'b', ?_⟩ rfl
    decide
  obtain ⟨elements, hunique, hmatch⟩ := match?_eq_some hcheck
  obtain rfl := (hunique _).mp hspells
  obtain ⟨matched, hmatched, hiff⟩ := hmatch true "xx*B!".toList
  rw [hiff.mpr hsplits] at hmatched
  exact ⟨hcheck, hmatched⟩

end ActionTree.Glob
