import ActionTree.Proofs.Conversion
import ActionTree.Proofs.Conversion.Numeral

/-!
# Values converted to text and back

A truth value, a character, an integer and a member of an enumeration can be told from their texts, the
last if the names of the enumeration cannot be taken for one another or for numbers: converted to text and
back, every value of such a type is itself again.
-/

namespace ActionTree

/-- The members of the enumeration can be told by their names, case and white space apart, and no name is
read as a number. -/
structure EnumType.Legible (t : EnumType) : Prop where
  apart : t.members.Pairwise fun a b => Text.sameAscii a.1 b.1 = false
  trimmed : ∀ m ∈ t.members, Text.trim m.1 = m.1
  not_number : ∀ m ∈ t.members, (Numeral.int? 10 m.1.toList).bind (Integer.ofInt? .long) = none

/-- The types whose values can be told from their texts. -/
inductive ValueType.Legible : ValueType → Prop where
  | bool : Legible .bool
  | char : Legible .char
  | int (k : IntKind) : Legible (.int k)
  | enum {t : EnumType} : t.Legible → Legible (.enum t)

/-! ## Texts of integers -/

namespace Text

/-- May the character stand in an integer as it is written? -/
def writesInteger (c : Char) : Bool := c.isDigit || c == '-'

theorem toLower_of_writesInteger {c : Char} (h : writesInteger c = true) : c.toLower = c := by
  have hcapitals : ∀ n < 26, writesInteger (Char.ofNat (65 + n)) = false := by decide
  rcases toLower_cases c with hsame | ⟨n, hn, rfl⟩
  · exact hsame
  · rw [hcapitals n hn] at h
    cases h

/-- No letter differs in case only from what stands in an integer. -/
theorem eq_of_map_toLower_eq {cs ds : List Char} (hcs : ∀ c ∈ cs, writesInteger c = true)
    (h : ds.map Char.toLower = cs.map Char.toLower) : ds = cs := by
  have hlower (c : Char) : writesInteger c.toLower = writesInteger c := apply_toLower (by decide) c
  induction cs generalizing ds with
  | nil => exact List.map_eq_nil_iff.mp h
  | cons c cs ih =>
    obtain ⟨hc, hcs⟩ := List.forall_mem_cons.mp hcs
    cases ds with
    | nil => cases h
    | cons d ds =>
      obtain ⟨hd, hds⟩ := List.cons.inj h
      have hwrites : writesInteger d = true := by rw [← hlower d, hd, hlower c, hc]
      rw [toLower_of_writesInteger hwrites, toLower_of_writesInteger hc] at hd
      rw [hd, ih hcs hds]

theorem trimList_of_forall {p : Char → Bool} {cs : List Char} (h : ∀ c ∈ cs, p c = false) :
    trimList p cs = cs := by
  have hfront {ds : List Char} (hds : ∀ c ∈ ds, p c = false) : ds.dropWhile p = ds := by
    cases ds with
    | nil => rfl
    | cons d ds => rw [List.dropWhile_cons, hds d List.mem_cons_self]; rfl
  rw [trimList, hfront h, dropWhileEnd, hfront fun c hc => h c (List.mem_reverse.mp hc), List.reverse_reverse]

end Text

theorem writesInteger_of_mem_toString {n : Int} {c : Char} (h : c ∈ (toString n).toList) :
    Text.writesInteger c = true := by
  have hdigit {m : Nat} (hc : c ∈ Nat.toDigits 10 m) : Text.writesInteger c = true := by
    rw [Text.writesInteger, Notation.isDigit_of_mem_toDigits c hc, Bool.true_or]
  cases n with
  | ofNat m =>
    rw [Int.ofNat_eq_natCast, toString_natCast, String.toList_ofList] at h
    exact hdigit h
  | negSucc m =>
    rw [toString_negSucc, String.toList_ofList, List.mem_cons] at h
    rcases h with rfl | h
    · rfl
    · exact hdigit h

theorem trim_toString (n : Int) : Text.trim (toString n) = toString n := by
  have hblank : ∀ c ∈ (toString n).toList, Text.isBlank c = false := by
    intro c hc
    have hwrites := writesInteger_of_mem_toString hc
    rw [Text.writesInteger, Bool.or_eq_true, beq_iff_eq] at hwrites
    rcases hwrites with hdigit | rfl
    · exact Text.isBlank_of_isDigit hdigit
    · decide
  rw [Text.trim, Text.trimList_of_forall hblank, String.ofList_toList]

theorem int?_toString (n : Int) : Numeral.int? 10 (toString n).toList = some n := by
  obtain ⟨w, hdecimal, hchars, hvalue⟩ := IntegerText.exists_of_toString n
  have hdigits := w.isDigit
  rw [IntegerText.chars, hdecimal] at hchars
  rw [IntegerText.value, hdecimal] at hvalue
  rw [hdecimal] at hdigits
  exact Convert.int?_eq_some_iff.mpr ⟨w.sign, w.digits, hchars.symm, w.digits_ne_nil, hdigits, hvalue⟩

/-- What is written like an integer, case apart, is written so. -/
theorem eq_toString_of_sameAscii {s : String} {n : Int} (h : Text.sameAscii s (toString n) = true) :
    s = toString n :=
  String.toList_inj.mp (Text.eq_of_map_toLower_eq (fun _ => writesInteger_of_mem_toString) (eq_of_beq h))

/-! ## Members of an enumeration -/

namespace EnumType.Legible

variable {t : EnumType}

theorem eq_of_sameAscii (h : t.Legible) {a b : String × Long} (ha : a ∈ t.members) (hb : b ∈ t.members)
    (hsame : Text.sameAscii a.1 b.1 = true) : a = b := by
  have : Std.Symm fun a b : String × Long => Text.sameAscii a.1 b.1 = false :=
    ⟨fun _ _ hapart => BEq.comm.trans hapart⟩
  by_contra hne
  have hother := h.apart.forall ha hb hne
  rw [hsame] at hother
  cases hother

/-- The first member with a number is the one of its name. -/
theorem number?_of_nameOf? (h : t.Legible) {n : Long} {name : String} (hname : t.nameOf? n = some name) :
    t.number? name = some n := by
  obtain ⟨m, hm, rfl⟩ := Option.map_eq_some_iff.mp hname
  have hmem := List.mem_of_find?_eq_some hm
  have hfirst := List.find?_some hm
  have hnumber : m.2 = n := eq_of_beq hfirst
  have hfound : t.members.find? (fun a => Text.sameAscii a.1 m.1) = some m := by
    have hexists : (t.members.find? fun a => Text.sameAscii a.1 m.1).isSome = true :=
      List.find?_isSome.mpr ⟨m, hmem, beq_self_eq_true _⟩
    obtain ⟨m', hm'⟩ := Option.isSome_iff_exists.mp hexists
    have hsame := List.find?_some hm'
    rw [hm', h.eq_of_sameAscii (List.mem_of_find?_eq_some hm') hmem hsame]
  rw [number?, hfound, Option.map_some, hnumber]

/-- No member has the name that a number is written as. -/
theorem number?_toString (h : t.Legible) (n : Long) : t.number? (toString n.val) = none := by
  have hnone : t.members.find? (fun m => Text.sameAscii m.1 (toString n.val)) = none := by
    rw [List.find?_eq_none]
    intro m hm hsame
    have hread := h.not_number m hm
    rw [eq_toString_of_sameAscii hsame, int?_toString, Option.bind_some, Integer.ofInt?,
      dif_pos n.property] at hread
    cases hread
  rw [number?, hnone]
  rfl

theorem trim_text (h : t.Legible) (n : Long) : Text.trim (EnumValue.text ⟨t, n⟩) = EnumValue.text ⟨t, n⟩ := by
  rw [EnumValue.text]
  split
  next name hname =>
    obtain ⟨m, hm, rfl⟩ := Option.map_eq_some_iff.mp hname
    exact h.trimmed m (List.mem_of_find?_eq_some hm)
  next => exact trim_toString n.val

/-- A member is read from its text. -/
theorem enumText?_text (h : t.Legible) (n : Long) :
    Convert.enumText? t (EnumValue.text ⟨t, n⟩) = some n := by
  rw [EnumValue.text]
  split
  next name hname => rw [Convert.enumText?, h.number?_of_nameOf? hname]
  next =>
    rw [Convert.enumText?, h.number?_toString, int?_toString]
    exact dif_pos n.property

end EnumType.Legible

/-! ## Conversion to text and back -/

namespace Convert

/-- A value that is not null is back if its type reads it in its text. -/
theorem convert_back {T : ValueType} {v : Value} (hv : v.isNull = false)
    (h : convert T (.str v.text) = .ok v) : (convert .string v).bind (convert T) = .ok v := by
  have hstring : convert .string v = .ok (.str v.text) := by
    cases v with
    | null => cases hv
    | _ => rfl
  rw [hstring]
  exact h

theorem convert_bool_text (b : Bool) : convert .bool (.str (Value.bool b).text) = .ok (.bool b) := by
  have hread : boolText? (if b then "true" else "false") = some b := by cases b <;> decide +kernel
  simp only [convert, toBool, Value.text, hread, Except.map]

theorem convert_char_text (c : Char) : convert .char (.str (Value.char c).text) = .ok (.char c) := by
  simp only [convert, toChar, Value.text, String.toList_singleton, Except.map]

theorem convert_int_text (i : Integer) : convert (.int i.kind) (.str (Value.int i).text) = .ok (.int i) := by
  obtain ⟨w, -, hchars, hvalue⟩ := IntegerText.exists_of_toString i.val
  have hs : w.chars = (Text.trim (Value.int i).text).toList := by
    rw [hchars, Value.text, trim_toString]
  have hholds : i.kind.Holds w.value := hvalue ▸ i.holds
  rw [convert_of_holds hs hholds]
  obtain ⟨k, n, hn⟩ := i
  subst hvalue
  rfl

theorem convert_enum_text {t : EnumType} (h : t.Legible) (n : Long) :
    convert (.enum t) (.str (Value.enum ⟨t, n⟩).text) = .ok (.enum ⟨t, n⟩) := by
  simp only [convert, toEnum, Value.text, h.trim_text, h.enumText?_text, Except.map]

/-- Converted to text and back, a value of a legible type is itself again. -/
theorem text_converted_back {T : ValueType} {v : Value} (hT : T.Legible) (hv : v.Inhabits T) :
    (convert .string v).bind (convert T) = .ok v := by
  cases hT with
  | bool =>
    cases hv with
    | bool b => exact convert_back rfl (convert_bool_text b)
  | char =>
    cases hv with
    | char c => exact convert_back rfl (convert_char_text c)
  | int =>
    cases hv with
    | int i => exact convert_back rfl (convert_int_text i)
  | enum ht =>
    cases hv with
    | enum e => exact convert_back rfl (convert_enum_text ht e.number)

/-- Two names for one number, an empty name, and numbers without a name. -/
def level : EnumType where
  name := "Level"
  members := [("Low", .ofInt 0), ("Default", .ofInt 0), ("", .ofInt 9223372036854775807), ("٣", .ofInt (-3))]

theorem level_converted_back :
    let v (n : Int) : Value := .enum ⟨level, .ofInt n⟩
    level.Legible ∧ (∀ n, (v n).Inhabits (.enum level)) ∧
      (convert .string (v 0)).bind (convert (.enum level)) = .ok (v 0) ∧
      (convert .string (v (-7))).bind (convert (.enum level)) = .ok (v (-7)) := by
  have h : level.Legible :=
    ⟨by decide +kernel, by decide +kernel, by decide +kernel⟩
  exact ⟨h, fun n => .enum _, text_converted_back (.enum h) (.enum _), text_converted_back (.enum h) (.enum _)⟩

end Convert

end ActionTree
