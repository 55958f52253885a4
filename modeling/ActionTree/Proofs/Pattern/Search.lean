import ActionTree.Pattern.Substring
import ActionTree.Proofs.Text.Case
import ActionTree.Proofs.Text.Cut

/-!
# Substring search

The plain search goes through a text character by character and finds the leftmost part that spells the
needle. The search byte by byte and the one window by window count in bytes, and take what they compare out
of the text by these counts: neither leaves the text or cuts a character, and what they find is what the
plain search finds.
-/

namespace ActionTree.Substring

open Text

/-! ## The plain search -/

/-- The needle is in small letters already. -/
def asciiFolded : Window := fun needle window => needle == window.map Char.toLower

def folded : Window := fun needle window => needle == lowerAfter [] window

/-- The way in which the needle is compared with a text. -/
def Needle.window (n : Needle) (text : List Char) : Window :=
  if !n.ignoreCase then exact
  else if isAscii text && isAscii n.chars then asciiFolded
  else folded

theorem folded_eq_true_iff {needle window : List Char} :
    folded needle window = true ↔ lowerAfter [] window = needle := by
  rw [folded, beq_iff_eq, eq_comm]

/-- The text is as long as the needle and spells it. -/
def Fits (same : Window) (needle w : List Char) : Prop :=
  w.length = needle.length ∧ same needle w = true

section Plain

variable {same : Window} {needle text rest before after : List Char} {c : Char}

theorem findBy_front (h : Fits same needle (text.take needle.length)) :
    findBy same needle text = some ([], text.drop needle.length) := by
  rw [findBy.eq_def]
  exact if_pos h

theorem findBy_nil (h : ¬ Fits same needle []) : findBy same needle [] = none := by
  rw [← List.take_nil (i := needle.length)] at h
  rw [findBy.eq_def]
  exact if_neg h

theorem findBy_cons (h : ¬ Fits same needle ((c :: rest).take needle.length)) :
    findBy same needle (c :: rest) = (findBy same needle rest).map fun r => (c :: r.1, r.2) := by
  rw [findBy.eq_def]
  exact if_neg h

/-- No text has a longer one in it. -/
theorem findBy_of_length_lt (h : text.length < needle.length) : findBy same needle text = none := by
  induction text with
  | nil => exact findBy_nil fun hfits => Nat.ne_of_lt h hfits.1
  | cons c rest ih =>
      have hfront : ¬ Fits same needle ((c :: rest).take needle.length) := by
        intro hfits
        have hlength := hfits.1
        rw [List.length_take] at hlength
        omega
      have hrest : rest.length < needle.length := Nat.lt_of_succ_lt h
      rw [findBy_cons hfront, ih hrest, Option.map_none]

/-- The positions that are tried are those at which the needle ends within the text. -/
theorem findBy_eq_find? : findBy same needle text =
    ((List.range (text.length + 1 - needle.length)).find? fun i =>
      same needle ((text.drop i).take needle.length)).map fun i =>
        (text.take i, text.drop (i + needle.length)) := by
  induction text with
  | nil =>
      cases needle with
      | cons d needle => simp [findBy_of_length_lt]
      | nil =>
          by_cases hsame : same [] [] = true
          · rw [findBy_front ⟨rfl, hsame⟩]
            simp [hsame]
          · rw [findBy_nil fun hfits => hsame hfits.2]
            simp [hsame]
  | cons c rest ih =>
      by_cases hlong : (c :: rest).length < needle.length
      · rw [findBy_of_length_lt hlong, Nat.sub_eq_zero_of_le hlong]
        rfl
      · have hrange : (c :: rest).length + 1 - needle.length = rest.length + 1 - needle.length + 1 := by
          rw [List.length_cons] at hlong ⊢
          omega
        have hwindow : ((c :: rest).take needle.length).length = needle.length := by
          rw [List.length_take]
          omega
        rw [hrange, List.range_succ_eq_map, List.find?_cons, List.drop_zero]
        by_cases hsame : same needle ((c :: rest).take needle.length) = true
        · rw [findBy_front ⟨hwindow, hsame⟩]
          simp [hsame]
        · rw [findBy_cons fun hfits => hsame hfits.2, ih, List.find?_map]
          simp [hsame, Function.comp_def, Nat.add_right_comm]

theorem findBy_congr {same' : Window} (h : ∀ w, w <:+: text → same needle w = same' needle w) :
    findBy same needle text = findBy same' needle text := by
  have hwindow : ∀ i, same needle ((text.drop i).take needle.length) =
      same' needle ((text.drop i).take needle.length) := fun i =>
    h _ ((List.take_prefix _ _).isInfix.trans (List.drop_suffix _ _).isInfix)
  rw [findBy_eq_find?, findBy_eq_find?, funext hwindow]

theorem Fits.take_eq {w v : List Char} (h : Fits same needle w) :
    (w ++ v).take needle.length = w := by
  rw [← h.1, List.take_left]

theorem leftmost_of_findBy (h : findBy same needle text = some (before, after)) :
    ∃ found, Leftmost (Fits same needle) text before found after := by
  induction text generalizing before with
  | nil =>
      by_cases hfront : Fits same needle []
      · rw [findBy_front (by simpa using hfront)] at h
        cases h
        exact ⟨[], by simp, hfront, by simp⟩
      · rw [findBy_nil hfront] at h
        cases h
  | cons c rest ih =>
      by_cases hfront : Fits same needle ((c :: rest).take needle.length)
      · rw [findBy_front hfront] at h
        cases h
        exact ⟨_, by simp, hfront, by simp⟩
      · rw [findBy_cons hfront] at h
        obtain ⟨r, hrest, hr⟩ := Option.map_eq_some_iff.mp h
        cases hr
        obtain ⟨found, hfirst⟩ := ih hrest
        refine ⟨found, by simp [hfirst.text_eq], hfirst.holds, ?_⟩
        intro u w v htext hw
        cases u with
        | nil =>
            rw [htext, List.nil_append, hw.take_eq] at hfront
            exact absurd hw hfront
        | cons d u =>
            obtain ⟨-, hrest⟩ := List.cons.inj htext
            exact Nat.succ_le_succ (hfirst.first u w v hrest hw)

theorem not_fits_of_findBy (h : findBy same needle text = none) {w : List Char} (hw : w <:+: text) :
    ¬ Fits same needle w := by
  intro hfits
  obtain ⟨u, v, htext⟩ := hw
  induction text generalizing u with
  | nil =>
      obtain rfl : w = [] := by simp_all
      rw [findBy_front (by simpa using hfits)] at h
      cases h
  | cons c rest ih =>
      by_cases hfront : Fits same needle ((c :: rest).take needle.length)
      · rw [findBy_front hfront] at h
        cases h
      · rw [findBy_cons hfront, Option.map_eq_none_iff] at h
        cases u with
        | nil =>
            rw [← htext, List.nil_append, hfits.take_eq] at hfront
            exact hfront hfits
        | cons d u => exact ih h u (List.cons.inj htext).2

theorem prefixFree_fits (same : Window) (needle : List Char) : PrefixFree (Fits same needle) :=
  fun _ _ hstarts hw hw' => hstarts.eq_of_length (hw.1.trans hw'.1.symm)

/-- The plain search finds what is leftmost. -/
theorem findBy_eq_some_iff : findBy same needle text = some (before, after) ↔
    ∃ found, Leftmost (Fits same needle) text before found after := by
  constructor
  · exact leftmost_of_findBy
  · rintro ⟨found, hfirst⟩
    cases hfind : findBy same needle text with
    | none => exact absurd hfirst.holds (not_fits_of_findBy hfind hfirst.infix)
    | some r =>
        obtain ⟨found', hfirst'⟩ := leftmost_of_findBy hfind
        obtain ⟨rfl, -, rfl⟩ := hfirst.unique hfirst' (prefixFree_fits same needle)
        rfl

end Plain

/-! ## Counting bytes -/

section Counting

variable {text before part after : List Char} {c : Char}

@[simp] theorem byteLength_nil : byteLength [] = 0 := rfl

@[simp] theorem byteLength_cons : byteLength (c :: text) = c.utf8Size + byteLength text := rfl

@[simp] theorem byteLength_append : byteLength (before ++ after) = byteLength before + byteLength after := by
  induction before with
  | nil => simp
  | cons c before ih => simp [ih, Nat.add_assoc]

theorem length_startsFrom (offset : Nat) (text : List Char) : (startsFrom offset text).length = text.length := by
  induction text generalizing offset with
  | nil => rfl
  | cons c rest ih => simp [startsFrom, ih]

/-- The place after `k` characters is where the next one starts, or the end if there is none. -/
theorem getD_startsFrom (offset : Nat) {k : Nat} (h : k ≤ text.length) :
    (startsFrom offset text)[k]?.getD (offset + byteLength text) = offset + byteLength (text.take k) := by
  induction text generalizing offset k with
  | nil => simp [startsFrom]
  | cons c rest ih =>
      cases k with
      | zero => simp [startsFrom]
      | succ k =>
          have hrest := ih (offset + c.utf8Size) (Nat.le_of_succ_le_succ h)
          simpa [startsFrom, Nat.add_assoc] using hrest

theorem cutAt?_cons (n : Nat) :
    cutAt? (c.utf8Size + n) (c :: text) = (cutAt? n text).map fun r => (c :: r.1, r.2) := by
  obtain ⟨m, hm⟩ := Nat.exists_eq_add_of_lt (Nat.add_pos_left c.utf8Size_pos n)
  rw [Nat.zero_add] at hm
  have hle : c.utf8Size ≤ m + 1 := by omega
  have hrest : m + 1 - c.utf8Size = n := by omega
  rw [hm, cutAt?, if_pos hle, hrest]

/-- A text can be cut between any two characters. -/
theorem cutAt?_append : cutAt? (byteLength before) (before ++ after) = some (before, after) := by
  induction before with
  | nil => cases after <;> rfl
  | cons c before ih => rw [byteLength_cons, List.cons_append, cutAt?_cons, ih, Option.map_some]

theorem slice?_append (before part after : List Char) :
    slice? ⟨byteLength before, byteLength before + byteLength part⟩ (before ++ (part ++ after)) = some part := by
  have hpart : byteLength before + byteLength part - byteLength before = byteLength part :=
    Nat.add_sub_cancel_left _ _
  simp [slice?, cutAt?_append, hpart]

/-- The end of a window, whether a character follows it or the text ends with it. -/
theorem getD_startsFrom_window (before : List Char) {k : Nat} (h : k ≤ after.length) :
    (startsFrom 0 (before ++ after))[before.length + k]?.getD (byteLength (before ++ after)) =
      byteLength before + byteLength (after.take k) := by
  have hwithin : before.length + k ≤ (before ++ after).length := by
    rw [List.length_append]
    omega
  have hstart := getD_startsFrom 0 hwithin
  rw [Nat.zero_add, Nat.zero_add] at hstart
  rw [hstart, List.take_length_add_append, byteLength_append]

end Counting

/-- The bytes between what is before and what is after. -/
def between (text : List Char) (r : List Char × List Char) : ByteRange :=
  ⟨byteLength r.1, byteLength text - byteLength r.2⟩

theorem between_append (before part after : List Char) :
    between (before ++ (part ++ after)) (before, after) =
      ⟨byteLength before, byteLength before + byteLength part⟩ := by
  simp only [between, byteLength_append, ByteRange.mk.injEq, true_and]
  omega

/-! ## Window by window -/

section Windows

variable {text needle before rest : List Char}

/-- By induction on the characters whose windows are still to be looked at. -/
theorem findAmong?_eq (hneedle : needle ≠ []) (htext : text = before ++ rest) :
    findAmong? text needle (startsFrom 0 text) ((startsFrom (byteLength before) rest).zipIdx before.length) =
      some ((findBy folded needle rest).map fun r => between text (before ++ r.1, r.2)) := by
  induction rest generalizing before with
  | nil =>
      have hempty : ([] : List Char).length < needle.length := List.length_pos_iff.mpr hneedle
      rw [findBy_of_length_lt hempty]
      rfl
  | cons c rest ih =>
      have hlength : text.length = before.length + (c :: rest).length := by rw [htext, List.length_append]
      rw [startsFrom, List.zipIdx_cons, findAmong?, length_startsFrom]
      by_cases hlong : (c :: rest).length < needle.length
      · rw [if_pos (by omega), findBy_of_length_lt hlong]
        rfl
      · have hstop := getD_startsFrom_window before (Nat.le_of_not_lt hlong)
        have hwindow := slice?_append before ((c :: rest).take needle.length) ((c :: rest).drop needle.length)
        have hbetween := between_append before ((c :: rest).take needle.length)
          ((c :: rest).drop needle.length)
        rw [← htext] at hstop
        rw [List.take_append_drop, ← htext] at hwindow hbetween
        rw [if_neg (by omega), hstop, hwindow, Option.bind_eq_bind, Option.bind_some]
        by_cases hsame : lowerAfter [] ((c :: rest).take needle.length) = needle
        · have hfits : Fits folded needle ((c :: rest).take needle.length) :=
            ⟨List.length_take_of_le (Nat.le_of_not_lt hlong), folded_eq_true_iff.mpr hsame⟩
          rw [if_pos (beq_iff_eq.mpr hsame), findBy_front hfits, Option.map_some, List.append_nil, hbetween]
          rfl
        · have hfits : ¬ Fits folded needle ((c :: rest).take needle.length) :=
            fun hfits => hsame (folded_eq_true_iff.mp hfits.2)
          have hrest := @ih (before ++ [c]) (by rw [htext, List.append_assoc]; rfl)
          rw [if_neg (mt beq_iff_eq.mp hsame), findBy_cons hfits]
          simpa [Function.comp_def] using hrest

/-- An empty needle is found in front of the first character, so it is not found in the empty text. -/
theorem findWindow?_eq (h : needle ≠ [] ∨ text ≠ []) :
    findWindow? text needle = some ((findBy folded needle text).map (between text)) := by
  by_cases hneedle : needle = []
  · cases text with
    | nil => simp [hneedle] at h
    | cons c rest =>
        subst hneedle
        have hfits : Fits folded [] ((c :: rest).take 0) := ⟨rfl, rfl⟩
        rw [findBy_front hfits]
        simp [findWindow?, startsFrom, findAmong?, slice?, cutAt?, between, lowerAfter]
  · exact findAmong?_eq hneedle (List.nil_append text).symm

end Windows

/-! ## Byte by byte -/

theorem toNat_lt_of_isAscii {cs : List Char} (h : isAscii cs = true) {c : Char} (hc : c ∈ cs) :
    c.toNat < 128 := by
  simpa using List.all_eq_true.mp h c hc

section Ascii

variable {c d : Char} {cs text needle window w : List Char}

/-- The only byte of a character of the ASCII range. -/
def asciiByte (c : Char) : UInt8 := c.val.toUInt8

theorem utf8Size_of_lt (h : c.toNat < 128) : c.utf8Size = 1 := by
  rw [Char.utf8Size_eq_one_iff, UInt32.le_iff_toNat_le]
  exact Nat.le_of_lt_succ h

theorem toNat_asciiByte (h : c.toNat < 128) : (asciiByte c).toNat = c.toNat := by
  rw [asciiByte, UInt32.toNat_toUInt8]
  exact Nat.mod_eq_of_lt (Nat.lt_trans h (by decide))

theorem asciiByte_inj (hc : c.toNat < 128) (hd : d.toNat < 128) : asciiByte c = asciiByte d ↔ c = d := by
  rw [← UInt8.toNat_inj, toNat_asciiByte hc, toNat_asciiByte hd, Char.toNat_inj]

/-- A letter is made small in the same way as a byte and as a character. -/
theorem lowerByte_asciiByte (h : c.toNat < 128) : lowerByte (asciiByte c) = asciiByte c.toLower := by
  have hall : ∀ n < 128, lowerByte (asciiByte (Char.ofNat n)) = asciiByte (Char.ofNat n).toLower := by decide +kernel
  simpa [Char.ofNat_toNat] using hall c.toNat h

theorem toNat_toLower_lt (h : c.toNat < 128) : c.toLower.toNat < 128 := by
  have hall : ∀ n < 128, (Char.ofNat n).toLower.toNat < 128 := by decide +kernel
  simpa [Char.ofNat_toNat] using hall c.toNat h

theorem bytes_of_ascii (h : ∀ c ∈ cs, c.toNat < 128) : bytes cs = cs.map asciiByte := by
  induction cs with
  | nil => rfl
  | cons c rest ih =>
      obtain ⟨hc, hrest⟩ := List.forall_mem_cons.mp h
      have hbytes : bytes (c :: rest) = String.utf8EncodeChar c ++ bytes rest := rfl
      rw [hbytes, String.utf8EncodeChar_eq_singleton (utf8Size_of_lt hc), ih hrest]
      rfl

theorem byteLength_of_ascii (h : ∀ c ∈ cs, c.toNat < 128) : byteLength cs = cs.length := by
  induction cs with
  | nil => rfl
  | cons c rest ih =>
      obtain ⟨hc, hrest⟩ := List.forall_mem_cons.mp h
      rw [byteLength_cons, utf8Size_of_lt hc, ih hrest, List.length_cons, Nat.add_comm]

/-- A window of bytes spells the needle exactly if its characters do. -/
theorem zip_all_asciiByte (hlength : window.length = needle.length) (hwindow : ∀ c ∈ window, c.toNat < 128)
    (hneedle : ∀ c ∈ needle, c.toNat < 128) :
    (((window.map asciiByte).zip (needle.map asciiByte)).all fun (a, b) => lowerByte a == b) =
      asciiFolded needle window := by
  induction window generalizing needle with
  | nil =>
      cases needle with
      | nil => rfl
      | cons d needle => cases hlength
  | cons c window ih =>
      cases needle with
      | nil => cases hlength
      | cons d needle =>
          obtain ⟨hc, hwindow⟩ := List.forall_mem_cons.mp hwindow
          obtain ⟨hd, hneedle⟩ := List.forall_mem_cons.mp hneedle
          have hrest := ih (Nat.succ.inj hlength) hwindow hneedle
          have hfirst : (lowerByte (asciiByte c) == asciiByte d) = (d == c.toLower) := by
            rw [lowerByte_asciiByte hc, Bool.eq_iff_iff, beq_iff_eq, beq_iff_eq,
              asciiByte_inj (toNat_toLower_lt hc) hd, eq_comm]
          simp only [List.map_cons, List.zip_cons_cons, List.all_cons, hrest, hfirst]
          rfl

theorem findM?_eq_some {α : Type} {l : List α} {p : α → Option Bool} {q : α → Bool}
    (h : ∀ a ∈ l, p a = some (q a)) : l.findM? p = some (l.find? q) := by
  induction l with
  | nil => rfl
  | cons a l ih =>
      obtain ⟨ha, hl⟩ := List.forall_mem_cons.mp h
      rw [List.findM?, ha, List.find?_cons, ih hl]
      cases q a <;> rfl

theorem byteSlice?_map_asciiByte {i k : Nat} (h : i + k ≤ text.length) :
    byteSlice? ⟨i, i + k⟩ (text.map asciiByte) = some (((text.drop i).take k).map asciiByte) := by
  have hwithin : i ≤ i + k ∧ i + k ≤ (text.map asciiByte).length := by simpa using h
  have hlength : i + k - i = k := Nat.add_sub_cancel_left _ _
  rw [byteSlice?, if_pos hwithin, List.extract, hlength, List.map_take, List.map_drop]

theorem between_of_ascii {i k : Nat} (htext : ∀ c ∈ text, c.toNat < 128) (h : i + k ≤ text.length) :
    between text (text.take i, text.drop (i + k)) = ⟨i, i + k⟩ := by
  have hbefore : byteLength (text.take i) = i := by
    rw [byteLength_of_ascii fun c hc => htext c (List.mem_of_mem_take hc), List.length_take]
    omega
  have hafter : byteLength text - byteLength (text.drop (i + k)) = i + k := by
    rw [byteLength_of_ascii htext, byteLength_of_ascii fun c hc => htext c (List.mem_of_mem_drop hc),
      List.length_drop]
    omega
  rw [between, hbefore, hafter]

theorem findBytes?_eq (htext : isAscii text = true) (hneedle : isAscii needle = true) :
    findBytes? (bytes text) (bytes needle) = some ((findBy asciiFolded needle text).map (between text)) := by
  replace htext : ∀ c ∈ text, c.toNat < 128 := fun c hc => toNat_lt_of_isAscii htext hc
  replace hneedle : ∀ c ∈ needle, c.toNat < 128 := fun c hc => toNat_lt_of_isAscii hneedle hc
  rw [bytes_of_ascii htext, bytes_of_ascii hneedle, findBytes?, List.length_map, List.length_map]
  by_cases hempty : needle = []
  · subst hempty
    have hfits : Fits asciiFolded [] (text.take 0) := ⟨rfl, rfl⟩
    rw [findBy_front hfits]
    simp [between]
  rw [if_neg (by simpa using hempty)]
  by_cases hlong : text.length < needle.length
  · rw [if_pos hlong, findBy_of_length_lt hlong]
    rfl
  · have hrange : text.length - needle.length + 1 = text.length + 1 - needle.length := by omega
    have hplaces : ∀ i ∈ List.range (text.length + 1 - needle.length), i + needle.length ≤ text.length := by
      intro i hi
      have := List.mem_range.mp hi
      omega
    rw [if_neg hlong, hrange, findBy_eq_find?,
      findM?_eq_some (q := fun i => asciiFolded needle ((text.drop i).take needle.length))]
    · simp only [Option.bind_eq_bind, Option.bind_some, Option.map_map]
      refine congrArg some (Option.map_congr fun i hi => ?_)
      exact (between_of_ascii htext (hplaces i (List.mem_of_find?_eq_some hi))).symm
    · intro i hi
      have hwithin := hplaces i hi
      have hlength : ((text.drop i).take needle.length).length = needle.length := by
        rw [List.length_take, List.length_drop]
        omega
      have hwindow : ∀ c ∈ (text.drop i).take needle.length, c.toNat < 128 :=
        fun c hc => htext c (List.mem_of_mem_drop (List.mem_of_mem_take hc))
      rw [byteSlice?_map_asciiByte hwithin, ← zip_all_asciiByte hlength hwindow hneedle]
      rfl

/-- In a text of the ASCII range, no letter depends on those around it. -/
theorem lowerAfter_of_isAscii (htext : isAscii text = true) (hw : w <:+: text) :
    lowerAfter [] w = w.map Char.toLower :=
  lowerAfter_eq_map_toLower [] fun _ hc => toNat_lt_of_isAscii htext (hw.subset hc)

theorem fits_folded_iff (htext : isAscii text = true) (hw : w <:+: text) :
    Fits folded needle w ↔ lowerAfter [] w = needle := by
  refine ⟨fun hfits => folded_eq_true_iff.mp hfits.2, fun hsame => ⟨?_, folded_eq_true_iff.mpr hsame⟩⟩
  rw [← hsame, lowerAfter_of_isAscii htext hw, List.length_map]

theorem findBy_asciiFolded (htext : isAscii text = true) :
    findBy asciiFolded needle text = findBy folded needle text :=
  findBy_congr fun w hw => by rw [asciiFolded, folded, lowerAfter_of_isAscii htext hw]

end Ascii

/-! ## The search of a needle -/

/-- The bytes of what is found are those of a part of the text. -/
theorem between_of_leftmost {P : List Char → Prop} {text before found after : List Char}
    (h : Leftmost P text before found after) :
    between text (before, after) = ⟨byteLength before, byteLength before + byteLength found⟩ := by
  rw [h.text_eq, List.append_assoc, between_append]

theorem findExact?_eq (text needle : List Char) :
    findExact? text needle = (findBy exact needle text).map (between text) := by
  refine Option.map_congr fun r hr => ?_
  obtain ⟨found, hfirst⟩ := leftmost_of_findBy hr
  have hfound : needle = found := beq_iff_eq.mp hfirst.holds.2
  rw [hfound]
  exact (between_of_leftmost hfirst).symm

namespace Needle

variable (n : Needle) (text : List Char)

/-- All three ways to search are the plain search, and none leaves the text. -/
theorem range?_eq : n.range? text = some ((findBy (n.window text) n.chars text).map (between text)) := by
  obtain ⟨chars, ignoreCase⟩ := n
  cases ignoreCase with
  | false => exact congrArg some (findExact?_eq text chars)
  | true =>
      by_cases hascii : isAscii text = true ∧ isAscii chars = true
      · simp [range?, window, hascii, findBytes?_eq]
      · have hother : (isAscii text && isAscii chars) = false := by simpa using hascii
        have hsome : chars ≠ [] ∨ text ≠ [] := by
          by_contra hnone
          obtain ⟨rfl, rfl⟩ : chars = [] ∧ text = [] := by simpa using hnone
          exact hascii ⟨rfl, rfl⟩
        simp [range?, window, hother, findWindow?_eq hsome]

theorem find?_eq : n.find? text = findBy (n.window text) n.chars text := by
  rw [find?, range?_eq]
  cases hfind : findBy (n.window text) n.chars text with
  | none => rfl
  | some r =>
      obtain ⟨before, after⟩ := r
      obtain ⟨found, hfirst⟩ := leftmost_of_findBy hfind
      have hcut : cutAt? (byteLength before) text = some (before, found ++ after) := by
        rw [hfirst.text_eq, List.append_assoc, cutAt?_append]
      have hcut' : cutAt? (byteLength before + byteLength found) text = some (before ++ found, after) := by
        rw [hfirst.text_eq, ← byteLength_append, cutAt?_append]
      simp [between_of_leftmost hfirst, hcut, hcut']

end Needle

/-! ## Two searches of one kind -/

/-- For a text and a needle of the ASCII range, one that is not empty, the search byte by byte and the one
window by window end with the same answer, and neither leaves the text: the bytes of the leftmost part that
is the needle in small letters, or none if there is no such part. -/
theorem ascii_searches_agree {text needle : List Char} (htext : isAscii text = true)
    (hneedle : isAscii needle = true) (hne : needle ≠ []) :
    ∃ answer, findBytes? (bytes text) (bytes needle) = some answer ∧ findWindow? text needle = some answer ∧
      ∀ range, answer = some range ↔ ∃ before part after,
        Leftmost (fun w => lowerAfter [] w = needle) text before part after ∧
          range = ⟨byteLength before, byteLength before + byteLength part⟩ := by
  have hbytes := findBytes?_eq htext hneedle
  rw [findBy_asciiFolded htext] at hbytes
  refine ⟨_, hbytes, findWindow?_eq (.inl hne), fun range => ?_⟩
  rw [Option.map_eq_some_iff]
  constructor
  · rintro ⟨⟨before, after⟩, hfind, rfl⟩
    obtain ⟨part, hfirst⟩ := leftmost_of_findBy hfind
    exact ⟨before, part, after, hfirst.congr fun w hw => fits_folded_iff htext hw, between_of_leftmost hfirst⟩
  · rintro ⟨before, part, after, hfirst, rfl⟩
    replace hfirst := hfirst.congr fun w hw => (fits_folded_iff htext hw).symm
    exact ⟨(before, after), findBy_eq_some_iff.mpr ⟨part, hfirst⟩, between_of_leftmost hfirst⟩

/-- Both searches find the last window of a text. -/
theorem ascii_searches_agree_at_end :
    isAscii "xxAb".toList = true ∧ isAscii "ab".toList = true ∧ "ab".toList ≠ [] ∧
      ∃ answer, findBytes? (bytes "xxAb".toList) (bytes "ab".toList) = some answer ∧
        findWindow? "xxAb".toList "ab".toList = some answer ∧ answer = some ⟨2, 4⟩ := by
  have htext : isAscii "xxAb".toList = true := by decide
  have hneedle : isAscii "ab".toList = true := by decide
  have hne : "ab".toList ≠ [] := by decide
  obtain ⟨answer, hbytes, hwindow, -⟩ := ascii_searches_agree htext hneedle hne
  refine ⟨htext, hneedle, hne, answer, hbytes, hwindow, ?_⟩
  have hanswer : findWindow? "xxAb".toList "ab".toList = some (some ⟨2, 4⟩) := by decide +kernel
  exact Option.some.inj (hwindow.symm.trans hanswer)

end ActionTree.Substring
