import ActionTree.Function
import ActionTree.Proofs.Position
import ActionTree.Proofs.Text.Search

/-!
# Parts of a text

The methods that take a part of a text, leave one out or put one in fit together, whatever integers they are
given, and the methods that search a text say where such a part is. The built-in functions for both agree
with the methods.
-/

namespace ActionTree

/-! ## Integers as positions -/

namespace Slicing

variable {α β γ : Type} {cs : List Char}

theorem map_map (op : Slicing α) (f : α → β) (g : β → γ) : (op.map f).map g = op.map fun n => g (f n) := by
  cases op with
  | substring _ length | remove _ length => cases length <;> rfl
  | _ => rfl

theorem method_map (op : Slicing α) (f : α → β) : (op.map f).method = op.method := by
  cases op <;> rfl

/-- The cut to 64 bits moves no integer into the text. -/
theorem result?_cut (op : Slicing Integer) (hcs : cs.length ≤ IntKind.long.greatest) :
    (op.map fun i => IntKind.long.cut i.val).result? cs = (op.map Integer.val).result? cs := by
  have hsame (h : ∀ i ∈ op.numbers, IntKind.long.cut i.val = i.val) :
      (op.map fun i => IntKind.long.cut i.val) = op.map Integer.val := map_congr h
  by_cases hcut : ((op.map fun i => IntKind.long.cut i.val).result? cs).isSome
  · rw [hsame fun i hi => ?_]
    have hmem := List.mem_map_of_mem (f := fun i => IntKind.long.cut i.val) hi
    rw [← numbers_map] at hmem
    exact Integer.cut_long_of_nonneg (numbers_within hcut _ hmem).1
  by_cases hval : ((op.map Integer.val).result? cs).isSome
  · rw [hsame fun i hi => ?_]
    have hmem := List.mem_map_of_mem (f := Integer.val) hi
    rw [← numbers_map] at hmem
    have hwithin := numbers_within hval _ hmem
    have hlimit : (longestAllocation : Int) ≤ IntKind.long.greatest := by decide
    have hleast : IntKind.long.least ≤ 0 := by decide
    exact IntKind.cut_of_holds ⟨by omega, by omega⟩
  · rw [Option.not_isSome_iff_eq_none.mp hcut, Option.not_isSome_iff_eq_none.mp hval]

end Slicing

/-- The call gives the text, or a runtime fault if there is none. -/
def Answered (r : Except Fault Value) : Option (List Char) → Prop
  | some cs => r = .ok (.ofChars cs)
  | none => ∃ f, r = .error (.runtime f)

theorem Slicing.answered_cut (host : Host) (s name : String) (op : Slicing Integer)
    (hname : Text.lowerAscii name = op.method) :
    Answered (Member.call host (.str s) name (op.map Value.int).args)
      ((op.map fun i => IntKind.long.cut i.val).result? s.toList) := by
  have hperform : ((op.map Value.int).perform s.toList).toOption =
      (op.map fun i => IntKind.long.cut i.val).result? s.toList := by
    have h := @toOption_perform s.toList (op.map Numeric.int)
    rwa [map_map, map_map] at h
  have hcall : Member.call host (.str s) name (op.map Value.int).args =
      (((op.map Value.int).perform s.toList).map .ofChars).mapError .runtime := by
    rw [← valueMethod_args s name _ (hname.trans (op.method_map _).symm)]
    rfl
  rw [hcall, ← hperform]
  cases (op.map Value.int).perform s.toList with
  | ok cs => rfl
  | error f => exact ⟨f, rfl⟩

theorem Slicing.answered (host : Host) {s : String} (hs : s.toList.length < 2 ^ 31) (name : String)
    (op : Slicing Integer) (hname : Text.lowerAscii name = op.method) :
    Answered (Member.call host (.str s) name (op.map Value.int).args)
      ((op.map Integer.val).result? s.toList) := by
  have hlimit : (s.toList.length : Int) ≤ IntKind.long.greatest := by
    have hgreatest : IntKind.long.greatest = 2 ^ 63 - 1 := rfl
    omega
  rw [← op.result?_cut hlimit]
  exact op.answered_cut host s name hname

/-! ## The methods -/

/-- A name of a method as it is written: right, case apart. -/
structure Named (method : String) where
  written : String
  lower_eq : Text.lowerAscii written = method

/-- The names of what is called on a text, as they are written. -/
structure TextNames where
  substring : Named "substring"
  remove : Named "remove"
  insert : Named "insert"
  indexOf : Named "indexof"
  lastIndexOf : Named "lastindexof"
  contains : Named "contains"
  length : Named "length"
  strstr : Named "strstr"
  substr : Named "substr"

namespace TextNames

variable (names : TextNames) (host : Host)

/-- `s.Substring(start)` or `s.Substring(start, length)` -/
def callSubstring (s : String) (start : Integer) (length : Option Integer) : Except Fault Value :=
  Member.call host (.str s) names.substring.written (.int start :: (length.map Value.int).toList)

/-- `s.Remove(start)` or `s.Remove(start, length)` -/
def callRemove (s : String) (start : Integer) (length : Option Integer) : Except Fault Value :=
  Member.call host (.str s) names.remove.written (.int start :: (length.map Value.int).toList)

/-- `s.Insert(start, piece)` -/
def callInsert (s : String) (start : Integer) (piece : String) : Except Fault Value :=
  Member.call host (.str s) names.insert.written [.int start, .str piece]

def callIndexOf (s t : String) : Except Fault Value :=
  Member.call host (.str s) names.indexOf.written [.str t]

def callLastIndexOf (s t : String) : Except Fault Value :=
  Member.call host (.str s) names.lastIndexOf.written [.str t]

def callContains (s t : String) : Except Fault Value :=
  Member.call host (.str s) names.contains.written [.str t]

/-- `t.Length` -/
def getLength (t : String) : Except RuntimeFault Value := Member.get (.str t) names.length.written

/-- `strstr(s, t)`; `none` if there is no such function. -/
def callStrstr (s t : String) : Option (Except Fault Value) :=
  Receiver.text.call names.strstr.written [.str s, .str t]

/-- `substr(s, start)` or `substr(s, start, length)`; `none` if there is no such function. -/
def callSubstr (s : String) (start : Integer) (length : Option Integer) : Option (Except Fault Value) :=
  Receiver.text.call names.substr.written (.str s :: .int start :: (length.map Value.int).toList)

variable {names host} {s t : String}

theorem answered_substring (hs : s.toList.length < 2 ^ 31) (start : Integer) (length : Option Integer) :
    Answered (names.callSubstring host s start length)
      ((Slicing.substring start.val (length.map Integer.val)).result? s.toList) :=
  Slicing.answered host hs names.substring.written (.substring start length) names.substring.lower_eq

theorem answered_remove (hs : s.toList.length < 2 ^ 31) (start : Integer) (length : Option Integer) :
    Answered (names.callRemove host s start length)
      ((Slicing.remove start.val (length.map Integer.val)).result? s.toList) :=
  Slicing.answered host hs names.remove.written (.remove start length) names.remove.lower_eq

theorem answered_insert (hs : s.toList.length < 2 ^ 31) (start : Integer) (piece : String) :
    Answered (names.callInsert host s start piece)
      ((Slicing.insert start.val (.str piece)).result? s.toList) :=
  Slicing.answered host hs names.insert.written (.insert start (.str piece)) names.insert.lower_eq

theorem call_text (host : Host) (s : String) {method : String} (name : Named method)
    (hown : method ∉ ["tostring", "equals", "gettype"]) (args : List Value) :
    Member.call host (.str s) name.written args =
      (Member.textMethod s name.written args).mapError Fault.runtime := by
  change (Member.valueMethod (.str s) name.written args).mapError Fault.runtime = _
  rw [Member.valueMethod, name.lower_eq]
  split
  iterate 3 exact absurd (by decide) hown
  rfl

theorem callIndexOf_eq (s t : String) :
    names.callIndexOf host s t = .ok (Member.ofPosition (Text.indexOf? t.toList s.toList)) := by
  rw [callIndexOf, call_text host s names.indexOf (by decide), Member.textMethod, names.indexOf.lower_eq]
  rfl

theorem callLastIndexOf_eq (s t : String) :
    names.callLastIndexOf host s t = .ok (Member.ofPosition (Text.lastIndexOf? t.toList s.toList)) := by
  rw [callLastIndexOf, call_text host s names.lastIndexOf (by decide), Member.textMethod,
    names.lastIndexOf.lower_eq]
  rfl

theorem callContains_eq (s t : String) :
    names.callContains host s t = .ok (.bool (Text.contains t.toList s.toList)) := by
  rw [callContains, call_text host s names.contains (by decide), Member.textMethod, names.contains.lower_eq]
  rfl

theorem getLength_eq (t : String) : names.getLength t = .ok (.ofInt t.toList.length) := by
  unfold getLength Member.get
  rw [names.length.lower_eq]
  rfl

theorem callStrstr_eq (s t : String) :
    names.callStrstr s t = some (.ok (Member.ofPosition (Text.indexOf? t.toList s.toList))) := by
  change (Function.text names.strstr.written [.str s, .str t]).map (·.mapError Fault.runtime) = _
  rw [Function.text, names.strstr.lower_eq]
  rfl

/-! ## Taking parts, leaving them out, putting them in -/

/-- There is a part of the length in the text that starts there. -/
def Within (s : String) (start length : Int) : Prop :=
  0 ≤ start ∧ 0 ≤ length ∧ start + length ≤ s.toList.length

instance (s : String) (start length : Int) : Decidable (Within s start length) :=
  inferInstanceAs (Decidable (_ ∧ _))

theorem part?_eq (s : String) (start : Int) (length : Option Int) :
    Slicing.part? s.toList start length =
      if Within s start (length.getD 0) then
        some (start.toNat, (length.getD (s.toList.length - start)).toNat)
      else none := by
  refine if_congr ?_ rfl rfl
  cases length <;> dsimp only [Option.getD, Within] <;> omega

/-- A runtime fault. -/
def Faults (r : Except Fault Value) : Prop := ∃ f, r = .error (.runtime f)

theorem faults_iff {r : Except Fault Value} {wanted : Option (List Char)} (h : Answered r wanted) :
    Faults r ↔ wanted = none := by
  cases wanted with
  | none => exact iff_of_true h rfl
  | some cs =>
    refine iff_of_false (fun ⟨f, hf⟩ => ?_) nofun
    cases h.symm.trans hf

section Part

variable {r : Except Fault Value} {start : Int} {length : Option Int} {take : Nat × Nat → List Char}

theorem faults_of_part (h : Answered r ((Slicing.part? s.toList start length).map take)) :
    Faults r ↔ ¬Within s start (length.getD 0) := by
  rw [faults_iff h, Option.map_eq_none_iff, part?_eq]
  simp only [ite_eq_right_iff, reduceCtorEq, imp_false]

theorem eq_ok_of_part (h : Answered r ((Slicing.part? s.toList start length).map take))
    (hwithin : Within s start (length.getD 0)) :
    r = .ok (.ofChars (take (start.toNat, (length.getD (s.toList.length - start)).toNat))) := by
  rwa [part?_eq, if_pos hwithin] at h

theorem within_of_part {v : Value} (h : Answered r ((Slicing.part? s.toList start length).map take))
    (hok : r = .ok v) : Within s start (length.getD 0) := by
  by_contra hnot
  obtain ⟨f, hf⟩ := (faults_of_part h).mpr hnot
  cases hok.symm.trans hf

end Part

variable (hs : s.toList.length < 2 ^ 31) {start length : Integer}

include hs

theorem callSubstring_part (h : Within s start.val length.val) :
    names.callSubstring host s start (some length) =
      .ok (.ofChars ((s.toList.drop start.val.toNat).take length.val.toNat)) :=
  eq_ok_of_part (answered_substring hs start (some length)) h

theorem callSubstring_tail (h : Within s start.val 0) :
    names.callSubstring host s start none = .ok (.ofChars (s.toList.drop start.val.toNat)) := by
  have hrest : (s.toList.drop start.val.toNat).take ((s.toList.length : Int) - start.val).toNat =
      s.toList.drop start.val.toNat := by
    refine List.take_of_length_le ?_
    rw [List.length_drop]
    omega
  rw [← hrest]
  exact eq_ok_of_part (answered_substring hs start none) h

theorem callRemove_part (h : Within s start.val length.val) :
    names.callRemove host s start (some length) =
      .ok (.ofChars (s.toList.take start.val.toNat ++
        s.toList.drop (start.val.toNat + length.val.toNat))) :=
  eq_ok_of_part (answered_remove hs start (some length)) h

theorem callInsert_part (h : Within s start.val 0) (piece : String) :
    names.callInsert host s start piece =
      .ok (.ofChars (s.toList.take start.val.toNat ++ piece.toList ++ s.toList.drop start.val.toNat)) := by
  have hanswered := @answered_insert names host s hs start piece
  obtain ⟨hstart, -, hle⟩ := h
  rwa [Slicing.result?, if_pos ⟨hstart, by omega⟩] at hanswered

theorem faults_insert (start : Integer) (piece : String) :
    Faults (names.callInsert host s start piece) ↔ ¬Within s start.val 0 := by
  rw [faults_iff (answered_insert hs start piece), Slicing.result?]
  simp only [ite_eq_right_iff, reduceCtorEq, imp_false]
  dsimp only [Within]
  omega

omit hs

/-- What was put in is taken out again by its own length, and by no other. -/
theorem callRemove_insert_iff {before piece after : List Char} (hbefore : before.length < 2 ^ 31)
    (hstart : start.val = before.length) (hlength : IntKind.long.Holds length.val) :
    names.callRemove host (String.ofList (before ++ piece ++ after)) start (some length) =
        .ok (.ofChars (before ++ after)) ↔
      length.val = piece.length := by
  generalize hu : String.ofList (before ++ piece ++ after) = u
  have hchars : u.toList = before ++ piece ++ after := by rw [← hu, String.toList_ofList]
  have hanswered : Answered (names.callRemove host u start (some length))
      ((Slicing.part? u.toList start.val (some length.val)).map fun p =>
        u.toList.take p.1 ++ u.toList.drop (p.1 + p.2)) := by
    have hleast : IntKind.long.least ≤ 0 := by decide
    have hgreatest : 2 ^ 31 ≤ IntKind.long.greatest := by decide
    have hholds : IntKind.long.Holds start.val := ⟨by omega, by omega⟩
    have hcut := Slicing.answered_cut host u names.remove.written (.remove start (some length))
      names.remove.lower_eq
    rw [← IntKind.cut_of_holds hholds, ← IntKind.cut_of_holds hlength]
    exact hcut
  constructor
  · intro hremoved
    have hwithin : Within u start.val length.val := within_of_part hanswered hremoved
    have htexts := (eq_ok_of_part hanswered hwithin).symm.trans hremoved
    have hlengths := congrArg List.length (String.ofList_injective (Value.str.inj (Except.ok.inj htexts)))
    obtain ⟨-, hnonneg, hle⟩ := hwithin
    rw [hchars] at hlengths hle
    simp only [List.length_append, List.length_take, List.length_drop, Option.getD_some] at hlengths hle
    omega
  · intro hpiece
    have hwithin : Within u start.val length.val := by
      refine ⟨by omega, by omega, ?_⟩
      rw [hchars]
      simp only [List.length_append]
      omega
    rw [eq_ok_of_part hanswered hwithin, hchars]
    have hfront : start.val.toNat = before.length := by omega
    have hskip : length.val.toNat = piece.length := by omega
    dsimp only [Option.getD]
    rw [hfront, hskip, List.append_assoc, List.take_left, ← List.append_assoc, ← List.length_append,
      List.drop_left]

/-! ## Searching -/

theorem int_cut_of_lt {n : Nat} (h : n < 2 ^ 31) : IntKind.int.cut n = n := by
  have hleast : IntKind.int.least ≤ 0 := by decide
  have hgreatest : IntKind.int.greatest = 2 ^ 31 - 1 := rfl
  exact IntKind.cut_of_holds ⟨by omega, by omega⟩

/-- The part of the length of `t` that starts at the position is `t`. -/
def Found (names : TextNames) (host : Host) (s t : String) (k : Integer) : Prop :=
  ∃ n, names.getLength t = .ok (.int n) ∧ names.callSubstring host s k (some n) = .ok (.str t)

theorem found_iff (hs : s.toList.length < 2 ^ 31) {k : Integer} :
    Found names host s t k ↔ 0 ≤ k.val ∧ Text.OccursAt t.toList s.toList k.val.toNat := by
  constructor
  · rintro ⟨n, -, hpart⟩
    have hwithin : Within s k.val n.val := within_of_part (answered_substring hs k (some n)) hpart
    have htexts := (callSubstring_part hs hwithin).symm.trans hpart
    have ht : (s.toList.drop k.val.toNat).take n.val.toNat = t.toList := by
      rw [← Value.str.inj (Except.ok.inj htexts), String.toList_ofList]
    obtain ⟨hk, hn, hle⟩ := hwithin
    have hlength : t.toList.length = n.val.toNat := by
      rw [← ht, List.length_take, List.length_drop]
      omega
    exact ⟨hk, Text.occursAt_iff_take.mpr ⟨by omega, hlength ▸ ht⟩⟩
  · rintro ⟨hk, hoccurs⟩
    obtain ⟨hle, ht⟩ := Text.occursAt_iff_take.mp hoccurs
    have hlength : IntKind.int.cut t.toList.length = t.toList.length := int_cut_of_lt (by omega)
    refine ⟨.ofInt .int t.toList.length, getLength_eq t, ?_⟩
    have hwithin : Within s k.val (Integer.ofInt .int t.toList.length).val := by
      rw [Integer.val_ofInt, hlength]
      exact ⟨hk, by omega, by omega⟩
    rw [callSubstring_part hs hwithin, Integer.val_ofInt, hlength, Int.toNat_natCast, ht, Value.ofChars,
      String.ofList_toList]

/-- The position is the best one of those where the text is found, and -1 if there is none. -/
def IsBest (found : Integer → Prop) (better : Int → Int → Prop) (k : Integer) : Prop :=
  (found k ∧ ∀ j, found j → better k.val j.val) ∨ (k.val = -1 ∧ ∀ j, ¬found j)

theorem exists_isBest (hs : s.toList.length < 2 ^ 31) {better : Nat → Nat → Prop} {better' : Int → Int → Prop}
    (hcast : ∀ j k : Nat, better j k → better' j k) {position : Option Nat}
    (h : Text.IsBest better t.toList s.toList position) :
    ∃ k, Member.ofPosition position = .int k ∧ IsBest (Found names host s t) better' k ∧
      (k.val = -1 ↔ Text.contains t.toList s.toList = false) := by
  rw [← h.eq_none_iff]
  cases position with
  | none =>
    exact ⟨.ofInt .int (-1), rfl, .inr ⟨rfl, fun j hj => h _ ((found_iff hs).mp hj).2⟩, iff_of_true rfl rfl⟩
  | some k =>
    obtain ⟨hoccurs, hbest⟩ := h
    have hle := hoccurs.1
    have hval : IntKind.int.cut k = k := int_cut_of_lt (by omega)
    refine ⟨.ofInt .int k, rfl, .inl ⟨(found_iff hs).mpr ?_, fun j hj => ?_⟩, ?_⟩
    · rw [Integer.val_ofInt, hval]
      exact ⟨by omega, hoccurs⟩
    · obtain ⟨hj, hoccurs'⟩ := (found_iff hs).mp hj
      rw [Integer.val_ofInt, hval, ← Int.toNat_of_nonneg hj]
      exact hcast _ _ (hbest _ hoccurs')
    · rw [Integer.val_ofInt, hval]
      exact iff_of_false (by omega) nofun

/-! ## The built-in functions -/

theorem callSubstr_eq (s : String) (start : Integer) (length : Option Integer) :
    names.callSubstr s start length =
      some (.ok (.ofChars (Function.substr s.toList (IntKind.long.cut start.val)
        (length.map fun n => IntKind.long.cut n.val)))) := by
  change (Function.text names.substr.written _).map (·.mapError Fault.runtime) = _
  rw [Function.text, names.substr.lower_eq]
  cases length <;> rfl

theorem long_cut_of_within (hs : s.toList.length < 2 ^ 31) {start length : Int} (h : Within s start length) :
    IntKind.long.cut start = start ∧ IntKind.long.cut length = length := by
  have hleast : IntKind.long.least ≤ 0 := by decide
  have hgreatest : IntKind.long.greatest = 2 ^ 63 - 1 := rfl
  obtain ⟨hstart, hlength, hle⟩ := h
  exact ⟨IntKind.cut_of_holds ⟨by omega, by omega⟩, IntKind.cut_of_holds ⟨by omega, by omega⟩⟩

theorem callSubstr_of_callSubstring (hs : s.toList.length < 2 ^ 31) {start : Integer} {length : Option Integer}
    {v : Value} (h : names.callSubstring host s start length = .ok v) :
    names.callSubstr s start length = some (.ok v) := by
  have hwithin : Within s start.val ((length.map Integer.val).getD 0) :=
    within_of_part (answered_substring hs start length) h
  obtain ⟨hstart, hlength⟩ := long_cut_of_within hs hwithin
  rw [callSubstr_eq, hstart, ← h]
  cases length with
  | none =>
    rw [callSubstring_tail hs hwithin]
    rfl
  | some n =>
    rw [callSubstring_part hs hwithin, Option.map_some, show IntKind.long.cut n.val = n.val from hlength]
    rfl

/-! ## How it all fits together -/

theorem position_lt {i : Integer} {p : Nat} (h : Slice.position (.int i) = .ok p) : p < 2 ^ 63 := by
  have hholds := (IntKind.long.holds_cut i.val).2
  have hgreatest : IntKind.long.greatest = 2 ^ 63 - 1 := rfl
  have hlong : Convert.asLong (.int i) = .ok (IntKind.long.cut i.val) := rfl
  rw [Slice.position, hlong] at h
  dsimp only at h
  split at h
  · cases h
  · cases h
    omega

theorem callSubstring_front (hs : s.toList.length < 2 ^ 31) {i : Integer} (h : Within s i.val 0) :
    names.callSubstring host s (.ofInt .int 0) (some i) = .ok (.ofChars (s.toList.take i.val.toNat)) := by
  obtain ⟨hi, -, hle⟩ := h
  exact callSubstring_part hs ⟨Int.le_refl 0, hi, by change 0 + i.val ≤ _; omega⟩

/-- How the parts of a text fit together. -/
structure PartsFit (names : TextNames) (host : Host) (s : String) : Prop where
  faults_substring : ∀ start length, Faults (names.callSubstring host s start length) ↔
    ¬Within s start.val ((length.map Integer.val).getD 0)
  faults_remove : ∀ start length, Faults (names.callRemove host s start length) ↔
    ¬Within s start.val ((length.map Integer.val).getD 0)
  faults_insert : ∀ start piece, Faults (names.callInsert host s start piece) ↔ ¬Within s start.val 0
  sum_lt : ∀ i n p q, Slice.position (.int i) = .ok p → Slice.position (.int n) = .ok q → p + q < 2 ^ 64
  part : ∀ start length, Within s start.val length.val →
    names.callSubstring host s start (some length) =
      .ok (.ofChars ((s.toList.drop start.val.toNat).take length.val.toNat))
  front_append_tail : ∀ i, Within s i.val 0 → ∃ front tail,
    names.callSubstring host s (.ofInt .int 0) (some i) = .ok (.str front) ∧
    names.callSubstring host s i none = .ok (.str tail) ∧ front ++ tail = s
  remove_eq : ∀ i n k : Integer, Within s i.val n.val → k.val = i.val + n.val → ∃ front tail,
    names.callSubstring host s (.ofInt .int 0) (some i) = .ok (.str front) ∧
    names.callSubstring host s k none = .ok (.str tail) ∧
    names.callRemove host s i (some n) = .ok (.str (front ++ tail))
  /-- `Length` is cut to 32 bits, so it is the length of what was put in up to a bound only. -/
  remove_insert : ∀ i t, Within s i.val 0 → ∃ u n,
    names.callInsert host s i t = .ok (.str u) ∧ names.getLength t = .ok (.int n) ∧
    (names.callRemove host u i (some n) = .ok (.str s) ↔ t.toList.length < 2 ^ 31) ∧
    ∀ m : Integer, IntKind.long.Holds m.val →
      (names.callRemove host u i (some m) = .ok (.str s) ↔ m.val = t.toList.length)
  substr_eq : ∀ start length v, names.callSubstring host s start length = .ok v →
    names.callSubstr s start length = some (.ok v)

theorem exists_remove_insert (hs : s.toList.length < 2 ^ 31) {i : Integer} (t : String)
    (h : Within s i.val 0) : ∃ u n,
      names.callInsert host s i t = .ok (.str u) ∧ names.getLength t = .ok (.int n) ∧
      (names.callRemove host u i (some n) = .ok (.str s) ↔ t.toList.length < 2 ^ 31) ∧
      ∀ m : Integer, IntKind.long.Holds m.val →
        (names.callRemove host u i (some m) = .ok (.str s) ↔ m.val = t.toList.length) := by
  have hremove (m : Integer) (hm : IntKind.long.Holds m.val) :
      names.callRemove host (String.ofList (s.toList.take i.val.toNat ++ t.toList ++ s.toList.drop i.val.toNat))
          i (some m) = .ok (.str s) ↔ m.val = t.toList.length := by
    obtain ⟨hi, -, hle⟩ := h
    have hlength : (s.toList.take i.val.toNat).length = i.val.toNat := by
      rw [List.length_take]
      omega
    have hiff := @callRemove_insert_iff names host i m (s.toList.take i.val.toNat) t.toList
      (s.toList.drop i.val.toNat) (by omega) (by omega) hm
    rwa [List.take_append_drop, Value.ofChars, String.ofList_toList] at hiff
  refine ⟨_, .ofInt .int t.toList.length, callInsert_part hs h t, getLength_eq t, ?_, hremove⟩
  have hholds := IntKind.int.holds_cut t.toList.length
  have hint : IntKind.int.least = -2 ^ 31 ∧ IntKind.int.greatest = 2 ^ 31 - 1 := ⟨rfl, rfl⟩
  have hlong : IntKind.long.least = -2 ^ 63 ∧ IntKind.long.greatest = 2 ^ 63 - 1 := ⟨rfl, rfl⟩
  obtain ⟨hleast, hgreatest⟩ := hholds
  rw [hremove _ ⟨by rw [Integer.val_ofInt]; omega, by rw [Integer.val_ofInt]; omega⟩, Integer.val_ofInt]
  exact ⟨fun hcut => by omega, int_cut_of_lt⟩

theorem partsFit (hs : s.toList.length < 2 ^ 31) : PartsFit names host s where
  faults_substring start length := faults_of_part (answered_substring hs start length)
  faults_remove start length := faults_of_part (answered_remove hs start length)
  faults_insert := TextNames.faults_insert hs
  sum_lt i n p q hp hq := by
    have hp := position_lt hp
    have hq := position_lt hq
    omega
  part _ _ := callSubstring_part hs
  front_append_tail i h := by
    refine ⟨_, _, callSubstring_front hs h, callSubstring_tail hs h, ?_⟩
    rw [← String.ofList_append, List.take_append_drop, String.ofList_toList]
  remove_eq i n k h hk := by
    have hremove := @callRemove_part names host s hs i n h
    obtain ⟨hi, hn, hle⟩ := h
    refine ⟨_, _, callSubstring_front hs ⟨hi, Int.le_refl 0, by omega⟩,
      callSubstring_tail hs ⟨by omega, Int.le_refl 0, by omega⟩, ?_⟩
    have hsum : k.val.toNat = i.val.toNat + n.val.toNat := by omega
    rw [hremove, ← String.ofList_append, hsum]
    rfl
  remove_insert i t := exists_remove_insert hs t
  substr_eq _ _ _ := callSubstr_of_callSubstring hs

/-- What the searches for a text find. -/
structure SearchesFit (names : TextNames) (host : Host) (s t : String) : Prop where
  positions : ∃ first last b,
    names.callIndexOf host s t = .ok (.int first) ∧ names.callLastIndexOf host s t = .ok (.int last) ∧
    names.callContains host s t = .ok (.bool b) ∧
    IsBest (Found names host s t) (· ≤ ·) first ∧ IsBest (Found names host s t) (· ≥ ·) last ∧
    (first.val = -1 ↔ b = false) ∧ (last.val = -1 ↔ b = false)
  strstr_eq : names.callStrstr s t = some (names.callIndexOf host s t)

theorem searchesFit (hs : s.toList.length < 2 ^ 31) (t : String) : SearchesFit names host s t where
  positions := by
    obtain ⟨first, hfirst, hleast, hnone⟩ := @exists_isBest names host s t hs _ (· ≤ ·)
      (fun _ _ => Int.ofNat_le.mpr) _ (Text.isBest_indexOf? t.toList s.toList)
    obtain ⟨last, hlast, hgreatest, hnone'⟩ := @exists_isBest names host s t hs _ (· ≥ ·)
      (fun _ _ => Int.ofNat_le.mpr) _ (Text.isBest_lastIndexOf? t.toList s.toList)
    exact ⟨first, last, _, by rw [callIndexOf_eq, hfirst], by rw [callLastIndexOf_eq, hlast],
      callContains_eq s t, hleast, hgreatest, hnone, hnone'⟩
  strstr_eq := by rw [callStrstr_eq, callIndexOf_eq]

end TextNames

/-- The slicing methods and the searches of a text fit together, whatever integers and texts they are
given. -/
theorem text_parts_fit (names : TextNames) (host : Host) {s : String} (hs : s.toList.length < 2 ^ 31) :
    names.PartsFit host s ∧ ∀ t, names.SearchesFit host s t :=
  ⟨TextNames.partsFit hs, TextNames.searchesFit hs⟩

def TextNames.usual : TextNames where
  substring := ⟨"Substring", by decide⟩
  remove := ⟨"Remove", by decide⟩
  insert := ⟨"Insert", by decide⟩
  indexOf := ⟨"IndexOf", by decide⟩
  lastIndexOf := ⟨"LastIndexOf", by decide⟩
  contains := ⟨"Contains", by decide⟩
  length := ⟨"Length", by decide⟩
  strstr := ⟨"strstr", by decide⟩
  substr := ⟨"substr", by decide⟩

theorem text_parts_fit_abcabc :
    let s := "abcabc"
    let greatest := Integer.ofInt .long (2 ^ 63 - 1)
    s.toList.length < 2 ^ 31 ∧
      TextNames.Faults (TextNames.usual.callSubstring .silent s greatest (some greatest)) ∧
      TextNames.usual.callIndexOf .silent s "bc" = .ok (.ofInt 1) ∧
      TextNames.usual.callLastIndexOf .silent s "bc" = .ok (.ofInt 4) ∧
      TextNames.usual.SearchesFit .silent s "bc" := by
  intro s greatest
  have hs : s.toList.length < 2 ^ 31 := by decide
  obtain ⟨hparts, hsearches⟩ := text_parts_fit TextNames.usual .silent hs
  have hfirst : Text.indexOf? "bc".toList s.toList = some 1 := by decide
  have hlast : Text.lastIndexOf? "bc".toList s.toList = some 4 := by decide
  refine ⟨hs, (hparts.faults_substring greatest (some greatest)).mpr (by decide), ?_, ?_, hsearches "bc"⟩
  · rw [TextNames.callIndexOf_eq, hfirst]
    rfl
  · rw [TextNames.callLastIndexOf_eq, hlast]
    rfl

end ActionTree
