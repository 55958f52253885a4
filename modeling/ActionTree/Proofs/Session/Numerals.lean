import ActionTree.Proofs.Conversion.Numeral
import ActionTree.Proofs.ExprCache
import ActionTree.Proofs.Notation.RoundTrip
import ActionTree.Proofs.Session.Syntax

/-!
# Integers as texts

An integer is written in decimal digits, after a minus sign if it is negative. Evaluated, this text gives the
integer again: the sign is an operator on the number without it, which is in a type that holds both.
-/

namespace ActionTree

namespace Notation

/-! ## Digits without a suffix -/

/-- The literal of a number without a sign. -/
def decimalLiteral (n : Nat) : IntegerLiteral where
  sign := .absent
  radix := .decimal
  digits := Nat.toDigits 10 n
  suffix := .plain
  letters := []
  digits_ne_nil := Nat.toDigits_ne_nil
  isDigit c hc := Radix.isDigit_decimal_iff.mpr (isDigit_of_mem_toDigits c hc)
  spells := by decide

theorem value_decimalLiteral (n : Nat) : (decimalLiteral n).value = n := by
  have hread : Numeral.nat? 10 (Nat.toDigits 10 n) = some n := nat?_toDigits n
  exact congrArg Int.ofNat (Option.some.inj ((decimalLiteral n).nat?_digits.symm.trans hread))

theorem chars_decimalLiteral (n : Nat) : (decimalLiteral n).chars = Nat.toDigits 10 n :=
  List.append_nil _

/-- The digits of a number that the largest type holds are read as this number. -/
theorem exists_number_toDigits {n : Nat} (h : IntKind.ulong.Holds n) :
    ∃ i : Integer, i.val = n ∧ i.kind ∈ [.int, .long, .ulong] ∧
      number (Nat.toDigits 10 n) = .ok (some (.int i, [])) := by
  obtain ⟨i, hi⟩ := Integer.exists_firstOf? (by decide : .ulong ∈ IntegerSuffix.plain.types) h
  have hnumber := (decimalLiteral n).number_chars (by rfl : [].head?.any continuesNumber = false)
  rw [value_decimalLiteral, chars_decimalLiteral, List.append_nil,
    show (decimalLiteral n).suffix.types = IntegerSuffix.plain.types from rfl, hi] at hnumber
  obtain ⟨hkind, hval⟩ := isLiteral_of_firstOf? hi
  exact ⟨i, hval, hkind, hnumber⟩

theorem reads_toDigits {n : Nat} {v : Value} (h : number (Nat.toDigits 10 n) = .ok (some (v, []))) :
    Reads (Nat.toDigits 10 n) [.number v] := by
  obtain ⟨d, ds, hds, hd⟩ := exists_cons_of_toDigits n
  rw [hds] at h ⊢
  exact .step (token_of_number hd h) nofun (Nat.zero_lt_succ _) (.done rfl)

/-- A minus sign before digits is a token of its own. -/
theorem reads_minus {n : Nat} {ts : List Token} (h : Reads (Nat.toDigits 10 n) ts) :
    Reads ('-' :: Nat.toDigits 10 n) (.symbol .minus :: ts) := by
  obtain ⟨d, ds, hds, hd⟩ := exists_cons_of_toDigits n
  have hend : (Token.symbol .minus).Ends (Nat.toDigits 10 n) := by
    have hlong : d ∉ lengthening := not_mem_of_class hd (by decide)
    rw [hds]
    simp [Token.Ends, lengthens, hlong]
  exact Reads.cons (.symbol .minus) hend h

/-- Digits denote the number, and with a minus sign before them what the operator makes of it. -/
theorem parseExpr_digits {n : Nat} {i : Integer} (hval : i.val = n) (hkind : i.kind ∈ [.int, .long, .ulong])
    (h : number (Nat.toDigits 10 n) = .ok (some (.int i, []))) :
    parseExpr (String.ofList (Nat.toDigits 10 n)) = .ok (.literal (.int i)) ∧
      parseExpr (String.ofList ('-' :: Nat.toDigits 10 n)) = .ok (.unary .neg (.literal (.int i))) := by
  have hliteral : IsLiteral i := by
    have hkinds : [IntKind.int, .long, .ulong] ⊆ [.int, .uint, .long, .ulong] := by decide
    exact ⟨hkinds hkind, hval ▸ Int.natCast_nonneg n⟩
  have hwritable : IsWritable (.int i) := by
    refine ⟨?_, rfl⟩
    rintro j ⟨⟩
    exact hliteral
  have hreads := reads_toDigits h
  refine ⟨parseExpr_of_reads (.literal hwritable) ?_, parseExpr_of_reads (.unary .neg (.literal hwritable)) ?_⟩
  · rw [String.toList_ofList]
    exact hreads
  · rw [String.toList_ofList]
    exact reads_minus hreads

end Notation

namespace IntKind.Holds

variable {k : IntKind} {n : Int}

/-- The largest type without a sign has all numbers that are not negative. -/
theorem ulong (h : k.Holds n) (hn : 0 ≤ n) : IntKind.ulong.Holds n := by
  have hgreatest : k.greatest ≤ IntKind.ulong.greatest := by cases k <;> decide
  exact ⟨hn, Int.le_trans h.2 hgreatest⟩

/-- The largest type with a sign has all negative numbers. -/
theorem long (h : k.Holds n) (hn : n < 0) : IntKind.long.Holds n := by
  have hleast : IntKind.long.least ≤ k.least := by cases k <;> decide
  have hgreatest : 0 ≤ IntKind.long.greatest := by decide
  exact ⟨Int.le_trans hleast h.1, Int.le_trans (Int.le_of_lt hn) hgreatest⟩

end IntKind.Holds

/-- The negative of a number is in the type of the number or, where this has no sign, in the largest type
with one. -/
theorem UnaryOp.exists_apply_neg {i : Integer} (hkind : i.kind ∈ [.int, .long, .ulong]) (hpos : 0 < i.val)
    (hneg : IntKind.long.Holds (-i.val)) :
    ∃ j : Integer, j.val = -i.val ∧ UnaryOp.neg.apply (.int i) = .ok (.int j) := by
  obtain ⟨k, n, hn⟩ := i
  replace hpos : 0 < n := hpos
  simp only [List.mem_cons, List.not_mem_nil, or_false] at hkind
  rcases hkind with rfl | rfl | rfl
  · have hint : IntKind.int.Holds (-n) := by
      have hleast : IntKind.int.least ≤ -IntKind.int.greatest := by decide
      have hgreatest : 0 ≤ IntKind.int.greatest := by decide
      have hle := hn.2
      exact ⟨by omega, by omega⟩
    exact ⟨_, IntKind.cut_of_holds hint, rfl⟩
  · exact ⟨_, IntKind.cut_of_holds hneg, rfl⟩
  · exact ⟨_, IntKind.cut_of_holds hneg, rfl⟩

theorem Value.text_natCast {i : Integer} {n : Nat} (h : i.val = n) :
    (Value.int i).text = String.ofList (Nat.toDigits 10 n) := by
  rw [Value.text, h]
  exact toString_natCast n

theorem Value.text_negSucc {i : Integer} {n : Nat} (h : i.val = Int.negSucc n) :
    (Value.int i).text = String.ofList ('-' :: Nat.toDigits 10 (n + 1)) := by
  rw [Value.text, h, toString_negSucc]

namespace Session

/-- The text of an integer has this integer as its value, in every session. The types may differ: a value is
written without its type. -/
theorem evaluate_text_integer (i : Integer) (n : Nat) {s : Session} (hcache : s.cache.Reachable) :
    ∃ j : Integer, (Value.int j).toInt? = (Value.int i).toInt? ∧
      evaluate n (Value.int i).text s =
        some (.ok (.int j), { s with cache := (s.cache.parse .single (Value.int i).text).2 }) := by
  have hholds := i.holds
  cases hval : i.val with
  | ofNat m =>
    rw [hval] at hholds
    obtain ⟨j, hj, hkind, hnumber⟩ := Notation.exists_number_toDigits (hholds.ulong (Int.natCast_nonneg m))
    have hparse := (Notation.parseExpr_digits hj hkind hnumber).1
    rw [← Value.text_natCast hval] at hparse
    refine ⟨j, congrArg some (hj.trans hval.symm), ?_⟩
    rw [evaluate_of_parseExpr n hcache hparse, Expr.evaluate_eq_value]
    rfl
  | negSucc m =>
    rw [hval] at hholds
    -- Without its sign the least `long` is a `ulong`, of which the operator makes a `long` again.
    have hlong := hholds.long (Int.negSucc_lt_zero m)
    have hulong : IntKind.ulong.Holds (m + 1 : Nat) := by
      have hleast : -IntKind.long.least ≤ IntKind.ulong.greatest := by decide
      have hle := hlong.1
      exact ⟨Int.natCast_nonneg _, by omega⟩
    obtain ⟨j, hj, hkind, hnumber⟩ := Notation.exists_number_toDigits hulong
    obtain ⟨negative, hnegative, happly⟩ :=
      UnaryOp.exists_apply_neg hkind (hj ▸ Int.natCast_pos.mpr m.succ_pos) (hj ▸ hlong)
    have hparse := (Notation.parseExpr_digits hj hkind hnumber).2
    rw [← Value.text_negSucc hval] at hparse
    refine ⟨negative, congrArg some ((hnegative.trans (congrArg Neg.neg hj)).trans hval.symm), ?_⟩
    rw [evaluate_of_parseExpr n hcache hparse, Expr.evaluate_eq_value, Expr.value, Expr.value]
    change Run.ofRuntime (UnaryOp.neg.apply (.int j)) _ = _
    rw [happly]
    rfl

/-- The least integer is the negative of a number that only the type without a sign has. -/
theorem evaluate_text_leastLong :
    (Session.start {} {}).cache.Reachable ∧ (Value.int ⟨.long, -9223372036854775808, by decide⟩).text =
      "-9223372036854775808" ∧
    ∃ j : Integer, (Value.int j).toInt? = some (-9223372036854775808) ∧
      (evaluate 0 "-9223372036854775808" (Session.start {} {})).map Prod.fst = some (.ok (.int j)) := by
  have hcache : (Session.start {} {}).cache.Reachable := .new _
  have htext : (Value.int ⟨.long, -9223372036854775808, by decide⟩).text = "-9223372036854775808" := by
    decide +kernel
  obtain ⟨j, hj, heval⟩ :=
    evaluate_text_integer ⟨.long, -9223372036854775808, by decide⟩ 0 hcache
  rw [htext] at heval
  exact ⟨hcache, htext, j, hj, by rw [heval]; rfl⟩

end Session

end ActionTree
