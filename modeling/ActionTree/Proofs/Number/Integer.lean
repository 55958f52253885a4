import Mathlib
import ActionTree.Operator

/-!
# Integers of a width

Cutting a number to a type gives the one member of the type that is congruent to it modulo two to the
width, so what is congruent before the cut is equal after it. The bitwise operations on 64 bits are
those on two's complement without end, as far as 64 bits go.
-/

namespace ActionTree

namespace IntKind

theorem cut_modEq (k : IntKind) (n : Int) : k.cut n ≡ n [ZMOD 2 ^ k.bits] := by
  rw [cut]
  split
  · exact Int.bmod_emod
  · exact Int.mod_modEq n _

theorem cut_eq_iff {k : IntKind} {m n : Int} : k.cut m = k.cut n ↔ m ≡ n [ZMOD 2 ^ k.bits] := by
  constructor
  · intro h
    exact (k.cut_modEq m).symm.trans (h ▸ k.cut_modEq n)
  · intro h
    have hmod : m % (twoTo k.bits : Int) = n % (twoTo k.bits : Int) := h
    rw [cut, cut]
    split
    · rw [← Int.emod_bmod, hmod, Int.emod_bmod]
    · exact hmod

theorem bits_le (k : IntKind) : k.bits ≤ 64 := by
  cases k <;> decide

end IntKind

namespace Integer

theorem ofInt_eq_ofInt_iff {k : IntKind} {m n : Int} :
    ofInt k m = ofInt k n ↔ m ≡ n [ZMOD 2 ^ k.bits] := by
  rw [ofInt, ofInt, mk.injEq, IntKind.cut_eq_iff, and_iff_right rfl]

theorem val_bounds (i : Integer) : -2 ^ 63 ≤ i.val ∧ i.val < 2 ^ 64 := by
  obtain ⟨k, n, hn⟩ := i
  have hkind : -2 ^ 63 ≤ k.least ∧ k.greatest < 2 ^ 64 := by cases k <;> decide
  exact ⟨hkind.1.trans hn.1, hn.2.trans_lt hkind.2⟩

/-- A `ulong` above the members of `long` becomes negative when it is cut to one, so an integer that
does not was a `long` all along. -/
theorem cut_long_of_nonneg {i : Integer} (h : 0 ≤ IntKind.long.cut i.val) :
    IntKind.long.cut i.val = i.val := by
  have hbounds := i.val_bounds
  change 0 ≤ i.val.bmod (2 ^ 64) at h
  rw [Int.bmod_def] at h
  have hlt : i.val < 2 ^ 63 := by
    split at h <;> omega
  exact IntKind.cut_of_holds ⟨hbounds.1, Int.le_sub_one_of_lt hlt⟩

end Integer

/-! ## Bits -/

/-- The bits of a number in a width are its lowest bits in two's complement. -/
theorem getLsbD_ofInt (w : Nat) (n : Int) (i : Nat) :
    (BitVec.ofInt w n).getLsbD i = (decide (i < w) && n.testBit i) := by
  cases n with
  | ofNat n => exact BitVec.getLsbD_ofNat w n i
  | negSucc n =>
    rw [BitVec.ofInt_negSucc_eq_not_ofNat, BitVec.getLsbD_not, BitVec.getLsbD_ofNat, Int.testBit]
    cases decide (i < w) <;> rfl

theorem bitwise_modEq {op : BitVec 64 → BitVec 64 → BitVec 64} {unbounded : Int → Int → Int}
    (h : ∀ a b, op (.ofInt 64 a) (.ofInt 64 b) = .ofInt 64 (unbounded a b)) (a b : Int) :
    bitwise op a b ≡ unbounded a b [ZMOD 2 ^ 64] := by
  rw [bitwise, h, BitVec.toInt_ofInt]
  exact Int.bmod_emod

theorem ofInt_land (a b : Int) :
    BitVec.ofInt 64 a &&& BitVec.ofInt 64 b = BitVec.ofInt 64 (a.land b) := by
  refine BitVec.eq_of_getLsbD_eq fun i hi => ?_
  simp only [BitVec.getLsbD_and, getLsbD_ofInt, Int.testBit_land, hi, decide_true, Bool.true_and]

theorem ofInt_lor (a b : Int) :
    BitVec.ofInt 64 a ||| BitVec.ofInt 64 b = BitVec.ofInt 64 (a.lor b) := by
  refine BitVec.eq_of_getLsbD_eq fun i hi => ?_
  simp only [BitVec.getLsbD_or, getLsbD_ofInt, Int.testBit_lor, hi, decide_true, Bool.true_and]

theorem ofInt_xor (a b : Int) :
    BitVec.ofInt 64 a ^^^ BitVec.ofInt 64 b = BitVec.ofInt 64 (a.xor b) := by
  refine BitVec.eq_of_getLsbD_eq fun i hi => ?_
  simp only [BitVec.getLsbD_xor, getLsbD_ofInt, Int.testBit_lxor, hi, decide_true, Bool.true_and]

end ActionTree
