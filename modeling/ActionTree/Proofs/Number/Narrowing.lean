import Mathlib
import ActionTree.Number.Binary

/-!
# Narrowing what was widened

A number of 32 bits is one of 64 bits, so widening and narrowing it gives it back. Two facts carry
this: rounding moves the mantissa of a number that the format holds to the exponent that the format
wants and loses nothing, and packing is the inverse of unpacking.
-/

namespace ActionTree

open Float.Model (Format UnpackedFloat totalExponent)
open Float.Model.UnpackedFloat

namespace UnpackedFloat

/-! ## Rounding a number that the format holds -/

theorem log2_shiftLeft {m : Nat} (hm : 0 < m) (k : Nat) : (m <<< k).log2 = m.log2 + k := by
  have hne : m ≠ 0 := Nat.pos_iff_ne_zero.mp hm
  have hpos : 0 < 2 ^ k := Nat.two_pow_pos k
  rw [Nat.shiftLeft_eq, Nat.log2_eq_iff (Nat.mul_ne_zero hne hpos.ne'), Nat.pow_add,
    Nat.add_right_comm, Nat.pow_add]
  exact ⟨Nat.mul_le_mul_right _ (Nat.log2_self_le hne),
    Nat.mul_lt_mul_of_pos_right Nat.lt_log2_self hpos⟩

/-- The highest digit stays where it is when digits move between mantissa and exponent. -/
theorem totalExponent_shiftLeft {m : Nat} (hm : 0 < m) (e : Int) (k : Nat) :
    totalExponent (m <<< k) (e - k) = totalExponent m e := by
  rw [totalExponent, totalExponent, log2_shiftLeft hm]
  omega

theorem shiftLeft_shiftRight_exact (m k : Nat) :
    (ExtendedMantissa.mk (m <<< k) false false >>> k) = ⟨m, false, false⟩ := by
  induction k generalizing m with
  | zero => rfl
  | succ k ih =>
    have hstep : ExtendedMantissa.mk (m <<< (k + 1)) false false >>> (k + 1) =
        (ExtendedMantissa.mk (m <<< 1 <<< k) false false >>> k).shiftRightOne := by
      rw [← Nat.shiftLeft_add, Nat.add_comm 1 k]
      rfl
    rw [hstep, ih, ExtendedMantissa.shiftRightOne, Nat.shiftLeft_eq]
    simp

/-- Digits that are zeros are dropped without loss. -/
theorem shiftToTargetExponent_shiftLeft {format : Format} {m : Nat} (hm : 0 < m) {e : Int}
    (htarget : format.targetExponent (totalExponent m e) = e) (k : Nat) :
    shiftToTargetExponent format (m <<< k) (e - k) .exact = (⟨m, false, false⟩, e) := by
  have hcount : (e - (e - (k : Int))).toNat = k := by omega
  rw [shiftToTargetExponent, totalExponent_shiftLeft hm, htarget, shiftToExponent, hcount]
  exact Prod.ext (shiftLeft_shiftRight_exact m k) (Int.sub_add_cancel e k)

theorem roundWithAccuracy_shiftLeft {format : Format} (s : Sign) {m : Nat} (hm : 0 < m) {e : Int}
    (htarget : format.targetExponent (totalExponent m e) = e) (k : Nat) :
    roundWithAccuracy format s (m <<< k) (e - k) .exact = .finite s m e hm := by
  have hagain := shiftToTargetExponent_shiftLeft hm htarget 0
  rw [Nat.shiftLeft_zero, Nat.cast_zero, Int.sub_zero] at hagain
  rw [roundWithAccuracy, shiftToTargetExponent_shiftLeft hm htarget]
  simp only [ExtendedMantissa.roundedMantissa, ExtendedMantissa.accuracy,
    Accuracy.roundToNearestEven, hagain, dif_neg hm.ne']

/-- A number whose exponent is too great for the format takes on zeros. -/
theorem round_of_target_le {format : Format} (s : Sign) {m : Nat} (hm : 0 < m) {e : Int} {k : Nat}
    (htarget : format.targetExponent (totalExponent m e) = e - k) :
    UnpackedFloat.round format s m e =
      .finite s (m <<< k) (e - k) (Nat.shiftLeft_eq m k ▸ Nat.mul_pos hm (Nat.two_pow_pos k)) := by
  have hpos : 0 < m <<< k := Nat.shiftLeft_eq m k ▸ Nat.mul_pos hm (Nat.two_pow_pos k)
  have hcount : (e - (e - (k : Int))).toNat = k := by omega
  have hround :=
    roundWithAccuracy_shiftLeft s hpos ((totalExponent_shiftLeft hm e k).symm ▸ htarget) 0
  rw [Nat.shiftLeft_zero, Nat.cast_zero, Int.sub_zero] at hround
  rw [UnpackedFloat.round, htarget, decreaseExponent, hcount]
  exact hround

/-- A number that the format holds loses the zeros that it does not need. -/
theorem round_shiftLeft {format : Format} (s : Sign) {m : Nat} (hm : 0 < m) {e : Int}
    (htarget : format.targetExponent (totalExponent m e) = e) (k : Nat) :
    UnpackedFloat.round format s (m <<< k) (e - k) = .finite s m e hm := by
  have hcount : (e - (k : Int) - e).toNat = 0 := by omega
  rw [UnpackedFloat.round, totalExponent_shiftLeft hm, htarget, decreaseExponent, hcount]
  rw [Nat.shiftLeft_zero, Nat.cast_zero, Int.sub_zero]
  exact roundWithAccuracy_shiftLeft s hm htarget k

/-! ## Packing and unpacking -/

theorem Sign.ofBitVec_toBitVec (s : Sign) : Sign.ofBitVec s.toBitVec = s := by
  cases s <;> rfl

theorem Sign.toBitVec_ofBitVec (b : BitVec 1) : (Sign.ofBitVec b).toBitVec = b := by
  revert b
  decide

theorem unpackSign_packComponents {format : Format} {s : Sign} {exponent : BitVec format.exponentBits}
    {mantissa : BitVec format.mantissaBitsWithoutImplicit} :
    unpackSign (packComponents format s exponent mantissa) = s.toBitVec := by
  apply BitVec.eq_of_getLsbD_eq
  intro i hi
  obtain rfl : i = 0 := by omega
  simp [unpackSign, packComponents, BitVec.getLsbD_append, BitVec.getElem_append]

theorem packComponents_unpack (b : BitVec Format.binary32.numBits) :
    packComponents .binary32 (Sign.ofBitVec (unpackSign b)) (unpackExponent b) (unpackMantissa b) =
      b := by
  simp only [packComponents, Sign.toBitVec_ofBitVec, unpackSign, unpackExponent, unpackMantissa,
    BitVec.extractLsb]
  ext i hi
  grind

/-- The highest bit of the mantissa, which is not stored. -/
theorem toNat_implicit {n : Nat} (mantissa : BitVec n) :
    (1#1 ++ mantissa).toNat = 2 ^ n + mantissa.toNat := by
  rw [BitVec.toNat_append, ← Nat.shiftLeft_add_eq_or_of_lt mantissa.isLt, Nat.shiftLeft_eq]
  simp

theorem log2_implicit {n : Nat} (mantissa : BitVec n) : (1#1 ++ mantissa).toNat.log2 = n := by
  have hlt := mantissa.isLt
  have hpos : 0 < 2 ^ n := Nat.two_pow_pos n
  rw [toNat_implicit, Nat.log2_eq_iff (by omega), Nat.pow_succ]
  omega

theorem ofNat_implicit {n : Nat} (mantissa : BitVec n) :
    BitVec.ofNat n (1#1 ++ mantissa).toNat = mantissa := by
  refine BitVec.eq_of_toNat_eq ?_
  rw [BitVec.toNat_ofNat, toNat_implicit, Nat.add_mod_left, Nat.mod_eq_of_lt mantissa.isLt]

/-- A mantissa with a leading one is put together again from the bits that are stored. -/
theorem implicit_ofNat {n m : Nat} (hm : 0 < m) (hlog : m.log2 = n) :
    (1#1 ++ BitVec.ofNat n m).toNat = m := by
  obtain ⟨hleast, hlt⟩ := (Nat.log2_eq_iff hm.ne').mp hlog
  rw [Nat.pow_succ] at hlt
  rw [toNat_implicit, BitVec.toNat_ofNat, Nat.mod_eq_sub_mod hleast, Nat.mod_eq_of_lt (by omega)]
  omega

theorem toNat_lt_of_ne {n : Nat} {x : BitVec n} (h : x ≠ -1#n) : x.toNat + 1 < 2 ^ n := by
  have hlt := x.isLt
  have hne : x.toNat ≠ 2 ^ n - 1 := by
    intro heq
    refine h (BitVec.eq_of_toNat_eq ?_)
    rw [heq, BitVec.neg_one_eq_allOnes, BitVec.toNat_allOnes]
  omega

/-- A finite number of 32 bits has the exponent that the format wants. -/
theorem target_of_unpack {b : BitVec Format.binary32.numBits} {s : Sign} {m : Nat} {e : Int}
    {hm : 0 < m} (h : unpack .binary32 b = .finite s m e hm) :
    Format.binary32.targetExponent (totalExponent m e) = e ∧ m.log2 ≤ 23 ∧ -149 ≤ e ∧ e ≤ 104 := by
  have hexponent := (unpackExponent b).isLt
  have hmantissa := (unpackMantissa b).isLt
  rw [unpack] at h
  simp only [Format.targetExponent, totalExponent, Format.mantissaBits, Format.minExponent]
  split at h
  · split at h <;> exact UnpackedFloat.noConfusion h
  · next hones =>
    split at h
    · next hzero =>
      split at h
      · exact UnpackedFloat.noConfusion h
      · -- without a leading one the exponent is the least
        obtain ⟨-, rfl, rfl⟩ := UnpackedFloat.finite.inj h
        have hlog := (Nat.log2_lt (k := 23) hm.ne').mpr hmantissa
        rw [hzero]
        simp [Format.exponentBias]
        omega
    · next hnormal =>
      obtain ⟨-, rfl, rfl⟩ := UnpackedFloat.finite.inj h
      have hpos := BitVec.toNat_pos_of_ne_zero hnormal
      have hlt : (unpackExponent b).toNat + 1 < 2 ^ 8 := toNat_lt_of_ne hones
      rw [log2_implicit]
      simp only [Format.exponentBias]
      omega

/-- The exponent that is stored is zero where the mantissa has no leading one. -/
theorem pack_finite {format : Format} (s : Sign) {m : Nat} {e : Int} (hm : 0 < m) (exponent : Nat)
    (hexponent : e + format.exponentBias + format.mantissaBitsWithoutImplicit = exponent)
    (hlt : exponent + 1 < 2 ^ format.exponentBits) :
    UnpackedFloat.pack format (.finite s m e hm) =
      packComponents format s
        (if m.log2 = format.mantissaBitsWithoutImplicit then BitVec.ofNat _ exponent else 0#_)
        (BitVec.ofNat _ m) := by
  have hleading : m.log2 + 1 = format.mantissaBits ↔ m.log2 = format.mantissaBitsWithoutImplicit := by
    rw [Format.mantissaBits]
    omega
  simp only [UnpackedFloat.pack, hexponent, Int.toNat_natCast, if_neg (Nat.not_le.mpr hlt), hleading]
  split <;> rfl

theorem pack_unpack {b : BitVec Format.binary32.numBits} (hvalid : Format.binary32.Valid b) :
    UnpackedFloat.pack .binary32 (unpack .binary32 b) = b := by
  have hparts := packComponents_unpack b
  have hmantissa := (unpackMantissa b).isLt
  rw [unpack]
  split
  · next hones =>
    split
    · next hzero =>
      rw [hones, hzero] at hparts
      exact hparts
    · next hzero => exact (hvalid.eq_packedNaN hones hzero).symm
  · next hones =>
    split
    · next hleast =>
      split
      · next hzero =>
        rw [hleast, hzero] at hparts
        exact hparts
      · next hzero =>
        have hpos := BitVec.toNat_pos_of_ne_zero hzero
        have hlog := (Nat.log2_lt (k := 23) hpos.ne').mpr hmantissa
        rw [pack_finite _ _ 1 (by rw [hleast]; rfl) (by decide), if_neg hlog.ne,
          BitVec.ofNat_toNat, BitVec.setWidth_eq, ← hleast]
        exact hparts
    · next hnormal =>
      rw [pack_finite _ _ (unpackExponent b).toNat (by omega) (toNat_lt_of_ne hones),
        if_pos (log2_implicit _), BitVec.ofNat_toNat, BitVec.setWidth_eq, ofNat_implicit]
      exact hparts

/-- A number of 64 bits without leading zeros is unpacked as it was packed. -/
theorem unpack_pack_normal (s : Sign) {m : Nat} (hm : 0 < m) {e : Int} (hlog : m.log2 = 52)
    (hleast : -1074 ≤ e) (hgreatest : e ≤ 971) :
    unpack .binary64 (UnpackedFloat.pack .binary64 (.finite s m e hm)) = .finite s m e hm := by
  obtain ⟨exponent, hexponent⟩ := Int.eq_ofNat_of_zero_le (a := e + 1075) (by omega)
  have hstored : (BitVec.ofNat 11 exponent).toNat = exponent := Nat.mod_eq_of_lt (by omega)
  have hones : BitVec.ofNat 11 exponent ≠ -1#11 := by
    intro h
    have hgreatest : exponent = 2047 := hstored.symm.trans (congrArg BitVec.toNat h)
    omega
  have hzero : BitVec.ofNat 11 exponent ≠ 0#11 := by
    intro h
    have hleast : exponent = 0 := hstored.symm.trans (congrArg BitVec.toNat h)
    omega
  rw [pack_finite s hm exponent (by simp [Format.exponentBias]; omega)
    (by simp; omega), if_pos hlog, unpack]
  simp only [unpackMantissa_packComponents, unpackExponent_packComponents, unpackSign_packComponents,
    Sign.ofBitVec_toBitVec, if_neg hones, if_neg hzero, implicit_ofNat hm hlog, hstored]
  congr 1
  simp [Format.exponentBias]
  omega

end UnpackedFloat

/-- What is read off the bits of a number of 32 bits gives the number back. -/
theorem Real32.pack_unpack (x : Float32) : Float32.Model.pack x.toModel.unpack = x.toModel := by
  obtain ⟨bits, hvalid⟩ := x.toModel
  simp only [Float32.Model.pack, Float32.Model.unpack, UnpackedFloat.pack_unpack hvalid]

namespace Real64

open UnpackedFloat

/-- Widening a number of 32 bits and narrowing it gives it back. -/
theorem narrow_widen (x : Float32) : narrow (Real32.widen x) = x := by
  rw [narrow, Real32.widen]
  refine congrArg Float32.ofModel (Eq.trans ?_ (Real32.pack_unpack x))
  cases hx : x.toModel.unpack with
  | notANumber => rfl
  | infinity s => cases s <;> rfl
  | zero s => cases s <;> rfl
  | finite s m e hm =>
    obtain ⟨htarget, hlog, hleast, hgreatest⟩ := target_of_unpack hx
    have hwide : Format.binary64.targetExponent (totalExponent m e) = e - (52 - m.log2 : Nat) := by
      simp only [Format.targetExponent, totalExponent, Format.mantissaBits, Format.minExponent]
      omega
    have hunpacked : (Float.Model.pack (UnpackedFloat.round .binary64 s m e)).unpack =
        UnpackedFloat.round .binary64 s m e := by
      rw [round_of_target_le s hm hwide]
      refine unpack_pack_normal s _ ?_ (by omega) (by omega)
      rw [log2_shiftLeft hm]
      omega
    dsimp only
    rw [hunpacked, round_of_target_le s hm hwide]
    dsimp only
    rw [round_shiftLeft s hm htarget]

end Real64

end ActionTree
