import Mathlib
import ActionTree.Number.Binary

/-!
# The order of floating point numbers

Two floating point numbers compare one way or the other alike, and widening keeps equal numbers equal.
-/

namespace ActionTree

open Float.Model (UnpackedFloat)
open Float.Model.UnpackedFloat (Sign)

/-! ## Numbers taken apart -/

theorem Sign.compare_swap (s t : Sign) : compare t s = (compare s t).swap := by
  cases s <;> cases t <;> rfl

namespace UnpackedFloat

variable {u v : UnpackedFloat}

theorem compare_swap (u v : UnpackedFloat) : v.compare u = (u.compare v).map Ordering.swap := by
  cases u with
  | notANumber => cases v <;> rfl
  | infinity s =>
    cases v with
    | notANumber => cases s <;> rfl
    | infinity t => exact congrArg some (Sign.compare_swap s t)
    | zero | finite => cases s <;> rfl
  | zero s =>
    cases v with
    | notANumber | zero => rfl
    | infinity t => cases t <;> rfl
    | finite t => cases t <;> rfl
  | finite s m e =>
    cases v with
    | notANumber => cases s <;> rfl
    | infinity t => cases s <;> cases t <;> rfl
    | zero => cases s <;> rfl
    | finite t m' e' =>
      have hparts : ((compare e' e).then (compare m' m)) = ((compare e e').then (compare m m')).swap := by
        rw [Ordering.swap_then, ← Std.OrientedOrd.eq_swap, ← Std.OrientedOrd.eq_swap]
      cases s <;> cases t <;> simp [UnpackedFloat.compare, hparts]

/-! ## Rounding and packing -/

open Float.Model (Format)
open Float.Model.UnpackedFloat (packComponents)

theorem round_ne (format : Format) (s : Sign) (m : Nat) (e : Int) :
    UnpackedFloat.round format s m e ≠ .notANumber := by
  unfold UnpackedFloat.round UnpackedFloat.roundWithAccuracy
  dsimp only
  split_ifs <;> exact UnpackedFloat.noConfusion

/-- Only an exponent of ones before another mantissa than zero is not a number. -/
theorem unpack_components_ne {format : Format} {s : Sign} {exponent : BitVec format.exponentBits}
    {mantissa : BitVec format.mantissaBitsWithoutImplicit} (h : exponent = -1#_ → mantissa = 0#_) :
    UnpackedFloat.unpack format (packComponents format s exponent mantissa) ≠ .notANumber := by
  unfold UnpackedFloat.unpack
  simp only [UnpackedFloat.unpackMantissa_packComponents, UnpackedFloat.unpackExponent_packComponents]
  split
  next hones => simp [h hones]
  next => split_ifs <;> exact UnpackedFloat.noConfusion

theorem unpack_pack_ne (h : u ≠ .notANumber) : (Float.Model.pack u).unpack ≠ .notANumber := by
  rw [Float.Model.pack, Float.Model.unpack]
  dsimp only
  cases u with
  | notANumber => exact absurd rfl h
  | infinity s => exact unpack_components_ne fun _ => rfl
  | zero s => exact unpack_components_ne fun _ => rfl
  | finite s m e =>
    unfold UnpackedFloat.pack
    dsimp only
    split_ifs with hlarge hnormal
    · exact unpack_components_ne fun _ => rfl
    · refine unpack_components_ne fun hones => absurd (congrArg BitVec.toNat hones) ?_
      generalize (e + Format.binary64.exponentBias + (52 : Nat)).toNat = biased at hlarge ⊢
      have hlt : biased < 2 ^ 11 - 1 := by omega
      simp only [BitVec.toNat_ofNat, BitVec.toNat_neg]
      omega
    · exact unpack_components_ne fun hones => absurd hones (by decide)

end UnpackedFloat

/-! ## Comparison and widening -/

namespace Real64

theorem lt_iff {x y : Float} : x < y ↔ x.toModel.unpack.compare y.toModel.unpack = some .lt := by
  have hmodel : x < y ↔ x.toModel.unpack.lt y.toModel.unpack = true := decide_eq_true_iff
  rw [hmodel, UnpackedFloat.lt, beq_iff_eq]

theorem beq_iff {x y : Float} :
    (x == y) = true ↔ x.toModel.unpack.compare y.toModel.unpack = some .eq := by
  change (x.toModel.unpack.compare y.toModel.unpack == some .eq) = true ↔ _
  exact beq_iff_eq

end Real64

namespace Real32

/-- What is a number is one in 64 bits. -/
theorem unpack_widen_ne {x : Float32} (h : x.toModel.unpack ≠ .notANumber) :
    (widen x).toModel.unpack ≠ .notANumber := by
  refine UnpackedFloat.unpack_pack_ne ?_
  cases hx : x.toModel.unpack with
  | notANumber => exact absurd hx h
  | infinity | zero => exact UnpackedFloat.noConfusion
  | finite s m e => exact UnpackedFloat.round_ne _ s m e

/-- Widening keeps numbers that compare equal equal. -/
theorem beq_widen {x y : Float32} (h : (x == y) = true) : (widen x == widen y) = true := by
  obtain ⟨hx, -, heq | ⟨hx0, hy0⟩ | ⟨hx0, hy0⟩⟩ :=
    (UnpackedFloat.beq_iff_ne_notANumber_and_eq x.toModel.unpack y.toModel.unpack).mp h
  · have hne := unpack_widen_ne hx
    have hwiden : widen x = widen y := by rw [widen, widen, heq]
    rw [← hwiden]
    exact (UnpackedFloat.beq_iff_ne_notANumber_and_eq _ _).mpr ⟨hne, hne, .inl rfl⟩
  · rw [widen, widen, hx0, hy0]
    rfl
  · rw [widen, widen, hx0, hy0]
    rfl

end Real32

end ActionTree
