import ActionTree.Operator
import ActionTree.Proofs.Number.Float

/-!
# Comparison from both sides

Comparing two values the other way round reverses the order, whatever their types: each case of the
comparison has its mirror. What is the same value compares equal.
-/

namespace ActionTree

open Float.Model (UnpackedFloat)

/-! ## Numbers -/

theorem NumberClass.promoteInt_comm (j k : IntKind) : promoteInt k j = promoteInt j k := by
  cases j <;> cases k <;> rfl

theorem NumberClass.promote_comm (a b : NumberClass) : b.promote a = a.promote b := by
  cases a <;> cases b
  case int.int j k => exact congrArg int (promoteInt_comm j k)
  all_goals rfl

theorem Decimal.compare_swap (a b : Decimal) : b.compare a = (a.compare b).swap :=
  Std.OrientedOrd.eq_swap

namespace Comparison

/-- What is decided for the floating point numbers is the order of their values. -/
theorem compareFloats_eq (x y : Float) :
    compareFloats x y = x.toModel.unpack.compare y.toModel.unpack := by
  have hswap := UnpackedFloat.compare_swap x.toModel.unpack y.toModel.unpack
  simp only [compareFloats, Real64.lt_iff, Real64.beq_iff, hswap]
  cases x.toModel.unpack.compare y.toModel.unpack with
  | none => rfl
  | some order => cases order <;> rfl

theorem compareFloats_swap (x y : Float) : compareFloats y x = (compareFloats x y).map Ordering.swap := by
  rw [compareFloats_eq, compareFloats_eq, UnpackedFloat.compare_swap]

theorem compareFloats_of_beq {x y : Float} (h : (x == y) = true) : compareFloats x y = some .eq := by
  rw [compareFloats_eq, Real64.beq_iff.mp h]

/-- What is read of both values is compared with its mirror. -/
theorem bind_swap {α : Type} {order : α → α → Option Ordering}
    (horder : ∀ a b, order b a = (order a b).map Ordering.swap) (x y : Option α) :
    (y.bind fun b => x.bind fun a => order b a) =
      (x.bind fun a => y.bind fun b => order a b).map Ordering.swap := by
  cases x with
  | none => cases y <;> rfl
  | some a =>
    cases y with
    | none => rfl
    | some b => exact horder a b

theorem compareNumbers_swap (l r : Value) : compareNumbers r l = (compareNumbers l r).map Ordering.swap := by
  unfold compareNumbers
  cases hl : NumberClass.ofValue? l with
  | none => cases NumberClass.ofValue? r <;> rfl
  | some lc =>
    cases hr : NumberClass.ofValue? r with
    | none => rfl
    | some rc =>
      simp only [Option.bind_eq_bind, Option.bind_some, NumberClass.promote_comm lc rc]
      cases lc.promote rc with
      | int => exact bind_swap (fun _ _ => congrArg some Std.OrientedOrd.eq_swap) l.toInt? r.toInt?
      | decimal =>
        exact bind_swap (fun a b => congrArg some (Decimal.compare_swap a b)) (Convert.decimal? l)
          (Convert.decimal? r)
      | float | double => exact bind_swap compareFloats_swap l.toFloat? r.toFloat?

/-! ## Texts -/

theorem compareChars_swap (cs ds : List Char) : compareChars ds cs = (compareChars cs ds).swap := by
  induction cs generalizing ds with
  | nil => cases ds <;> rfl
  | cons c cs ih =>
    cases ds with
    | nil => rfl
    | cons d ds =>
      rw [compareChars, compareChars, Ordering.swap_then, ← ih, ← Std.OrientedOrd.eq_swap]

theorem compareTexts_swap (a b : String) : compareTexts b a = (compareTexts a b).swap :=
  compareChars_swap a.toList b.toList

theorem compareChars_self (cs : List Char) : compareChars cs cs = .eq := by
  induction cs with
  | nil => rfl
  | cons c cs ih => rw [compareChars, ih, Nat.compare_eq_eq.mpr rfl, Ordering.eq_then]

theorem compareTexts_self (a : String) : compareTexts a a = .eq :=
  compareChars_self a.toList

/-- A text beside a number, from both sides. -/
theorem compareToText_eq (other : Value) (s : String) :
    compareToText other s = (compareText s other).map Ordering.swap := by
  unfold compareToText compareText
  cases numericText? s with
  | some n => exact compareNumbers_swap n other
  | none => exact congrArg some (compareTexts_swap s other.text)

/-! ## Values -/

/-- The values compare in the reverse order the other way round. -/
def Mirrored (l r : Value) : Prop := compareValues r l = (compareValues l r).map Ordering.swap

variable {l r : Value}

theorem Mirrored.symm (h : Mirrored l r) : Mirrored r l := by
  rw [Mirrored, h, Option.map_map]
  cases compareValues l r with
  | none => rfl
  | some order => exact congrArg some Ordering.swap_swap.symm

theorem mirrored_null (r : Value) : Mirrored .null r := by
  cases r <;> rfl

theorem mirrored_bool (a : Bool) (r : Value) : Mirrored (.bool a) r := by
  cases r with
  | bool b => cases a <;> cases b <;> rfl
  | _ => rfl

theorem mirrored_str (s : String) (r : Value) : Mirrored (.str s) r := by
  cases r with
  | null => exact (mirrored_null _).symm
  | bool b => exact (mirrored_bool b _).symm
  | str t => exact congrArg some (compareTexts_swap s t)
  | char c => exact congrArg some (compareTexts_swap s _)
  | enum e => exact congrArg some Ordering.swap_swap.symm
  | int | float | double | decimal =>
    simp only [Mirrored, compareValues, Value.isNumeric, if_true]
    exact compareToText_eq _ s
  | array | object => exact compareNumbers_swap _ _

mutual

/-- The other way round, two values compare in the reverse order. -/
theorem compareValues_swap (l r : Value) :
    compareValues r l = (compareValues l r).map Ordering.swap := by
  cases r with
  | null => exact (mirrored_null l).symm
  | bool b => exact (mirrored_bool b l).symm
  | str s => exact (mirrored_str s l).symm
  | array bs =>
    cases l with
    | null => exact mirrored_null _
    | bool a => exact mirrored_bool a _
    | str s => exact mirrored_str s _
    | array as =>
      rw [compareValues, compareValues, equalAll_comm as bs]
      cases equalAll as bs <;> rfl
    | _ => exact compareNumbers_swap _ _
  | object o =>
    cases l with
    | null => exact mirrored_null _
    | bool a => exact mirrored_bool a _
    | str s => exact mirrored_str s _
    | object o' =>
      rw [compareValues, compareValues, BEq.comm]
      cases o'.identity == o.identity <;> rfl
    | _ => exact compareNumbers_swap _ _
  | char | int | float | double | decimal | enum =>
    cases l with
    | null => exact mirrored_null _
    | bool a => exact mirrored_bool a _
    | str s => exact mirrored_str s _
    | _ => exact compareNumbers_swap _ _

theorem equalAll_comm (as bs : List Value) : equalAll bs as = equalAll as bs := by
  cases as with
  | nil => cases bs <;> rfl
  | cons a as =>
    cases bs with
    | nil => rfl
    | cons b bs =>
      rw [equalAll, equalAll, compareValues_swap a b, equalAll_comm as bs]
      cases compareValues a b with
      | none => rfl
      | some order => cases order <;> rfl

end

/-! ## The same value -/

mutual

/-- What is the same value compares equal. -/
theorem compareValues_of_same {l r : Value} (h : l.same r = true) : compareValues l r = some .eq := by
  rw [Value.same.eq_def] at h
  split at h
  next => rfl
  next a b =>
    rw [eq_of_beq h]
    cases b <;> rfl
  next c d =>
    rw [eq_of_beq h]
    exact congrArg some (Int.compare_eq_eq.mpr rfl)
  next i j =>
    rw [eq_of_beq h]
    obtain ⟨kind, n, hn⟩ := j
    cases kind <;> exact congrArg some (Int.compare_eq_eq.mpr rfl)
  next x y => exact compareFloats_of_beq (Real32.beq_widen h)
  next x y => exact compareFloats_of_beq h
  next d e => exact congrArg some (eq_of_beq h)
  next s t =>
    rw [eq_of_beq h]
    exact congrArg some (compareTexts_self t)
  next as bs =>
    rw [compareValues, equalAll_of_sameAll h]
    rfl
  next e e' =>
    rw [EnumValue.same, Bool.and_eq_true] at h
    exact congrArg some (Int.compare_eq_eq.mpr (congrArg Subtype.val (eq_of_beq h.1)))
  next o o' =>
    rw [compareValues, h]
    rfl
  next => cases h

theorem equalAll_of_sameAll {as bs : List Value} (h : Value.sameAll as bs = true) :
    equalAll as bs = true := by
  cases as with
  | nil =>
    cases bs with
    | nil => rfl
    | cons => cases h
  | cons a as =>
    cases bs with
    | nil => cases h
    | cons b bs =>
      rw [Value.sameAll, Bool.and_eq_true] at h
      rw [equalAll, compareValues_of_same h.1, equalAll_of_sameAll h.2]
      rfl

end

end Comparison

/-! ## Operators -/

open Comparison

namespace BinaryOp

/-- The operator that asks the same from the other side. -/
def mirror : BinaryOp → BinaryOp
  | lt => gt
  | gt => lt
  | le => ge
  | ge => le
  | op => op

/-- What a comparison operator says of two values, its mirror says the other way round. -/
theorem apply_mirror {op : BinaryOp} (h : op.wanted?.isSome = true) (l r : Value) :
    op.mirror.apply r l = op.apply l r := by
  cases op
  case eq | ne | lt | le | gt | ge =>
    simp only [apply, mirror, wanted?, compareValues_swap l r]
    cases compareValues l r with
    | none => rfl
    | some order => cases order <;> rfl
  all_goals cases h

end BinaryOp

/-- Comparing two values the other way round gives the reverse, if they can be compared at all; so
equality is symmetric, and less is the mirror of greater. What is the same value compares equal. -/
theorem compareValues_coherent (l r : Value) :
    compareValues r l = (compareValues l r).map Ordering.swap ∧
      BinaryOp.eq.apply r l = BinaryOp.eq.apply l r ∧
      BinaryOp.lt.apply r l = BinaryOp.gt.apply l r ∧
      (l.same r = true → compareValues l r = some .eq) :=
  ⟨compareValues_swap l r, @BinaryOp.apply_mirror .eq rfl l r, @BinaryOp.apply_mirror .gt rfl l r,
    compareValues_of_same⟩

/-- Zeros of both signs and a decimal with another number of places, in nested arrays. -/
theorem compareValues_coherent_nested :
    (Value.array [.array [.float 0.0, .double (-0.0)], .decimal ⟨false, 15, 1, by decide, by decide⟩]).same
        (.array [.array [.float (-0.0), .double 0.0], .decimal ⟨false, 150, 2, by decide, by decide⟩]) =
          true ∧
      compareValues
        (.array [.array [.float 0.0, .double (-0.0)], .decimal ⟨false, 15, 1, by decide, by decide⟩])
        (.array [.array [.float (-0.0), .double 0.0], .decimal ⟨false, 150, 2, by decide, by decide⟩]) =
          some .eq := by
  have hsame : (Value.array [.array [.float 0.0, .double (-0.0)],
      .decimal ⟨false, 15, 1, by decide, by decide⟩]).same
        (.array [.array [.float (-0.0), .double 0.0], .decimal ⟨false, 150, 2, by decide, by decide⟩]) =
          true := by
    decide +kernel
  exact ⟨hsame, (compareValues_coherent _ _).2.2.2 hsame⟩

end ActionTree
