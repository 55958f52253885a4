import ActionTree.Evaluation.Direct
import ActionTree.Proofs.Number.Integer

/-!
# Arithmetic of integers

Operators on integers, characters and members of enumerations give the member of the promoted type
that is congruent to the exact result. A quotient and a remainder go together: times the divisor and
plus the remainder, the quotient is the dividend again, as far as the promoted type shows it.
-/

namespace ActionTree

open NumberClass

/-- The value calculates in the integer type `k`, with the number `n`. -/
structure Value.CountsAs (v : Value) (k : IntKind) (n : Int) : Prop where
  kind : intKind? v = some k
  number : v.toInt? = some n

namespace Value.CountsAs

variable {v : Value} {k : IntKind} {n : Int}

theorem cases (h : v.CountsAs k n) :
    (∃ i, v = .int i) ∨ (∃ c, v = .char c) ∨ ∃ e, v = .enum e := by
  obtain ⟨hkind, -⟩ := h
  cases v with
  | int i => exact .inl ⟨i, rfl⟩
  | char c => exact .inr (.inl ⟨c, rfl⟩)
  | enum e => exact .inr (.inr ⟨e, rfl⟩)
  | _ => cases hkind

theorem ofValue? (h : v.CountsAs k n) : NumberClass.ofValue? v = some (.int k) := by
  obtain ⟨i, rfl⟩ | ⟨c, rfl⟩ | ⟨e, rfl⟩ := h.cases <;>
    exact congrArg (Option.map NumberClass.int) h.kind

/-- Converted to an integer type, the value is its number there. -/
theorem convert (h : v.CountsAs k n) (j : IntKind) :
    Convert.convert (.int j) v = .ok (.int (.ofInt j n)) := by
  obtain ⟨i, rfl⟩ | ⟨c, rfl⟩ | ⟨e, rfl⟩ := h.cases <;>
    exact congrArg (fun m => Except.ok (Value.int (.ofInt j m))) (Option.some.inj h.number)

end Value.CountsAs

/-- Integers, characters and members of enumerations are what calculates in an integer type. -/
theorem Value.exists_countsAs_iff {v : Value} :
    (∃ k n, v.CountsAs k n) ↔ (∃ i, v = .int i) ∨ (∃ c, v = .char c) ∨ ∃ e, v = .enum e := by
  constructor
  · rintro ⟨k, n, h⟩
    exact h.cases
  · rintro (⟨⟨kind, n, h⟩, rfl⟩ | ⟨c, rfl⟩ | ⟨e, rfl⟩)
    · cases kind <;> exact ⟨_, _, rfl, rfl⟩
    · exact ⟨_, _, rfl, rfl⟩
    · exact ⟨_, _, rfl, rfl⟩

namespace NumberClass

/-- A result calculates in its own type. -/
theorem countsAs_promoteInt {i : Integer} {j k : IntKind} (h : i.kind = promoteInt j k) :
    (Value.int i).CountsAs (promoteInt j k) i.val := by
  refine ⟨?_, rfl⟩
  rw [intKind?, h]
  cases j <;> cases k <;> rfl

theorem promoteInt_right (j k : IntKind) : promoteInt (promoteInt j k) k = promoteInt j k := by
  cases j <;> cases k <;> rfl

theorem promoteInt_self (j k : IntKind) :
    promoteInt (promoteInt j k) (promoteInt j k) = promoteInt j k := by
  cases j <;> cases k <;> rfl

end NumberClass

namespace BinaryOp

variable {op : BinaryOp} {l r : Value} {j k : IntKind} {a b : Int}

theorem apply_countsAs (hl : l.CountsAs j a) (hr : r.CountsAs k b) (hop : op.wanted? = none) :
    op.apply l r = op.onNumbers l r (.int j) (.int k) := by
  have hl' := hl.ofValue?
  have hr' := hr.ofValue?
  rw [apply, hop]
  obtain ⟨i, rfl⟩ | ⟨c, rfl⟩ | ⟨e, rfl⟩ := hl.cases <;>
    obtain ⟨i', rfl⟩ | ⟨c', rfl⟩ | ⟨e', rfl⟩ := hr.cases <;>
      simp [calculate, hl', hr']

/-- An operator of arithmetic gives its result on the numbers in the promoted type. -/
theorem apply_of_onInts? (hl : l.CountsAs j a) (hr : r.CountsAs k b) {x : Except RuntimeFault Int}
    (h : op.onInts? a b = some x) :
    op.apply l r = x.map fun n => .int (.ofInt (promoteInt j k) n) := by
  have hwanted : op.wanted? = none := by cases op <;> first | rfl | cases h
  have hshift : ¬ (op = shl ∨ op = shr) := by rintro (rfl | rfl) <;> cases h
  rw [apply_countsAs hl hr hwanted, onNumbers, if_neg hshift, hl.number, hr.number]
  simp only [promote, Option.getD_some, h]

/-! ## Results that are congruent to the exact ones -/

/-- The exact result of an operator that never fails, the bits in two's complement without end. -/
def unbounded? (op : BinaryOp) (a b : Int) : Option Int :=
  match op with
  | add => some (a + b)
  | sub => some (a - b)
  | mul => some (a * b)
  | bitAnd => some (a.land b)
  | bitOr => some (a.lor b)
  | bitXor => some (a.xor b)
  | _ => none

theorem onInts?_modEq {n : Int} (h : op.unbounded? a b = some n) :
    ∃ m, op.onInts? a b = some (.ok m) ∧ m ≡ n [ZMOD 2 ^ 64] := by
  cases op with
  | add | sub | mul =>
    cases h
    exact ⟨_, rfl, rfl⟩
  | bitAnd => exact ⟨_, rfl, Option.some.inj h ▸ bitwise_modEq ofInt_land a b⟩
  | bitOr => exact ⟨_, rfl, Option.some.inj h ▸ bitwise_modEq ofInt_lor a b⟩
  | bitXor => exact ⟨_, rfl, Option.some.inj h ▸ bitwise_modEq ofInt_xor a b⟩
  | _ => cases h

theorem apply_of_unbounded? (hl : l.CountsAs j a) (hr : r.CountsAs k b) {n : Int}
    (h : op.unbounded? a b = some n) : op.apply l r = .ok (.int (.ofInt (promoteInt j k) n)) := by
  obtain ⟨m, hm, hmod⟩ := onInts?_modEq h
  have hwidth : (2 : Int) ^ (promoteInt j k).bits ∣ 2 ^ 64 := pow_dvd_pow 2 (IntKind.bits_le _)
  rw [apply_of_onInts? hl hr hm, ← Integer.ofInt_eq_ofInt_iff.mpr (hmod.of_dvd hwidth)]
  rfl

/-! ## Quotient and remainder -/

theorem apply_div (hl : l.CountsAs j a) (hr : r.CountsAs k b) (hb : b ≠ 0) :
    div.apply l r = .ok (.int (.ofInt (promoteInt j k) (a.tdiv b))) :=
  apply_of_onInts? (x := .ok (a.tdiv b)) hl hr (congrArg some (if_neg hb))

theorem apply_rem (hl : l.CountsAs j a) (hr : r.CountsAs k b) (hb : b ≠ 0) :
    rem.apply l r = .ok (.int (.ofInt (promoteInt j k) (a.tmod b))) :=
  apply_of_onInts? (x := .ok (a.tmod b)) hl hr (congrArg some (if_neg hb))

theorem apply_by_zero (hop : op = div ∨ op = rem) (hl : l.CountsAs j a) (hr : r.CountsAs k 0) :
    op.apply l r = .error .divisionByZero := by
  obtain rfl | rfl := hop <;> exact apply_of_onInts? (x := .error .divisionByZero) hl hr rfl

theorem apply_by_zero_iff (hop : op = div ∨ op = rem) (hl : l.CountsAs j a)
    (hr : r.CountsAs k b) : (∃ f, op.apply l r = .error f) ↔ b = 0 := by
  constructor
  · rintro ⟨f, hf⟩
    by_contra hb
    obtain rfl | rfl := hop
    · rw [apply_div hl hr hb] at hf
      cases hf
    · rw [apply_rem hl hr hb] at hf
      cases hf
  · rintro rfl
    exact ⟨_, apply_by_zero hop hl hr⟩

end BinaryOp

namespace Expr

variable {σ : Type} {env : Environment σ}

theorem value_literal (env : Environment σ) (v : Value) : (literal v).value env = pure v := rfl

theorem value_binary {op : BinaryOp} {x y : Expr} {v w z : Value} (hx : x.value env = pure v)
    (hy : y.value env = pure w) (h : op.apply v w = .ok z) :
    (binary op x y).value env = pure z := by
  rw [value, hx, hy, pure_bind, pure_bind, h]
  rfl

/-- The dividend put together again from the quotient and the remainder, `(l / r) * r + (l % r)`. -/
def recombined (l r : Value) : Expr :=
  .binary .add (.binary .mul (.binary .div (.literal l) (.literal r)) (.literal r))
    (.binary .rem (.literal l) (.literal r))

/-- What is lost of the quotient, of the product and of the sum is in each case a multiple of two to
the width of the promoted type, so the dividend comes back, cut to that type. -/
theorem value_recombined {l r : Value} {j k : IntKind} {a b : Int} (hl : l.CountsAs j a)
    (hr : r.CountsAs k b) (hb : b ≠ 0) :
    (recombined l r).value env = pure (.int (.ofInt (promoteInt j k) a)) := by
  set K := promoteInt j k with hK
  set q := Integer.ofInt K (a.tdiv b)
  set p := Integer.ofInt K (q.val * b)
  set m := Integer.ofInt K (a.tmod b)
  have hq : (Value.int q).CountsAs K q.val := countsAs_promoteInt rfl
  have hp : (Value.int p).CountsAs K p.val := countsAs_promoteInt rfl
  have hm : (Value.int m).CountsAs K m.val := countsAs_promoteInt rfl
  have hqr : BinaryOp.mul.apply (.int q) r = .ok (.int p) := by
    rw [BinaryOp.apply_of_unbounded? hq hr rfl, promoteInt_right]
  have hsum : p.val + m.val ≡ a [ZMOD 2 ^ K.bits] :=
    calc p.val + m.val
        ≡ a.tdiv b * b + a.tmod b [ZMOD 2 ^ K.bits] :=
          ((K.cut_modEq _).trans ((K.cut_modEq _).mul_right b)).add (K.cut_modEq _)
      _ = a := Int.tdiv_mul_add_tmod a b
  have hpm : BinaryOp.add.apply (.int p) (.int m) = .ok (.int (.ofInt K a)) := by
    rw [BinaryOp.apply_of_unbounded? hp hm rfl, promoteInt_self, ← hK,
      Integer.ofInt_eq_ofInt_iff.mpr hsum]
  have hquot := value_binary (value_literal env l) (value_literal env r)
    (BinaryOp.apply_div hl hr hb)
  have hrem := value_binary (value_literal env l) (value_literal env r)
    (BinaryOp.apply_rem hl hr hb)
  exact value_binary (value_binary hquot (value_literal env r) hqr) hrem hpm

end Expr

/-! ## Arithmetic in the promoted type -/

namespace BinaryOp

variable {l r : Value} {j k : IntKind} {a b : Int}

/-- Operands that calculate as integers give a result of their promoted type. A sum, a difference, a
product and a result on bits is the member of the type that is congruent to the exact result, and it
does not matter if the exact result is cut to 128 bits on the way. A quotient and a remainder fail
for the divisor zero alone, and together they give the dividend, converted to the promoted type. -/
theorem integer_arithmetic (hl : l.CountsAs j a) (hr : r.CountsAs k b) :
    (∀ op n, unbounded? op a b = some n → ∃ i : Integer, op.apply l r = .ok (.int i) ∧
      i.kind = promoteInt j k ∧ i.val ≡ n [ZMOD 2 ^ (promoteInt j k).bits] ∧
      i = .ofInt (promoteInt j k) (n.bmod (2 ^ 128))) ∧
    (∀ op, op = div ∨ op = rem → ((∃ f, op.apply l r = .error f) ↔ b = 0)) ∧
    (b ≠ 0 → ∃ q m : Integer, div.apply l r = .ok (.int q) ∧ rem.apply l r = .ok (.int m) ∧
      q.kind = promoteInt j k ∧ m.kind = promoteInt j k ∧
      ∃ v, Convert.convert (.int (promoteInt j k)) l = .ok v ∧
        ∀ (σ : Type) (env : Environment σ), (Expr.recombined l r).value env = pure v) := by
  refine ⟨fun op n h => ?exactly, fun op hop => apply_by_zero_iff hop hl hr, fun hb => ?divided⟩
  case exactly =>
    refine ⟨_, apply_of_unbounded? hl hr h, rfl, IntKind.cut_modEq _ n, ?_⟩
    refine Integer.ofInt_eq_ofInt_iff.mpr (Int.ModEq.symm ?_)
    have hwidth : (2 : Int) ^ (promoteInt j k).bits ∣ 2 ^ 128 :=
      pow_dvd_pow 2 ((IntKind.bits_le _).trans (by decide))
    exact Int.ModEq.of_dvd hwidth Int.bmod_emod
  case divided =>
    exact ⟨_, _, apply_div hl hr hb, apply_rem hl hr hb, rfl, rfl, _, hl.convert _,
      fun σ env => Expr.value_recombined hl hr hb⟩

/-- The least `int` times the greatest `ulong` does not fit into either type, and the least `int`
divided by -1 does not fit into `int`. -/
theorem integer_arithmetic_extremes :
    (Value.int (.ofInt .int (-2 ^ 31))).CountsAs .int (-2 ^ 31) ∧
    (Value.int (.ofInt .ulong (2 ^ 64 - 1))).CountsAs .ulong (2 ^ 64 - 1) ∧
    (Value.int (.ofInt .int (-1))).CountsAs .int (-1) ∧
    (∃ i : Integer, i.val = 2 ^ 31 ∧ mul.apply (.int (.ofInt .int (-2 ^ 31)))
      (.int (.ofInt .ulong (2 ^ 64 - 1))) = .ok (.int i)) ∧
    ∀ (σ : Type) (env : Environment σ),
      (Expr.recombined (.int (.ofInt .int (-2 ^ 31))) (.int (.ofInt .int (-1)))).value env =
        pure (.int (.ofInt .int (-2 ^ 31))) := by
  have hleast : (Value.int (.ofInt .int (-2 ^ 31))).CountsAs .int (-2 ^ 31) := ⟨rfl, by decide⟩
  have hgreatest : (Value.int (.ofInt .ulong (2 ^ 64 - 1))).CountsAs .ulong (2 ^ 64 - 1) :=
    ⟨rfl, by decide⟩
  have hone : (Value.int (.ofInt .int (-1))).CountsAs .int (-1) := ⟨rfl, by decide⟩
  refine ⟨hleast, hgreatest, hone, ?product, fun σ env => ?dividend⟩
  case product =>
    obtain ⟨i, happly, -, -, rfl⟩ := (integer_arithmetic hleast hgreatest).1 mul _ rfl
    exact ⟨_, by decide, happly⟩
  case dividend =>
    obtain ⟨-, -, -, -, -, -, v, hconvert, hvalue⟩ :=
      (integer_arithmetic hleast hone).2.2 (by decide)
    cases hconvert
    exact hvalue σ env

end BinaryOp

end ActionTree
