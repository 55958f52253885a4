import ActionTree.Proofs.Operator.Arithmetic

/-!
# Shifts

A shift works on the bits of its left operand, in the type that operand calculates in, by the lowest
bits of the count. A `uint` is the exception: it is shifted as a `long`, in the type of the result and
in the number of bits of the count.
-/

namespace ActionTree

namespace IntKind

/-- The number that bits spell in a type. -/
def read (k : IntKind) (x : BitVec k.bits) : Int :=
  if k.signed then x.toInt else x.toNat

/-- A shift to the right fills up with the sign in a signed type, and with zeros in an unsigned
one. -/
def shiftRight (k : IntKind) (x : BitVec k.bits) (n : Nat) : BitVec k.bits :=
  if k.signed then x.sshiftRight n else x >>> n

/-- How many of the lowest bits of a count matter to a shift in the type. -/
def countBits (k : IntKind) : Nat :=
  if k.bits = 64 then 6 else 5

/-- How far a count shifts in the type. -/
def distance (k : IntKind) (count : Int) : Nat :=
  (BitVec.ofInt k.countBits count).toNat

variable {k : IntKind}

theorem cut_eq_read (n : Int) : k.cut n = k.read (.ofInt k.bits n) := by
  rw [cut, read]
  split
  · exact (BitVec.toInt_ofInt ..).symm
  · rw [BitVec.toNat_ofInt]
    exact (Int.toNat_of_nonneg (Int.emod_nonneg n (by exact_mod_cast (Nat.two_pow_pos _).ne'))).symm

theorem cut_read (x : BitVec k.bits) : k.cut (k.read x) = k.read x := by
  rw [cut_eq_read, read, read]
  split
  · rw [BitVec.ofInt_toInt]
  · rw [BitVec.ofInt_natCast, BitVec.ofNat_toNat, BitVec.setWidth_eq]

theorem read_shiftRight (x : BitVec k.bits) (n : Nat) :
    k.read (k.shiftRight x n) = k.read x >>> n := by
  rw [read, read, shiftRight]
  split
  · exact BitVec.toInt_sshiftRight
  · rw [BitVec.toNat_ushiftRight]
    exact Int.natCast_shiftRight ..

theorem distance_eq (hk : k.bits = 2 ^ k.countBits) (count : Int) :
    k.distance count = (count % k.bits).toNat := by
  rw [distance, BitVec.toNat_ofInt, hk]

end IntKind

/-- What is narrower than `int` calculates in `int`. -/
theorem Value.CountsAs.kind_cases {v : Value} {k : IntKind} {n : Int} (h : v.CountsAs k n) :
    k = .int ∨ k = .uint ∨ k = .long ∨ k = .ulong := by
  obtain ⟨⟨kind, m, hm⟩, rfl⟩ | ⟨c, rfl⟩ | ⟨e, rfl⟩ := h.cases
  · have hk := h.kind
    cases kind <;> cases hk <;> decide
  · exact .inl (Option.some.inj h.kind).symm
  · exact .inl (Option.some.inj h.kind).symm

/-- What a shift of the number `a` in the type `k` gives. -/
structure Shifted (op : BinaryOp) (k : IntKind) (a count : Int) (i : Integer) : Prop where
  kind : i.kind = k
  left : op = .shl → i.val ≡ a * 2 ^ k.distance count [ZMOD 2 ^ k.bits]
  right : op = .shr → i.val = k.read (k.shiftRight (.ofInt k.bits a) (k.distance count))

namespace BinaryOp

open NumberClass

variable {op : BinaryOp} {l r : Value} {j k : IntKind} {a b : Int}

theorem shifted_shift (hk : k.bits = 2 ^ k.countBits) (a count : Int) :
    Shifted op k a count (shift (op == shl) k a count) where
  kind := rfl
  left := by
    rintro rfl
    rw [IntKind.distance_eq hk]
    exact (k.cut_modEq _).trans ((k.cut_modEq a).mul_right _)
  right := by
    rintro rfl
    rw [IntKind.distance_eq hk]
    change k.cut (k.cut a >>> (count % k.bits).toNat) = _
    rw [k.cut_eq_read a, ← IntKind.read_shiftRight, IntKind.cut_read]

theorem apply_shift (hop : op = shl ∨ op = shr) (hl : l.CountsAs j a) (hr : r.CountsAs k b) :
    op.apply l r = .ok (.int (shift (op == shl) (promoteInt j .int) a b)) := by
  have hwanted : op.wanted? = none := by obtain rfl | rfl := hop <;> rfl
  rw [apply_countsAs hl hr hwanted, onNumbers, if_pos hop, hl.number, hr.number]
  rfl

/-- A shift has the type of its left operand, by the lowest bits of the count that matter to the width
of that type, unless the left operand is a `uint`. What a shift of a `uint` gives is the shift of the
same number as a `long`. -/
theorem shift_typed_by_left_iff (hop : op = shl ∨ op = shr) (hl : l.CountsAs j a)
    (hr : r.CountsAs k b) :
    ∃ i, op.apply l r = .ok (.int i) ∧ (Shifted op j a b i ↔ j ≠ .uint) ∧
      (j = .uint → Shifted op .long a b i) := by
  refine ⟨_, apply_shift hop hl hr, ⟨fun h huint => ?conversely, fun hne => ?direct⟩, ?uint⟩
  case conversely =>
    subst huint
    cases h.kind
  case direct =>
    obtain rfl | rfl | rfl | rfl := hl.kind_cases
    · exact shifted_shift rfl a b
    · exact absurd rfl hne
    · exact shifted_shift rfl a b
    · exact shifted_shift rfl a b
  case uint =>
    rintro rfl
    exact shifted_shift rfl a b

/-- The `uint` 1, shifted to the left by 33, is a `long` above all members of `uint`, and not the
`uint` 2. -/
theorem uint_shifted_as_long :
    (Value.int (.ofInt .uint 1)).CountsAs .uint 1 ∧ (Value.int (.ofInt .int 33)).CountsAs .int 33 ∧
    shl.apply (.int (.ofInt .uint 1)) (.int (.ofInt .int 33)) = .ok (.int (.ofInt .long (2 ^ 33))) ∧
    ¬ Shifted shl .uint 1 33 (.ofInt .long (2 ^ 33)) ∧ Shifted shl .uint 1 33 (.ofInt .uint 2) := by
  have hl : (Value.int (.ofInt .uint 1)).CountsAs .uint 1 := ⟨rfl, by decide⟩
  have hr : (Value.int (.ofInt .int 33)).CountsAs .int 33 := ⟨rfl, by decide⟩
  obtain ⟨i, happly, hiff, -⟩ := shift_typed_by_left_iff (.inl rfl) hl hr
  have hi : i = .ofInt .long (2 ^ 33) := by
    rw [apply_shift (.inl rfl) hl hr] at happly
    cases happly
    decide
  subst hi
  exact ⟨hl, hr, happly, fun h => hiff.mp h rfl, ⟨rfl, fun _ => by decide, fun h => by cases h⟩⟩

end BinaryOp

end ActionTree
