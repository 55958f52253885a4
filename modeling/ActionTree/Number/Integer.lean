import ActionTree.Number.Power

/-!
The eight integer types of the language, and integers that carry their type. Arithmetic is exact
and is then cut to the width of the result type.
-/

namespace ActionTree

inductive IntKind where
  | sbyte | byte | short | ushort | int | uint | long | ulong
  deriving DecidableEq, Repr

namespace IntKind

def bits : IntKind → Nat
  | sbyte | byte => 8
  | short | ushort => 16
  | int | uint => 32
  | long | ulong => 64

def signed : IntKind → Bool
  | sbyte | short | int | long => true
  | byte | ushort | uint | ulong => false

def name : IntKind → String
  | sbyte => "sbyte"
  | byte => "byte"
  | short => "short"
  | ushort => "ushort"
  | int => "int"
  | uint => "uint"
  | long => "long"
  | ulong => "ulong"

/-- The least member of the type. -/
def least (k : IntKind) : Int := if k.signed then -(twoTo (k.bits - 1) : Int) else 0

/-- The greatest member of the type. -/
def greatest (k : IntKind) : Int :=
  if k.signed then (twoTo (k.bits - 1) : Int) - 1 else (twoTo k.bits : Int) - 1

/-- Does the type hold `n`? -/
def Holds (k : IntKind) (n : Int) : Prop := k.least ≤ n ∧ n ≤ k.greatest

instance (k : IntKind) (n : Int) : Decidable (k.Holds n) :=
  inferInstanceAs (Decidable (_ ∧ _))

/-- The member of the type that is congruent to `n` modulo two to its width. -/
def cut (k : IntKind) (n : Int) : Int :=
  if k.signed then n.bmod (twoTo k.bits) else n % (twoTo k.bits : Int)

theorem holds_cut (k : IntKind) (n : Int) : k.Holds (k.cut n) := by
  cases k <;> simp only [Holds, cut, least, greatest, signed, bits] <;>
    constructor <;> simp [Int.bmod] <;> omega

theorem cut_of_holds {k : IntKind} {n : Int} (h : k.Holds n) : k.cut n = n := by
  cases k <;> simp_all only [Holds, cut, least, greatest, signed, bits] <;>
    simp [Int.bmod] at * <;> omega

end IntKind

/-- An integer of one of the eight types. -/
structure Integer where
  kind : IntKind
  val : Int
  holds : kind.Holds val
  deriving DecidableEq

namespace Integer

/-- `n` in the type, cut to its width. -/
def ofInt (k : IntKind) (n : Int) : Integer := ⟨k, k.cut n, k.holds_cut n⟩

/-- `n` in the type, if the type holds it. -/
def ofInt? (k : IntKind) (n : Int) : Option Integer :=
  if h : k.Holds n then some ⟨k, n, h⟩ else none

/-- `n` in the first of the types that holds it. -/
def firstOf? : List IntKind → Int → Option Integer
  | [], _ => none
  | k :: ks, n => (ofInt? k n).or (firstOf? ks n)

@[simp] theorem kind_ofInt (k : IntKind) (n : Int) : (ofInt k n).kind = k := rfl

@[simp] theorem val_ofInt (k : IntKind) (n : Int) : (ofInt k n).val = k.cut n := rfl

theorem ofInt_val (i : Integer) : ofInt i.kind i.val = i := by
  cases i with
  | mk k n h => simp [ofInt, IntKind.cut_of_holds h]

end Integer

end ActionTree
