import ActionTree.Number.Binary

/-!
Decimal numbers: a sign, a mantissa of 96 bits and up to 28 places after the point. The number of
places is part of the value, so `1.50` and `1.5` are different decimals that compare equal.
-/

namespace ActionTree

structure Decimal where
  negative : Bool
  mantissa : Nat
  scale : Nat
  mantissa_lt : mantissa < twoTo 96
  scale_le : scale ≤ 28
  deriving DecidableEq

namespace Decimal

/-- The decimal with these parts, if they are in bounds. -/
def ofParts? (negative : Bool) (mantissa scale : Nat) : Option Decimal :=
  if h : mantissa < twoTo 96 ∧ scale ≤ 28 then some ⟨negative, mantissa, scale, h.1, h.2⟩ else none

/-- The decimal with these parts, where a zero has no sign. -/
def ofResult? (negative : Bool) (mantissa scale : Nat) : Option Decimal :=
  ofParts? (negative && mantissa != 0) mantissa scale

def zero : Decimal := ⟨false, 0, 0, by decide, by decide⟩

def one : Decimal := ⟨false, 1, 0, by decide, by decide⟩

def isZero (d : Decimal) : Bool := d.mantissa == 0

def neg (d : Decimal) : Decimal := { d with negative := !d.negative }

def ofInt? (n : Int) : Option Decimal := ofParts? (n < 0) n.natAbs 0

/-- The mantissa with its sign. -/
def signed (d : Decimal) : Int := if d.negative then -(d.mantissa : Int) else d.mantissa

/-- The whole number next to the value on the side of zero. -/
def truncate (d : Decimal) : Int :=
  let whole : Nat := d.mantissa / tenTo d.scale
  if d.negative then -(whole : Int) else whole

/-- The order of the values; the number of places does not matter. -/
def compare (a b : Decimal) : Ordering :=
  Ord.compare (a.signed * tenTo b.scale) (b.signed * tenTo a.scale)

/-- The digits, with as many places as the scale says. -/
def text (d : Decimal) : String :=
  let digits := Nat.toDigits 10 d.mantissa
  let padded := List.replicate (d.scale + 1 - digits.length) '0' ++ digits
  let whole := padded.take (padded.length - d.scale)
  let fraction := padded.drop (padded.length - d.scale)
  let magnitude := if fraction.isEmpty then whole else whole ++ '.' :: fraction
  String.ofList (if d.negative then '-' :: magnitude else magnitude)

/-- A mantissa and scale without the zeros that end the fraction. -/
def stripZeros (mantissa : Nat) : Nat → Nat × Nat
  | 0 => (mantissa, 0)
  | scale + 1 => if mantissa % 10 = 0 then stripZeros (mantissa / 10) scale else (mantissa, scale + 1)

/-- The value as a floating point number. One without places is converted as a whole number, so that
it has no negative zero. In any other, whole part and fraction are converted on their own, and the sum
is rounded to the scale again. -/
def toFloat (d : Decimal) : Float :=
  if d.scale = 0 then Float.ofInt d.signed
  else
    let unit := tenTo d.scale
    let fraction := d.mantissa % unit
    let sum := Float.ofNat (d.mantissa / unit) + Float.ofNat fraction / Float.ofNat unit
    let power := Real64.power 10.0 d.scale
    let magnitude := if fraction = 0 then sum else Float.round (sum * power) / power
    if d.negative then -magnitude else magnitude

/-- A decimal with at most `places` places; `up` says whether the magnitude `num / den` that does
not fit is increased. Unchanged if there are no more places. A zero keeps its sign; what is rounded to
zero has none. -/
def roundBy (up : (negative : Bool) → (num den : Nat) → Bool) (d : Decimal) (places : Nat) :
    Decimal :=
  if h : d.scale ≤ places then d
  else if d.isZero then
    { d with scale := places, scale_le := Nat.le_trans (Nat.le_of_not_le h) d.scale_le }
  else
    let den := tenTo (d.scale - places)
    let q := d.mantissa / den
    let m := if up d.negative d.mantissa den then q + 1 else q
    (ofResult? d.negative m places).getD d

/-- Half goes to the even neighbour. -/
def roundEven : Decimal → Nat → Decimal :=
  roundBy fun _ num den => roundHalfEven num den != num / den

def floor (d : Decimal) : Decimal := d.roundBy (fun negative num den => negative && num % den != 0) 0

def ceiling (d : Decimal) : Decimal :=
  d.roundBy (fun negative num den => !negative && num % den != 0) 0

end Decimal

end ActionTree
