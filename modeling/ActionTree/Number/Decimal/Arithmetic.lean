import ActionTree.Number.Decimal.Basic

/-!
Sums, products, quotients and remainders of decimals. An exact result that has too many digits loses
places, with a half going to the even neighbour; without a place to lose it is an overflow.
-/

namespace ActionTree.Decimal

/-- The least number of places, at least `drop`, whose loss brings `mantissa` under 96 bits. -/
def fitFrom (negative : Bool) (mantissa scale drop : Nat) : Nat → Option Decimal
  | 0 => none
  | tries + 1 =>
    if scale < drop then none
    else
      match ofResult? negative (roundHalfEven mantissa (tenTo drop)) (scale - drop) with
      | some d => some d
      | none => fitFrom negative mantissa scale (drop + 1) tries

/-- The decimal nearest to `mantissa * 10 ^ -scale` that keeps as many places as fit. -/
def fit? (negative : Bool) (mantissa scale : Nat) : Option Decimal :=
  fitFrom negative mantissa scale (scale - 28) (scale + 1)

/-- The sum; a sum of zero and a number is that number, and a sum that cancels out has no sign. -/
def addSigned (a b : Decimal) (negate : Bool) : Option Decimal :=
  if a.isZero then some (if negate && !b.isZero then b.neg else b)
  else if b.isZero then some a
  else
    let scale := max a.scale b.scale
    let m := a.mantissa * tenTo (scale - a.scale)
    let n := b.mantissa * tenTo (scale - b.scale)
    if (a.negative != b.negative) == negate then fit? a.negative (m + n) scale
    else if n ≤ m then fit? a.negative (m - n) scale
    else fit? (!a.negative) (n - m) scale

def add? (a b : Decimal) : Option Decimal := addSigned a b false

def sub? (a b : Decimal) : Option Decimal := addSigned a b true

/-- The product. Two small mantissas with too many places are nothing at all. -/
def mul? (a b : Decimal) : Option Decimal :=
  if a.isZero || b.isZero then some zero
  else if 47 < a.scale + b.scale && a.mantissa < twoTo 32 && b.mantissa < twoTo 32 then some zero
  else fit? (a.negative != b.negative) (a.mantissa * b.mantissa) (a.scale + b.scale)

/-- A quotient under way: `quotient` at `scale`, with `remainder` still to be divided. -/
structure Division where
  quotient : Nat
  remainder : Nat
  scale : Int

namespace Division

/-- How many places, at most nine, the quotient can take on. -/
def roomFrom (d : Division) : Nat → Nat
  | 0 => 0
  | p + 1 =>
    if d.scale + (p + 1 : Nat) ≤ 28 && d.quotient * tenTo (p + 1) < twoTo 96 then p + 1
    else roomFrom d p

/-- A quotient that has grown past 96 bits gives up its last place. -/
def unscale? (quotient : Nat) (scale : Int) (inexact : Bool) : Option (Nat × Int) :=
  if scale < 1 then none
  else
    let q := quotient / 10
    let r := quotient % 10
    some (if 5 < r || (r == 5 && (inexact || q % 2 == 1)) then q + 1 else q, scale - 1)

/-- The quotient rounded to where it stands, a half going to the even neighbour. -/
def round? (d : Division) (divisor : Nat) : Option (Nat × Int) :=
  let twice := 2 * d.remainder
  if divisor < twice || (twice == divisor && d.quotient % 2 == 1) then
    if d.quotient + 1 < twoTo 96 then some (d.quotient + 1, d.scale)
    else unscale? (d.quotient + 1) d.scale true
  else some (d.quotient, d.scale)

/-- Takes on places in steps of up to nine, until nothing remains or nothing fits. -/
def run? (divisor : Nat) (d : Division) : Nat → Option (Nat × Int)
  | 0 => none
  | steps + 1 =>
    let room := if d.scale = 28 then 0 else d.roomFrom 9
    if d.remainder = 0 then
      if 0 ≤ d.scale then some (d.quotient, d.scale)
      else
        let p := min 9 (-d.scale).toNat
        if d.quotient * tenTo p < twoTo 96 then
          run? divisor ⟨d.quotient * tenTo p, 0, d.scale + p⟩ steps
        else none
    else if room = 0 then if d.scale < 0 then none else d.round? divisor
    else if d.scale + room < 0 && room < 9 then none
    else
      let q := d.quotient * tenTo room + d.remainder * tenTo room / divisor
      let r := d.remainder * tenTo room % divisor
      if q < twoTo 96 then run? divisor ⟨q, r, d.scale + room⟩ steps
      else unscale? q (d.scale + room) (r != 0)

/-- Removes a power of ten from the end, while the low bits show that there may be one. -/
def dropZeros (places bits : Nat) (q : Nat) (scale : Int) : Nat × Int :=
  if q % twoTo bits = 0 && (places : Int) ≤ scale && q % tenTo places = 0 then
    (q / tenTo places, scale - places)
  else (q, scale)

/-- Removes zeros in four sweeps: eight at a time, then four, two and one of them at most once. -/
def tidy (q : Nat) (scale : Int) : Nat × Int :=
  let sweep (places bits : Nat) (x : Nat × Int) := dropZeros places bits x.1 x.2
  let x := sweep 8 32 (sweep 8 32 (sweep 8 32 (q, scale)))
  sweep 1 1 (sweep 2 2 (sweep 4 4 x))

end Division

/-- The quotient by a number that is not zero. -/
def div? (a b : Decimal) : Option Decimal :=
  if a.isZero then some zero
  else
    let start : Division :=
      ⟨a.mantissa / b.mantissa, a.mantissa % b.mantissa, (a.scale : Int) - b.scale⟩
    let result := (start.run? b.mantissa 64).map fun x =>
      if start.remainder = 0 then x else Division.tidy x.1 x.2
    result.bind fun x => ofResult? (a.negative != b.negative) x.1 x.2.toNat

/-- The remainder by a number that is not zero; it has the sign of the dividend. -/
def rem? (a b : Decimal) : Option Decimal :=
  if a.isZero then some zero
  else
    let scale := max a.scale b.scale
    let m := a.mantissa * tenTo (scale - a.scale)
    let n := b.mantissa * tenTo (scale - b.scale)
    if m = n then some zero
    else if m < n then some a
    else ofResult? a.negative (m % n) scale

/-- `a * 10 ^ n`, in factors of at most `10 ^ 19`, without zeros at the end of the fraction. -/
def shiftLeft? (a : Decimal) (n : Nat) : Option Decimal :=
  let times (d : Decimal) (n : Nat) := (ofParts? false (tenTo n) 0).bind d.mul?
  (if 19 ≤ n then (times a 19).bind fun d => if n = 19 then some d else times d (n - 19)
    else times a n).bind fun d =>
      let x := stripZeros d.mantissa d.scale
      ofResult? d.negative x.1 x.2

end ActionTree.Decimal
