import ActionTree.Number.Binary

/-!
The text of a floating point number: the fewest decimal digits that read back as the same number,
written out without an exponent.
-/

namespace ActionTree

/-- The number `10 ^ (k - 1) ≤ num / den < 10 ^ k` of places before the point. -/
def decimalPlaces (num den : Nat) : Int :=
  let guess : Int := (Nat.toDigits 10 num).length - (Nat.toDigits 10 den).length
  let reached :=
    if 0 ≤ guess then den * tenTo guess.toNat ≤ num else den ≤ num * tenTo (-guess).toNat
  if reached then guess + 1 else guess

/-- The reals that round to one binary number: `value`, and the ends of the interval around it, all
over `den`. -/
structure RoundingInterval where
  value : Nat
  low : Nat
  high : Nat
  den : Nat
  closed : Bool

namespace RoundingInterval

/-- The interval around `m * 2 ^ e`; below a power of two the neighbours are closer. -/
def around (f : BinaryFormat) (m : Nat) (e : Int) : RoundingInterval :=
  let step := if m = twoTo (f.precision - 1) && f.leastExponent < e then 1 else 2
  let up := twoTo (e - 2).toNat
  ⟨4 * m * up, (4 * m - step) * up, (4 * m + 2) * up, twoTo (2 - e).toNat, m % 2 == 0⟩

/-- Does `n * 10 ^ e` round to the value? -/
def holds (i : RoundingInterval) (n : Nat) (e : Int) : Bool :=
  let x := n * tenTo e.toNat * i.den
  let unit := tenTo (-e).toNat
  let low := i.low * unit
  let high := i.high * unit
  if i.closed then low ≤ x && x ≤ high else low < x && x < high

/-- The decimals next to the value with `digits` digits, the last one at `10 ^ e`: the nearer of
those that read back, the upper one if they are equally near. -/
def onGrid? (i : RoundingInterval) (e : Int) : Option Nat :=
  let num := i.value * tenTo (-e).toNat
  let den := i.den * tenTo e.toNat
  let n := num / den
  match i.holds n e, i.holds (n + 1) e with
  | true, true => some (if 2 * (num % den) < den then n else n + 1)
  | true, false => some n
  | false, true => some (n + 1)
  | false, false => none

/-- The first grid, from coarse to fine, with a decimal that reads back. -/
def shortestFrom (i : RoundingInterval) (places : Int) : Nat → Nat → Nat × Int
  | 0, digits => (i.value / i.den, places - digits)
  | tries + 1, digits =>
    match i.onGrid? (places - digits) with
    | some n => (n, places - digits)
    | none => shortestFrom i places tries (digits + 1)

/-- The decimal `n * 10 ^ e` with the fewest digits that reads back as the value. -/
def shortest (i : RoundingInterval) : Nat × Int :=
  shortestFrom i (decimalPlaces i.value i.den) 20 1

end RoundingInterval

/-- The decimal `n * 10 ^ e` in digits, without an exponent and without needless zeros. -/
def positional (n : Nat) (e : Int) : String :=
  let digits := Nat.toDigits 10 n
  if 0 ≤ e then String.ofList (digits ++ List.replicate e.toNat '0')
  else
    let places := (-e).toNat
    let padded := List.replicate (places + 1 - digits.length) '0' ++ digits
    let whole := padded.take (padded.length - places)
    let fraction := ((padded.drop (padded.length - places)).reverse.dropWhile (· == '0')).reverse
    String.ofList (if fraction.isEmpty then whole else whole ++ '.' :: fraction)

/-- The text of a number of the format. -/
def BinaryReal.text (f : BinaryFormat) : BinaryReal → String
  | .nan => "NaN"
  | .infinity negative => if negative then "-inf" else "inf"
  | .finite negative m e =>
    let magnitude :=
      if m = 0 then "0"
      else
        let d := (RoundingInterval.around f m e).shortest
        positional d.1 d.2
    if negative then "-" ++ magnitude else magnitude

def Real64.text (x : Float) : String := (BinaryReal.ofFloat x).text .double

def Real32.text (x : Float32) : String := (BinaryReal.ofFloat32 x).text .single

end ActionTree
