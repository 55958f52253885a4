import ActionTree.Number.Power

/-!
Binary floating point numbers taken apart: the exact value behind the bits, the nearest number to a
fraction, and the operations that are exact or rounded once.
-/

namespace ActionTree

/-- A width of binary floating point numbers: `precision` significant bits, and `2 ^ leastExponent`
as the least positive number. -/
structure BinaryFormat where
  precision : Nat
  leastExponent : Int
  exponentBits : Nat

namespace BinaryFormat

def single : BinaryFormat := ⟨24, -149, 8⟩

def double : BinaryFormat := ⟨53, -1074, 11⟩

/-- The bits of infinity, which follow those of the greatest finite number. -/
def infinityBits (f : BinaryFormat) : Nat := (twoTo f.exponentBits - 1) * twoTo (f.precision - 1)

end BinaryFormat

/-- What a binary floating point number stands for; a finite one for `mantissa * 2 ^ exponent`. -/
inductive BinaryReal where
  | nan
  | infinity (negative : Bool)
  | finite (negative : Bool) (mantissa : Nat) (exponent : Int)

namespace BinaryReal

def ofBits (f : BinaryFormat) (bits : Nat) : BinaryReal :=
  let unit := twoTo (f.precision - 1)
  let negative := bits / (unit * twoTo f.exponentBits) % 2 == 1
  let field := bits / unit % twoTo f.exponentBits
  let fraction := bits % unit
  if field = 0 then finite negative fraction f.leastExponent
  else if field = twoTo f.exponentBits - 1 then
    if fraction = 0 then infinity negative else nan
  else finite negative (unit + fraction) (f.leastExponent + field - 1)

def ofFloat (x : Float) : BinaryReal := ofBits .double x.toBits.toNat

def ofFloat32 (x : Float32) : BinaryReal := ofBits .single x.toBits.toNat

/-- The whole number next to the value on the side of zero, kept inside the 128 bits that the
conversion works with. Not-a-number counts as zero. -/
def truncate : BinaryReal → Int
  | nan => 0
  | infinity negative => if negative then -(twoTo 127 : Int) else (twoTo 127 : Int) - 1
  | finite negative m e =>
    let whole : Nat := if 0 ≤ e then m * twoTo e.toNat else m / twoTo (-e).toNat
    if negative then max (-(whole : Int)) (-(twoTo 127 : Int)) else min whole ((twoTo 127 : Int) - 1)

end BinaryReal

/-- The quotient rounded to the nearest whole number, a half going to the even neighbour. -/
def roundHalfEven (num den : Nat) : Nat :=
  let q := num / den
  let r := num % den
  if den < 2 * r || (2 * r == den && q % 2 == 1) then q + 1 else q

namespace BinaryFormat

/-- The bits of the number of the format nearest to the positive fraction `num / den`, a half going
to the even neighbour. -/
def nearest (f : BinaryFormat) (num den : Nat) : Nat :=
  let guess : Int := Nat.log2 num - Nat.log2 den - f.precision
  let scaled (e : Int) : Nat × Nat :=
    if 0 ≤ e then (num, den * twoTo e.toNat) else (num * twoTo (-e).toNat, den)
  let e := if (scaled guess).1 < (scaled guess).2 * twoTo f.precision then guess else guess + 1
  let e := max e f.leastExponent
  let m := roundHalfEven (scaled e).1 (scaled e).2
  min ((e - f.leastExponent).toNat * twoTo (f.precision - 1) + m) f.infinityBits

/-- The bits of the number nearest to `m * 10 ^ e`. Powers far outside every format are not
computed. -/
def nearestDecimal (f : BinaryFormat) (m : Nat) (e : Int) : Nat :=
  if m = 0 then 0
  else
    let digits : Int := (Nat.toDigits 10 m).length
    if 400 < digits + e then f.infinityBits
    else if digits + e < -400 then 0
    else if 0 ≤ e then f.nearest (m * tenTo e.toNat) 1
    else f.nearest m (tenTo (-e).toNat)

/-- The bits of the number `m * 2 ^ e`, with its sign. -/
def ofScaled (f : BinaryFormat) (negative : Bool) (m : Nat) (e : Int) : Nat :=
  let magnitude :=
    if m = 0 then 0
    else if 0 ≤ e then f.nearest (m * twoTo e.toNat) 1
    else f.nearest m (twoTo (-e).toNat)
  if negative then twoTo (f.precision - 1 + f.exponentBits) + magnitude else magnitude

/-- The bits of the remainder of `x` by `y`, which has the sign of `x`; `none` where there is no
such number. -/
def remainder? (f : BinaryFormat) : BinaryReal → BinaryReal → Option Nat
  | .finite negative m e, .finite _ m' e' =>
    if m' = 0 then none
    else
      let low := min e e'
      let a := m * twoTo (e - low).toNat
      let b := m' * twoTo (e' - low).toNat
      some (f.ofScaled negative (a % b) low)
  | .finite negative m e, .infinity _ => some (f.ofScaled negative m e)
  | _, _ => none

end BinaryFormat

namespace Real64

def nan : Float := 0.0 / 0.0

def ofBits (bits : Nat) : Float := Float.ofBits (UInt64.ofNat bits)

/-- The nearest number in 32 bits, a half going to the even neighbour. -/
def narrow (x : Float) : Float32 :=
  .ofModel (.pack (match x.toModel.unpack with
    | .finite sign m e _ => .round .binary32 sign m e
    | u => u))

def remainder (x y : Float) : Float :=
  match BinaryFormat.double.remainder? (.ofFloat x) (.ofFloat y) with
  | some bits => ofBits bits
  | none => nan

/-- The nearest whole number, a half going to the even neighbour. -/
def roundEven (x : Float) : Float :=
  match BinaryReal.ofFloat x with
  | .finite negative m e =>
    if 0 ≤ e then x
    else ofBits (BinaryFormat.double.ofScaled negative (roundHalfEven m (twoTo (-e).toNat)) 0)
  | _ => x

/-- The product of `n` factors `x`, by squaring; `steps` bounds the number of squarings. -/
def powerBy (steps : Nat) (result x : Float) (n : Nat) : Float :=
  match steps with
  | 0 => result
  | steps + 1 =>
    let result := if n % 2 = 1 then result * x else result
    if n / 2 = 0 then result else powerBy steps result (x * x) (n / 2)

/-- `x` to a whole power; a negative power is the reciprocal of the positive one. -/
def power (x : Float) (n : Int) : Float :=
  let r := powerBy (Nat.log2 n.natAbs + 1) 1.0 x n.natAbs
  if n < 0 then 1.0 / r else r

end Real64

namespace Real32

def nan : Float32 := 0.0 / 0.0

def ofBits (bits : Nat) : Float32 := Float32.ofBits (UInt32.ofNat bits)

/-- The same number in 64 bits, which hold all those of 32. -/
def widen (x : Float32) : Float :=
  .ofModel (.pack (match x.toModel.unpack with
    | .finite sign m e _ => .round .binary64 sign m e
    | u => u))

def remainder (x y : Float32) : Float32 :=
  match BinaryFormat.single.remainder? (.ofFloat32 x) (.ofFloat32 y) with
  | some bits => ofBits bits
  | none => nan

end Real32

end ActionTree
