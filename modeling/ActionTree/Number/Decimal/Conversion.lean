import ActionTree.Number.Decimal.Arithmetic
import ActionTree.Number.Numeral

/-!
Decimals from text and from binary floating point numbers.
-/

namespace ActionTree.Decimal

/-- Ends a decimal that has no room for the characters left. They must be digits, with underscores
between them; the first digit decides the rounding of the last one kept, a half going up. -/
def roundAt? (negative : Bool) (m scale : Nat) (left : List Char) : Option Decimal :=
  let digits := left.filter (· != '_')
  if digits.all Char.isDigit then
    let m := if digits.head?.any ('5' ≤ ·) then m + 1 else m
    if m < twoTo 96 then ofResult? negative m scale
    else if scale = 0 then none
    else ofResult? negative ((m + 4) / 10) (scale - 1)
  else none

/-- Reads the rest of a decimal after its sign. `some?` says whether a digit has been read, `point`
whether the point has been passed. -/
def readFrom (negative some? point : Bool) (m scale : Nat) : List Char → Option Decimal
  | [] => if some? then ofResult? negative m scale else none
  | c :: rest =>
    if c = '.' ∧ !point then readFrom negative some? true m scale rest
    else if c = '_' ∧ some? then readFrom negative true point m scale rest
    else
      (Numeral.digit? 10 c).bind fun digit =>
        let next := m * 10 + digit
        if twoTo 96 ≤ next then if point then roundAt? negative m scale (c :: rest) else none
        else
          let scale := if point then scale + 1 else 0
          if point ∧ 28 ≤ scale then roundAt? negative next scale rest
          else readFrom negative true point next scale rest

/-- A decimal without an exponent. -/
def ofText? : List Char → Option Decimal
  | '-' :: cs => readFrom true false false 0 0 cs
  | '+' :: cs => readFrom false false false 0 0 cs
  | cs => readFrom false false false 0 0 cs

/-- The nearest whole number to `num / den` for a power of ten `den`, a half going up. -/
def roundHalfUp (num den : Nat) : Nat := (num + den / 2) / den

/-- `d * 10 ^ -n`, for at most 28 places. Places beyond the twenty-eighth are lost, a half going up. -/
def shiftRight? (d : Decimal) (n : Nat) : Option Decimal :=
  if 28 < n then none
  else
    let places := min d.scale (28 - n)
    ofParts? d.negative (roundHalfUp d.mantissa (tenTo (d.scale - places))) (places + n)

/-- A decimal with the exponent `e`. -/
def ofScientific? (base : List Char) (e : Int) : Option Decimal :=
  (ofText? base).bind fun d =>
    if e < 0 then d.shiftRight? (-e).toNat
    else if e ≤ d.scale then ofParts? d.negative d.mantissa (d.scale - e.toNat)
    else if 28 < e then none
    else d.shiftLeft? e.toNat

/-- The exponent of a decimal: digits after an optional sign. -/
def exponent? : List Char → Option Int
  | '-' :: cs => (unsigned? cs).map fun n => -(n : Int)
  | cs => (unsigned? cs).map Int.ofNat
where
  unsigned? : List Char → Option Nat
    | '+' :: cs => Numeral.nat? 10 cs
    | cs => Numeral.nat? 10 cs

/-- A decimal with or without an exponent. -/
def ofNumeral? (cs : List Char) : Option Decimal :=
  let base := cs.takeWhile fun c => c != 'e' && c != 'E'
  match cs.drop base.length with
  | [] => ofText? cs
  | _ :: e => (exponent? e).bind (ofScientific? base)

/-- A mantissa with `places` decimal places. -/
structure Scaled where
  mantissa : Nat
  places : Int

namespace Scaled

/-- Takes in one negative power of two: halves an even mantissa, else multiplies by five and moves
the point; where that has no room the last bit is lost. -/
def halve (x : Scaled) : Scaled :=
  if x.mantissa % 2 = 0 then ⟨x.mantissa / 2, x.places⟩
  else if x.mantissa * 5 < twoTo 96 then ⟨x.mantissa * 5, x.places + 1⟩
  else ⟨x.mantissa / 2, x.places⟩

/-- Takes in one power of two: doubles, or where that has no room divides by five and moves the
point the other way. -/
def double (x : Scaled) : Scaled :=
  if x.mantissa < twoTo 95 then ⟨x.mantissa * 2, x.places⟩ else ⟨x.mantissa / 5, x.places - 1⟩

/-- Takes in all powers of two. -/
def absorb (x : Scaled) : Int → Scaled
  | .ofNat n => Nat.repeat double n x
  | .negSucc n => Nat.repeat halve (n + 1) x

/-- Removes one place, a half going up. -/
def dropPlace (x : Scaled) : Scaled :=
  ⟨x.mantissa / 10 + (if 5 ≤ x.mantissa % 10 then 1 else 0), x.places - 1⟩

/-- Removes the places beyond the twenty-eighth. -/
def limitPlaces (x : Scaled) : Nat → Scaled
  | 0 => x
  | n + 1 =>
    if x.places ≤ 28 then x
    else if x.mantissa / 10 = 0 then ⟨0, 0⟩
    else limitPlaces x.dropPlace n

/-- Removes places that go beyond the precision of the number that is converted. -/
def limitPrecision (bound : Nat) (x : Scaled) : Nat → Scaled
  | 0 => x
  | n + 1 =>
    if 0 < x.places ∧ bound ≤ x.mantissa then limitPrecision bound x.dropPlace n else x

end Scaled

/-- The decimal for a finite binary number with significant digits as `bound` allows. -/
def ofBinary? (bound : Nat) : BinaryReal → Option Decimal
  | .finite negative 0 _ => ofParts? negative 0 0
  | .finite negative m e =>
    let x := Scaled.absorb ⟨m, 0⟩ e
    if x.places < 0 then ofParts? negative (x.mantissa * tenTo (-x.places).toNat) 0
    else
      let x := Scaled.limitPrecision bound (x.limitPlaces 2000) 64
      let y := stripZeros x.mantissa x.places.toNat
      ofParts? negative y.1 y.2
  | _ => none

def ofFloat? (x : Float) : Option Decimal := ofBinary? (twoTo 52) (.ofFloat x)

def ofFloat32? (x : Float32) : Option Decimal := ofBinary? (twoTo 24) (.ofFloat32 x)

end ActionTree.Decimal
