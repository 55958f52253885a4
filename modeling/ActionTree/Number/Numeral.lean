import ActionTree.Number.Binary

/-!
Numbers written as text: integers with an optional sign, and floating point numbers with an optional
point, exponent and the words for infinity and not-a-number.
-/

namespace ActionTree.Numeral

/-- The value of a digit in a radix up to sixteen. -/
def digit? (radix : Nat) (c : Char) : Option Nat :=
  let value :=
    if c.isDigit then some (c.toNat - '0'.toNat)
    else if 'a' ≤ c ∧ c ≤ 'f' then some (c.toNat - 'a'.toNat + 10)
    else if 'A' ≤ c ∧ c ≤ 'F' then some (c.toNat - 'A'.toNat + 10)
    else none
  value.filter (· < radix)

/-- The number that `digits` continue when `n` has been read. -/
def natFrom? (radix : Nat) (n : Nat) : List Char → Option Nat
  | [] => some n
  | c :: rest => (digit? radix c).bind fun d => natFrom? radix (n * radix + d) rest

/-- One or more digits. -/
def nat? (radix : Nat) (digits : List Char) : Option Nat :=
  if digits.isEmpty then none else natFrom? radix 0 digits

/-- An optional sign followed by one or more digits. -/
def int? (radix : Nat) : List Char → Option Int
  | '+' :: digits => (nat? radix digits).map Int.ofNat
  | '-' :: digits => (nat? radix digits).map fun n => -(n : Int)
  | digits => (nat? radix digits).map Int.ofNat

/-- A decimal `mantissa * 10 ^ exponent`, or one of the words. -/
inductive RealText where
  | nan (negative : Bool)
  | infinity (negative : Bool)
  | decimal (negative : Bool) (mantissa : Nat) (exponent : Int)

def RealText.bits (f : BinaryFormat) : RealText → Nat
  | nan negative => sign negative + f.infinityBits + twoTo (f.precision - 2)
  | infinity negative => sign negative + f.infinityBits
  | decimal negative m e => sign negative + f.nearestDecimal m e
where
  sign (negative : Bool) : Nat :=
    if negative then twoTo (f.precision - 1 + f.exponentBits) else 0

/-- The exponent part of a number: nothing, or `e` and an integer. -/
def exponent? : List Char → Option Int
  | [] => some 0
  | c :: rest => if c = 'e' ∨ c = 'E' then int? 10 rest else none

/-- A floating point number without its sign. -/
def unsignedReal? (negative : Bool) (cs : List Char) : Option RealText :=
  let word := String.ofList (cs.map Char.toLower)
  if word = "inf" ∨ word = "infinity" then some (.infinity negative)
  else if word = "nan" then some (.nan negative)
  else
    let whole := cs.takeWhile Char.isDigit
    let rest := cs.dropWhile Char.isDigit
    let (fraction, rest) := match rest with
      | '.' :: rest => (rest.takeWhile Char.isDigit, rest.dropWhile Char.isDigit)
      | _ => ([], rest)
    (nat? 10 (whole ++ fraction)).bind fun m =>
      (exponent? rest).map fun e => .decimal negative m (e - fraction.length)

/-- A floating point number with an optional sign. -/
def real? : List Char → Option RealText
  | '+' :: cs => unsignedReal? false cs
  | '-' :: cs => unsignedReal? true cs
  | cs => unsignedReal? false cs

def float? (cs : List Char) : Option Float := (real? cs).map fun r => Real64.ofBits (r.bits .double)

def float32? (cs : List Char) : Option Float32 :=
  (real? cs).map fun r => Real32.ofBits (r.bits .single)

end ActionTree.Numeral
