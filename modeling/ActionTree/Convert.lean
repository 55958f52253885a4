import ActionTree.Error
import ActionTree.Text.Blank
import ActionTree.ValueType

/-!
Conversion of values to types. Numbers are widened or cut, texts are read without the white space
around them, arrays are converted element by element, and null becomes the type's default.
-/

namespace ActionTree.Convert

abbrev Result := Except ConversionFault

def mismatch (v : Value) (type : ValueType) : ConversionFault := .mismatch v.typeName type.name

def malformed (text : String) (type : ValueType) : ConversionFault := .malformed text type.name

/-- The truth value that a text spells, case apart. -/
def boolText? (s : String) : Option Bool :=
  let word := Text.trim s
  if Text.sameAscii word "true" then some true
  else if Text.sameAscii word "false" then some false
  else none

def toBool : Value → Result Bool
  | .bool b => .ok b
  | .str s => match boolText? s with
    | some b => .ok b
    | none => .error (malformed s .bool)
  | v => if v.isNumeric then .ok v.isTruthy else .error (mismatch v .bool)

/-- The character with that code point. -/
def charOfInt? (n : Int) : Option Char :=
  if 0 ≤ n ∧ n.toNat.isValidChar then some (Char.ofNat n.toNat) else none

def toChar : Value → Result Char
  | .char c => .ok c
  | .str s => match s.toList with
    | [c] => .ok c
    | _ => .error (malformed s .char)
  | .int i => match charOfInt? i.val with
    | some c => .ok c
    | none => .error (malformed (toString i.val) .char)
  | v => .error (mismatch v .char)

/-- An integer in decimal digits, or in hexadecimal ones after `0x`. -/
def intText? : List Char → Option Int
  | '0' :: 'x' :: digits => Numeral.int? 16 digits
  | '0' :: 'X' :: digits => Numeral.int? 16 digits
  | digits => Numeral.int? 10 digits

/-- A value as an integer type sees it. Text must be in the range of the type; what is not text is
cut to its width. -/
def toInteger (k : IntKind) (v : Value) : Result Integer :=
  match v with
  | .bool b => .ok (.ofInt k (if b then 1 else 0))
  | .float x => .ok (.ofInt k (BinaryReal.ofFloat32 x).truncate)
  | .double x => .ok (.ofInt k (BinaryReal.ofFloat x).truncate)
  | .decimal d => .ok (.ofInt k d.truncate)
  | .str s => match (intText? (Text.trim s).toList).bind (Integer.ofInt? k) with
    | some i => .ok i
    | none => .error (malformed s (.int k))
  | v => match v.toInt? with
    | some n => .ok (.ofInt k n)
    | none => .error (mismatch v (.int k))

/-- A value as a floating point type sees it; `type` is the one that a fault names. -/
def toFloat (type : ValueType) (v : Value) : Result Float :=
  match v with
  | .bool b => .ok (if b then 1 else 0)
  | .str s => match Numeral.float? (Text.trim s).toList with
    | some x => .ok x
    | none => .error (malformed s type)
  | v => match v.toFloat? with
    | some x => .ok x
    | none => .error (mismatch v type)

/-- The decimal behind a number, a character or a member of an enumeration. -/
def decimal? : Value → Option Decimal
  | .decimal d => some d
  | .float x => Decimal.ofFloat32? x
  | .double x => Decimal.ofFloat? x
  | v => v.toInt?.bind Decimal.ofInt?

def toDecimal (v : Value) : Result Decimal :=
  match v with
  | .bool b => .ok (if b then .one else .zero)
  | .str s => match Decimal.ofNumeral? (Text.trim s).toList with
    | some d => .ok d
    | none => .error (malformed s .decimal)
  | v => match decimal? v with
    | some d => .ok d
    | none => .error (mismatch v .decimal)

/-- A member by its name, or by a 64-bit number in its place. -/
def enumText? (t : EnumType) (word : String) : Option Long :=
  match t.number? word with
  | some n => some n
  | none => (Numeral.int? 10 word.toList).bind fun n =>
    if h : IntKind.long.Holds n then some ⟨n, h⟩ else none

def toEnum (t : EnumType) (v : Value) : Result EnumValue :=
  match v with
  | .str s =>
    let word := Text.trim s
    match enumText? t word with
    | some n => .ok ⟨t, n⟩
    | none => .error (.unknownMember word t.name)
  | .int i => .ok ⟨t, .ofInt i.val⟩
  | .enum e => .ok ⟨t, e.number⟩
  | v => .error (mismatch v (.enum t))

/-- The value in the type. -/
def convert : ValueType → Value → Result Value
  | .object, v => .ok v
  | type, .null => .ok type.default
  | .string, v => .ok (.str v.text)
  | .bool, v => (toBool v).map .bool
  | .char, v => (toChar v).map .char
  | .float, v => (toFloat .float v).map fun x => .float (Real64.narrow x)
  | .double, v => (toFloat .double v).map .double
  | .decimal, v => (toDecimal v).map .decimal
  | .array element, .array items => (items.mapM fun item => convert element item).map .array
  | .array element, v => .error (mismatch v (.array element))
  | .enum t, v => (toEnum t v).map .enum
  | .int k, v => (toInteger k v).map .int

/-- Reads a value of a type that has a default; null reads as that default. -/
def orDefault {α : Type} (default : α) (read : Value → Result α) (v : Value) : Result α :=
  if v.isNull then .ok default else read v

def asBool : Value → Result Bool := orDefault false toBool

def asChar : Value → Result Char := orDefault (Char.ofNat 0) toChar

def asInteger (k : IntKind) : Value → Result Integer := orDefault (.ofInt k 0) (toInteger k)

def asFloat : Value → Result Float := orDefault 0 (toFloat .double)

def asDecimal : Value → Result Decimal := orDefault .zero toDecimal

/-- The value as a whole number of 64 bits. -/
def asLong (v : Value) : Result Int := (asInteger .long v).map Integer.val

/-- The elements of an array, nothing for null, and a single value as a list of one. -/
def asList {α : Type} (read : Value → Result α) : Value → Result (List α)
  | .null => .ok []
  | .array items => items.mapM read
  | v => (read v).map fun x => [x]

end ActionTree.Convert
