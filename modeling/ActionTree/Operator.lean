import ActionTree.Convert

/-!
What the operators do. Integers are promoted first: what is narrower than `int` becomes `int`, `uint`
beside a signed type becomes `long`, and beside `ulong` everything becomes `ulong`. A floating point
operand makes the operation a floating point one, and a decimal operand makes it a decimal one.
-/

namespace ActionTree

inductive BinaryOp where
  | add | sub | mul | div | rem | shl | shr | bitAnd | bitOr | bitXor
  | eq | ne | lt | le | gt | ge
  deriving DecidableEq

def BinaryOp.symbol : BinaryOp → String
  | add => "+"
  | sub => "-"
  | mul => "*"
  | div => "/"
  | rem => "%"
  | shl => "<<"
  | shr => ">>"
  | bitAnd => "&"
  | bitOr => "|"
  | bitXor => "^"
  | eq => "=="
  | ne => "!="
  | lt => "<"
  | le => "<="
  | gt => ">"
  | ge => ">="

def BinaryOp.all : List BinaryOp :=
  [add, sub, mul, div, rem, shl, shr, bitAnd, bitOr, bitXor, eq, ne, lt, le, gt, ge]

/-- The operator that is written so. -/
def BinaryOp.ofSymbol? (symbol : String) : Option BinaryOp :=
  all.find? fun op => op.symbol == symbol

inductive UnaryOp where
  | not | neg | plus | bitNot
  deriving DecidableEq

def UnaryOp.symbol : UnaryOp → String
  | not => "!"
  | neg => "-"
  | plus => "+"
  | bitNot => "~"

def UnaryOp.all : List UnaryOp := [not, neg, plus, bitNot]

/-- The operator that is written so. -/
def UnaryOp.ofSymbol? (symbol : String) : Option UnaryOp := all.find? fun op => op.symbol == symbol

/-- The type that a number calculates in. -/
inductive NumberClass where
  | int (kind : IntKind)
  | float
  | double
  | decimal
  deriving DecidableEq

namespace NumberClass

/-- The integer type that a value calculates in. -/
def intKind? : Value → Option IntKind
  | .int i => match i.kind with
    | .uint => some .uint
    | .long => some .long
    | .ulong => some .ulong
    | _ => some .int
  | .char _ | .enum _ => some .int
  | _ => none

def ofValue? : Value → Option NumberClass
  | .float _ => some float
  | .double _ => some double
  | .decimal _ => some decimal
  | v => (intKind? v).map int

/-- The integer type of a result. -/
def promoteInt : IntKind → IntKind → IntKind
  | .ulong, _ | _, .ulong => .ulong
  | .long, _ | _, .long => .long
  | .uint, .uint => .uint
  | .uint, _ | _, .uint => .long
  | _, _ => .int

/-- The type of a result. -/
def promote : NumberClass → NumberClass → NumberClass
  | decimal, _ | _, decimal => decimal
  | double, _ | _, double => double
  | float, _ | _, float => float
  | int j, int k => int (promoteInt j k)

end NumberClass

/-- A bitwise operation on the low 64 bits of two whole numbers. -/
def bitwise (op : BitVec 64 → BitVec 64 → BitVec 64) (a b : Int) : Int :=
  (op (.ofInt 64 a) (.ofInt 64 b)).toInt

namespace BinaryOp

/-- The result on whole numbers, before it is cut to its type; `none` for an operator that is none
of arithmetic. -/
def onInts? (op : BinaryOp) (a b : Int) : Option (Except RuntimeFault Int) :=
  match op with
  | add => some (.ok (a + b))
  | sub => some (.ok (a - b))
  | mul => some (.ok (a * b))
  | div => some (if b = 0 then .error .divisionByZero else .ok (a.tdiv b))
  | rem => some (if b = 0 then .error .divisionByZero else .ok (a.tmod b))
  | bitAnd => some (.ok (bitwise (· &&& ·) a b))
  | bitOr => some (.ok (bitwise (· ||| ·) a b))
  | bitXor => some (.ok (bitwise (· ^^^ ·) a b))
  | _ => none

def onFloats? (op : BinaryOp) (x y : Float32) : Option Float32 :=
  match op with
  | add => some (x + y)
  | sub => some (x - y)
  | mul => some (x * y)
  | div => some (x / y)
  | rem => some (Real32.remainder x y)
  | _ => none

def onDoubles? (op : BinaryOp) (x y : Float) : Option Float :=
  match op with
  | add => some (x + y)
  | sub => some (x - y)
  | mul => some (x * y)
  | div => some (x / y)
  | rem => some (Real64.remainder x y)
  | _ => none

/-- The result on decimals; the inner `none` is an overflow. -/
def onDecimals? (op : BinaryOp) (a b : Decimal) : Option (Except RuntimeFault Decimal) :=
  let checked (d : Option Decimal) : Option (Except RuntimeFault Decimal) :=
    some (match d with
      | some d => .ok d
      | none => .error .decimalOverflow)
  match op with
  | add => checked (a.add? b)
  | sub => checked (a.sub? b)
  | mul => checked (a.mul? b)
  | div => if b.isZero then some (.error .divisionByZero) else checked (a.div? b)
  | rem => if b.isZero then some (.error .divisionByZero) else checked (a.rem? b)
  | _ => none

/-- A shift in the promoted type of the left operand, by as many of the low bits of `count` as
matter for its width. -/
def shift (left : Bool) (k : IntKind) (a count : Int) : Integer :=
  let n := (count % k.bits).toNat
  let x := k.cut a
  .ofInt k (if left then x * twoTo n else x >>> n)

/-- The fault of operands that the operator is not defined for. -/
def badOperands (op : BinaryOp) (l r : Value) : RuntimeFault :=
  .badOperands op.symbol l.typeName r.typeName

/-- The operators on two numbers of known classes. -/
def onNumbers (op : BinaryOp) (l r : Value) (lc rc : NumberClass) : Except RuntimeFault Value :=
  let a := l.toInt?.getD 0
  let b := r.toInt?.getD 0
  let x := l.toFloat?.getD 0
  let y := r.toFloat?.getD 0
  if op = shl ∨ op = shr then
    match lc, rc with
    | .int k, .int _ => .ok (.int (shift (op == shl) (NumberClass.promoteInt k .int) a b))
    | _, _ => .error (op.badOperands l r)
  else
    match lc.promote rc with
    | .int k => match op.onInts? a b with
      | some n => n.map fun n => .int (.ofInt k n)
      | none => .error (op.badOperands l r)
    | .float => match op.onFloats? (Real64.narrow x) (Real64.narrow y) with
      | some z => .ok (.float z)
      | none => .error (op.badOperands l r)
    | .double => match op.onDoubles? x y with
      | some z => .ok (.double z)
      | none => .error (op.badOperands l r)
    | .decimal => match Convert.decimal? l, Convert.decimal? r with
      | some d, some e => match op.onDecimals? d e with
        | some z => z.map .decimal
        | none => .error (op.badOperands l r)
      | _, _ => .error (op.badOperands l r)

/-- The operators that calculate. A text on either side of `+` makes it a concatenation; otherwise
null on either side gives null. -/
def calculate (op : BinaryOp) (l r : Value) : Except RuntimeFault Value :=
  let joins := match l, r with
    | .str _, _ | _, .str _ => op == add
    | _, _ => false
  if joins then .ok (.str (l.text ++ r.text))
  else match l, r with
    | .null, _ | _, .null => .ok .null
    | .bool a, .bool b => match op with
      | bitAnd => .ok (.bool (a && b))
      | bitOr => .ok (.bool (a || b))
      | bitXor => .ok (.bool (a != b))
      | _ => .error (op.badOperands l r)
    | _, _ => match NumberClass.ofValue? l, NumberClass.ofValue? r with
      | some lc, some rc => op.onNumbers l r lc rc
      | _, _ => .error (op.badOperands l r)

end BinaryOp

namespace Comparison

/-- The order of two texts by their code points. -/
def compareChars : List Char → List Char → Ordering
  | [], [] => .eq
  | [], _ :: _ => .lt
  | _ :: _, [] => .gt
  | c :: cs, d :: ds => (compare c.toNat d.toNat).then (compareChars cs ds)

def compareTexts (a b : String) : Ordering := compareChars a.toList b.toList

/-- The number that a text spells, in the first of `long`, `ulong`, `decimal` and `double` that can
hold it. -/
def numericText? (s : String) : Option Value :=
  let cs := (Text.trim s).toList
  match (Numeral.int? 10 cs).bind (Integer.firstOf? [.long, .ulong]) with
  | some i => some (.int i)
  | none => match Decimal.ofNumeral? cs with
    | some d => some (.decimal d)
    | none => (Numeral.float? cs).map .double

def compareFloats (x y : Float) : Option Ordering :=
  if x < y then some .lt else if x == y then some .eq else if y < x then some .gt else none

/-- The order of two numbers in their common type. -/
def compareNumbers (l r : Value) : Option Ordering := do
  let lc ← NumberClass.ofValue? l
  let rc ← NumberClass.ofValue? r
  match lc.promote rc with
  | .int _ => return compare (← l.toInt?) (← r.toInt?)
  | .decimal => return (← Convert.decimal? l).compare (← Convert.decimal? r)
  | .float | .double => compareFloats (← l.toFloat?) (← r.toFloat?)

/-- A truth value beside something else: a number counts by being zero or not, a text if it spells a
truth value. -/
def compareBool (a : Bool) (other : Value) : Option Ordering :=
  match other with
  | .str s => (Convert.boolText? s).map (compare a)
  | v => if v.isNumeric then some (compare a v.isTruthy) else none

/-- A member of an enumeration beside a text: by number if the text is a member or a number, else by
name. -/
def compareEnum (e : EnumValue) (s : String) : Ordering :=
  let word := Text.trim s
  match Convert.enumText? e.type word with
  | some n => compare e.number.val n.val
  | none => compareTexts ((e.type.nameOf? e.number).getD "") word

/-- A text beside a number: as numbers if the text spells one, else as texts. -/
def compareText (s : String) (other : Value) : Option Ordering :=
  match numericText? s with
  | some n => compareNumbers n other
  | none => some (compareTexts s other.text)

def compareToText (other : Value) (s : String) : Option Ordering :=
  match numericText? s with
  | some n => compareNumbers other n
  | none => some (compareTexts other.text s)

mutual

/-- The order of two values, or `none` if they cannot be compared. -/
def compareValues : Value → Value → Option Ordering
  | .null, .null => some .eq
  | .null, _ => none
  | _, .null => none
  | .str a, .str b => some (compareTexts a b)
  | .char a, .str b => some (compareTexts (String.singleton a) b)
  | .str a, .char b => some (compareTexts a (String.singleton b))
  | .bool a, .bool b => some (compare a b)
  | .bool a, r => compareBool a r
  | l, .bool b => (compareBool b l).map Ordering.swap
  | .enum e, .str s => some (compareEnum e s)
  | .str s, .enum e => some (compareEnum e s).swap
  | .array a, .array b => if equalAll a b then some .eq else none
  | .object a, .object b => if a.identity == b.identity then some .eq else none
  | .str s, r => if r.isNumeric then compareText s r else compareNumbers (.str s) r
  | l, .str s => if l.isNumeric then compareToText l s else compareNumbers l (.str s)
  | l, r => compareNumbers l r

/-- Are two arrays of one length, and equal element by element? -/
def equalAll : List Value → List Value → Bool
  | [], [] => true
  | a :: as, b :: bs => compareValues a b == some .eq && equalAll as bs
  | _, _ => false

end

/-- Equality as the operator `==` sees it. -/
def equal (l r : Value) : Bool := compareValues l r == some .eq

end Comparison

namespace BinaryOp

/-- What a comparison operator asks of the order; `none` for the other operators. -/
def wanted? (op : BinaryOp) : Option (Option Ordering → Bool) :=
  match op with
  | eq => some (· == some .eq)
  | ne => some (· != some .eq)
  | lt => some (· == some .lt)
  | le => some fun o => o == some .lt || o == some .eq
  | gt => some (· == some .gt)
  | ge => some fun o => o == some .gt || o == some .eq
  | _ => none

/-- The operator applied to two values. -/
def apply (op : BinaryOp) (l r : Value) : Except RuntimeFault Value :=
  match op.wanted? with
  | some wanted => .ok (.bool (wanted (Comparison.compareValues l r)))
  | none => op.calculate l r

end BinaryOp

namespace UnaryOp

/-- The operator on a whole number. Minus on an unsigned type of 32 or 64 bits gives a `long`. -/
def onInt (op : UnaryOp) (k : IntKind) (n : Int) : Integer :=
  match op with
  | neg => .ofInt (if k = .uint ∨ k = .ulong then .long else k) (-n)
  | bitNot => .ofInt k (-n - 1)
  | plus | not => .ofInt k n

/-- The operator applied to a value. -/
def apply (op : UnaryOp) (v : Value) : Except RuntimeFault Value :=
  match op, v with
  | not, v => .ok (.bool !v.isTruthy)
  | _, .null => .ok .null
  | neg, .float x => .ok (.float (-x))
  | neg, .double x => .ok (.double (-x))
  | neg, .decimal d => .ok (.decimal d.neg)
  | plus, .float x => .ok (.float x)
  | plus, .double x => .ok (.double x)
  | plus, .decimal d => .ok (.decimal d)
  | op, v => match NumberClass.intKind? v, v.toInt? with
    | some k, some n => .ok (.int (op.onInt k n))
    | _, _ => .error (.badOperand v.typeName)

end UnaryOp

end ActionTree
