import ActionTree.Number.Decimal.Conversion
import ActionTree.Number.Integer
import ActionTree.Number.Shortest
import ActionTree.Text.Case

/-!
The values of the language. Every value knows its type; operators and conversions look at it when
they run.
-/

namespace ActionTree

/-- A 64-bit integer, as enumerations number their members. -/
abbrev Long := { n : Int // IntKind.long.Holds n }

def Long.ofInt (n : Int) : Long := ⟨IntKind.long.cut n, IntKind.holds_cut _ n⟩

structure EnumType where
  name : String
  members : List (String × Long)
  deriving DecidableEq

namespace EnumType

/-- The number of the first member of that name, case apart. -/
def number? (t : EnumType) (name : String) : Option Long :=
  (t.members.find? fun m => Text.sameAscii m.1 name).map Prod.snd

/-- The name of the first member with that number. -/
def nameOf? (t : EnumType) (n : Long) : Option String :=
  (t.members.find? fun m => m.2 == n).map Prod.fst

end EnumType

structure EnumValue where
  type : EnumType
  number : Long
  deriving DecidableEq

namespace EnumValue

/-- Same number, and types of the same name, case apart. -/
def same (a b : EnumValue) : Bool := a.number == b.number && Text.sameAscii a.type.name b.type.name

def text (e : EnumValue) : String :=
  match e.type.nameOf? e.number with
  | some name => name
  | none => toString e.number.val

end EnumValue

/-- An object that the language can only look at: who it is, what it is called and how it is
written, and its readable members in order. -/
structure ObjectOf (α : Type) where
  identity : Nat
  typeName : String
  display : String
  members : List (String × α)

inductive Value where
  | null
  | bool (b : Bool)
  | char (c : Char)
  | int (i : Integer)
  | float (x : Float32)
  | double (x : Float)
  | decimal (d : Decimal)
  | str (s : String)
  | array (items : List Value)
  | enum (e : EnumValue)
  | object (o : ObjectOf Value)

instance : Inhabited Value := ⟨.null⟩

abbrev Object := ObjectOf Value

/-- The first member of that name, case apart. -/
def ObjectOf.member? {α : Type} (o : ObjectOf α) (name : String) : Option α :=
  (o.members.find? fun m => Text.sameAscii m.1 name).map Prod.snd

namespace Value

/-- The value `n` of type `int`, cut to its width. -/
def ofInt (n : Int) : Value := int (.ofInt .int n)

def ofChars (cs : List Char) : Value := str (String.ofList cs)

mutual

/-- How the value is written. -/
def text : Value → String
  | null => ""
  | bool b => if b then "true" else "false"
  | char c => String.singleton c
  | int i => toString i.val
  | float x => Real32.text x
  | double x => Real64.text x
  | decimal d => d.text
  | str s => s
  | array items => ", ".intercalate (texts items)
  | enum e => e.text
  | object o => o.display

def texts : List Value → List String
  | [] => []
  | v :: rest => v.text :: texts rest

end

mutual

/-- Same kind and same content; objects are the same if they are one object. -/
def same : Value → Value → Bool
  | null, null => true
  | bool a, bool b => a == b
  | char a, char b => a == b
  | int a, int b => a == b
  | float a, float b => a == b
  | double a, double b => a == b
  | decimal a, decimal b => a.compare b == .eq
  | str a, str b => a == b
  | array a, array b => sameAll a b
  | enum a, enum b => a.same b
  | object a, object b => a.identity == b.identity
  | _, _ => false

def sameAll : List Value → List Value → Bool
  | [], [] => true
  | a :: as, b :: bs => a.same b && sameAll as bs
  | _, _ => false

end

def isNull : Value → Bool
  | null => true
  | _ => false

/-- One of the eight integer types. -/
def isInteger : Value → Bool
  | int _ => true
  | _ => false

def isNumeric : Value → Bool
  | int _ | float _ | double _ | decimal _ => true
  | _ => false

/-- The whole number behind an integer, a character or a member of an enumeration. -/
def toInt? : Value → Option Int
  | char c => some c.toNat
  | int i => some i.val
  | enum e => some e.number.val
  | _ => none

/-- The number as a floating point number. -/
def toFloat? : Value → Option Float
  | float x => some (Real32.widen x)
  | double x => some x
  | decimal d => some d.toFloat
  | v => v.toInt?.map Float.ofInt

/-- Does the value count as true? Null, false, zero, the empty array, the empty text and the texts
`0` and `false` do not. -/
def isTruthy : Value → Bool
  | null => false
  | bool b => b
  | char c => c.toNat != 0
  | int i => i.val != 0
  | float x => x != 0
  | double x => x != 0
  | decimal d => !d.isZero
  | str s => !(s.isEmpty || s == "0" || Text.sameAscii s "false")
  | array items => !items.isEmpty
  | enum e => e.number.val != 0
  | object _ => true

def typeName : Value → String
  | null => "null"
  | bool _ => "bool"
  | char _ => "char"
  | int i => i.kind.name
  | float _ => "float"
  | double _ => "double"
  | decimal _ => "decimal"
  | str _ => "string"
  | array _ => "array"
  | enum e => e.type.name
  | object o => o.typeName

end Value

end ActionTree
