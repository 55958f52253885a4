import ActionTree.Value

/-!
The types that a value can be converted to, and the names of the built-in ones.
-/

namespace ActionTree

inductive ValueType where
  | object
  | bool
  | char
  | int (kind : IntKind)
  | float
  | double
  | decimal
  | string
  | array (element : ValueType)
  | enum (type : EnumType)
  deriving DecidableEq

namespace ValueType

def name : ValueType → String
  | object => "object"
  | bool => "bool"
  | char => "char"
  | int kind => kind.name
  | float => "float"
  | double => "double"
  | decimal => "decimal"
  | string => "string"
  | array element => element.name ++ "[]"
  | enum type => type.name

/-- The built-in types by their names in small letters. -/
def builtins : List (String × ValueType) :=
  [("object", object), ("bool", bool), ("boolean", bool), ("char", char),
   ("sbyte", int .sbyte), ("byte", int .byte), ("short", int .short), ("int16", int .short),
   ("ushort", int .ushort), ("uint16", int .ushort), ("int", int .int), ("int32", int .int),
   ("uint", int .uint), ("uint32", int .uint), ("long", int .long), ("int64", int .long),
   ("ulong", int .ulong), ("uint64", int .ulong), ("float", float), ("single", float),
   ("double", double), ("decimal", decimal), ("string", string)]

/-- The built-in type of that name, case apart; `System.` may stand before it. -/
def builtin? (name : String) : Option ValueType :=
  let cs := name.toList
  let scope := "System.".toList
  let cs := if scope.isPrefixOf cs then cs.drop scope.length else cs
  builtins.lookup (String.ofList (cs.map Char.toLower))

/-- What null becomes in the type. Texts, arrays and objects may be null. -/
def default : ValueType → Value
  | bool => .bool false
  | char => .char (Char.ofNat 0)
  | int kind => .int (.ofInt kind 0)
  | float => .float 0
  | double => .double 0
  | decimal => .decimal .zero
  | enum type => .enum ⟨type, .ofInt 0⟩
  | object | string | array _ => .null

end ValueType

end ActionTree
