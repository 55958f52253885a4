import ActionTree.Member
import ActionTree.Pattern

/-!
The built-in functions. They belong to receivers: a bare call goes to the first receiver that knows
the name, and `Receiver.name` goes to that receiver alone.
-/

namespace ActionTree

/-- A named group of functions and properties; `none` for a name it does not know. -/
structure Receiver where
  name : String
  call : String → List Value → Option (Except Fault Value)
  property : String → Option Value

namespace Function

abbrev Result := Except RuntimeFault

/-- The argument at a position, counted from zero; `name` is the function as written. -/
def argument (name : String) (args : List Value) (i : Nat) : Result Value :=
  match args[i]? with
  | some v => .ok v
  | none => .error (.missingArgument name (i + 1))

def converted {α : Type} (r : Convert.Result α) : Result α := r.mapError .conversion

def textArgument (name : String) (args : List Value) (i : Nat) : Result String :=
  return (← argument name args i).text

def longArgument (name : String) (args : List Value) (i : Nat) : Result Int := do
  converted (Convert.asLong (← argument name args i))

def floatArgument (name : String) (args : List Value) (i : Nat) : Result Float := do
  converted (Convert.asFloat (← argument name args i))

/-- The characters from `start` on, at most `count` of them; both are clipped to the text. -/
def substr (cs : List Char) (start : Int) (count : Option Int) : List Char :=
  let tail := cs.drop start.toNat
  match count with
  | some n => tail.take n.toNat
  | none => tail

/-- Does the text match the pattern, case apart? -/
def isLike (name : String) (mode : MatchMode) (text source : String) : Result Value :=
  match Pattern.compile mode source true with
  | .ok p => .ok (.bool (p.isMatch text))
  | .error e => .error (.badPattern name e)

/-- The functions on texts and types. -/
def text (name : String) (args : List Value) : Option (Result Value) :=
  let textAt := textArgument name args
  match Text.lowerAscii name with
  | "strlen" => some do return .ofInt (← textAt 0).toList.length
  | "strcat" => some (.ok (.ofChars (args.flatMap fun v => v.text.toList)))
  | "substr" => some do
    let cs := (← textAt 0).toList
    let start ← longArgument name args 1
    let count ← match args[2]? with
      | some v => some <$> converted (Convert.asLong v)
      | none => pure none
    return .ofChars (substr cs start count)
  | "strstr" => some do
    let cs := (← textAt 0).toList
    return Member.ofPosition (Text.indexOf? (← textAt 1).toList cs)
  | "tolower" => some do return .str (Text.lowercase (← textAt 0))
  | "toupper" => some do return .str (Text.uppercase (← textAt 0))
  | "trim" => some do return .str (Text.trim (← textAt 0))
  | "replace" => some do
    let s ← textAt 0
    let needle ← textAt 1
    let replacement ← textAt 2
    if needle.isEmpty then return .str s
    return .ofChars (Text.replace needle.toList replacement.toList s.toList)
  | "typeof" => some do return .str (← argument name args 0).typeName
  | "isnull" => some do return .bool (← argument name args 0).isNull
  | "like" => some do isLike name .glob (← textAt 0) (← textAt 1)
  | "match" => some do isLike name .regex (← textAt 0) (← textAt 1)
  | _ => none

/-- Goes through the values and keeps the one that is `wanted` beside the best so far. -/
def pick (name : String) (wanted : Ordering) (best : Value) : List Value → Result Value
  | [] => .ok best
  | v :: rest =>
    match Comparison.compareValues v best with
    | some o => pick name wanted (if o = wanted then v else best) rest
    | none => .error (.incomparable name v.typeName best.typeName)

/-- The greatest or least of the arguments, the first of equals. -/
def extreme (name : String) (args : List Value) (wanted : Ordering) : Result Value := do
  pick name wanted (← argument name args 0) (args.drop 1)

/-- Ways to round to a number of places. -/
inductive Rounding where
  | nearestEven | floor | ceiling

def Rounding.ofFloat (x : Float) : Rounding → Float
  | nearestEven => Real64.roundEven x
  | floor => x.floor
  | ceiling => x.ceil

def Rounding.ofDecimal (d : Decimal) (places : Nat) : Rounding → Decimal
  | nearestEven => d.roundEven places
  | floor => d.floor
  | ceiling => d.ceiling

/-- A number with at most `places` places. Integers have none; what is no number is read as a
decimal. -/
def round (v : Value) (places : Nat) (rounding : Rounding) : Result Value :=
  let ofFloat (x : Float) : Value :=
    let scale := Real64.power 10 (IntKind.int.cut places)
    .double (rounding.ofFloat (x * scale) / scale)
  match v with
  | .decimal d => .ok (.decimal (rounding.ofDecimal d places))
  | .float x => .ok (ofFloat (Real32.widen x))
  | .double x => .ok (ofFloat x)
  | .int i => .ok (.int i)
  | v => do
    let d ← converted (Convert.asDecimal v)
    return .decimal (rounding.ofDecimal d places)

/-- The value without its sign. -/
def magnitude (v : Value) : Result Value :=
  if Comparison.compareValues v (.ofInt 0) = some .lt then UnaryOp.neg.apply v else .ok v

/-- The functions on numbers. -/
def math (name : String) (args : List Value) : Option (Result Value) :=
  match Text.lowerAscii name with
  | "max" => some (extreme name args .gt)
  | "min" => some (extreme name args .lt)
  | "abs" => some do magnitude (← argument name args 0)
  | "round" => some do
    let places ← match args[1]? with
      | some v => (fun i => i.val.toNat) <$> converted (Convert.asInteger .uint v)
      | none => pure 0
    round (← argument name args 0) places .nearestEven
  | "floor" => some do round (← argument name args 0) 0 .floor
  | "ceiling" => some do round (← argument name args 0) 0 .ceiling
  | "sqrt" => some do return .double (← floatArgument name args 0).sqrt
  | "pow" => some do
    let x ← floatArgument name args 0
    let y ← floatArgument name args 1
    return .double (x.pow y)
  | _ => none

def mathProperty (name : String) : Option Value :=
  match Text.lowerAscii name with
  | "pi" => some (.double 3.141592653589793)
  | "e" => some (.double 2.718281828459045)
  | _ => none

end Function

namespace Receiver

def text : Receiver where
  name := "Str"
  call name args := (Function.text name args).map (·.mapError .runtime)
  property _ := none

def math : Receiver where
  name := "Math"
  call name args := (Function.math name args).map (·.mapError .runtime)
  property := Function.mathProperty

end Receiver

end ActionTree
