import ActionTree.Expr
import ActionTree.Member

/-!
What the evaluation of an expression asks of its surroundings, and the steps that need no evaluation of
parts.
-/

namespace ActionTree

/-- A computation that may fail and keeps a state in either case. `none` is a computation that did not
end within the steps it was given. -/
abbrev Run (σ : Type) := ExceptT ScriptError (StateT σ Option)

namespace Run

variable {σ α : Type}

/-- Did not end within the steps given. -/
def unfinished : Run σ α := fun _ => none

def failWith (f : RuntimeFault) : Run σ α := throw (.runtime f)

/-- A result of something that keeps no state. -/
def ofRuntime : Except RuntimeFault α → Run σ α
  | .ok a => pure a
  | .error f => throw (.runtime f)

def ofFault : Except Fault α → Run σ α
  | .ok a => pure a
  | .error f => throw ⟨.fault f, none⟩

def ofConversion : Convert.Result α → Run σ α
  | .ok a => pure a
  | .error f => throw (.runtime (.conversion f))

def ofSyntax : Except SyntaxError α → Run σ α
  | .ok a => pure a
  | .error e => throw (.malformed e)

/-- The value, or the fault if there is none. -/
def orFail (v : Option α) (f : RuntimeFault) : Run σ α :=
  match v with
  | some a => pure a
  | none => failWith f

end Run

/-- Where an expression finds variables, types and functions. -/
structure Environment (σ : Type) where
  getVar : String → Run σ (Option Value)
  setVar : String → Value → Run σ Unit
  resolveType : σ → String → Option ValueType
  call : String → List Value → Run σ Value
  /-- A member of a type, with arguments if it is called; `none` if the type is not known. -/
  callStatic : String → String → Option (List Value) → Run σ (Option Value)
  host : Host

namespace Environment

variable {σ : Type} (env : Environment σ)

/-- The value of a variable, which must be set. -/
def variableValue (name : String) : Run σ Value := do
  Run.orFail (← env.getVar name) (.undefinedVariable name)

/-- The type of that name, which must be known. -/
def typeNamed (name : String) : Run σ ValueType := do
  Run.orFail (env.resolveType (← get) name) (.unknownType name)

/-- The variable with the longest name of the given ones that is set, and the members left below
it. -/
def longestSet (name : String) : List (String × List String) → Run σ (Value × List String)
  | [] => Run.failWith (.undefinedVariable name)
  | (candidate, members) :: rest => do
    match ← env.getVar candidate with
    | some v => return (v, members)
    | none => longestSet name rest

/-- Ways to take the front of a dotted path as a variable name, longest first. -/
def splits (name : String) : List String → List (String × List String)
  | [] => [(name, [])]
  | m :: rest => splits (name ++ "." ++ m) rest ++ [(name, m :: rest)]

/-- A member of a member and so on. -/
def membersOf (v : Value) : List String → Except RuntimeFault Value
  | [] => .ok v
  | m :: rest => (Member.get v m).bind fun v => membersOf v rest

/-- A dotted path: the longest part of it that names a variable, and members below that. -/
def path (name : String) (members : List String) : Run σ Value := do
  let (v, rest) ← env.longestSet name (splits name members)
  Run.ofRuntime (membersOf v rest)

/-- Gives a variable a new value; with an operator, one made of its old value and `v`. -/
def assign (name : String) (op : Option BinaryOp) (v : Value) : Run σ Value := do
  let result ← match op with
    | none => pure v
    | some op => Run.ofRuntime (op.apply (← env.variableValue name) v)
  env.setVar name result
  return result

def cast (type : String) (isArray : Bool) (v : Value) : Run σ Value := do
  let t ← env.typeNamed type
  Run.ofConversion (Convert.convert (if isArray then .array t else t) v)

/-- A member of a type, or of a variable with that name. -/
def static (type name : String) (args : Option (List Value)) : Run σ Value := do
  match ← env.callStatic type name args with
  | some v => return v
  | none =>
    let v ← Run.orFail (← env.getVar type) (.unknownName type)
    match args with
    | some args => Run.ofFault (Member.call env.host v name args)
    | none => Run.ofRuntime (Member.get v name)

/-- An array of the values, converted to the element type if there is one. -/
def arrayOf (element : Option String) (values : List Value) : Run σ Value := do
  match element with
  | none => return .array values
  | some type =>
    let t ← env.typeNamed type
    return .array (← Run.ofConversion (values.mapM (Convert.convert t)))

/-- An array of the given length, filled with what null becomes in the type. -/
def newArray (element : String) (length : Value) : Run σ Value := do
  let n ← Run.ofConversion (Convert.asLong length)
  if n < 0 ∨ longestAllocation < n then Run.failWith (.badArrayLength length.text)
  else
    let t ← env.typeNamed element
    return .array (List.replicate n.toNat t.default)

end Environment

/-- The fault of a multi-expression without a value; it names the first variable in it. -/
def noValue (segments : List Segment) : RuntimeFault :=
  match segments.findSome? fun
      | .name n => some n
      | _ => none with
  | some n => .undefinedVariable n
  | none => .noAlternative

end ActionTree
