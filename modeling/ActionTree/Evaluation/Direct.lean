import ActionTree.Evaluation.Basic

/-!
Evaluation without a stack: the value of an expression from the values of its parts.
-/

namespace ActionTree

variable {σ : Type}

mutual

/-- The value of an expression. Parts are evaluated from left to right, and a branch that is not taken
is not evaluated. -/
def Expr.value (env : Environment σ) : Expr → Run σ Value
  | .literal v => return v
  | .var name => env.variableValue name
  | .path name members => env.path name members
  | .assign name op e => do env.assign name op (← e.value env)
  | .unary op e => do Run.ofRuntime (op.apply (← e.value env))
  | .binary op l r => do
    let x ← l.value env
    let y ← r.value env
    Run.ofRuntime (op.apply x y)
  | .and l r => do
    if (← l.value env).isTruthy then return .bool (← r.value env).isTruthy
    else return .bool false
  | .or l r => do
    if (← l.value env).isTruthy then return .bool true
    else return .bool (← r.value env).isTruthy
  | .coalesce l r => do
    let x ← l.value env
    if x.isNull then r.value env else return x
  | .ternary c t e => do if (← c.value env).isTruthy then t.value env else e.value env
  | .cast type isArray e => do env.cast type isArray (← e.value env)
  | .index target position => do
    let t ← target.value env
    let i ← position.value env
    Run.ofFault (Member.index env.host t i)
  | .member target name => do Run.ofRuntime (Member.get (← target.value env) name)
  | .method target name args => do
    let t ← target.value env
    let values ← Expr.values env args
    Run.ofFault (Member.call env.host t name values)
  | .call name args => do env.call name (← Expr.values env args)
  | .property type name => env.static type name none
  | .staticCall type name args => do env.static type name (some (← Expr.values env args))
  | .array element items => do env.arrayOf element (← Expr.values env items)
  | .newArray element length => do env.newArray element (← length.value env)
  | .multi segments => do
    Run.orFail (← Segment.firstValue env segments) (noValue segments)

/-- The values of the expressions in order. -/
def Expr.values (env : Environment σ) : List Expr → Run σ (List Value)
  | [] => return []
  | e :: rest => do
    let v ← e.value env
    return v :: (← Expr.values env rest)

/-- The value of the first alternative that has one. -/
def Segment.firstValue (env : Environment σ) : List Segment → Run σ (Option Value)
  | [] => return none
  | .name n :: rest => do
    match ← env.getVar n with
    | some v => return some v
    | none => Segment.firstValue env rest
  | .expr e :: rest => do
    let v ← e.value env
    if v.isNull then Segment.firstValue env rest else return some v
  | .empty :: _ => return some (.str "")
  | .fallback e :: _ => return some (← e.value env)

end

end ActionTree
