import ActionTree.Evaluation.Basic

/-!
Evaluation on a stack of values. Every expression pushes one value; a composite one evaluates its parts
from left to right and pops their values in the reverse order. A branch that is not taken is not
evaluated.
-/

namespace ActionTree

namespace Machine

variable {σ : Type}

/-- Values, the one pushed last first. -/
abbrev Stack := List Value

/-- The topmost value and what is under it. -/
def pop : Stack → Run σ (Value × Stack)
  | [] => throw ⟨.stack .underflow, none⟩
  | v :: rest => return (v, rest)

/-- The `n` topmost values in the order in which they were pushed. -/
def popMany (n : Nat) (stack : Stack) : Run σ (List Value × Stack) :=
  if stack.length < n then throw ⟨.stack .underflow, none⟩
  else return ((stack.take n).reverse, stack.drop n)

mutual

/-- Evaluates the expression and pushes its value. -/
def push (env : Environment σ) : Expr → Stack → Run σ Stack
  | .literal v, stack => return v :: stack
  | .var name, stack => return (← env.variableValue name) :: stack
  | .path name members, stack => return (← env.path name members) :: stack
  | .assign name op e, stack => do
    let (v, stack) ← pop (← push env e stack)
    return (← env.assign name op v) :: stack
  | .unary op e, stack => do
    let (v, stack) ← pop (← push env e stack)
    return (← Run.ofRuntime (op.apply v)) :: stack
  | .binary op l r, stack => do
    let stack ← push env l stack
    let (y, stack) ← pop (← push env r stack)
    let (x, stack) ← pop stack
    return (← Run.ofRuntime (op.apply x y)) :: stack
  | .and l r, stack => do
    let (x, stack) ← pop (← push env l stack)
    if x.isTruthy then
      let (y, stack) ← pop (← push env r stack)
      return .bool y.isTruthy :: stack
    else return .bool false :: stack
  | .or l r, stack => do
    let (x, stack) ← pop (← push env l stack)
    if x.isTruthy then return .bool true :: stack
    else
      let (y, stack) ← pop (← push env r stack)
      return .bool y.isTruthy :: stack
  | .coalesce l r, stack => do
    let (x, stack) ← pop (← push env l stack)
    if x.isNull then
      let (y, stack) ← pop (← push env r stack)
      return y :: stack
    else return x :: stack
  | .ternary c t e, stack => do
    let (x, stack) ← pop (← push env c stack)
    let (y, stack) ← pop (← if x.isTruthy then push env t stack else push env e stack)
    return y :: stack
  | .cast type isArray e, stack => do
    let (v, stack) ← pop (← push env e stack)
    return (← env.cast type isArray v) :: stack
  | .index target position, stack => do
    let stack ← push env target stack
    let (i, stack) ← pop (← push env position stack)
    let (t, stack) ← pop stack
    return (← Run.ofFault (Member.index env.host t i)) :: stack
  | .member target name, stack => do
    let (t, stack) ← pop (← push env target stack)
    return (← Run.ofRuntime (Member.get t name)) :: stack
  | .method target name args, stack => do
    let stack ← push env target stack
    let (values, stack) ← popMany args.length (← pushAll env args stack)
    let (t, stack) ← pop stack
    return (← Run.ofFault (Member.call env.host t name values)) :: stack
  | .call name args, stack => do
    let (values, stack) ← popMany args.length (← pushAll env args stack)
    return (← env.call name values) :: stack
  | .property type name, stack => return (← env.static type name none) :: stack
  | .staticCall type name args, stack => do
    let (values, stack) ← popMany args.length (← pushAll env args stack)
    return (← env.static type name (some values)) :: stack
  | .array element items, stack => do
    let (values, stack) ← popMany items.length (← pushAll env items stack)
    return (← env.arrayOf element values) :: stack
  | .newArray element length, stack => do
    let (n, stack) ← pop (← push env length stack)
    return (← env.newArray element n) :: stack
  | .multi segments, stack => do
    match ← pushFirst env segments stack with
    | some stack => return stack
    | none => Run.failWith (noValue segments)

/-- Evaluates the expressions in order and pushes all values. -/
def pushAll (env : Environment σ) : List Expr → Stack → Run σ Stack
  | [], stack => return stack
  | e :: rest, stack => do pushAll env rest (← push env e stack)

/-- Pushes the value of the first alternative that has one. -/
def pushFirst (env : Environment σ) : List Segment → Stack → Run σ (Option Stack)
  | [], _ => return none
  | .name n :: rest, stack => do
    match ← env.getVar n with
    | some v => return some (v :: stack)
    | none => pushFirst env rest stack
  | .expr e :: rest, stack => do
    let (v, stack) ← pop (← push env e stack)
    if v.isNull then pushFirst env rest stack else return some (v :: stack)
  | .empty :: _, stack => return some (.str "" :: stack)
  | .fallback e :: _, stack => do
    let (v, stack) ← pop (← push env e stack)
    return some (v :: stack)

end

end Machine

/-- The value of an expression, from an empty stack. -/
def Expr.evaluate {σ : Type} (env : Environment σ) (e : Expr) : Run σ Value := do
  match ← Machine.push env e [] with
  | [v] => return v
  | stack => throw ⟨.stack (.unbalanced (max 1 stack.length)), none⟩

end ActionTree
