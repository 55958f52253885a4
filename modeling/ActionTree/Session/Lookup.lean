import ActionTree.Evaluation.Machine
import ActionTree.Session

/-!
Evaluation in a session. Reading a computed name may evaluate an expression, which may read a computed
name in turn; how deep this goes is bounded by a number of steps.
-/

namespace ActionTree.Session

/-- Reads a variable. -/
abbrev Reading := String → Run Session (Option Value)

/-- Is the variable set? -/
def isSetBy (read : Reading) (name : String) : Run Session Bool := do
  match NameKind.ofName name with
  | .plain => return (← get).store.contains name
  | _ => return (← read name).isSome

/-- The name that the only argument of a function is; `function` is as written. -/
def nameArgument (function : String) : Option (List Value) → Run Session String
  | some [v] => return v.text
  | _ => Run.failWith (.oneArgument function)

/-- A function of the session, or a property of it if there are no arguments; `none` if it has no such
member. -/
def member? (read : Reading) (name : String) (args : Option (List Value)) :
    Option (Run Session Value) :=
  match Text.lowerAscii name, args with
  | "isset", args => some do return .bool (← isSetBy read (← nameArgument name args))
  | "get", args => some do return (← read (← nameArgument name args)).getD .null
  | "currentexception", none => some do
    return ((← get).currentException.map fun c => Value.object c.toObject).getD .null
  | "calldepth", none => some do return .ofInt (← get).stack.depth
  | _, _ => none

/-- A call without a receiver. -/
def callBy (read : Reading) (name : String) (args : List Value) : Run Session Value := do
  match member? read name (some args) with
  | some result => result
  | none => match (← get).receivers.findSome? fun r => r.call name args with
    | some result => Run.ofFault result
    | none => Run.failWith (.unknownFunction name)

/-- A member of an enumeration. -/
def enumMember (t : EnumType) (name : String) (args : Option (List Value)) : Run Session Value :=
  if args.isSome then Run.failWith (.enumHasNoMethods t.name)
  else match t.number? name with
    | some n => return .enum ⟨t, n⟩
    | none => Run.failWith (.notEnumMember name t.name)

/-- A function of a receiver, or a property of it if there are no arguments. -/
def receiverMember (r : Receiver) (name : String) (args : Option (List Value)) :
    Run Session Value :=
  let found := match args with
    | some args => r.call name args
    | none => (r.property name).map .ok
  match found with
  | some result => Run.ofFault result
  | none => Run.failWith (.noReceiverMember r.name name)

/-- A member of the session itself, of an enumeration or of a receiver; `none` if nothing has that
name. -/
def staticBy (read : Reading) (type name : String) (args : Option (List Value)) :
    Run Session (Option Value) := do
  if Text.sameAscii type "Context" then
    match member? read name args with
    | some result => some <$> result
    | none => Run.failWith (.noContextMember name)
  else match (← get).enum? type with
    | some t => some <$> enumMember t name args
    | none => match (← get).receivers.find? fun r => Text.sameAscii r.name type with
      | some r => some <$> receiverMember r name args
      | none => return none

/-- The session as the surroundings of an expression. -/
def environmentBy (read : Reading) (host : Host) : Environment Session where
  getVar := read
  setVar := setVar
  resolveType := resolveType
  call := callBy read
  callStatic := staticBy read
  host := host

/-- The value of a text as an expression. -/
def evaluateBy (read : Reading) (kind : ExprKind) (text : String) : Run Session Value := do
  let e ← parse kind text
  e.evaluate (environmentBy read (← get).surroundings.host)

/-- The node with that id in the tree under way, as an object. -/
def nodeObject? (id : String) : Run Session (Option Value) := do
  match (← get).stack.findTree? id fun _ => true with
  | some a => return some (.object (a.toObject (← freshIdentity)))
  | none => return none

/-- Reads a variable; at most `n` computed names are read inside of one another. -/
def lookUp : Nat → Reading
  | n, name => do
    match NameKind.ofName name, n with
    | .plain, _ => return (← get).store.get? name
    | .expr text, n + 1 => some <$> evaluateBy (lookUp n) .single text
    | .multi text, n + 1 => some <$> evaluateBy (lookUp n) .multi text
    | .env scope name, _ => return (scope.get? (← get).surroundings.processEnv name).map .str
    | .tree id, _ => nodeObject? id
    | _, 0 => Run.unfinished

def isSet (n : Nat) : String → Run Session Bool := isSetBy (lookUp n)

/-- The value of an expression. -/
def evaluate (n : Nat) : String → Run Session Value := evaluateBy (lookUp n) .single

/-- The value of a multi-expression. -/
def evaluateMulti (n : Nat) : String → Run Session Value := evaluateBy (lookUp n) .multi

/-- The session as the surroundings of an expression, with as many steps. -/
def environment (n : Nat) (s : Session) : Environment Session :=
  environmentBy (lookUp n) s.surroundings.host

/-- The value that the rules make of a value. -/
def transform (n : Nat) (rules : TransformRules) (replaces : List ReplaceRule) (v : Value) :
    Run Session Value := do
  rules.apply replaces (environment n (← get)) v

/-- The value of a text by the usual rules. -/
def expand (n : Nat) (text : String) : Run Session Value :=
  transform n .standard [] (.str text)

end ActionTree.Session
