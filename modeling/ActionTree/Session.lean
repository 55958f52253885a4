import ActionTree.CallStack
import ActionTree.ExprCache
import ActionTree.Function
import ActionTree.Output
import ActionTree.Store

/-!
The state of a script under way, and the operations on it that evaluate nothing.
-/

namespace ActionTree

/-- What a session asks of the program around it. -/
structure Surroundings where
  host : Host := .silent
  processEnv : ProcessEnv := []
  isFile : String → Bool := fun _ => false
  isDirectory : String → Bool := fun _ => false

/-- A fault that a handler is dealing with, and the frames that were open when it was raised. -/
structure CaughtFault where
  identity : Nat
  fault : Fault
  trace : Option String
  deriving DecidableEq

namespace CaughtFault

/-- The fault as scripts see it. -/
def toObject (c : CaughtFault) : Object where
  identity := c.identity
  typeName := c.fault.kind
  display := c.fault.message
  members :=
    [("Message", .str c.fault.message), ("Kind", .str c.fault.kind),
     ("StackTrace", (c.trace.map Value.str).getD .null)]

end CaughtFault

/-- A node as scripts see it. -/
def Action.toObject (a : Action) (identity : Nat) : Object where
  identity := identity
  typeName := "Action"
  display := a.describe
  members := [("Id", (a.id?.map Value.str).getD .null), ("Kind", .str a.kind)]

structure Session where
  store : Store
  stack : CallStack
  cache : ExprCache
  receivers : List Receiver
  /-- Enumerations by their names in small letters; the first of a name counts. -/
  enums : List (String × EnumType)
  /-- Outputs in use, the innermost first. -/
  outputs : List Output
  /-- What was written while no output was in use. -/
  console : String
  abortRequested : Bool
  /-- Has the abort been raised since it was requested? -/
  abortRaised : Bool
  /-- Trees that are ready to run. -/
  prepared : List Nat
  currentException : Option CaughtFault
  /-- The next object that the session makes has this identity. -/
  nextIdentity : Nat
  config : Config
  surroundings : Surroundings

namespace Session

def isolationEnum : EnumType where
  name := "CallIsolation"
  members := [CallIsolation.none, .default, .high].zipIdx.map fun (i, n) => (i.name, .ofInt n)

def phaseEnum : EnumType where
  name := "Phase"
  members := Phase.all.zipIdx.map fun (p, n) => (p.name, .ofInt n)

/-- Makes an enumeration known; it hides one of the same name. -/
def registerEnum (s : Session) (t : EnumType) : Session :=
  { s with enums := (Text.lowercase t.name, t) :: s.enums }

def enum? (s : Session) (name : String) : Option EnumType := s.enums.lookup (Text.lowercase name)

/-- Adds a receiver, to be asked after the others. -/
def addReceiver (s : Session) (r : Receiver) : Session := { s with receivers := s.receivers ++ [r] }

/-- A new session. -/
def start (config : Config) (surroundings : Surroundings) : Session :=
  registerEnum (registerEnum {
    store := .empty
    stack := []
    cache := .ofCapacity config.cacheCapacity
    receivers := [.text, .math]
    enums := []
    outputs := []
    console := ""
    abortRequested := false
    abortRaised := false
    prepared := []
    currentException := none
    nextIdentity := 0
    config, surroundings } isolationEnum) phaseEnum

/-- The type of that name: a built-in one, else an enumeration. -/
def resolveType (s : Session) (name : String) : Option ValueType :=
  (ValueType.builtin? name).or ((s.enum? name).map .enum)

/-- The report on an error, with the frames if the configuration asks for them. -/
def describeError (s : Session) (e : ScriptError) : String :=
  match e.trace with
  | some trace =>
    if s.config.verboseErrors && !trace.isEmpty then e.message ++ "\n" ++ trace else e.message
  | none => e.message

/-- Asks for the script to end. -/
def requestAbort (s : Session) : Session := { s with abortRequested := true }

/-- Forgets an abort, so that the session can run again. -/
def resetAbort (s : Session) : Session := { s with abortRequested := false, abortRaised := false }

/-- Raises an abort that was requested, once. -/
def checkAbort : Run Session Unit := do
  let s ← get
  if s.abortRequested && !s.abortRaised then
    set { s with abortRaised := true }
    throw .terminated

/-- Sets a variable. -/
def setVar (name : String) (v : Value) : Run Session Unit := do
  let s ← get
  set { s with store := ← Run.ofRuntime (s.store.set name v) }

def pushOutput (s : Session) (o : Output) : Session := { s with outputs := o :: s.outputs }

/-- Ends the innermost output. -/
def popOutput (s : Session) : Session := { s with outputs := s.outputs.tail }

/-- Writes a line to the innermost output. -/
def writeLine (line : String) : Run Session Unit := do
  let s ← get
  match s.outputs with
  | [] => set { s with console := s.console ++ line ++ "\n" }
  | o :: rest => match o.writeLine line with
    | .ok o => set { s with outputs := o :: rest }
    | .error cause => Run.failWith (.output cause)

/-- The expression that a text denotes, through the cache. -/
def parse (kind : ExprKind) (text : String) : Run Session Expr := do
  let s ← get
  let (result, cache) := s.cache.parse kind text
  set { s with cache }
  Run.ofSyntax result

/-- An identity that no object of the session has. -/
def freshIdentity : Run Session Nat := do
  let s ← get
  set { s with nextIdentity := s.nextIdentity + 1 }
  return s.nextIdentity

end Session

end ActionTree
