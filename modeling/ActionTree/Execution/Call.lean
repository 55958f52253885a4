import ActionTree.Execution.Basic

/-!
Calls of subs. Arguments and defaults are expanded by the caller; an argument with a name goes to the
parameter of that name, one without to the first parameter that has none.
-/

namespace ActionTree

namespace Signature

/-- The parameters' values as far as they are known. -/
abbrev Slots := List (Option Value)

/-- The parameter that an argument goes to. -/
def slot (sig : Signature) (slots : Slots) : Option String → Except RuntimeFault Nat
  | some name =>
    match sig.parameters.findIdx? fun p => Text.sameAscii p.name name with
    | none => .error (.unknownParameter sig.id name)
    | some i => if (slots[i]?.getD none).isSome then .error (.parameterTaken name sig.id) else .ok i
  | none =>
    match slots.findIdx? Option.isNone with
    | none => .error (.tooManyArguments sig.id sig.parameters.length)
    | some i => .ok i

/-- Gives each argument to its parameter, in order. -/
def fill (sig : Signature) (slots : Slots) : List (Option String × Value) → Except RuntimeFault Slots
  | [] => .ok slots
  | (name, v) :: rest => do
    let i ← sig.slot slots name
    fill sig (slots.set i (some v)) rest

/-- The parameters that get a value, with it: the argument, else the default. -/
def complete (n : Nat) (sig : Signature) :
    List (Parameter × Option Value) → Run Session (List (String × Value))
  | [] => return []
  | (p, given) :: rest => do
    let v? ← match given, p.default with
      | some v, _ => pure (some v)
      | none, some text => some <$> Session.expand n text
      | none, none =>
        if p.required then Run.failWith (.missingParameter p.name sig.id) else pure none
    let others ← complete n sig rest
    match v? with
    | some v => return (p.name, v) :: others
    | none => return others

/-- The values of the parameters. -/
def bind (n : Nat) (sig : Signature) (args : List (Option String × Value)) :
    Run Session (List (String × Value)) := do
  let slots ← Run.ofRuntime (sig.fill (List.replicate sig.parameters.length none) args)
  sig.complete n (sig.parameters.zip slots)

end Signature

/-- The arguments of a call, expanded in order. -/
def Invocation.expandArguments (n : Nat) : List Argument → Run Session (List (Option String × Value))
  | [] => return []
  | a :: rest => do
    let v ← Session.expand n a.value
    return (a.name, v) :: (← expandArguments n rest)

/-- Calls the nearest sub with the id. -/
def Invocation.perform (exec : Executor) (n : Nat) (call : Invocation) : Run Session Outcome := do
  match (← get).stack.nearest? call.sub Action.isSub with
  | some (.sub identity sig body) =>
    let params ← Session.withPhase .parsingArguments do
      sig.bind n (← expandArguments n call.arguments)
    let isolation := call.isolation.getD (← get).config.defaultIsolation
    let outcome ← Session.withFrame .executing (.sub identity sig body)
      (Session.withIsolation isolation params (runAll exec body))
    match call.output with
    | some name => Session.setVar name outcome.result
    | none => pure ()
    return none
  | _ => Run.failWith (.subNotFound call.sub)

end ActionTree
