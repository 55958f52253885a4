import ActionTree.Session

/-!
Things that hold while something runs and are undone when it ends, whatever its end: variables, the
variables of a sub, and a frame.
-/

namespace ActionTree.Session

variable {α : Type}

/-- Binds variables in order, up to the first name that is refused. Gives the store, what was there
before under each name that was bound, the last one first, and the fault if there was one. -/
def bindOver (namePrefix : String) (saved : List (String × Option Value)) :
    List (String × Value) → Store → Store × List (String × Option Value) × Option RuntimeFault
  | [], vars => (vars, saved, none)
  | (name, v) :: rest, vars =>
    let full := namePrefix ++ name
    match vars.set full v with
    | .ok bound => bindOver namePrefix ((full, vars.get? full) :: saved) rest bound
    | .error fault => (vars, saved, some fault)

/-- Puts back what was saved, in this order, up to a name that is refused. -/
def restore : List (String × Option Value) → Store → Store × Option RuntimeFault
  | [], vars => (vars, none)
  | (name, none) :: rest, vars => restore rest (vars.erase name)
  | (name, some v) :: rest, vars =>
    match vars.set name v with
    | .ok vars => restore rest vars
    | .error fault => (vars, some fault)

/-- What a run ends with once the variables are put back. -/
def putBack (saved : List (String × Option Value)) (result : Except ScriptError α) (s : Session) :
    Except ScriptError α × Session :=
  let (vars, fault) := restore saved s.store
  let s := { s with store := vars }
  match fault with
  | some fault => (.error (.runtime fault), s)
  | none => (result, s)

/-- Runs with more variables, each under the prefix and its name, and puts back what was there. If a
name is refused, nothing runs. -/
def withVars (overlay : List (String × Value)) (namePrefix : String) (body : Run Session α) :
    Run Session α := fun s =>
  let (vars, saved, fault) := bindOver namePrefix [] overlay s.store
  let s := { s with store := vars }
  match fault with
  | some fault => some (putBack saved (.error (.runtime fault)) s)
  | none => (body s).map fun (result, s) => putBack saved result s

/-- Sets the variables in order. -/
def bindAll : List (String × Value) → Run Session Unit
  | [] => return ()
  | (name, v) :: rest => do
    setVar name v
    bindAll rest

/-- Runs on other variables, and puts back the present ones. -/
def onVariables (vars : Store) (body : Run Session α) : Run Session α := fun s =>
  (body { s with store := vars }).map fun (result, after) =>
    (result, { after with store := s.store })

/-- Runs the body of a sub with its parameters set. -/
def withIsolation (isolation : CallIsolation) (params : List (String × Value))
    (body : Run Session α) : Run Session α := do
  let bound := do
    bindAll params
    body
  match isolation with
  | .none => bound
  | .default => onVariables (← get).store bound
  | .high => onVariables .empty bound

/-- Runs in a frame. An error that leaves it has a trace. If too many frames are open, nothing
runs. -/
def withFrame (phase : Phase) (action : Action) (body : Run Session α) : Run Session α := fun s =>
  if s.config.maxCallDepth ≤ s.stack.depth then
    let fault := ScriptError.runtime (.callDepth s.config.maxCallDepth)
    some (.error (fault.traced s.stack.trace), s)
  else
    (body { s with stack := s.stack.push phase action }).map fun (result, s) =>
      (result.mapError fun e => e.traced s.stack.trace, { s with stack := s.stack.pop })

/-- Gives the innermost frame another phase, and back the one that it had. -/
def enterPhase (phase : Phase) : Run Session (Option Phase) := do
  let s ← get
  set { s with stack := s.stack.setPhase phase }
  return s.stack.top?.map Frame.phase

/-- Runs with another phase of the innermost frame, and puts back the one that it had. -/
def withPhase (phase : Phase) (body : Run Session α) : Run Session α := fun s =>
  (body { s with stack := s.stack.setPhase phase }).map fun (result, after) =>
    (result, match s.stack.top? with
      | some f => { after with stack := after.stack.setPhase f.phase }
      | none => after)

/-- Runs with another exception as the current one, and puts back the one that was. -/
def withException (caught : CaughtFault) (body : Run Session α) : Run Session α := fun s =>
  (body { s with currentException := some caught }).map fun (result, after) =>
    (result, { after with currentException := s.currentException })

end ActionTree.Session
