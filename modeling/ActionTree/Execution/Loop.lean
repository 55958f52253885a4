import ActionTree.Execution.Basic

/-!
Loops over the rows of a table, over the elements of a value, and while a condition holds.
-/

namespace ActionTree

/-- Column names and values. -/
abbrev Row := List (String × Value)

/-- The cells of a row under their columns. -/
def RowTable.row (t : RowTable) (cells : List Value) : Except RuntimeFault Row :=
  if t.columns.length < cells.length then
    .error (.rowWidth t.id t.columns.length cells.length)
  else .ok (t.columns.zip (cells ++ List.replicate (t.columns.length - cells.length) .null))

def RowTable.allRows (t : RowTable) : Except RuntimeFault (List Row) := t.rows.mapM t.row

/-- The elements that a loop over a value takes: those of an array, none of null, and any other value
itself. -/
def Value.elements : Value → List Value
  | .null => []
  | .array items => items
  | v => [v]

namespace LoopHead

/-- What the variables of the loop are in each round. -/
def rows (n : Nat) (head : LoopHead) : Run Session (List Row) := do
  match head.source with
  | .rows id =>
    match (← get).stack.nearest? id fun _ => true with
    | none => Run.failWith (.rowSourceNotFound id)
    | some (.rowSet _ table) => Run.ofRuntime table.allRows
    | some a => Run.failWith (.notRowSource a.kind id)
  | .value text =>
    return (← Session.expand n text).elements.map fun v => [(head.variableName, v)]

/-- The rounds that the loop makes at most. -/
def limited (head : LoopHead) (rows : List Row) : List Row :=
  match head.maxCount with
  | some max => rows.take max
  | none => rows

end LoopHead

/-- Runs the body once with each row. -/
def forRows (exec : Executor) (namePrefix : String) (body : List Action) :
    List Row → Run Session Outcome
  | [] => return none
  | row :: rest => do
    match ← Session.withVars row namePrefix (runAll exec body) with
    | some .breakLoop => return none
    | some signal => return some signal
    | none => forRows exec namePrefix body rest

def forEachLoop (exec : Executor) (n : Nat) (head : LoopHead) (body : List Action) :
    Run Session Outcome := do
  forRows exec head.namePrefix body (head.limited (← head.rows n))

/-- Runs the body while the condition holds; `count` rounds were made before, and at most `steps` more
are. A limit of the loop ends it, the limit of the configuration is a fault. -/
def whileLoop (exec : Executor) (n : Nat) (condition : Condition) (maxCount : Option Nat)
    (body : List Action) (steps count : Nat) : Run Session Outcome := do
  match steps with
  | 0 => Run.unfinished
  | steps + 1 =>
    if !(← condition.test n) then return none
    if maxCount.any (· ≤ count) then return none
    let guard := (← get).config.maxLoopIterations
    if 0 < guard ∧ guard ≤ count then Run.failWith (.loopGuard guard)
    match ← runAll exec body with
    | some .breakLoop => return none
    | some signal => return some signal
    | none => whileLoop exec n condition maxCount body steps (count + 1)

end ActionTree
