import ActionTree.Execution.Block
import ActionTree.Execution.Call
import ActionTree.Execution.Loop

/-!
Execution of actions. Every action runs in a frame of its own, after a look at whether the script is to
end. The number of steps bounds how deep actions, rounds of a loop and computed names go.
-/

namespace ActionTree

namespace Action

/-- How an id is found to be written: from the frames and in the whole tree, any node and subs only. -/
def foundText (stack : CallStack) (id : String) : String :=
  let shown (a : Option Action) : String := (a.map describe).getD "-"
  " | ".intercalate
    [shown (stack.find? id fun _ => true), shown (stack.findTree? id fun _ => true),
     shown (stack.find? id isSub), shown (stack.findTree? id isSub)]

/-- What an action does in its frame; `exec` executes the actions below it. -/
def perform (exec : Executor) (n : Nat) : Action → Run Session Outcome
  | sequence _ items => runAll exec items
  | block _ sections _ => sections.perform exec
  | script _ sections => do
    match ← sections.perform exec with
    | some .breakLoop => return none
    | outcome => return outcome
  | returnWith _ value => do
    match value with
    | some text => return some (.returnWith (← Session.expand n text))
    | none => return some (.returnWith .null)
  | breakLoop _ => return some .breakLoop
  | assign _ name value rules => do
    match value with
    | some text => Session.setVar name (← Session.transform n rules [] (.str text))
    | none => modify fun s => { s with store := s.store.erase name }
    return none
  | print _ text rules => do
    Session.writeLine (← Session.transform n rules [] (.str text)).text
    return none
  | eval _ expr output => do
    let v ← Session.evaluate n expr
    match output with
    | some name => Session.setVar name v
    | none => pure ()
    return none
  | throw _ message => do
    let text ← Session.expand n message
    MonadExcept.throw (ScriptError.user text.text)
  | branch _ condition body otherwise => do
    if ← condition.test n then runAll exec body else runAll exec (otherwise.getD [])
  | forEach _ head body => forEachLoop exec n head body
  | repeatWhile _ condition maxCount body => whileLoop exec n condition maxCount body n 0
  | rowSet .. | sub .. => return none
  | call _ invocation => invocation.perform exec n
  | requestAbort _ => do
    modify Session.requestAbort
    return none
  | writeTrace _ => do
    Session.writeLine (← get).stack.trace
    return none
  | writeFound _ id => do
    Session.writeLine (foundText (← get).stack id)
    return none

/-- Executes an action in at most `n` steps. -/
def execute : Nat → Executor
  | 0, _ => Run.unfinished
  | n + 1, a => do
    Session.checkAbort
    Session.withFrame .executing a (perform (execute n) n a)

/-- Executes actions with more variables, which are put back at the end. -/
def executeWithVars (n : Nat) (body : List Action) (overlay : List (String × Value))
    (namePrefix : String) : Run Session Outcome :=
  Session.withVars overlay namePrefix (runAll (execute n) body)

end Action

end ActionTree
