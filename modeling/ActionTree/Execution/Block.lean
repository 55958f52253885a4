import ActionTree.Execution.Basic

/-!
Blocks. The plain items come first, and a signal or an error of theirs leaves the block. Then the
attempt runs; its faults go to the handlers; and the cleanup comes last, whatever happened.
-/

namespace ActionTree.SectionsOf

/-- Runs the handlers for a fault; without handlers, and for an error that is no fault, the error
stands. -/
def handle (exec : Executor) (handlers : Option (List Action)) (e : ScriptError) :
    Run Session Outcome := do
  match handlers, e.fault? with
  | some items, some fault =>
    let identity ← Session.freshIdentity
    Session.withException ⟨identity, fault, e.trace⟩ (runAll exec items)
  | _, _ => throw e

/-- Runs the attempt, and the handlers if it fails. -/
def attempted (exec : Executor) (s : SectionsOf Action) : Run Session Outcome :=
  match s.attempt with
  | none => return none
  | some items => tryCatch (runAll exec items) (handle exec s.handlers)

/-- Runs the cleanup after the body. A signal or an error of the cleanup takes the place of what the
body ended with. -/
def cleanedUp (exec : Executor) (cleanup : Option (List Action)) (body : Run Session Outcome) :
    Run Session Outcome :=
  match cleanup with
  | none => body
  | some items => fun s =>
    (body s).bind fun (resolved, s) => (runAll exec items s).map fun (last, s) =>
      match last with
      | .ok none => (resolved, s)
      | last => (last, s)

def perform (exec : Executor) (s : SectionsOf Action) : Run Session Outcome := do
  match ← runAll exec s.items with
  | some signal => return some signal
  | none => cleanedUp exec s.cleanup (attempted exec s)

end ActionTree.SectionsOf
