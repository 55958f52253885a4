import ActionTree.Session.Lookup
import ActionTree.Session.Scope

/-!
How actions end, running them one after another, and the tests of conditions.
-/

namespace ActionTree

/-- What an action tells the ones around it. -/
inductive Signal where
  /-- Leave the nearest loop. -/
  | breakLoop
  /-- Leave the nearest sub or script with a result. -/
  | returnWith (v : Value)

/-- `none` goes on with the next action. -/
abbrev Outcome := Option Signal

/-- The result of a body that may have been left with one. -/
def Outcome.result : Outcome → Value
  | some (.returnWith v) => v
  | _ => .null

/-- How the actions below an action are executed. -/
abbrev Executor := Action → Run Session Outcome

/-- Executes the actions in order, up to the first signal. -/
def runAll (exec : Executor) : List Action → Run Session Outcome
  | [] => return none
  | a :: rest => do
    match ← exec a with
    | some signal => return some signal
    | none => runAll exec rest

/-- Makes one test. All but the last kind of test look at what the text expands to. -/
def Probe.test (n : Nat) (probe : Probe) (text : String) : Run Session Bool := do
  let v ← if probe = .holds then Session.evaluate n text else Session.expand n text
  match probe with
  | isSet => Session.isSet n v.text
  | isNotSet => return !(← Session.isSet n v.text)
  | isNull => return v.isNull
  | isNotNull => return !v.isNull
  | isZero => return (← Run.ofConversion (Convert.asFloat v)) == 0
  | isNotZero => return (← Run.ofConversion (Convert.asFloat v)) != 0
  | isTrue => Run.ofConversion (Convert.asBool v)
  | isFalse => return !(← Run.ofConversion (Convert.asBool v))
  | isEmpty => return v.text.isEmpty
  | isNotEmpty => return !v.text.isEmpty
  | isFile => return (← get).surroundings.isFile v.text
  | isNotFile => return !(← get).surroundings.isFile v.text
  | isDirectory => return (← get).surroundings.isDirectory v.text
  | isNotDirectory => return !(← get).surroundings.isDirectory v.text
  | holds => return v.isTruthy

namespace Condition

/-- Makes the tests in order, up to the first that decides; `undecided` is the answer if none does. -/
def testAll (n : Nat) (all undecided : Bool) : List (Probe × String) → Run Session Bool
  | [] => return undecided
  | (probe, text) :: rest => do
    let hit ← probe.test n text
    if hit = all then testAll n all undecided rest else return hit

/-- Does the condition hold? One without tests does. -/
def test (n : Nat) (c : Condition) : Run Session Bool :=
  testAll n c.all (c.all || c.probes.isEmpty) c.probes

end Condition

end ActionTree
