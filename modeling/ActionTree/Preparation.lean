import ActionTree.Execution

/-!
What is done with a tree before it runs: its shape is checked, and its expressions are read so that
mistakes in them show early.
-/

namespace ActionTree

/-- A block with handlers or cleanup has an attempt. -/
def SectionsOf.hasOrphans {α : Type} (s : SectionsOf α) : Bool :=
  (s.handlers.isSome || s.cleanup.isSome) && s.attempt.isNone

/-- The first name that is the same as one before it. -/
def firstRepeated? (seen : List String) : List String → Option String
  | [] => none
  | name :: rest =>
    if seen.contains (Store.key name) then some name
    else firstRepeated? (Store.key name :: seen) rest

namespace Action

/-- The fault of handlers without an attempt; it speaks of a block, be it that of a script or not. -/
def orphans (label : Label) (sections : SectionsOf Action) : Except SyntaxError Unit :=
  .error ⟨.orphanHandlers (block label sections false).describe, 0, none⟩

/-- Checks the shape of a node. -/
def validate (a : Action) : Except SyntaxError Unit :=
  match a with
  | block label sections allowOrphans =>
    if sections.hasOrphans && !allowOrphans then orphans label sections else .ok ()
  | script label sections =>
    if sections.hasOrphans then orphans label sections else .ok ()
  | sub _ sig _ =>
    match firstRepeated? [] (sig.parameters.map Parameter.name) with
    | some name => .error ⟨.duplicateParameter a.describe name, 0, none⟩
    | none => .ok ()
  | _ => .ok ()

/-- Checks the tree, a node before the ones below it. -/
def check (a : Action) : Run Session Unit :=
  Session.withFrame .initializing a do
    Run.ofSyntax a.validate
    a.children.attach.forM fun c => check c.1
termination_by sizeOf a
decreasing_by exact sizeOf_lt_of_mem_children c.2

/-- The expressions that a node is bound to evaluate. -/
def expressions : Action → List String
  | eval _ expr _ => [expr]
  | branch _ condition _ _ | repeatWhile _ condition _ _ =>
    (condition.probes.filter fun p => p.1 = .holds).map Prod.snd
  | _ => []

/-- Reads the expressions of a node. -/
def compileNode (a : Action) : Run Session Unit :=
  Session.withFrame .compiling a do
    a.expressions.forM fun text => do
      let _ ← Session.parse .single text

/-- Reads the expressions of the tree level by level. -/
def compile (root : Action) : Run Session Unit := root.breadthFirst.forM compileNode

/-- Checks and compiles a tree, once. -/
def prepare (root : Action) : Run Session Unit := do
  if (← get).prepared.contains root.identity then return
  root.check
  root.compile
  modify fun s => { s with prepared := root.identity :: s.prepared }

/-- Prepares and executes a tree, and gives its result. -/
def run (n : Nat) (root : Action) : Run Session Value := do
  root.prepare
  return (← root.execute n).result

end Action

end ActionTree
