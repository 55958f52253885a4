import ActionTree.Action.Tree

/-!
The frames that are open, one for each action under way, and what can be found from them.
-/

namespace ActionTree

/-- What is being done with the action of a frame. -/
inductive Phase where
  | loading | initializing | compiling | parsingArguments | executing
  deriving DecidableEq

namespace Phase

def name : Phase → String
  | loading => "Loading"
  | initializing => "Initializing"
  | compiling => "Compiling"
  | parsingArguments => "ParsingArguments"
  | executing => "Executing"

/-- All phases in order. -/
def all : List Phase := [loading, initializing, compiling, parsingArguments, executing]

/-- The phase of that name. -/
def ofName? (name : String) : Option Phase := all.find? fun p => p.name == name

end Phase

structure Frame where
  phase : Phase
  action : Action

def Frame.text (f : Frame) : String :=
  let action := f.action.describe
  let phase := f.phase.name
  s!"   at {action} ({phase})"

/-- The open frames, the innermost first. -/
abbrev CallStack := List Frame

namespace CallStack

def push (s : CallStack) (phase : Phase) (action : Action) : CallStack := ⟨phase, action⟩ :: s

def pop (s : CallStack) : CallStack := s.tail

def depth (s : CallStack) : Nat := s.length

def top? (s : CallStack) : Option Frame := s.head?

/-- The stack with another phase for its innermost frame. -/
def setPhase (s : CallStack) (phase : Phase) : CallStack :=
  match s with
  | [] => []
  | f :: rest => { f with phase } :: rest

/-- One line for each frame, the innermost first. -/
def trace (s : CallStack) : String := "\n".intercalate (s.map Frame.text)

/-- The first node with the id that `accept` takes, from the innermost frame outwards: the action of a
frame, then the nodes directly below it. -/
def find? (s : CallStack) (id : String) (accept : Action → Bool) : Option Action :=
  (s.flatMap fun f => f.action :: f.action.children).find? fun a => a.hasId id && accept a

/-- The first node with the id that `accept` takes in the tree of the outermost frame, level by
level. -/
def findTree? (s : CallStack) (id : String) (accept : Action → Bool) : Option Action :=
  s.getLast?.bind fun root =>
    root.action.breadthFirst.find? fun a => a.hasId id && accept a

/-- The nearest node with the id: from the frames, else in the whole tree. -/
def nearest? (s : CallStack) (id : String) (accept : Action → Bool) : Option Action :=
  (s.find? id accept).or (s.findTree? id accept)

end CallStack

end ActionTree
