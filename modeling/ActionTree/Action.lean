import ActionTree.Condition
import ActionTree.Config
import ActionTree.Transform

/-!
Action trees. A node may be found by its id, and one node may stand at several places of a tree: two
nodes are one if they have the same identity.
-/

namespace ActionTree

/-- Who a node is and what it is found by. -/
structure Label where
  identity : Nat
  id : Option String := none
  deriving DecidableEq

/-- The parts of a block. -/
structure SectionsOf (α : Type) where
  items : List α
  attempt : Option (List α) := none
  handlers : Option (List α) := none
  cleanup : Option (List α) := none

/-- What a loop runs over. -/
inductive LoopSource where
  /-- The rows of the node with that id. -/
  | rows (id : String)
  /-- The elements of the value that a text expands to. -/
  | value (text : String)
  deriving DecidableEq

/-- The head of a loop over rows or values. -/
structure LoopHead where
  source : LoopSource
  /-- The variable for an element of a value. -/
  variableName : String := "item"
  /-- Put before the names of all variables of the loop. -/
  namePrefix : String := ""
  maxCount : Option Nat := none
  deriving DecidableEq

/-- A table; cells that a row lacks are null. -/
structure RowTable where
  id : String
  columns : List String
  rows : List (List Value)

structure Parameter where
  name : String
  /-- Expanded by the caller if there is no argument. -/
  default : Option String := none
  required : Bool := false
  deriving DecidableEq

/-- The head of a sub. -/
structure Signature where
  id : String
  parameters : List Parameter
  deriving DecidableEq

structure Argument where
  name : Option String := none
  /-- Expanded by the caller. -/
  value : String
  deriving DecidableEq

structure Invocation where
  sub : String
  arguments : List Argument := []
  /-- If there is none, the one of the configuration. -/
  isolation : Option CallIsolation := none
  /-- The variable that receives the result. -/
  output : Option String := none
  deriving DecidableEq

inductive Action where
  | sequence (label : Label) (items : List Action)
  | block (label : Label) (sections : SectionsOf Action) (allowOrphans : Bool)
  | script (label : Label) (sections : SectionsOf Action)
  | returnWith (identity : Nat) (value : Option String)
  | breakLoop (identity : Nat)
  /-- Sets a variable, or removes it if there is no text. -/
  | assign (identity : Nat) (name : String) (value : Option String) (rules : TransformRules)
  | print (identity : Nat) (text : String) (rules : TransformRules)
  | eval (identity : Nat) (expr : String) (output : Option String)
  | throw (identity : Nat) (message : String)
  | branch (label : Label) (condition : Condition) (body : List Action)
      (otherwise : Option (List Action))
  | forEach (label : Label) (head : LoopHead) (body : List Action)
  | repeatWhile (label : Label) (condition : Condition) (maxCount : Option Nat)
      (body : List Action)
  | rowSet (identity : Nat) (table : RowTable)
  | sub (identity : Nat) (signature : Signature) (body : List Action)
  | call (label : Label) (invocation : Invocation)
  /-- Asks for an abort and goes on. -/
  | requestAbort (identity : Nat)
  /-- Writes the open frames. -/
  | writeTrace (identity : Nat)
  /-- Writes what an id is found to be. -/
  | writeFound (identity : Nat) (id : String)

namespace Action

def label : Action → Label
  | sequence l _ | block l _ _ | script l _ | branch l _ _ _ | forEach l _ _
  | repeatWhile l _ _ _ | call l _ => l
  | rowSet i table => ⟨i, some table.id⟩
  | sub i signature _ => ⟨i, some signature.id⟩
  | returnWith i _ | breakLoop i | assign i _ _ _ | print i _ _ | eval i _ _ | throw i _
  | requestAbort i | writeTrace i | writeFound i _ => ⟨i, none⟩

def identity (a : Action) : Nat := a.label.identity

def id? (a : Action) : Option String := a.label.id

/-- Is this the node's id, case apart? -/
def hasId (a : Action) (id : String) : Bool := a.id?.any fun own => Text.sameAscii own id

def kind : Action → String
  | sequence .. => "Sequence"
  | block .. => "Block"
  | script .. => "Script"
  | returnWith .. => "Return"
  | breakLoop .. => "Break"
  | assign .. => "Set"
  | print .. => "Print"
  | eval .. => "Eval"
  | throw .. => "Throw"
  | branch .. => "If"
  | forEach .. => "ForEach"
  | repeatWhile .. => "While"
  | rowSet .. => "RowSet"
  | sub .. => "Sub"
  | call .. => "Call"
  | requestAbort .. => "Abort"
  | writeTrace .. => "Trace"
  | writeFound .. => "Find"

/-- How traces and messages name the node. -/
def describe (a : Action) : String :=
  match a.id? with
  | some id => a.kind ++ s!" '{id}'"
  | none => a.kind

def isSub : Action → Bool
  | sub .. => true
  | _ => false

end Action

/-- All parts of a block in the order in which they are written. -/
def SectionsOf.all {α : Type} (s : SectionsOf α) : List α :=
  s.items ++ s.attempt.getD [] ++ s.handlers.getD [] ++ s.cleanup.getD []

/-- The nodes directly below a node. -/
def Action.children : Action → List Action
  | sequence _ items => items
  | block _ sections _ | script _ sections => sections.all
  | branch _ _ body otherwise => body ++ otherwise.getD []
  | forEach _ _ body | repeatWhile _ _ _ body | sub _ _ body => body
  | _ => []

end ActionTree
