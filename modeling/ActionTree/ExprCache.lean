import ActionTree.Notation.Multi

/-!
Expressions that were read before, by their texts. When the cache is full it is emptied before the next
expression goes in.
-/

namespace ActionTree

/-- How a text is read. -/
inductive ExprKind where
  | single | multi
  deriving DecidableEq

def ExprKind.parse (text : String) : ExprKind → Except SyntaxError Expr
  | single => Notation.parseExpr text
  | multi => Notation.parseMulti text

structure ExprCache where
  capacity : Nat
  entries : List ((ExprKind × String) × Expr)

namespace ExprCache

def ofCapacity (capacity : Nat) : ExprCache := ⟨capacity, []⟩

def size (c : ExprCache) : Nat := c.entries.length

def find? (c : ExprCache) (kind : ExprKind) (text : String) : Option Expr :=
  c.entries.lookup (kind, text)

def clear (c : ExprCache) : ExprCache := { c with entries := [] }

/-- Keeps an expression; a cache without capacity keeps none. -/
def insert (c : ExprCache) (kind : ExprKind) (text : String) (e : Expr) : ExprCache :=
  if c.capacity = 0 then c
  else
    let kept := if c.capacity ≤ c.size then [] else c.entries
    { c with entries := ((kind, text), e) :: kept }

/-- The expression that a text denotes, and the cache after reading it. -/
def parse (c : ExprCache) (kind : ExprKind) (text : String) : Except SyntaxError Expr × ExprCache :=
  match c.find? kind text with
  | some e => (.ok e, c)
  | none => match kind.parse text with
    | .ok e => (.ok e, c.insert kind text e)
    | .error fault => (.error fault, c)

end ExprCache

end ActionTree
