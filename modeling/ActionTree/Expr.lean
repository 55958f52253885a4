import ActionTree.Operator

/-!
Expressions and multi-expressions. A multi-expression is a list of alternatives; its value is that of
the first one that has any.
-/

namespace ActionTree

mutual

inductive Expr where
  | literal (v : Value)
  | var (name : String)
  /-- A variable and members below it, `$a.b.c`. -/
  | path (head : String) (members : List String)
  /-- An assignment; with an operator, to the variable's value and the new one. -/
  | assign (name : String) (op : Option BinaryOp) (e : Expr)
  | unary (op : UnaryOp) (e : Expr)
  | binary (op : BinaryOp) (l r : Expr)
  | and (l r : Expr)
  | or (l r : Expr)
  | coalesce (l r : Expr)
  | ternary (c t e : Expr)
  | cast (type : String) (isArray : Bool) (e : Expr)
  | index (target position : Expr)
  | member (target : Expr) (name : String)
  | method (target : Expr) (name : String) (args : List Expr)
  | call (name : String) (args : List Expr)
  | property (type name : String)
  | staticCall (type name : String) (args : List Expr)
  | array (element : Option String) (items : List Expr)
  | newArray (element : String) (length : Expr)
  | multi (segments : List Segment)

/-- One alternative of a multi-expression. -/
inductive Segment where
  | name (name : String)
  | expr (e : Expr)
  | empty
  | fallback (e : Expr)

end

instance : Inhabited Expr := ⟨.literal .null⟩

end ActionTree
