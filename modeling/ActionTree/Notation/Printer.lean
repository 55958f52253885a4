import ActionTree.Notation.Parser

/-!
How expressions are written. An expression is written as a list of tokens, with parentheses only where
an operand binds less tightly than its place asks for, and tokens are spelled with blanks between them
where that reads well.
-/

namespace ActionTree

namespace Notation

/-! ### Spelling -/

/-- The letters after an integer that give it its type. -/
def integerSuffix : IntKind → List Char
  | .uint => ['U']
  | .long => ['L']
  | .ulong => ['U', 'L']
  | _ => []

/-- A character between single quotes. -/
def quotedChar (c : Char) : List Char := if c = '\'' ∨ c = '\\' then ['\\', c] else [c]

/-- How a token is written. -/
def Token.spelling : Token → List Char
  | number (.int i) => (toString i.val).toList ++ integerSuffix i.kind
  | number v => v.text.toList
  | string s => '\'' :: s.toList.flatMap quotedChar ++ ['\'']
  | ident name => name.toList
  | var name => '$' :: name.toList
  | symbol s => s.text.toList
  | eof => []

/-- A literal or a name. -/
def Token.isWord : Token → Bool
  | number _ | string _ | ident _ | var _ => true
  | _ => false

def Token.opens : Token → Bool
  | symbol .lParen | symbol .lBracket | symbol .lBrace => true
  | _ => false

def Token.closes : Token → Bool
  | symbol .rParen | symbol .rBracket | symbol .rBrace => true
  | _ => false

/-- Are the tokens written without a blank between them? -/
def adjacent (t u : Token) : Bool :=
  t.opens || u.closes || match t, u with
    | _, .symbol .comma => true
    | .symbol .dot, .ident _ => true
    | .symbol .bang, u | .symbol .tilde, u => u.isWord || u.opens
    | t, .symbol .dot => t.isWord || t.closes
    | t, u => (t.isWord || t.closes) && u.opens

/-- The text of tokens in a row. -/
def spell : List Token → List Char
  | [] => []
  | [t] => t.spelling
  | t :: u :: rest => t.spelling ++ (if adjacent t u then [] else [' ']) ++ spell (u :: rest)

/-! ### Levels

How tightly expressions bind, from loose to tight: assignment, `?:`, `??`, the ten levels of operators that
group to the left, sign and cast, and what needs no parentheses anywhere. -/

/-- The level of an operator that groups to the left. -/
def Parser.Connective.level : Connective → Nat
  | or => 3
  | and => 4
  | binary .bitOr => 5
  | binary .bitXor => 6
  | binary .bitAnd => 7
  | binary .eq | binary .ne => 8
  | binary .lt | binary .le | binary .gt | binary .ge => 9
  | binary .shl | binary .shr => 10
  | binary .add | binary .sub => 11
  | binary .mul | binary .div | binary .rem => 12

def Parser.Connective.symbol : Connective → Symbol
  | or => .orOr
  | and => .andAnd
  | binary .bitOr => .pipe
  | binary .bitXor => .caret
  | binary .bitAnd => .amp
  | binary .eq => .eqEq
  | binary .ne => .notEq
  | binary .lt => .lt
  | binary .le => .le
  | binary .gt => .gt
  | binary .ge => .ge
  | binary .shl => .shl
  | binary .shr => .shr
  | binary .add => .plus
  | binary .sub => .minus
  | binary .mul => .star
  | binary .div => .slash
  | binary .rem => .percent

def unarySymbol : UnaryOp → Symbol
  | .not => .bang
  | .neg => .minus
  | .plus => .plus
  | .bitNot => .tilde

/-- The symbol of an assignment; only the first four operators have one. -/
def assignSymbol : Option BinaryOp → Symbol
  | some .add => .plusAssign
  | some .sub => .minusAssign
  | some .mul => .starAssign
  | some .div => .slashAssign
  | _ => .assign

end Notation

open Notation Notation.Parser

/-- The level of an expression. -/
def Expr.level : Expr → Nat
  | assign .. => 0
  | ternary .. => 1
  | coalesce .. => 2
  | or .. => Connective.or.level
  | and .. => Connective.and.level
  | binary op .. => (Connective.binary op).level
  | unary .. | cast .. => 13
  | _ => 14

/-- Is it a sign or another operator before its operand? -/
def Expr.isUnary : Expr → Bool
  | unary .. => true
  | _ => false

namespace Notation

/-! ### Tokens of expressions -/

/-- The parts of a name between its dots. -/
def nameParts : List Char → List (List Char)
  | [] => [[]]
  | '.' :: rest => [] :: nameParts rest
  | c :: rest => match nameParts rest with
    | part :: parts => (c :: part) :: parts
    | [] => [[c]]

/-- Names with dots before them. -/
def dotted (names : List String) : List Token := names.flatMap fun n => [.symbol .dot, .ident n]

/-- A name with dots in it, the first part written as given. -/
def dottedName (first : String → Token) (name : String) : List Token :=
  match (nameParts name.toList).map String.ofList with
  | head :: parts => first head :: dotted parts
  | [] => []

def parenthesized (tokens : List Token) : List Token :=
  .symbol .lParen :: tokens ++ [.symbol .rParen]

/-- Parentheses around an expression that binds less tightly than its place asks for. -/
def enclosed (level : Nat) (e : Expr) (tokens : List Token) : List Token :=
  if e.level < level then parenthesized tokens else tokens

/-- The level that a cast asks of its operand; a sign is put in parentheses. -/
def castLevel (e : Expr) : Nat := if e.isUnary then 14 else 13

/-- Items with commas between them. -/
def separated : List (List Token) → List Token
  | [] => []
  | [item] => item
  | item :: rest => item ++ .symbol .comma :: separated rest

def literalToken : Value → Token
  | .null => .ident "null"
  | .bool b => .ident (if b then "true" else "false")
  | .str s => .string s
  | v => .number v

/-- Two operands of an operator; operators of one level group to the left. -/
def infixTokens (c : Connective) (l : Expr) (left : List Token) (r : Expr) (right : List Token) :
    List Token :=
  enclosed c.level l left ++ .symbol c.symbol :: enclosed (c.level + 1) r right

end Notation

mutual

/-- How an expression is written, as tokens. -/
def Expr.tokens : Expr → List Token
  | .literal v => [literalToken v]
  | .var name => [.var name]
  | .path head members => .var head :: dotted members
  | .assign name op e => dottedName .var name ++ .symbol (assignSymbol op) :: e.tokens
  | .unary op e => .symbol (unarySymbol op) :: enclosed 13 e e.tokens
  | .binary op l r => infixTokens (.binary op) l l.tokens r r.tokens
  | .and l r => infixTokens .and l l.tokens r r.tokens
  | .or l r => infixTokens .or l l.tokens r r.tokens
  | .coalesce l r => enclosed 3 l l.tokens ++ .symbol .questionQuestion :: enclosed 2 r r.tokens
  | .ternary c t e => enclosed 2 c c.tokens ++ .symbol .question :: enclosed 1 t t.tokens ++
    .symbol .colon :: enclosed 1 e e.tokens
  | .cast type isArray e => .symbol .lParen :: dottedName .ident type ++
    (if isArray then [.symbol .lBracket, .symbol .rBracket] else []) ++
    .symbol .rParen :: enclosed (castLevel e) e e.tokens
  | .index target position => enclosed 14 target target.tokens ++ .symbol .lBracket ::
    position.tokens ++ [.symbol .rBracket]
  | .member target name => enclosed 14 target target.tokens ++ dotted [name]
  | .method target name args => enclosed 14 target target.tokens ++ dotted [name] ++
    parenthesized (separated (Expr.tokenLists args))
  | .call name args => .ident name :: parenthesized (separated (Expr.tokenLists args))
  | .property type name => .ident type :: dotted [name]
  | .staticCall type name args => .ident type :: dotted [name] ++
    parenthesized (separated (Expr.tokenLists args))
  | .array element items =>
    (match element with
      | some type => .ident "new" :: dottedName .ident type ++ [.symbol .lBracket, .symbol .rBracket]
      | none => []) ++
    .symbol .lBrace :: separated (Expr.tokenLists items) ++ [.symbol .rBrace]
  | .newArray element length => .ident "new" :: dottedName .ident element ++ .symbol .lBracket ::
    length.tokens ++ [.symbol .rBracket]
  | .multi _ => []

def Expr.tokenLists : List Expr → List (List Token)
  | [] => []
  | e :: rest => e.tokens :: Expr.tokenLists rest

end

/-- The text of an expression. Multi-expressions have a notation of their own. -/
def Expr.print (e : Expr) : String := String.ofList (spell e.tokens)

/-! ### Multi-expressions -/

/-- The text of an alternative. A member of a type needs no parentheses as the last expression, and could
be taken for a type in them. -/
def Segment.print : Segment → String
  | .name s => s
  | .empty => ""
  | .expr e => "(" ++ e.print ++ ")"
  | .fallback (.property type member) => "=" ++ (Expr.property type member).print
  | .fallback e => "=(" ++ e.print ++ ")"

/-- The text of alternatives. -/
def Segment.printAll (segments : List Segment) : String :=
  " | ".intercalate (segments.map Segment.print)

end ActionTree
