import ActionTree.Expr
import ActionTree.Notation.Token

/-!
The grammar of expressions. From loose to tight: assignment, `?:`, `??`, `||`, `&&`, `|`, `^`, `&`,
equality, order, shift, sum, product, sign and cast, member access. Assignment, `?:` and `??` group to
the right, the others to the left. In an alternative of a multi-expression, a `|` outside of all
brackets ends the alternative.
-/

namespace ActionTree.Notation

/-- Reads from the front of the text that is left. -/
abbrev Parser := StateT (List Char) Read

namespace Parser

/-- The next token, which stays. -/
def peek : Parser Token := fun cs => (token cs).map fun r => (r.1, cs)

/-- The next token, which is passed. -/
def next : Parser Token := fun cs => token cs

/-- The text left from the next token on. -/
def here : Parser (List Char) := fun cs => .ok (skipSpace cs, cs)

def failAt {α : Type} (rest : List Char) (fault : SyntaxFault) : Parser α :=
  fun _ => faultAt rest fault

/-- The fault of a token that is not what the grammar asks for. -/
def unexpected {α : Type} (what : String) : Parser α := do
  let found ← peek
  failAt (← here) (.expected what found.describe)

/-- Passes the symbol if it is next. -/
def eat (s : Symbol) : Parser Bool := fun cs => do
  match ← token cs with
  | (.symbol t, rest) => return if s = t then (true, rest) else (false, cs)
  | _ => return (false, cs)

/-- Passes the symbol, which must be next. -/
def expect (s : Symbol) : Parser Unit := do
  if ← eat s then return () else unexpected ("'" ++ s.text ++ "'")

def expectName : Parser String := do
  match ← peek with
  | .ident name =>
    let _ ← next
    return name
  | _ => unexpected "a name"

def expectEnd : Parser Unit := do
  match ← peek with
  | .eof => return ()
  | _ => unexpected "end of expression"

/-- An operator that groups to the left. -/
inductive Connective where
  | or | and | binary (op : BinaryOp)
  deriving DecidableEq

def Connective.apply (l r : Expr) : Connective → Expr
  | or => .or l r
  | and => .and l r
  | binary op => .binary op l r

/-- The levels of operators that group to the left, from loose to tight. -/
def levels : List (List (Symbol × Connective)) :=
  [[(.orOr, .or)],
   [(.andAnd, .and)],
   [(.pipe, .binary .bitOr)],
   [(.caret, .binary .bitXor)],
   [(.amp, .binary .bitAnd)],
   [(.eqEq, .binary .eq), (.notEq, .binary .ne)],
   [(.lt, .binary .lt), (.le, .binary .le), (.gt, .binary .gt), (.ge, .binary .ge)],
   [(.shl, .binary .shl), (.shr, .binary .shr)],
   [(.plus, .binary .add), (.minus, .binary .sub)],
   [(.star, .binary .mul), (.slash, .binary .div), (.percent, .binary .rem)]]

/-- The operator of a level that is next, passed. -/
def connective? (ops : List (Symbol × Connective)) : Parser (Option Connective) := fun cs => do
  match ← token cs with
  | (.symbol s, rest) =>
    match ops.lookup s with
    | some c => return (some c, rest)
    | none => return (none, cs)
  | _ => return (none, cs)

/-- More operands of a level, at most `n`, joined to `left`. -/
def joined (ops : List (Symbol × Connective)) (operand : Parser Expr) :
    Nat → Expr → Parser Expr
  | 0, left => return left
  | n + 1, left => do
    match ← connective? ops with
    | some c => joined ops operand n (c.apply left (← operand))
    | none => return left

/-- Operands joined by the operators of the levels. No more operands follow than characters. -/
def leveled (operand : Parser Expr) : List (List (Symbol × Connective)) → Parser Expr
  | [] => operand
  | ops :: tighter => do
    let left ← leveled operand tighter
    joined ops (leveled operand tighter) (← get).length left

/-- The levels in force; a bar that ends an alternative joins nothing. -/
def levelsFor (barEnds : Bool) : List (List (Symbol × Connective)) :=
  if barEnds then levels.filter fun ops => (ops.lookup .pipe).isNone else levels

/-- The places in the grammar that are entered again from inside. -/
inductive Entry where
  | assignment | ternary | coalesce | unary

/-- What is entered again, after something has been passed. `true` where a bar ends the text. -/
abbrev Again := Entry → Bool → Parser Expr

/-- A name with dots. `n` bounds the parts that follow. -/
def typeNameRest : Nat → String → Parser String
  | 0, name => return name
  | n + 1, name => do
    if ← eat .dot then typeNameRest n (name ++ "." ++ (← expectName)) else return name

def typeName : Parser String := do
  let name ← expectName
  typeNameRest (← get).length name

/-- Items with commas between them, up to the closing symbol, which is passed. -/
def itemsRest (again : Again) (close : Symbol) : Nat → Parser (List Expr)
  | 0 => unexpected "an operand"
  | n + 1 => do
    let e ← again .assignment false
    if ← eat .comma then return e :: (← itemsRest again close n)
    expect close
    return [e]

def items (again : Again) (close : Symbol) : Parser (List Expr) := do
  if ← eat close then return [] else itemsRest again close ((← get).length + 1)

def arguments (again : Again) : Parser (List Expr) := do
  expect .lParen
  items again .rParen

/-- What follows `new`: an array with its items, or a type and a length. -/
def newArray (again : Again) : Parser Expr := do
  let element ← match ← peek with
    | .symbol .lBracket => pure none
    | .ident _ => some <$> typeName
    | _ => unexpected "an array type after 'new'"
  expect .lBracket
  if ← eat .rBracket then
    expect .lBrace
    return .array element (← items again .rBrace)
  match element with
  | none => unexpected "']' in 'new[]'"
  | some type =>
    let length ← again .assignment false
    expect .rBracket
    return .newArray type length

/-- What a name at the start of an operand is: a word of the language, a call, a member of a type or a
variable. -/
def named (again : Again) (name : String) : Parser Expr := do
  match name with
  | "true" => return .literal (.bool true)
  | "false" => return .literal (.bool false)
  | "null" => return .literal .null
  | "new" => newArray again
  | name =>
    match ← peek with
    | .symbol .lParen => return .call name (← arguments again)
    | .symbol .dot =>
      let _ ← next
      let member ← expectName
      match ← peek with
      | .symbol .lParen => return .staticCall name member (← arguments again)
      | _ => return .property name member
    | _ => return .var name

/-- An operand that is a literal or starts with a name, from `start` on. -/
def word (again : Again) (start : List Char) : Parser Expr := do
  match ← next with
  | .number v => return .literal v
  | .string s => return .literal (.str s)
  | .var name => return .var name
  | .ident name => named again name
  | _ => failAt start .unexpectedToken

/-- An operand without what may follow it. -/
def primary (again : Again) : Parser Expr := do
  let start ← here
  match ← peek with
  | .symbol .lParen =>
    let _ ← next
    let e ← again .assignment false
    expect .rParen
    return e
  | .symbol .lBrace =>
    let _ ← next
    return .array none (← items again .rBrace)
  | .number _ | .string _ | .var _ | .ident _ => word again start
  | _ => unexpected "an operand"

/-- A member of an expression; below a variable it lengthens the path. -/
def memberOf (e : Expr) (name : String) : Expr :=
  match e with
  | .var head => .path head [name]
  | .path head members => .path head (members ++ [name])
  | e => .member e name

/-- Members, calls and positions after an operand, at most `n`. -/
def suffixes (again : Again) : Nat → Expr → Parser Expr
  | 0, e => return e
  | n + 1, e => do
    if ← eat .dot then
      let name ← expectName
      match ← peek with
      | .symbol .lParen => suffixes again n (.method e name (← arguments again))
      | _ => suffixes again n (memberOf e name)
    else if ← eat .lBracket then
      let position ← again .assignment false
      expect .rBracket
      suffixes again n (.index e position)
    else return e

def operand (again : Again) : Parser Expr := do
  let e ← primary again
  suffixes again (← get).length e

/-- Can the token start the operand of a cast? A sign can only after a built-in type. -/
def startsCastOperand (isKeyword : Bool) : Token → Bool
  | .number _ | .string _ | .var _ | .ident _ => true
  | .symbol s => s ∈ [.lParen, .lBrace, .bang, .tilde] || (isKeyword && s ∈ [.minus, .plus])
  | .eof => false

/-- The type and brackets of a cast after its opening parenthesis, with the parenthesis that closes
it; `none` if this is no cast. -/
def castType? : Parser (Option (String × Bool)) := do
  match ← peek with
  | .ident _ =>
    let type ← typeName
    let bracket ← eat .lBracket
    let isArray ← if bracket then eat .rBracket else pure false
    if bracket && !isArray then return none
    if ← eat .rParen then return some (type, isArray)
    if isArray then unexpected "')' after array cast type"
    return none
  | _ => return none

/-- A cast, or `none` with nothing passed if the parenthesis opens none. -/
def cast? (again : Again) (barEnds : Bool) : Parser (Option Expr) := do
  let start ← get
  let _ ← next
  match ← castType? with
  | none =>
    set start
    return none
  | some (type, isArray) =>
    let isKeyword := isArray || (ValueType.builtin? type).isSome
    if startsCastOperand isKeyword (← peek) then
      return some (.cast type isArray (← again .unary barEnds))
    if isKeyword then unexpected s!"an operand for the cast to '{type}'"
    set start
    return none

def unaryOp? : Symbol → Option UnaryOp
  | .bang => some .not
  | .minus => some .neg
  | .plus => some .plus
  | .tilde => some .bitNot
  | _ => none

def unary (again : Again) (barEnds : Bool) : Parser Expr := do
  match ← peek with
  | .symbol .lParen =>
    match ← cast? again barEnds with
    | some e => return e
    | none => operand again
  | .symbol s =>
    match unaryOp? s with
    | some op =>
      let _ ← next
      return .unary op (← again .unary barEnds)
    | none => operand again
  | _ => operand again

def coalesce (again : Again) (barEnds : Bool) : Parser Expr := do
  let l ← leveled (unary again barEnds) (levelsFor barEnds)
  if ← eat .questionQuestion then return .coalesce l (← again .coalesce barEnds) else return l

def ternary (again : Again) (barEnds : Bool) : Parser Expr := do
  let c ← coalesce again barEnds
  if ← eat .question then
    let t ← again .ternary false
    expect .colon
    return .ternary c t (← again .ternary barEnds)
  else return c

/-- The operator of an assignment; the plain one has none. -/
def assignOp? : Token → Option (Option BinaryOp)
  | .symbol .assign => some none
  | .symbol .plusAssign => some (some .add)
  | .symbol .minusAssign => some (some .sub)
  | .symbol .starAssign => some (some .mul)
  | .symbol .slashAssign => some (some .div)
  | _ => none

/-- The variable that an expression names as the target of an assignment. -/
def target? : Expr → Option String
  | .var name => some name
  | .path head members => some (".".intercalate (head :: members))
  | _ => none

def assignment (again : Again) (barEnds : Bool) : Parser Expr := do
  let start ← here
  let l ← ternary again barEnds
  match assignOp? (← peek) with
  | none => return l
  | some op =>
    match target? l with
    | none => failAt start .assignmentTarget
    | some name =>
      let _ ← next
      return .assign name op (← again .assignment barEnds)

/-- The grammar entered at a place, at most `n` deep. Every entry from inside has passed a character,
so the number of characters is deep enough. -/
def enter : Nat → Again
  | 0, _, _ => unexpected "an operand"
  | n + 1, .assignment, barEnds => assignment (enter n) barEnds
  | n + 1, .ternary, barEnds => ternary (enter n) barEnds
  | n + 1, .coalesce, barEnds => coalesce (enter n) barEnds
  | n + 1, .unary, barEnds => unary (enter n) barEnds

/-- An expression at the front of the text. -/
def expression (barEnds : Bool) : Parser Expr := do
  enter ((← get).length + 1) .assignment barEnds

end Parser

/-- An expression that takes up the whole text. -/
def parseExpr (text : String) : Except SyntaxError Expr :=
  let whole : Parser Expr := do
    let e ← Parser.expression false
    Parser.expectEnd
    return e
  match whole text.toList with
  | .ok (e, _) => .ok e
  | .error fault => .error (fault.inText text)

end ActionTree.Notation
