import ActionTree.Notation.Parser

/-!
The notation of multi-expressions: alternatives with bars between them. An alternative is a variable
name, an expression that starts with `$` or `(`, nothing, or `=` and a last expression.
-/

namespace ActionTree.Notation

namespace Parser

/-- An expression that a bar ends; the text is left at the token after it. -/
def segmentExpr : Parser Expr := do
  let e ← expression true
  modify skipSpace
  return e

/-- Is the alternative at its end? -/
def endsSegment (terminators : List Char) : Char → Bool :=
  fun c => c == '|' || terminators.contains c

/-- The name of a variable up to a bar or a terminator, without the blanks that end it. -/
def segmentName (terminators : List Char) : Parser String := fun cs =>
  let inside := fun c => !endsSegment terminators c
  .ok (String.ofList (Text.dropWhileEnd Text.isBlank (cs.takeWhile inside)), cs.dropWhile inside)

def skipBlanks : Parser Unit := modify fun cs => cs.dropWhile Text.isBlank

/-- Alternatives, at most `n`. -/
def segments (terminators : List Char) : Nat → Parser (List Segment)
  | 0 => return []
  | n + 1 => do
    skipBlanks
    let segment ← match ← get with
      | '=' :: rest =>
        set rest
        return [.fallback (← segmentExpr)]
      | '$' :: _ | '(' :: _ => .expr <$> segmentExpr
      | [] => pure .empty
      | c :: _ =>
        if endsSegment terminators c then pure .empty
        else .name <$> segmentName terminators
    skipBlanks
    match ← get with
    | '|' :: rest =>
      set rest
      return segment :: (← segments terminators n)
    | _ => return [segment]

/-- A multi-expression up to one of the terminators, which stays, or to the end. -/
def multiExpr (terminators : List Char) : Parser Expr := do
  return .multi (← segments terminators ((← get).length + 1))

end Parser

/-- A multi-expression that takes up the whole text. -/
def parseMulti (text : String) : Except SyntaxError Expr :=
  let whole : Parser Expr := do
    let e ← Parser.multiExpr []
    match ← Parser.here with
    | [] => return e
    | c :: rest => Parser.failAt (c :: rest) (.trailing c)
  match whole text.toList with
  | .ok (e, _) => .ok e
  | .error fault => .error (fault.inText text)

end ActionTree.Notation
