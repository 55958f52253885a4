import ActionTree.Notation.Token

/-!
A lexer that may look at the next token before it passes it. A token that was looked at is kept, with the
text from its start on.
-/

namespace ActionTree.Notation

structure Lexer where
  /-- The text behind all tokens that were passed or looked at. -/
  left : List Char
  /-- The token that was only looked at, and the text from its start on. -/
  ahead : Option (Token × List Char)
  /-- The text from the start of the token on that was passed last. -/
  last : List Char
  token_ahead : ∀ t start, ahead = some (t, start) → token start = .ok (t, left)

namespace Lexer

/-- A lexer at the front of a text. -/
def ofChars (cs : List Char) : Lexer where
  left := cs
  ahead := none
  last := cs
  token_ahead := nofun

/-- The text from the next token on. -/
def offset (l : Lexer) : List Char × Lexer :=
  match l.ahead with
  | some (_, start) => (start, l)
  | none => (skipSpace l.left, { ofChars (skipSpace l.left) with last := l.last })

/-- Looks at the next token, if it was not looked at. -/
def look (l : Lexer) : Read Lexer :=
  match l.ahead with
  | some _ => .ok l
  | none =>
    let start := l.offset.1
    match htoken : token start with
    | .error e => .error e
    | .ok (t, rest) => .ok
      { left := rest
        ahead := some (t, start)
        last := l.last
        token_ahead := by
          rintro _ _ ⟨⟩
          exact htoken }

/-- The next token, which stays. -/
def peek (l : Lexer) : Read (Token × Lexer) := do
  let l ← l.look
  match l.ahead with
  | some (t, _) => return (t, l)
  | none => faultAt l.left .lostLookahead

/-- The next token, which is passed. -/
def next (l : Lexer) : Read (Token × Lexer) :=
  match l.ahead with
  | some (t, start) => .ok (t, { ofChars l.left with last := start })
  | none =>
    let start := l.offset.1
    (token start).map fun r => (r.1, { ofChars r.2 with last := start })

/-- Passes the next token if it is a wanted one. -/
def passIf (wanted : Token → Bool) (l : Lexer) : Read (Bool × Lexer) := do
  let (t, l) ← l.peek
  return if wanted t then (true, { ofChars l.left with last := l.last }) else (false, l)

/-- Passes the symbol if it is next. -/
def eat (s : Symbol) (l : Lexer) : Read (Bool × Lexer) :=
  l.passIf fun
    | .symbol t => s = t
    | _ => false

/-- The text for others to go on with: a token that was only looked at is part of it. -/
def finish (l : Lexer) : List Char :=
  match l.ahead with
  | some (_, start) => start
  | none => l.left

end Lexer

end ActionTree.Notation
