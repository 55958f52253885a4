import ActionTree.Notation.Literal
import ActionTree.Text.Letter

/-!
Tokens of expressions. A token is read from the front of the text that is left, after blanks and
comments.
-/

namespace ActionTree.Notation

inductive Symbol where
  | plus | minus | star | slash | percent | bang | tilde | amp | pipe | caret | shl | shr
  | eqEq | notEq | lt | le | gt | ge
  | andAnd | orOr | question | questionQuestion | colon
  | assign | plusAssign | minusAssign | starAssign | slashAssign
  | lParen | rParen | lBrace | rBrace | lBracket | rBracket | comma | dot
  deriving DecidableEq

def Symbol.text : Symbol → String
  | plus => "+"
  | minus => "-"
  | star => "*"
  | slash => "/"
  | percent => "%"
  | bang => "!"
  | tilde => "~"
  | amp => "&"
  | pipe => "|"
  | caret => "^"
  | shl => "<<"
  | shr => ">>"
  | eqEq => "=="
  | notEq => "!="
  | lt => "<"
  | le => "<="
  | gt => ">"
  | ge => ">="
  | andAnd => "&&"
  | orOr => "||"
  | question => "?"
  | questionQuestion => "??"
  | colon => ":"
  | assign => "="
  | plusAssign => "+="
  | minusAssign => "-="
  | starAssign => "*="
  | slashAssign => "/="
  | lParen => "("
  | rParen => ")"
  | lBrace => "\x7b"
  | rBrace => "\x7d"
  | lBracket => "["
  | rBracket => "]"
  | comma => ","
  | dot => "."

/-- The symbol at the front of a text, the longest one, and what follows it. -/
def symbol? : List Char → Option (Symbol × List Char)
  | '+' :: '=' :: rest => some (.plusAssign, rest)
  | '+' :: rest => some (.plus, rest)
  | '-' :: '=' :: rest => some (.minusAssign, rest)
  | '-' :: rest => some (.minus, rest)
  | '*' :: '=' :: rest => some (.starAssign, rest)
  | '*' :: rest => some (.star, rest)
  | '/' :: '=' :: rest => some (.slashAssign, rest)
  | '/' :: rest => some (.slash, rest)
  | '%' :: rest => some (.percent, rest)
  | '~' :: rest => some (.tilde, rest)
  | '^' :: rest => some (.caret, rest)
  | '!' :: '=' :: rest => some (.notEq, rest)
  | '!' :: rest => some (.bang, rest)
  | '=' :: '=' :: rest => some (.eqEq, rest)
  | '=' :: rest => some (.assign, rest)
  | '&' :: '&' :: rest => some (.andAnd, rest)
  | '&' :: rest => some (.amp, rest)
  | '|' :: '|' :: rest => some (.orOr, rest)
  | '|' :: rest => some (.pipe, rest)
  | '?' :: '?' :: rest => some (.questionQuestion, rest)
  | '?' :: rest => some (.question, rest)
  | ':' :: rest => some (.colon, rest)
  | '<' :: '<' :: rest => some (.shl, rest)
  | '<' :: '=' :: rest => some (.le, rest)
  | '<' :: rest => some (.lt, rest)
  | '>' :: '>' :: rest => some (.shr, rest)
  | '>' :: '=' :: rest => some (.ge, rest)
  | '>' :: rest => some (.gt, rest)
  | '(' :: rest => some (.lParen, rest)
  | ')' :: rest => some (.rParen, rest)
  | '\x7b' :: rest => some (.lBrace, rest)
  | '\x7d' :: rest => some (.rBrace, rest)
  | '[' :: rest => some (.lBracket, rest)
  | ']' :: rest => some (.rBracket, rest)
  | ',' :: rest => some (.comma, rest)
  | '.' :: rest => some (.dot, rest)
  | _ => none

inductive Token where
  | number (v : Value)
  | string (s : String)
  | ident (name : String)
  | var (name : String)
  | symbol (s : Symbol)
  | eof

/-- How a token is named in a fault. -/
def Token.describe : Token → String
  | number v => "number " ++ v.text
  | string s => s!"string '{s}'"
  | ident name => s!"'{name}'"
  | var name => s!"'${name}'"
  | symbol s => "'" ++ s.text ++ "'"
  | eof => "end of expression"

def isNameStart (c : Char) : Bool := Text.isAlphabetic c || c == '_'

def isNameChar (c : Char) : Bool := Text.isAlphanumeric c || c == '_'

/-- The character of a `\u` escape: four digits, or three after a plus sign. -/
def escapedChar? (digits : List Char) : Option Char :=
  let digits := match digits with
    | '+' :: digits => digits
    | digits => digits
  (Numeral.nat? 16 digits).bind fun n => if n.isValidChar then some (Char.ofNat n) else none

/-- What a letter after a backslash stands for. -/
def simpleEscape : Char → Char
  | 'n' => '\n'
  | 'r' => '\r'
  | 't' => '\t'
  | '0' => Char.ofNat 0
  | c => c

/-- The characters of a string up to its closing quote, and what follows. `opening` characters were
left where the string starts. -/
def stringBody (opening : Nat) (quote : Char) : List Char → Read (List Char × List Char)
  | [] => .error ⟨.unterminatedString, opening⟩
  | '\\' :: 'u' :: a :: b :: c :: d :: rest =>
    match escapedChar? [a, b, c, d] with
    | some x => (stringBody opening quote rest).map fun r => (x :: r.1, r.2)
    | none => .error ⟨.badEscape, rest.length + 4⟩
  | '\\' :: 'u' :: digits =>
    match escapedChar? digits with
    | some _ => .error ⟨.unterminatedString, opening⟩
    | none => .error ⟨.badEscape, digits.length⟩
  | '\\' :: c :: rest => (stringBody opening quote rest).map fun r => (simpleEscape c :: r.1, r.2)
  | c :: rest =>
    if c = quote then .ok ([], rest)
    else if c = '\\' then .error ⟨.unterminatedString, opening⟩
    else (stringBody opening quote rest).map fun r => (c :: r.1, r.2)

/-- Does a number start here? -/
def startsNumber : List Char → Bool
  | '.' :: c :: _ => c.isDigit
  | c :: _ => c.isDigit
  | [] => false

/-- The name at the front of a text, and what follows it. -/
def name (cs : List Char) : String × List Char :=
  (String.ofList (cs.takeWhile isNameChar), cs.dropWhile isNameChar)

/-- The token at the front of a text that starts with no blank, and what follows it. -/
def tokenHere (cs : List Char) : Read (Token × List Char) :=
  match cs with
  | [] => .ok (.eof, [])
  | c :: rest =>
    if startsNumber cs then
      (number cs).bind fun
        | some (v, rest) => .ok (.number v, rest)
        | none => faultAt cs .noNumber
    else if isNameStart c then .ok (.ident (name cs).1, (name cs).2)
    else if c = '\'' ∨ c = '"' then
      (stringBody cs.length c rest).map fun r => (.string (String.ofList r.1), r.2)
    else if c = '$' then
      if rest.head?.any isNameStart then .ok (.var (name rest).1, (name rest).2)
      else faultAt cs .missingVariableName
    else match symbol? cs with
      | some (s, rest) => .ok (.symbol s, rest)
      | none => faultAt cs (.unexpectedCharacter c)

/-- The next token, and what follows it. -/
def token (cs : List Char) : Read (Token × List Char) := tokenHere (skipSpace cs)

end ActionTree.Notation
