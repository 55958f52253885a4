import ActionTree.Number.Numeral

/-!
The lines `key = value` of a TOML document, with a truth value, an integer or a text as the value. Tables,
arrays, dates and fractions have no place in a flat list of settings and are refused.
-/

namespace ActionTree.Toml

inductive Scalar where
  | bool (b : Bool)
  | int (n : Int)
  | str (s : String)
  deriving DecidableEq

/-- Reads something from the front of a text; `none` if it is not there. -/
abbrev Reader := StateT (List Char) Option

namespace Reader

def isSpace (c : Char) : Bool := c == ' ' || c == '\t'

def skipSpaces : Reader Unit := modify fun cs => cs.dropWhile isSpace

/-- The longest front of characters of a class. -/
def run (p : Char → Bool) : Reader (List Char) := fun cs =>
  some (cs.takeWhile p, cs.dropWhile p)

/-- Passes the word if it is next. -/
def eat (word : List Char) : Reader Bool := fun cs =>
  some (if word.isPrefixOf cs then (true, cs.drop word.length) else (false, cs))

def expect (word : List Char) : Reader Unit := do
  if !(← eat word) then failure

def refuse {α : Type} : Reader α := failure

/-- Control characters other than the tab have no place in a line. -/
def isLineChar (c : Char) : Bool := c == '\t' || (32 ≤ c.toNat && c.toNat != 127)

/-- Passes a comment, if there is one. -/
def skipComment : Reader Unit := fun cs =>
  match cs with
  | '#' :: rest => some ((), rest.dropWhile isLineChar)
  | cs => some ((), cs)

/-- The end of a line, or of the text. -/
def lineEnd : Reader Unit := fun cs =>
  match cs with
  | [] => some ((), [])
  | '\n' :: rest => some ((), rest)
  | '\r' :: '\n' :: rest => some ((), rest)
  | _ => none

/-- The character that so many hexadecimal digits denote. -/
def codePoint? (width : Nat) (cs : List Char) : Option (Char × List Char) :=
  let digits := cs.take width
  if digits.length = width ∧ digits.all (fun c => (Numeral.digit? 16 c).isSome) then
    (Numeral.nat? 16 digits).bind fun n =>
      if n.isValidChar then some (Char.ofNat n, cs.drop width) else none
  else none

/-- The character of an escape, after the backslash. -/
def escaped? : List Char → Option (Char × List Char)
  | 'b' :: rest => some ('\x08', rest)
  | 't' :: rest => some ('\t', rest)
  | 'n' :: rest => some ('\n', rest)
  | 'f' :: rest => some ('\x0c', rest)
  | 'r' :: rest => some ('\r', rest)
  | '"' :: rest => some ('"', rest)
  | '\\' :: rest => some ('\\', rest)
  | 'u' :: rest => codePoint? 4 rest
  | 'U' :: rest => codePoint? 8 rest
  | _ => none

/-- What a quoted text holds up to its closing quote, at most `n` characters. -/
def basicText : Nat → List Char → Option (List Char × List Char)
  | _, '"' :: rest => some ([], rest)
  | n + 1, '\\' :: rest => do
    let (c, rest) ← escaped? rest
    let (cs, rest) ← basicText n rest
    return (c :: cs, rest)
  | n + 1, c :: rest => do
    if !isLineChar c then none
    let (cs, rest) ← basicText n rest
    return (c :: cs, rest)
  | _, _ => none

/-- Text in double quotes, with escapes, or in single quotes, without. -/
def text : Reader String := fun cs =>
  match cs with
  | '"' :: rest => (basicText rest.length rest).map fun (s, rest) => (String.ofList s, rest)
  | '\'' :: rest =>
    let s := rest.takeWhile fun c => isLineChar c && c != '\''
    match rest.drop s.length with
    | '\'' :: rest => some (String.ofList s, rest)
    | _ => none
  | _ => none

def isBareKeyChar (c : Char) : Bool := c.isAlphanum || c == '_' || c == '-'

def key : Reader String := do
  let bare ← run isBareKeyChar
  if bare.isEmpty then text else return String.ofList bare

/-- Digits with single underscores between them; `none` if an underscore stands elsewhere. -/
def digitGroups (isDigit : Char → Bool) : List Char → Option (List Char)
  | [c] => if isDigit c then some [c] else none
  | c :: '_' :: rest => if isDigit c then (digitGroups isDigit rest).map (c :: ·) else none
  | c :: rest => if isDigit c then (digitGroups isDigit rest).map (c :: ·) else none
  | [] => none

/-- The whole number that the digits denote, if they are digits. -/
def number? (radix : Nat) (cs : List Char) : Option Nat := do
  let digits ← digitGroups (fun c => (Numeral.digit? radix c).isSome) cs
  Numeral.nat? radix digits

/-- A decimal number has no zero in front. -/
def decimal? (cs : List Char) : Option Nat :=
  match cs with
  | '0' :: _ :: _ => none
  | cs => number? 10 cs

/-- The integer that a word denotes. Only a decimal one may have a sign. -/
def integer? (word : List Char) : Option Int :=
  match word with
  | '0' :: 'x' :: digits => (number? 16 digits).map Int.ofNat
  | '0' :: 'o' :: digits => (number? 8 digits).map Int.ofNat
  | '0' :: 'b' :: digits => (number? 2 digits).map Int.ofNat
  | '-' :: digits => (decimal? digits).map fun n => -(n : Int)
  | '+' :: digits => (decimal? digits).map Int.ofNat
  | digits => (decimal? digits).map Int.ofNat

/-- The value of a word: a truth value or an integer of 64 bits. -/
def word? (word : List Char) : Option Scalar :=
  if word = "true".toList then some (.bool true)
  else if word = "false".toList then some (.bool false)
  else (integer? word).bind fun n =>
    if -(twoTo 63 : Int) ≤ n ∧ n < (twoTo 63 : Int) then some (.int n) else none

def isWordChar (c : Char) : Bool := isBareKeyChar c || c == '+'

def scalar : Reader Scalar := do
  let word ← run isWordChar
  if word.isEmpty then return .str (← text)
  match word? word with
  | some v => return v
  | none => refuse

def setting : Reader (String × Scalar) := do
  let k ← key
  skipSpaces
  expect ['=']
  skipSpaces
  return (k, ← scalar)

/-- A line, with its setting if it has one. -/
def line : Reader (Option (String × Scalar)) := do
  skipSpaces
  let blank := match ← get with
    | [] => true
    | c :: _ => c == '#' || c == '\n' || c == '\r'
  let s ← if blank then pure none else some <$> setting
  skipSpaces
  skipComment
  lineEnd
  return s

/-- At most `n` lines, up to the end. -/
def lines : Nat → Reader (List (String × Scalar))
  | 0 => return []
  | n + 1 => do
    if (← get).isEmpty then return []
    let s ← line
    return s.toList ++ (← lines n)

end Reader

/-- The settings of a document in order; a byte order mark may stand in front. -/
def settings? (text : String) : Option (List (String × Scalar)) :=
  let cs := match text.toList with
    | c :: rest => if c.toNat = 0xFEFF then rest else c :: rest
    | [] => []
  (Reader.lines cs.length cs).map Prod.fst

end ActionTree.Toml
