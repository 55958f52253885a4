import ActionTree.Number.Numeral
import ActionTree.Pattern.Regex.Property

/-!
The notation of regular expressions. A text that is none has no parse; what is wrong with it is not
told.
-/

namespace ActionTree.Regex

/-- The switches that `(?…)` sets. -/
structure Flags where
  ignoreCase : Bool
  multiLine : Bool := false
  dotAll : Bool := true
  swapGreed : Bool := false
  unicode : Bool := true
  verbose : Bool := false
  crlf : Bool := false

structure ParserState where
  rest : List Char
  flags : Flags
  groups : Nat := 0
  names : List (String × Nat) := []

abbrev Parser := StateT ParserState Option

namespace Parser

def reject {α : Type} : Parser α := fun _ => none

def peek : Parser (Option Char) := fun s => some (s.rest.head?, s)

def lookingAt (text : String) : Parser Bool := fun s => some (text.toList.isPrefixOf s.rest, s)

def skip (n : Nat) : Parser Unit := modify fun s => { s with rest := s.rest.drop n }

def flags : Parser Flags := return (← get).flags

/-- The next character; there must be one. -/
def next : Parser Char := do
  match (← get).rest with
  | [] => reject
  | c :: rest =>
    modify fun s => { s with rest }
    return c

/-- Passes the text if it is next. -/
def eat (text : String) : Parser Bool := do
  let yes ← lookingAt text
  if yes then skip text.toList.length
  return yes

/-- The characters up to a mark, which is passed as well. -/
def upTo (mark : Char) : Parser (List Char) := do
  let s ← get
  match s.rest.dropWhile (· != mark) with
  | [] => reject
  | _ :: rest =>
    set { s with rest }
    return s.rest.takeWhile (· != mark)

/-- The rest of a verbose pattern without its leading blanks and comments. -/
def withoutSpace : Nat → List Char → List Char
  | 0, cs => cs
  | _ + 1, [] => []
  | n + 1, c :: cs =>
    if Text.isBlank c then withoutSpace n cs
    else if c = '#' then withoutSpace n (cs.dropWhile (· != '\n'))
    else c :: cs

/-- Passes blanks and comments, where they do not count. -/
def skipSpace : Parser Unit := modify fun s =>
  if s.flags.verbose then { s with rest := withoutSpace s.rest.length s.rest } else s

/-- Passes blanks, which never count here. -/
def skipBlanks : Parser Unit := modify fun s => { s with rest := s.rest.dropWhile Text.isBlank }

/-- The next `n` characters that count. -/
def chars : Nat → Parser (List Char)
  | 0 => return []
  | n + 1 => do
    skipSpace
    let c ← next
    return c :: (← chars n)

/-- The characters that count up to a closing brace, which is passed as well. -/
def bracedFrom : Nat → Parser (List Char)
  | 0 => reject
  | n + 1 => do
    skipSpace
    match ← next with
    | '\x7d' => return []
    | c => return c :: (← bracedFrom n)

def braced : Parser (List Char) := do bracedFrom ((← get).rest.length + 1)

/-- What a backslash introduces. -/
inductive Escape where
  | literal (c : Char)
  | set (s : CharSet)
  | assertion (a : Assertion)

/-- A set under the case rule in force. -/
def fold (f : Flags) (s : CharSet) : CharSet :=
  if !f.ignoreCase then s else if f.unicode then .folded s else .asciiFolded s

/-- A set or what is outside of it, under the case rule in force. The case rule comes first: what is
left out is left out in every case. -/
def foldThenNegate (f : Flags) (negated : Bool) (s : CharSet) : CharSet :=
  if negated then .complement (fold f s) else fold f s

/-- The sets named by one letter after a backslash. -/
def letterSet (f : Flags) (c : Char) : Option CharSet :=
  let ascii (rs : List (Nat × Nat)) (s : CharSet) : CharSet := if f.unicode then s else .ranges rs
  let complement (s : CharSet) : Option CharSet := if f.unicode then some (.complement s) else none
  let digits := ascii [(48, 57)] (.ofClass Text.isDecimalDigit)
  let blanks := ascii [(9, 13), (32, 32)] (.ofClass Text.isBlank)
  let wordChars := ascii [(48, 57), (65, 90), (95, 95), (97, 122)] (.ofClass Text.isWordChar)
  match c with
  | 'd' => some digits
  | 's' => some blanks
  | 'w' => some wordChars
  | 'D' => complement digits
  | 'S' => complement blanks
  | 'W' => complement wordChars
  | _ => none

/-- The character with a hexadecimal code point. -/
def charOfHex? (digits : List Char) : Option Char :=
  (Numeral.nat? 16 digits).bind fun n => if n.isValidChar then some (Char.ofNat n) else none

/-- A code point in braces, or in exactly `width` digits. Two digits without braces stand for a byte,
which is no character by itself beyond ASCII where bytes are meant. -/
def hexEscape (width : Nat) : Parser Char := do
  skipSpace
  let inBraces ← eat "\x7b"
  let digits ← if inBraces then braced else chars width
  let f ← flags
  match charOfHex? digits with
  | some c => if !f.unicode && width == 2 && !inBraces && 127 < c.toNat then reject else return c
  | none => reject

/-- The set of a property: one letter, or a name in braces. -/
def propertyEscape (negated : Bool) : Parser CharSet := do
  skipSpace
  let name ← do
    if ← eat "\x7b" then braced else chars 1
  let f ← flags
  match Property.set? name with
  | some s => if f.unicode then return foldThenNegate f negated s else reject
  | none => reject

/-- The rest of a word boundary, which may say in braces which one is meant. -/
def boundary : Parser WordEdge := do
  let s ← get
  if ← eat "\x7b" then
    skipSpace
    match ← peek with
    | none => reject
    | some c =>
      if c.isAlpha || c == '-' then
        match String.ofList (← braced) with
        | "start" => return .start
        | "end" => return .finish
        | "start-half" => return .startHalf
        | "end-half" => return .finishHalf
        | _ => reject
    set s
  return .boundary

def escape : Parser Escape := do
  let c ← next
  let f ← flags
  match c with
  | 'x' => return .literal (← hexEscape 2)
  | 'u' => return .literal (← hexEscape 4)
  | 'U' => return .literal (← hexEscape 8)
  | 'p' => return .set (← propertyEscape false)
  | 'P' => return .set (← propertyEscape true)
  | 'a' => return .literal (Char.ofNat 7)
  | 'f' => return .literal (Char.ofNat 12)
  | 't' => return .literal '\t'
  | 'n' => return .literal '\n'
  | 'r' => return .literal '\r'
  | 'v' => return .literal (Char.ofNat 11)
  | 'A' => return .assertion .textStart
  | 'z' => return .assertion .textEnd
  | 'b' => return .assertion (.word (!f.unicode) (← boundary))
  | 'B' => return .assertion (.word (!f.unicode) .noBoundary)
  | '<' => return .assertion (.word (!f.unicode) .start)
  | '>' => return .assertion (.word (!f.unicode) .finish)
  | c =>
    if c ∈ ['d', 's', 'w', 'D', 'S', 'W'] then
      match letterSet f c with
      | some s => return .set s
      | none => reject
    else if c.isAlphanum ∨ 127 < c.toNat then reject
    else return .literal c

/-- The sets that may be named inside a class. -/
def asciiSets : List (String × List (Nat × Nat)) :=
  [("alnum", [(48, 57), (65, 90), (97, 122)]), ("alpha", [(65, 90), (97, 122)]),
   ("ascii", [(0, 127)]), ("blank", [(9, 9), (32, 32)]), ("cntrl", [(0, 31), (127, 127)]),
   ("digit", [(48, 57)]), ("graph", [(33, 126)]), ("lower", [(97, 122)]), ("print", [(32, 126)]),
   ("punct", [(33, 47), (58, 64), (91, 96), (123, 126)]), ("space", [(9, 13), (32, 32)]),
   ("upper", [(65, 90)]), ("word", [(48, 57), (65, 90), (95, 95), (97, 122)]),
   ("xdigit", [(48, 57), (65, 70), (97, 102)])]

/-- A named set such as `[:alpha:]`, if one is next. -/
def asciiSet? : Parser (Option CharSet) := do
  let f ← flags
  for (name, rs) in asciiSets do
    if ← eat ("[:" ++ name ++ ":]") then return some (fold f (.ranges rs))
    if ← eat ("[:^" ++ name ++ ":]") then
      if f.unicode then return some (foldThenNegate f true (.ranges rs)) else reject
  return none

/-- One end of a range in a class. -/
def classItem : Parser (Char ⊕ CharSet) := do
  let f ← flags
  let literal (c : Char) : Parser (Char ⊕ CharSet) :=
    if !f.unicode && 127 < c.toNat then reject else return .inl c
  match ← next with
  | '\\' => match ← escape with
    | .literal c => literal c
    | .set s => return .inr s
    | .assertion _ => reject
  | c => literal c

/-- Is a dash next that stands between the ends of a range? -/
def rangeDash : Parser Bool := fun s =>
  let past (cs : List Char) : List Char :=
    if s.flags.verbose then withoutSpace cs.length cs else cs
  let yes := match s.rest with
    | '-' :: rest => match past rest with
      | [] | ']' :: _ | '-' :: _ => false
      | _ => true
    | _ => false
  some (yes, s)

/-- A character, set or range in a class. -/
def classRange : Parser CharSet := do
  let first ← classItem
  skipSpace
  if ← rangeDash then
    skip 1
    skipSpace
    match first, ← classItem with
    | .inl low, .inl high =>
      if low ≤ high then return .ranges [(low.toNat, high.toNat)] else reject
    | _, _ => reject
  else match first with
    | .inl c => return .single c
    | .inr s => return s

/-- The operations on sets inside a class. -/
inductive SetOperation where
  | intersection | difference | symmetricDifference

def SetOperation.apply : Option (SetOperation × CharSet) → CharSet → CharSet
  | none, s => s
  | some (.intersection, t), s => .intersection t s
  | some (.difference, t), s => .difference t s
  | some (.symmetricDifference, t), s => .symmetricDifference t s

/-- The rest of a class after its opening: `left` waits for the right side of an operation, `union`
is what has been read since. -/
def classRest (f : Flags) (nested : Parser CharSet) (negated : Bool) :
    Nat → Option (SetOperation × CharSet) → CharSet → Parser CharSet
  | 0, _, _ => reject
  | n + 1, left, union => do
    skipSpace
    let operation (o : SetOperation) : Parser CharSet :=
      classRest f nested negated n (some (o, SetOperation.apply left (fold f union))) .nothing
    if ← eat "]" then
      let s := SetOperation.apply left (fold f union)
      return if negated then .complement s else s
    else if ← eat "&&" then operation .intersection
    else if ← eat "--" then operation .difference
    else if ← eat "~~" then operation .symmetricDifference
    else if ← lookingAt "[" then
      match ← asciiSet? with
      | some s => classRest f nested negated n left (.union union s)
      | none =>
        skip 1
        classRest f nested negated n left (.union union (← nested))
    else classRest f nested negated n left (.union union (← classRange))

/-- Dashes at the start of a class stand for themselves. -/
def leadingDashes : Nat → Parser Nat
  | 0 => return 0
  | n + 1 => do
    skipSpace
    if ← eat "-" then return (← leadingDashes n) + 1 else return 0

/-- A class after its opening bracket; `depth` bounds the classes inside classes. -/
def charClass : Nat → Parser CharSet
  | 0 => reject
  | depth + 1 => do
    let f ← flags
    skipSpace
    let negated ← eat "^"
    if negated && !f.unicode then reject
    let length := (← get).rest.length
    let dashes ← leadingDashes length
    let bracket ← if dashes = 0 then eat "]" else pure false
    let start := if 0 < dashes then .single '-' else if bracket then .single ']' else .nothing
    classRest f (charClass depth) negated (length + 1) none start

/-- Decimal digits up to something else. -/
def digitsFrom : Nat → Parser (List Char)
  | 0 => return []
  | n + 1 => do
    match ← peek with
    | some c =>
      if c.isDigit then
        skip 1
        skipSpace
        return c :: (← digitsFrom n)
      else return []
    | none => return []

/-- The number of times in a repetition. -/
def decimal : Parser Nat := do
  skipBlanks
  let digits ← digitsFrom (← get).rest.length
  skipBlanks
  match Numeral.nat? 10 digits with
  | some n => if n < twoTo 32 then return n else reject
  | none => reject

/-- The bounds of a repetition in braces. -/
def bounds : Parser (Nat × Option Nat) := do
  skipSpace
  let least ← decimal
  let range ← if ← eat "," then do
      skipSpace
      if ← lookingAt "\x7d" then pure (least, none)
      else do
        let most ← decimal
        if most < least then reject
        pure (least, some most)
    else pure (least, some least)
  if ← eat "\x7d" then
    skipSpace
    return range
  else reject

/-- The repetition operators after an item. -/
def repeated (f : Flags) : Nat → Regex → Parser Regex
  | 0, r => return r
  | n + 1, r => do
    skipSpace
    let range ← do
      if ← eat "*" then pure (some (0, none))
      else if ← eat "+" then pure (some (1, none))
      else if ← eat "?" then pure (some (0, some 1))
      else if ← eat "\x7b" then some <$> bounds
      else pure none
    match range with
    | none => return r
    | some (least, most) =>
      let lazy ← eat "?"
      repeated f n (.repetition r least most (lazy == f.swapGreed))

/-- Letters of flags up to a colon or a bracket; `on` is false after a minus. -/
def flagLetters (on : Bool) (seen : List Char) : Nat → Flags → Parser (Flags × Bool)
  | 0, _ => reject
  | n + 1, f => do
    let c ← next
    let again (f : Flags) : Parser (Flags × Bool) :=
      if c ∈ seen then reject else flagLetters on (c :: seen) n f
    match c with
    | ':' => if seen.head? = some '-' then reject else return (f, true)
    | ')' => if seen.isEmpty ∨ seen.head? = some '-' then reject else return (f, false)
    | '-' => if on then flagLetters false (c :: seen) n f else reject
    | 'i' => again { f with ignoreCase := on }
    | 'm' => again { f with multiLine := on }
    | 's' => again { f with dotAll := on }
    | 'U' => again { f with swapGreed := on }
    | 'u' => again { f with unicode := on }
    | 'x' => again { f with verbose := on }
    | 'R' => again { f with crlf := on }
    | _ => reject

/-- A fresh group, with its name if it has one. -/
def openGroup (name : Option (List Char)) : Parser Nat := do
  let s ← get
  let index := s.groups + 1
  match name with
  | none => set { s with groups := index }
  | some cs =>
    let good := match cs with
      | [] => false
      | c :: rest => (c == '_' || Text.isAlphabetic c) &&
        rest.all fun c => c == '_' || c == '.' || c == '[' || c == ']' || Text.isAlphanumeric c
    let name := String.ofList cs
    if !good || (s.names.lookup name).isSome then reject
    set { s with groups := index, names := (name, index) :: s.names }
  return index

/-- What stands inside the brackets of a group, whose flags end with it. -/
def inside (body : Parser Regex) (f : Flags) : Parser Regex := do
  let outer ← flags
  modify fun s => { s with flags := f }
  let r ← body
  modify fun s => { s with flags := outer }
  if ← eat ")" then return r else reject

/-- One item of a sequence; `none` for flags that are set for what follows. -/
def item (body : Parser Regex) (depth : Nat) : Parser (Option Regex) := do
  let f ← flags
  match ← next with
  | '(' =>
    skipSpace
    if (← lookingAt "?=") || (← lookingAt "?!") || (← lookingAt "?<=") || (← lookingAt "?<!") then
      reject
    let named ← do
      if ← eat "?P<" then pure true else eat "?<"
    if named then
      let index ← openGroup (some (← upTo '>'))
      return some (.group index (← inside body f))
    else if ← eat "?" then
      let (f', grouped) ← flagLetters true [] depth f
      if grouped then return some (← inside body f')
      modify fun s => { s with flags := f' }
      return none
    else
      let index ← openGroup none
      return some (.group index (← inside body f))
  | '[' => return some (.oneOf (← charClass depth))
  | '.' =>
    if !f.unicode then reject
    let newline := if f.crlf then [(10, 10), (13, 13)] else [(10, 10)]
    return some (.oneOf (if f.dotAll then .everything else .complement (.ranges newline)))
  | '^' =>
    return some (.assert (if !f.multiLine then .textStart
      else if f.crlf then .lineStartCrlf else .lineStart))
  | '$' =>
    return some (.assert (if !f.multiLine then .textEnd
      else if f.crlf then .lineEndCrlf else .lineEnd))
  | '\\' => match ← escape with
    | .literal c => return some (.oneOf (fold f (.single c)))
    | .set s => return some (.oneOf s)
    | .assertion a => return some (.assert a)
  | c =>
    if c ∈ ['*', '+', '?', '\x7b'] then reject
    else return some (.oneOf (fold f (.single c)))

/-- Items up to a bar, a closing bracket or the end. -/
def items (body : Parser Regex) : Nat → Parser Regex
  | 0 => return .empty
  | n + 1 => do
    skipSpace
    match ← peek with
    | none | some '|' | some ')' => return .empty
    | some _ =>
      match ← item body (n + 1) with
      | none =>
        skipSpace
        match ← peek with
        | some '*' | some '+' | some '?' | some '\x7b' => reject
        | _ => items body n
      | some r =>
        let r ← repeated (← flags) (n + 1) r
        return .sequence r (← items body n)

/-- Alternatives, each a sequence of items. -/
def alternatives (body : Parser Regex) : Nat → Parser Regex
  | 0 => return .empty
  | n + 1 => do
    let r ← items body (n + 1)
    if ← eat "|" then return .either r (← alternatives body n) else return r

/-- An expression whose groups are nested at most `depth` deep. -/
def expression : Nat → Parser Regex
  | 0 => reject
  | depth + 1 => do
    let length := (← get).rest.length
    alternatives (expression depth) (length + 1)

end Parser

/-- A regular expression with the names of its groups. -/
structure Parsed where
  regex : Regex
  groups : Nat
  names : List (String × Nat)

def parse? (ignoreCase : Bool) (source : String) : Option Parsed :=
  match Parser.expression 251 { rest := source.toList, flags := { ignoreCase } } with
  | some (r, s) => if s.rest.isEmpty then some ⟨r, s.groups, s.names⟩ else none
  | none => none

end ActionTree.Regex
