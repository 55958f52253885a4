import ActionTree.Evaluation.Machine
import ActionTree.Notation.Multi

/-!
Expansion of markers in a text. What a marker encloses is a multi-expression; its value takes the place
of the marker and is not searched again. A text that is one marker has the value itself, with its type.
-/

namespace ActionTree

inductive Marker where
  /-- `$` and one brace. -/
  | brace
  /-- `$` and two braces. -/
  | doubleBrace
  | square
  | doubleSquare
  deriving DecidableEq

namespace Marker

def opening : Marker → List Char
  | brace => ['$', '\x7b']
  | doubleBrace => ['$', '\x7b', '\x7b']
  | square => ['[']
  | doubleSquare => ['[', '[']

/-- The bracket that ends an alternative inside of the marker. -/
def terminator : Marker → Char
  | brace | doubleBrace => '\x7d'
  | square | doubleSquare => ']'

def closing : Marker → List Char
  | brace => ['\x7d']
  | doubleBrace => ['\x7d', '\x7d']
  | square => [']']
  | doubleSquare => [']', ']']

/-- One more of this after the opening makes the opening plain text. -/
def escape : Marker → Char
  | brace | doubleBrace => '\x7b'
  | square | doubleSquare => '['

/-- The one with the longer opening. -/
def longer (a : Option Marker) (b : Marker) : Option Marker :=
  match a with
  | some m => if b.opening.length < m.opening.length then some m else some b
  | none => some b

/-- The marker that opens here; of several, the one with the longest opening. -/
def opens? (markers : List Marker) (cs : List Char) : Option Marker :=
  (markers.filter fun m => m.opening.isPrefixOf cs).foldl longer none

/-- What a marker encloses, and the text after it. `cs` follows the opening. -/
def body (m : Marker) (cs : List Char) : Notation.Read (Expr × List Char) := do
  let (e, rest) ← Notation.Parser.multiExpr [m.terminator] cs
  let rest := Notation.skipSpace rest
  if m.closing.isPrefixOf rest then return (e, rest.drop m.closing.length)
  else Notation.faultAt rest (.unclosedMarker (String.ofList m.closing))

end Marker

/-- Plain text, or an expression whose value stands in its place. -/
inductive Piece where
  | plain (cs : List Char)
  | marker (e : Expr)

namespace Piece

/-- The piece at the front of a text that is not empty, and the text after it. -/
def front (markers : List Marker) (c : Char) (rest : List Char) :
    Notation.Read (Piece × List Char) :=
  match Marker.opens? markers (c :: rest) with
  | none => .ok (plain [c], rest)
  | some m =>
    let inside := (c :: rest).drop m.opening.length
    if inside.head? = some m.escape then .ok (plain m.opening, inside.drop 1)
    else (m.body inside).map fun (e, rest) => (marker e, rest)

def value {σ : Type} (env : Environment σ) : Piece → Run σ Value
  | plain cs => return .ofChars cs
  | marker e => e.evaluate env

end Piece

namespace Expansion

variable {σ : Type} (env : Environment σ) (markers : List Marker)

/-- The first piece of what is left of `text`. -/
def next (text : String) (c : Char) (rest : List Char) : Run σ (Piece × List Char) :=
  Run.ofSyntax ((Piece.front markers c rest).mapError fun fault => fault.inText text)

/-- What is left of `text`, with every marker replaced by its value's text. Every piece takes a
character, so as many pieces as characters are enough. -/
def pieces (text : String) : Nat → List Char → Run σ String
  | n + 1, c :: rest => do
    let (piece, rest) ← next markers text c rest
    let v ← piece.value env
    return v.text ++ (← pieces text n rest)
  | _, _ => return ""

/-- The text with its markers expanded, from left to right. -/
def expand (text : String) : Run σ Value := do
  match text.toList with
  | [] => return .str ""
  | c :: rest =>
    let (piece, rest) ← next markers text c rest
    let v ← piece.value env
    if rest.isEmpty then return v
    else return .str (v.text ++ (← pieces env markers text rest.length rest))

end Expansion

end ActionTree
