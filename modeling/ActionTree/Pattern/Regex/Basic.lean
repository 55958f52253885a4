import ActionTree.Text.Case
import ActionTree.Text.Category

/-!
Regular expressions: sets of characters, assertions about a position, groups and repetition.
-/

namespace ActionTree.Regex

inductive CharSet where
  | ranges (rs : List (Nat × Nat))
  /-- The characters of a class. -/
  | ofClass (p : Char → Bool)
  /-- The characters that differ in case only from one in the set. -/
  | folded (s : CharSet)
  /-- As `folded`, for the letters of ASCII only. -/
  | asciiFolded (s : CharSet)
  | complement (s : CharSet)
  | union (s t : CharSet)
  | intersection (s t : CharSet)
  | difference (s t : CharSet)
  | symmetricDifference (s t : CharSet)

namespace CharSet

def single (c : Char) : CharSet := ranges [(c.toNat, c.toNat)]

def everything : CharSet := ranges [(0, 0x10ffff)]

def nothing : CharSet := ranges []

/-- The preimages of a code point under runs of small letters. -/
def capitalsOf (n : Nat) : List Char :=
  Text.lowerRuns.filterMap fun r =>
    let m := ((n : Int) - r.shift).toNat
    if r.first ≤ m ∧ m ≤ r.last ∧ (m - r.first) % r.stride = 0 ∧ (m : Int) + r.shift = n then
      some (Char.ofNat m)
    else none

/-- All characters that differ from `c` in case only, `c` included. -/
def caseVariants (c : Char) : List Char :=
  let base := Text.foldChar c
  let ascii := if base.isLower then [base.toUpper] else []
  let exceptions := Text.foldExceptions.filterMap fun e =>
    if e.2 = base.toNat then some (Char.ofNat e.1) else none
  c :: base :: ascii ++ exceptions ++ capitalsOf base.toNat

/-- Is the character in the set? -/
def has : CharSet → Char → Bool
  | ranges rs, c => Text.inRanges rs c
  | ofClass p, c => p c
  | folded s, c => (caseVariants c).any s.has
  | asciiFolded s, c => s.has c || s.has c.toLower || s.has c.toUpper
  | complement s, c => !s.has c
  | union s t, c => s.has c || t.has c
  | intersection s t, c => s.has c && t.has c
  | difference s t, c => s.has c && !t.has c
  | symmetricDifference s t, c => s.has c != t.has c

end CharSet

/-- What may be asked about a position and the words around it. -/
inductive WordEdge where
  | boundary
  | noBoundary
  | start
  | finish
  | startHalf
  | finishHalf
  deriving DecidableEq

/-- Does the edge lie between two characters, given which of them belong to words? -/
def WordEdge.holds (before after : Bool) : WordEdge → Bool
  | boundary => before != after
  | noBoundary => before == after
  | start => !before && after
  | finish => before && !after
  | startHalf => !before
  | finishHalf => !after

def isAsciiWordChar (c : Char) : Bool := c.isAlphanum || c == '_'

/-- What may be asked about a position in the text. -/
inductive Assertion where
  | textStart
  | textEnd
  | lineStart
  | lineEnd
  | lineStartCrlf
  | lineEndCrlf
  /-- An edge of words, which may be made of ASCII characters only. -/
  | word (ascii : Bool) (e : WordEdge)
  deriving DecidableEq

/-- Does the assertion hold between the characters `before` and `after`? -/
def Assertion.holds (before after : Option Char) : Assertion → Bool
  | textStart => before.isNone
  | textEnd => after.isNone
  | lineStart => before.isNone || before == some '\n'
  | lineEnd => after.isNone || after == some '\n'
  | lineStartCrlf =>
    before.isNone || before == some '\n' || (before == some '\r' && after != some '\n')
  | lineEndCrlf =>
    after.isNone || after == some '\r' || (after == some '\n' && before != some '\r')
  | word ascii e =>
    let isWord (c : Char) : Bool := if ascii then isAsciiWordChar c else Text.isWordChar c
    e.holds (before.any isWord) (after.any isWord)

end ActionTree.Regex

namespace ActionTree

/-- A regular expression. -/
inductive Regex where
  | empty
  | oneOf (s : Regex.CharSet)
  | assert (a : Regex.Assertion)
  | group (index : Nat) (r : Regex)
  | sequence (r s : Regex)
  | either (r s : Regex)
  | repetition (r : Regex) (least : Nat) (most : Option Nat) (greedy : Bool)

end ActionTree
