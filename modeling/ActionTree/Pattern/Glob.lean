import ActionTree.Error
import ActionTree.Text.Case
import ActionTree.Text.Quoted

/-!
Glob patterns, which match a whole text: `*` stands for any characters, `?` for one, `[…]` and
`[^…]` for one in or outside a class with ranges, and `\x` for `x` itself. A pattern is checked once, and
read while a text is matched.
-/

namespace ActionTree.Glob

/-- Checks what is left of a pattern, inside of a class or not: a backslash has a character after it, and
a class ends at a bracket. -/
def checkFrom (source : String) : (inClass : Bool) → List Char → Except PatternFault Unit
  | false, [] => .ok ()
  | true, [] => .error (.globUnclosedClass (Text.quoted source))
  | true, c :: rest => checkFrom source (c != ']') rest
  | false, ['\\'] => .error .globTrailingEscape
  | false, '\\' :: _ :: rest => checkFrom source false rest
  | false, c :: rest => checkFrom source (c == '[') rest

def check (source : String) : Except PatternFault Unit := checkFrom source false source.toList

/-- Equal, or equal in small letters if case does not matter. -/
def sameChar (ignoreCase : Bool) (a b : Char) : Bool :=
  a == b || (ignoreCase && Text.lowerChars a == Text.lowerChars b)

/-- Is the character in the range, or a small or capital form of it if case does not matter? -/
def inRange (ignoreCase : Bool) (low high c : Char) : Bool :=
  let within (x : Char) : Bool := low ≤ x && x ≤ high
  within c || (ignoreCase && ((Text.lowerChars c).any within || (Text.upperChars c).any within))

/-- Whether the character is in a class, and how many characters the class has up to its bracket. A
minus makes a range of the characters around it, if the second is not the bracket. -/
def scanClass (ignoreCase : Bool) (c : Char) : List Char → Bool × Nat
  | [] => (false, 0)
  | first :: rest =>
    if first = ']' then (false, 0)
    else
      let single (scanned : Bool × Nat) : Bool × Nat :=
        (sameChar ignoreCase first c || scanned.1, scanned.2 + 1)
      match rest with
      | '-' :: high :: rest =>
        if high = ']' then single (scanClass ignoreCase c ('-' :: high :: rest))
        else
          let scanned := scanClass ignoreCase c rest
          (inRange ignoreCase first high c || scanned.1, scanned.2 + 3)
      | rest => single (scanClass ignoreCase c rest)

/-- How many characters of the pattern its first element takes, if that stands for the character. A class
takes one character after those in it, the bracket. -/
def matchOne (ignoreCase : Bool) (c : Char) : List Char → Option Nat
  | [] => none
  | '?' :: _ => some 1
  | '\\' :: d :: _ => if sameChar ignoreCase d c then some 2 else none
  | '[' :: '^' :: rest =>
    let (found, n) := scanClass ignoreCase c rest
    if found then none else some (n + 3)
  | '[' :: rest =>
    let (found, n) := scanClass ignoreCase c rest
    if found then some (n + 2) else none
  | d :: _ => if sameChar ignoreCase d c then some 1 else none

/-- The last star that was passed: the position after it, and what was left of the text when matching went
on from there. Since then no more than `left` remains of that. -/
structure LastStar (left : List Char) where
  position : Nat
  text : List Char
  length_le : left.length ≤ text.length

/-- The same star, one character of the text later. -/
def LastStar.later {c : Char} {rest : List Char} (s : LastStar (c :: rest)) : LastStar rest where
  position := s.position
  text := s.text
  length_le := Nat.le_of_succ_le s.length_le

/-- How much of the text a star can still go back over, which is more than all that is left if there is
no star yet. -/
def LastStar.reach {left : List Char} (star : Option (LastStar left)) : Nat :=
  star.elim (left.length + 1) (·.text.length)

/-- Matches the pattern from a position on with what is left of the text. Where that fails, the last star
takes one character more; the ones before it are not tried again. `none` if the position at the end is
not one of the pattern. -/
def matchFrom? (ignoreCase : Bool) (pattern : List Char) (position : Nat) :
    (text : List Char) → Option (LastStar text) → Option Bool
  | [], _ =>
    if position ≤ pattern.length then some ((pattern.drop position).all (· == '*')) else none
  | c :: rest, star =>
    if (pattern.drop position).head? = some '*' then
      matchFrom? ignoreCase pattern (position + 1) (c :: rest) (some ⟨position + 1, c :: rest, Nat.le_refl _⟩)
    else match matchOne ignoreCase c (pattern.drop position) with
      | some n => matchFrom? ignoreCase pattern (position + n) rest (star.map LastStar.later)
      | none => match star with
        | none => some false
        | some s => matchFrom? ignoreCase pattern s.position s.text.tail
            (some ⟨s.position, s.text.tail, Nat.le_refl _⟩)
termination_by text star => (LastStar.reach star, text.length, pattern.length - position)
decreasing_by
  · have hposition : position < pattern.length := by
      have : pattern.drop position ≠ [] := by grind
      simpa using this
    cases star with
    | none => exact .left _ _ (Nat.lt_succ_self _)
    | some s =>
      obtain hlt | heq := Nat.lt_or_eq_of_le s.length_le
      · exact .left _ _ hlt
      · simp only [LastStar.reach, Option.elim_some, ← heq]
        exact .right _ (.right _ (by omega))
  · cases star with
    | none => exact .left _ _ (by simp [LastStar.reach])
    | some s => exact .right _ (.left _ _ (by simp))
  · have := s.length_le
    refine .left _ _ ?_
    simp only [LastStar.reach, Option.elim_some, List.length_tail, List.length_cons] at this ⊢
    omega

/-- Does the pattern match the whole text? -/
def match? (ignoreCase : Bool) (pattern text : List Char) : Option Bool :=
  matchFrom? ignoreCase pattern 0 text none

end ActionTree.Glob
