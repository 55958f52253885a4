/-!
Searching, splitting and replacing in a text, as a list of characters. Occurrences are taken
leftmost first and do not overlap.
-/

namespace ActionTree.Text

/-- The position of the first occurrence. -/
def indexOf? (needle : List Char) : List Char → Option Nat
  | [] => if needle.isEmpty then some 0 else none
  | c :: rest =>
    if needle.isPrefixOf (c :: rest) then some 0 else (indexOf? needle rest).map (· + 1)

/-- The position of the last occurrence. -/
def lastIndexOf? (needle : List Char) : List Char → Option Nat
  | [] => if needle.isEmpty then some 0 else none
  | c :: rest =>
    match lastIndexOf? needle rest with
    | some k => some (k + 1)
    | none => if needle.isPrefixOf (c :: rest) then some 0 else none

def contains (needle : List Char) (text : List Char) : Bool := (indexOf? needle text).isSome

/-- The pieces of a text around the occurrences of a non-empty `separator`. `skip` characters of the
occurrence under way are still to be passed over; `piece` is what the current piece holds, last
character first. -/
def splitFrom (separator : List Char) (skip : Nat) (piece : List Char) :
    List Char → List (List Char)
  | [] => [piece.reverse]
  | c :: rest =>
    match skip with
    | k + 1 => splitFrom separator k piece rest
    | 0 =>
      if separator.isPrefixOf (c :: rest) then
        piece.reverse :: splitFrom separator (separator.length - 1) [] rest
      else splitFrom separator 0 (c :: piece) rest

def splitOn (separator text : List Char) : List (List Char) := splitFrom separator 0 [] text

/-- Every occurrence of a non-empty `needle` replaced; what is put in is not searched again. -/
def replace (needle replacement text : List Char) : List Char :=
  replacement.intercalate (splitOn needle text)

end ActionTree.Text
