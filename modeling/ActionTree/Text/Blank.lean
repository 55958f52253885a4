/-!
White space, control characters, and the cutting of text at white space.
-/

namespace ActionTree.Text

/-- Is the code point of `c` in one of the inclusive ranges? -/
def inRanges (ranges : List (Nat × Nat)) (c : Char) : Bool :=
  ranges.any fun r => r.1 ≤ c.toNat && c.toNat ≤ r.2

/-- White space of all scripts. -/
def blankRanges : List (Nat × Nat) :=
  [(9, 13), (32, 32), (133, 133), (160, 160), (5760, 5760), (8192, 8202), (8232, 8233), (8239, 8239),
   (8287, 8287), (12288, 12288)]

def isBlank (c : Char) : Bool := inRanges blankRanges c

/-- The control characters, `U+0000` to `U+001F` and `U+007F` to `U+009F`. -/
def isControl (c : Char) : Bool := inRanges [(0, 31), (127, 159)] c

/-- The list without the longest tail whose members all satisfy `p`. -/
def dropWhileEnd {α : Type} (p : α → Bool) (xs : List α) : List α :=
  (xs.reverse.dropWhile p).reverse

def trimList (p : Char → Bool) (cs : List Char) : List Char :=
  dropWhileEnd p (cs.dropWhile p)

/-- The text without the white space around it. -/
def trim (s : String) : String := String.ofList (trimList isBlank s.toList)

def trimStart (s : String) : String := String.ofList (s.toList.dropWhile isBlank)

def trimEnd (s : String) : String := String.ofList (dropWhileEnd isBlank s.toList)

/-- The maximal runs of characters without white space; `word` is the run under way. -/
def wordsFrom (word : List Char) : List Char → List (List Char)
  | [] => if word.isEmpty then [] else [word]
  | c :: rest =>
    if isBlank c then
      if word.isEmpty then wordsFrom [] rest else word :: wordsFrom [] rest
    else wordsFrom (word ++ [c]) rest

def words (s : String) : List String := (wordsFrom [] s.toList).map String.ofList

end ActionTree.Text
