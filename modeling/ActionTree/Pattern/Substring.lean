import ActionTree.Text.Case
import ActionTree.Text.Search

/-!
Substring search with and without regard to case. What is found is told by its bytes. Without regard to
case, a text and a needle of the ASCII range are compared byte by byte; any other text is compared in small
letters, window by window.
-/

namespace ActionTree.Substring

/-- A part of a text, in bytes: where it starts and where it ends. -/
structure ByteRange where
  start : Nat
  stop : Nat
  deriving DecidableEq

/-- The number of bytes of a text. -/
def byteLength : List Char → Nat
  | [] => 0
  | c :: rest => c.utf8Size + byteLength rest

def bytes (cs : List Char) : List UInt8 := cs.flatMap String.utf8EncodeChar

def isAscii (cs : List Char) : Bool := cs.all fun c => c.toNat < 128

/-! ## With regard to case -/

/-- Do the characters at the front of the text spell the needle? -/
abbrev Window := List Char → List Char → Bool

def exact : Window := fun needle window => needle == window

/-- The text before and after the first window that spells the needle. -/
def findBy (same : Window) (needle : List Char) (text : List Char) :
    Option (List Char × List Char) :=
  let window := text.take needle.length
  if window.length = needle.length ∧ same needle window then
    some ([], text.drop needle.length)
  else match text with
    | [] => none
    | c :: rest => (findBy same needle rest).map fun r => (c :: r.1, r.2)

def findExact? (text needle : List Char) : Option ByteRange :=
  (findBy exact needle text).map fun r => ⟨byteLength r.1, byteLength r.1 + byteLength needle⟩

/-! ## Byte by byte -/

/-- The byte, a letter `A` to `Z` made small. -/
def lowerByte (b : UInt8) : UInt8 := if 65 ≤ b && b ≤ 90 then b + 32 else b

/-- The bytes of a range; `none` if they are not all there. -/
def byteSlice? (range : ByteRange) (text : List UInt8) : Option (List UInt8) :=
  if range.start ≤ range.stop ∧ range.stop ≤ text.length then
    some (text.extract range.start range.stop)
  else none

/-- The first range of bytes that spells the needle, which is in small letters; `none` if the search leaves
the text. -/
def findBytes? (text needle : List UInt8) : Option (Option ByteRange) :=
  if needle.isEmpty then some (some ⟨0, 0⟩)
  else if text.length < needle.length then some none
  else do
    let place ← (List.range (text.length - needle.length + 1)).findM? fun i => do
      let window ← byteSlice? ⟨i, i + needle.length⟩ text
      return (window.zip needle).all fun (a, b) => lowerByte a == b
    return place.map fun i => ⟨i, i + needle.length⟩

/-! ## Window by window -/

/-- Where the characters of a text start that itself starts at `offset`. -/
def startsFrom (offset : Nat) : List Char → List Nat
  | [] => []
  | c :: rest => offset :: startsFrom (offset + c.utf8Size) rest

/-- The text before and from a byte on; `none` if that is inside of a character or beyond the end. -/
def cutAt? : Nat → List Char → Option (List Char × List Char)
  | 0, text => some ([], text)
  | _ + 1, [] => none
  | n + 1, c :: rest =>
    if c.utf8Size ≤ n + 1 then (cutAt? (n + 1 - c.utf8Size) rest).map fun r => (c :: r.1, r.2)
    else none

/-- The characters of a range; `none` if an end is inside of a character or beyond the other end or the
text. -/
def slice? (range : ByteRange) (text : List Char) : Option (List Char) :=
  if range.start ≤ range.stop then do
    let (_, rest) ← cutAt? range.start text
    let (part, _) ← cutAt? (range.stop - range.start) rest
    return part
  else none

/-- The first of these windows that spells the needle in small letters. A window is given by the place where
it starts and the number of its first character; it ends where the character after it starts, if there is
one, and else with the text. `none` if the search leaves the text. -/
def findAmong? (text needle : List Char) (starts : List Nat) :
    List (Nat × Nat) → Option (Option ByteRange)
  | [] => some none
  | (start, k) :: rest =>
    let stop := starts[k + needle.length]?.getD (byteLength text)
    if starts.length < k + needle.length then some none
    else do
      let window ← slice? ⟨start, stop⟩ text
      if Text.lowerAfter [] window == needle then return some ⟨start, stop⟩
      else findAmong? text needle starts rest

def findWindow? (text needle : List Char) : Option (Option ByteRange) :=
  let starts := startsFrom 0 text
  findAmong? text needle starts starts.zipIdx

/-! ## Needles -/

/-- What a search compares: `needle` is in small letters if case does not matter. -/
structure Needle where
  chars : List Char
  ignoreCase : Bool

def Needle.ofText (ignoreCase : Bool) (source : String) : Needle :=
  ⟨(if ignoreCase then Text.lowercase source else source).toList, ignoreCase⟩

/-- The bytes of the first occurrence; `none` if the search leaves the text. -/
def Needle.range? (n : Needle) (text : List Char) : Option (Option ByteRange) :=
  if !n.ignoreCase then some (findExact? text n.chars)
  else if isAscii text && isAscii n.chars then findBytes? (bytes text) (bytes n.chars)
  else findWindow? text n.chars

/-- The text before and after the first occurrence. -/
def Needle.find? (n : Needle) (text : List Char) : Option (List Char × List Char) := do
  let range ← (n.range? text).join
  let (before, _) ← cutAt? range.start text
  let (_, after) ← cutAt? range.stop text
  return (before, after)

/-- Replaces the first `count` occurrences, leftmost first; what is put in is not searched. -/
def Needle.replaceFirst (n : Needle) (replacement : List Char) : Nat → List Char → List Char
  | 0, text => text
  | count + 1, text =>
    match n.find? text with
    | some (before, after) => before ++ replacement ++ n.replaceFirst replacement count after
    | none => text

/-- Replaces every occurrence. An empty needle occurs nowhere. -/
def Needle.replaceAll (n : Needle) (replacement text : List Char) : List Char :=
  if n.chars.isEmpty then text else n.replaceFirst replacement text.length text

end ActionTree.Substring
