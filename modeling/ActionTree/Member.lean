import ActionTree.Operator
import ActionTree.Text.Search

/-!
Members, methods and elements of values. Names are matched without regard to the case of the letters
`A` to `Z`.
-/

namespace ActionTree

/-- How the objects of the surrounding program answer methods and indexing; `none` where an object
does not know the name or has no elements. -/
structure Host where
  method? : Object → String → List Value → Option (Except Fault Value)
  element? : Object → Value → Option (Except Fault Value)

/-- A surrounding program whose objects have no methods and no elements. -/
def Host.silent : Host := ⟨fun _ _ _ => none, fun _ _ => none⟩

/-- The greatest length that an array or a padded text may be given in one step. -/
def longestAllocation : Nat := twoTo 24

namespace Slice

/-- The position that an argument names; it must not be negative. -/
def position (v : Value) : Except RuntimeFault Nat :=
  match Convert.asLong v with
  | .ok n => if n < 0 then .error (.badIndex n) else .ok n.toNat
  | .error e => .error (.conversion e)

/-- How many elements a slice from `start` takes: as many as given, or all that are left. -/
def count (given : Option Value) (length start : Nat) : Except RuntimeFault Nat :=
  match given with
  | some v => position v
  | none => .ok (length - start)

def substring (cs : List Char) (start : Value) (length : Option Value) :
    Except RuntimeFault (List Char) := do
  let i ← position start
  let n ← count length cs.length i
  if cs.length < i + n then throw (.substringOutside i n cs.length)
  return (cs.drop i).take n

def remove (cs : List Char) (start : Value) (length : Option Value) :
    Except RuntimeFault (List Char) := do
  let i ← position start
  let n ← count length cs.length i
  if cs.length < i + n then throw (.badIndex i)
  return cs.take i ++ cs.drop (i + n)

def insert (cs : List Char) (start : Value) (piece : List Char) :
    Except RuntimeFault (List Char) := do
  let i ← position start
  if cs.length < i then throw (.badIndex i)
  return cs.take i ++ piece ++ cs.drop i

/-- The characters that bring a text to a width. -/
def padding (cs : List Char) (width : Value) (fill : Option Value) :
    Except RuntimeFault (List Char) := do
  let n ← position width
  let c ← match fill with
    | some v => match Convert.asChar v with
      | .ok c => pure c
      | .error e => throw (.conversion e)
    | none => pure ' '
  if longestAllocation < n then throw (.paddingTooWide n)
  return List.replicate (n - cs.length) c

end Slice

namespace Member

def noMember (v : Value) (name : String) : RuntimeFault := .noMember v.typeName name

/-- Refuses a number of arguments outside the bounds. -/
def arity (name : String) (args : List Value) (least most : Nat) : Except RuntimeFault Unit :=
  if args.length < least ∨ most < args.length then
    .error (.arity name least most args.length)
  else .ok ()

/-- A property of a value. -/
def get (v : Value) (name : String) : Except RuntimeFault Value :=
  match v, Text.lowerAscii name with
  | .str s, "length" => .ok (.ofInt s.toList.length)
  | .array items, "length" => .ok (.ofInt items.length)
  | .array items, "count" => .ok (.ofInt items.length)
  | .object o, _ => match o.member? name with
    | some m => .ok m
    | none => .error (noMember v name)
  | _, _ => .error (noMember v name)

/-- A position as a value, with -1 for none. -/
def ofPosition : Option Nat → Value
  | some n => .ofInt n
  | none => .ofInt (-1)

/-- The characters that a trimming method removes: those of its arguments, or white space if there
are none. -/
def trimmed (args : List Value) (c : Char) : Bool :=
  let set := args.flatMap fun v => v.text.toList
  if set.isEmpty then Text.isBlank c else set.contains c

/-- The pieces around a separator; without one, the words. -/
def split (s : String) : Option String → List String
  | none => Text.words s
  | some separator =>
    if separator.isEmpty then [s]
    else (Text.splitOn separator.toList s.toList).map String.ofList

/-- A method of texts. `name` is as written, and `args` as given. -/
def textMethod (s : String) (name : String) (args : List Value) : Except RuntimeFault Value := do
  let cs := s.toList
  let argument (i : Nat) : Value := args[i]?.getD .null
  let argumentChars (i : Nat) : List Char := (argument i).text.toList
  match Text.lowerAscii name with
  | "toupper" => return .str (Text.uppercase s)
  | "tolower" => return .str (Text.lowercase s)
  | "trim" => return .ofChars (Text.trimList (trimmed args) cs)
  | "trimstart" => return .ofChars (cs.dropWhile (trimmed args))
  | "trimend" => return .ofChars (Text.dropWhileEnd (trimmed args) cs)
  | "substring" =>
    arity name args 1 2
    return .ofChars (← Slice.substring cs (argument 0) args[1]?)
  | "contains" =>
    arity name args 1 1
    return .bool (Text.contains (argumentChars 0) cs)
  | "startswith" =>
    arity name args 1 1
    return .bool ((argumentChars 0).isPrefixOf cs)
  | "endswith" =>
    arity name args 1 1
    return .bool ((argumentChars 0).isSuffixOf cs)
  | "indexof" =>
    arity name args 1 1
    return ofPosition (Text.indexOf? (argumentChars 0) cs)
  | "lastindexof" =>
    arity name args 1 1
    return ofPosition (Text.lastIndexOf? (argumentChars 0) cs)
  | "replace" =>
    arity name args 2 2
    if (argumentChars 0).isEmpty then throw .emptySearch
    return .ofChars (Text.replace (argumentChars 0) (argumentChars 1) cs)
  | "split" =>
    arity name args 0 1
    return .array ((split s (args[0]?.map Value.text)).map .str)
  | "padleft" =>
    arity name args 1 2
    return .ofChars ((← Slice.padding cs (argument 0) args[1]?) ++ cs)
  | "padright" =>
    arity name args 1 2
    return .ofChars (cs ++ (← Slice.padding cs (argument 0) args[1]?))
  | "insert" =>
    arity name args 2 2
    return .ofChars (← Slice.insert cs (argument 0) (argumentChars 1))
  | "remove" =>
    arity name args 1 2
    return .ofChars (← Slice.remove cs (argument 0) args[1]?)
  | _ => throw (noMember (.str s) name)

/-- A method of arrays. -/
def arrayMethod (items : List Value) (name : String) (args : List Value) :
    Except RuntimeFault Value := do
  let argument := args[0]?.getD .null
  match Text.lowerAscii name with
  | "contains" =>
    arity name args 1 1
    return .bool (items.any fun x => Comparison.equal x argument)
  | "indexof" =>
    arity name args 1 1
    return ofPosition (items.findIdx? fun x => Comparison.equal x argument)
  | _ => throw (noMember (.array items) name)

/-- A method that every value has, or one of its own kind. -/
def valueMethod (v : Value) (name : String) (args : List Value) : Except RuntimeFault Value := do
  match Text.lowerAscii name with
  | "tostring" =>
    arity name args 0 0
    return .str v.text
  | "equals" =>
    arity name args 1 1
    return .bool (Comparison.equal v (args[0]?.getD .null))
  | "gettype" =>
    arity name args 0 0
    return .str v.typeName
  | _ => match v with
    | .str s => textMethod s name args
    | .array items => arrayMethod items name args
    | _ => throw (noMember v name)

/-- A method call; an object of the surrounding program is asked first. -/
def call (host : Host) (v : Value) (name : String) (args : List Value) : Except Fault Value :=
  let own := (valueMethod v name args).mapError .runtime
  match v with
  | .object o => (host.method? o name args).getD own
  | _ => own

/-- The element at a position, if there is one. -/
def element {α : Type} (items : List α) (position : Value) (wrap : α → Value) :
    Except RuntimeFault Value :=
  match Convert.asLong position with
  | .error e => .error (.conversion e)
  | .ok i => match (if i < 0 then none else items[i.toNat]?) with
    | some x => .ok (wrap x)
    | none => .error (.indexOutside i items.length)

/-- An element of an array, a character of a text, or what an object holds under a key. -/
def index (host : Host) (target position : Value) : Except Fault Value :=
  match target with
  | .array items => (element items position id).mapError .runtime
  | .str s => (element s.toList position .char).mapError .runtime
  | .object o => (host.element? o position).getD (.error (.runtime (.notIndexable o.typeName)))
  | v => .error (.runtime (.notIndexable v.typeName))

end Member

end ActionTree
