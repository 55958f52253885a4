import ActionTree.Number.Numeral
import ActionTree.Pattern.Regex.Parser
import ActionTree.Pattern.Regex.Program

/-!
Matching and replacing with a regular expression. In a replacement, `$name` and `$name` in braces stand
for what a group matched, and `$$` for a dollar sign.
-/

namespace ActionTree.Regex

/-- A regular expression ready to search. -/
structure Matcher where
  assembly : Assembly
  groups : Nat
  names : List (String × Nat)

namespace Matcher

def ofSource? (ignoreCase : Bool) (source : String) : Option Matcher :=
  ((parse? ignoreCase source).filter fun p => size p.regex ≤ greatestSize).map fun p =>
    ⟨program p.regex, p.groups, p.names⟩

def isMatch (m : Matcher) (text : String) : Bool :=
  (search m.assembly text.toList.toArray 0).isSome

/-- What the group of that number or name matched. -/
def groupText (m : Matcher) (text : Array Char) (found : Slots) (name : List Char) : List Char :=
  let number := if name.head? = some '-' then none else Numeral.int? 10 name
  let index := match number with
    | some n => if n.toNat ≤ m.groups then some n.toNat else none
    | none => m.names.lookup (String.ofList name)
  match index.bind fun i => found.lookup (2 * i), index.bind fun i => found.lookup (2 * i + 1) with
  | some start, some stop => (text.extract start stop).toList
  | _, _ => []

def isNameChar (c : Char) : Bool := c.isAlphanum || c == '_'

/-- The replacement with its references resolved for one match. -/
def expandReplacement (group : List Char → List Char) : Nat → List Char → List Char
  | 0, cs => cs
  | _ + 1, [] => []
  | n + 1, '$' :: '$' :: rest => '$' :: expandReplacement group n rest
  | n + 1, '$' :: rest =>
    match rest with
    | '\x7b' :: braced =>
      match braced.dropWhile (· != '\x7d') with
      | _ :: after =>
        group (braced.takeWhile (· != '\x7d')) ++ expandReplacement group n after
      | [] => '$' :: expandReplacement group n rest
    | rest =>
      let name := rest.takeWhile isNameChar
      if name.isEmpty then '$' :: expandReplacement group n rest
      else group name ++ expandReplacement group n (rest.dropWhile isNameChar)
  | n + 1, c :: rest => c :: expandReplacement group n rest

/-- The text from `position` on, with the matches replaced. -/
def replaceFrom (m : Matcher) (text : Array Char) (replacement : List Char) (position : Nat) :
    List Slots → List Char
  | [] => (text.extract position text.size).toList
  | found :: rest =>
    let start := (found.lookup 0).getD position
    let stop := (found.lookup 1).getD position
    (text.extract position start).toList
      ++ expandReplacement (m.groupText text found) (replacement.length + 1) replacement
      ++ m.replaceFrom text replacement stop rest

/-- Replaces every match. -/
def replaceAll (m : Matcher) (text replacement : String) : String :=
  let chars := text.toList.toArray
  let found := searchAll m.assembly chars (chars.size + 2) 0 none
  String.ofList (m.replaceFrom chars replacement.toList 0 found)

end Matcher

end ActionTree.Regex
