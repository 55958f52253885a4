import ActionTree.Pattern.Glob
import ActionTree.Pattern.Regex.Replacement
import ActionTree.Pattern.Substring

/-!
Search patterns in four notations, for replacement rules and for the functions that match text.
-/

namespace ActionTree

inductive MatchMode where
  | regex | glob | exact | substring
  deriving DecidableEq

def MatchMode.name : MatchMode → String
  | regex => "Regex"
  | glob => "Glob"
  | exact => "Exact"
  | substring => "Substr"

/-- The mode of that name or another name for it, case apart. -/
def MatchMode.ofName? (name : String) : Option MatchMode :=
  match Text.lowerAscii name with
  | "regex" | "regexp" => some regex
  | "glob" | "wildcard" => some glob
  | "exact" | "simple" => some exact
  | "substr" | "substring" => some substring
  | _ => none

/-- A pattern that has been checked and is ready to match. -/
inductive Pattern where
  | regex (m : Regex.Matcher)
  | glob (pattern : List Char) (ignoreCase : Bool)
  | exact (text : String) (ignoreCase : Bool)
  | substring (needle : Substring.Needle)

namespace Pattern

def compile (mode : MatchMode) (source : String) (ignoreCase : Bool) :
    Except PatternFault Pattern :=
  match mode with
  | .regex => match Regex.Matcher.ofSource? ignoreCase source with
    | some m => .ok (regex m)
    | none => .error .regex
  | .glob => (Glob.check source).map fun _ => glob source.toList ignoreCase
  | .exact => .ok (exact source ignoreCase)
  | .substring => .ok (substring (.ofText ignoreCase source))

/-- Does the pattern match the text? A glob and an exact pattern match the whole of it. -/
def isMatch (p : Pattern) (text : String) : Bool :=
  match p with
  | regex m => m.isMatch text
  | glob pattern ignoreCase => Glob.match? ignoreCase pattern text.toList == some true
  | exact source ignoreCase =>
    if ignoreCase then Text.lowercase text == Text.lowercase source else text == source
  | substring needle => (needle.find? text.toList).isSome

/-- Replaces every match; a glob and an exact pattern replace the whole text. -/
def replaceAll (p : Pattern) (text replacement : String) : String :=
  match p with
  | regex m => m.replaceAll text replacement
  | glob _ _ | exact _ _ => if p.isMatch text then replacement else text
  | substring needle => String.ofList (needle.replaceAll replacement.toList text.toList)

end Pattern

end ActionTree
