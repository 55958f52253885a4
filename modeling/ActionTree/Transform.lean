import ActionTree.Expansion
import ActionTree.Pattern
import ActionTree.Text.Search

/-!
Rules that make a value of a written text: expansion of its markers, then clean-up of blanks, control
characters and line ends, then replacements. A value that is not a text, or becomes one that is not, is
left alone.
-/

namespace ActionTree

structure TransformRules where
  expandBrace : Bool := false
  expandDoubleBrace : Bool := false
  expandSquare : Bool := false
  expandDoubleSquare : Bool := false
  /-- Trim before the expansion instead of after it. -/
  trimBefore : Bool := false
  trimStart : Bool := false
  trimEnd : Bool := false
  /-- Every run of blanks becomes one space. -/
  trimInternal : Bool := false
  /-- Control characters go, line ends and tabs excepted. -/
  removeControl : Bool := false
  newlineToLf : Bool := false
  newlineToCrLf : Bool := false
  tabToSpaces : Bool := false
  deriving DecidableEq

/-- Every match of the pattern becomes the replacement. -/
structure ReplaceRule where
  pattern : Pattern
  replacement : String

namespace TransformRules

/-- What applies where no rules are given. -/
def standard : TransformRules := { expandBrace := true }

/-- The markers that are expanded. -/
def markers (r : TransformRules) : List Marker :=
  (if r.expandDoubleBrace then [.doubleBrace] else []) ++
  (if r.expandBrace then [.brace] else []) ++
  (if r.expandDoubleSquare then [.doubleSquare] else []) ++
  (if r.expandSquare then [.square] else [])

/-- Trims the ends that the rules name; where only an early trim is asked for, both. -/
def trim (r : TransformRules) (s : String) : String :=
  match r.trimStart, r.trimEnd with
  | true, true => Text.trim s
  | true, false => Text.trimStart s
  | false, true => Text.trimEnd s
  | false, false => if r.trimBefore then Text.trim s else s

/-- The text without control characters. Line ends and tabs stay. -/
def withoutControl (s : String) : String :=
  String.ofList (s.toList.filter fun c => !Text.isControl c || ['\n', '\r', '\t'].contains c)

/-- Every line end as a single line feed. -/
def lineFeeds (s : String) : String :=
  String.ofList (Text.replace ['\r'] ['\n'] (Text.replace ['\r', '\n'] ['\n'] s.toList))

/-- Every line feed with a carriage return before it. -/
def carriageReturns (s : String) : String :=
  String.ofList (Text.replace ['\n'] ['\r', '\n'] s.toList)

/-- The spaces that stand for a tab. -/
def tabWidth : Nat := 4

def spacesForTabs (s : String) : String :=
  String.ofList (Text.replace ['\t'] (List.replicate tabWidth ' ') s.toList)

/-- The clean-up after the expansion, in this order. -/
def cleanUp (r : TransformRules) (s : String) : String :=
  let s := if r.trimBefore then s else r.trim s
  let s := if r.trimInternal then " ".intercalate (Text.words s) else s
  let s := if r.removeControl then withoutControl s else s
  let s := if r.newlineToLf || r.newlineToCrLf then lineFeeds s else s
  let s := if r.newlineToCrLf then carriageReturns s else s
  if r.tabToSpaces then spacesForTabs s else s

/-- The clean-up, then the replacements in order. -/
def finish (r : TransformRules) (replaces : List ReplaceRule) (s : String) : String :=
  replaces.foldl (fun s rule => rule.pattern.replaceAll s rule.replacement) (r.cleanUp s)

/-- The value that the rules make of a value. -/
def apply {σ : Type} (r : TransformRules) (replaces : List ReplaceRule) (env : Environment σ)
    (v : Value) : Run σ Value := do
  match v with
  | .str s =>
    let s := if r.trimBefore then r.trim s else s
    let expanded ← if r.markers.isEmpty then pure (.str s) else Expansion.expand env r.markers s
    match expanded with
    | .str s => return .str (r.finish replaces s)
    | v => return v
  | v => return v

end TransformRules

end ActionTree
