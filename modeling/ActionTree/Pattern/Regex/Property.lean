import ActionTree.Pattern.Regex.Basic
import ActionTree.Text.Property
import ActionTree.Text.Script
import ActionTree.Text.Search

/-!
The names of character properties and the sets they stand for. Case, blanks, dashes, underscores and a
leading `is` make no difference to a name.
-/

namespace ActionTree.Regex.Property

/-- The form in which names are compared. -/
def normalize (name : List Char) : String :=
  match name with
  | 'i' :: 's' :: rest | 'i' :: 'S' :: rest | 'I' :: 's' :: rest | 'I' :: 'S' :: rest =>
    let word := plain rest
    String.ofList (if word = ['c'] then ['i', 's', 'c'] else word)
  | name => String.ofList (plain name)
where
  plain (cs : List Char) : List Char :=
    (cs.filter fun c => c.toNat < 128 && c != ' ' && c != '_' && c != '-').map Char.toLower

/-- What a table holds under a name. -/
def named? {α : Type} (table : List (List String × α)) (name : String) : Option α :=
  (table.find? fun entry => entry.1.contains name).map Prod.snd

/-- The names of the general categories and of their groups. -/
def categoryNames : List (List String × List Text.Category) :=
  let casedLetters := [Text.Category.capitalLetter, .smallLetter, .titleLetter]
  [(["l", "letter"], casedLetters ++ [.modifierLetter, .otherLetter]),
   (["lc", "casedletter"], casedLetters),
   (["lu", "uppercaseletter"], [.capitalLetter]),
   (["ll", "lowercaseletter"], [.smallLetter]),
   (["lt", "titlecaseletter"], [.titleLetter]),
   (["lm", "modifierletter"], [.modifierLetter]),
   (["lo", "otherletter"], [.otherLetter]),
   (["m", "mark", "combiningmark"], [.nonspacingMark, .spacingMark, .enclosingMark]),
   (["mn", "nonspacingmark"], [.nonspacingMark]),
   (["mc", "spacingmark"], [.spacingMark]),
   (["me", "enclosingmark"], [.enclosingMark]),
   (["n", "number"], [.decimalDigit, .letterNumber, .otherNumber]),
   (["nd", "decimalnumber", "digit"], [.decimalDigit]),
   (["nl", "letternumber"], [.letterNumber]),
   (["no", "othernumber"], [.otherNumber]),
   (["p", "punctuation", "punct"], [.connector, .dash, .opening, .closing, .initialQuote,
     .finalQuote, .otherPunctuation]),
   (["pc", "connectorpunctuation"], [.connector]),
   (["pd", "dashpunctuation"], [.dash]),
   (["ps", "openpunctuation"], [.opening]),
   (["pe", "closepunctuation"], [.closing]),
   (["pi", "initialpunctuation"], [.initialQuote]),
   (["pf", "finalpunctuation"], [.finalQuote]),
   (["po", "otherpunctuation"], [.otherPunctuation]),
   (["s", "symbol"], [.mathSymbol, .currency, .modifierSymbol, .otherSymbol]),
   (["sm", "mathsymbol"], [.mathSymbol]),
   (["sc", "currencysymbol"], [.currency]),
   (["sk", "modifiersymbol"], [.modifierSymbol]),
   (["so", "othersymbol"], [.otherSymbol]),
   (["z", "separator"], [.space, .lineSeparator, .paragraphSeparator]),
   (["zs", "spaceseparator"], [.space]),
   (["zl", "lineseparator"], [.lineSeparator]),
   (["zp", "paragraphseparator"], [.paragraphSeparator]),
   (["c", "other"], [.control, .format, .privateUse, .unassigned]),
   (["cc", "control", "cntrl"], [.control]),
   (["cf", "format"], [.format]),
   (["co", "privateuse"], [.privateUse]),
   (["cn", "unassigned"], [.unassigned])]

def category? (name : String) : Option CharSet :=
  match name with
  | "any" => some .everything
  | "assigned" => some (.ofClass Text.isAssigned)
  | "ascii" => some (.ranges [(0, 127)])
  | name => (named? categoryNames name).map fun categories =>
    .ofClass fun c => categories.any (Text.Category.has c)

def scriptNames : List (List String × List (Nat × Nat)) :=
  [(["latin", "latn"], Text.latinRanges), (["greek", "grek"], Text.greekRanges),
   (["cyrillic", "cyrl"], Text.cyrillicRanges), (["armenian", "armn"], Text.armenianRanges),
   (["hebrew", "hebr"], Text.hebrewRanges), (["arabic", "arab"], Text.arabicRanges),
   (["devanagari", "deva"], Text.devanagariRanges), (["bengali", "beng"], Text.bengaliRanges),
   (["tamil", "taml"], Text.tamilRanges), (["thai"], Text.thaiRanges),
   (["tibetan", "tibt"], Text.tibetanRanges), (["georgian", "geor"], Text.georgianRanges),
   (["hangul", "hang"], Text.hangulRanges), (["ethiopic", "ethi"], Text.ethiopicRanges),
   (["cherokee", "cher"], Text.cherokeeRanges), (["khmer", "khmr"], Text.khmerRanges),
   (["mongolian", "mong"], Text.mongolianRanges), (["hiragana", "hira"], Text.hiraganaRanges),
   (["katakana", "kana"], Text.katakanaRanges), (["bopomofo", "bopo"], Text.bopomofoRanges),
   (["han", "hani"], Text.hanRanges), (["common", "zyyy"], Text.commonRanges),
   (["inherited", "zinh", "qaai"], Text.inheritedRanges)]

def script? (name : String) : Option CharSet := (named? scriptNames name).map .ranges

/-- The properties that a character has or has not. -/
def ownNames : List (List String × CharSet) :=
  let unstableJoiners : CharSet := .ranges [(890, 890), (12443, 12444), (64606, 64611),
    (65018, 65019), (65136, 65136), (65138, 65138), (65140, 65140), (65142, 65142),
    (65144, 65144), (65146, 65146), (65148, 65148), (65150, 65150)]
  let unstableStarts : CharSet := .ranges [(3635, 3635), (3763, 3763), (65438, 65439)]
  let start : CharSet := .ofClass Text.startsIdentifier
  let continuation : CharSet := .ofClass Text.continuesIdentifier
  [(["alphabetic", "alpha"], .ofClass Text.isAlphabetic),
   (["uppercase", "upper"], .ofClass Text.isUppercase),
   (["lowercase", "lower"], .ofClass Text.isLowercase),
   (["whitespace", "wspace", "space"], .ofClass Text.isBlank),
   (["asciihexdigit", "ahex"], .ranges [(48, 57), (65, 70), (97, 102)]),
   (["hexdigit", "hex"], .ranges Text.hexDigitRanges),
   (["cased"], .ranges Text.casedRanges),
   (["caseignorable", "ci"], .ranges Text.caseIgnorableRanges),
   (["idstart", "ids"], start), (["idcontinue", "idc"], continuation),
   (["xidstart", "xids"], .difference start (.union unstableJoiners unstableStarts)),
   (["xidcontinue", "xidc"], .difference continuation unstableJoiners),
   (["emoji"], .ranges Text.emojiRanges),
   (["emojipresentation", "epres"], .ranges Text.emojiPresentationRanges),
   (["extendedpictographic", "extpict"], .ranges Text.pictographRanges),
   (["math"], .ranges Text.mathRanges), (["dash"], .ranges Text.dashRanges),
   (["ideographic", "ideo"], .ranges Text.ideographRanges)]

/-- A name and a value around a sign of equality, if there is one. -/
def splitValue? (name : List Char) : Option (List Char × List Char) :=
  [['!', '='], [':'], ['=']].findSome? fun mark =>
    (Text.indexOf? mark name).map fun k => (name.take k, name.drop (k + mark.length))

/-- The set that a property names. A kind of property may stand before its value; a plain name is
looked up among all of them. -/
def set? (name : List Char) : Option CharSet :=
  match splitValue? name with
  | none =>
    let name := normalize name
    (named? ownNames name).or ((category? name).or (script? name))
  | some (kind, value) =>
    let value := normalize value
    match normalize kind with
    | "gc" | "generalcategory" => category? value
    | "sc" | "script" | "scx" | "scriptextensions" => script? value
    | _ => none

end ActionTree.Regex.Property
