import ActionTree.Error
import ActionTree.Text.Blank
import ActionTree.Value

/-!
The ground of the notation: blanks and comments, and numeric literals. A text under reading is the list
of the characters that are left; a fault says how many of them were left where it lies.
-/

namespace ActionTree.Notation

/-- A fault and the number of characters from its place to the end of the text. -/
structure LocatedFault where
  fault : SyntaxFault
  remaining : Nat
  deriving DecidableEq

abbrev Read := Except LocatedFault

/-- A fault at the place where `rest` is left. -/
def faultAt {α : Type} (rest : List Char) (fault : SyntaxFault) : Read α :=
  .error ⟨fault, rest.length⟩

/-- The error that a fault is in a text. A lexer that lost its lookahead does not name the text. -/
def LocatedFault.inText (e : LocatedFault) (text : String) : SyntaxError where
  fault := e.fault
  offset := text.toList.length - e.remaining
  source := if e.fault = .lostLookahead then none else some text

/-- Inside or outside a comment. -/
inductive SpaceMode where
  | between | lineComment | blockComment

/-- Passes blanks, comments to the end of the line and comments between `/*` and `*/`. One that is not
closed reaches to the end. -/
def skipSpaceIn : SpaceMode → List Char → List Char
  | .between, '/' :: '/' :: rest => skipSpaceIn .lineComment rest
  | .between, '/' :: '*' :: rest => skipSpaceIn .blockComment rest
  | .between, c :: rest => if Text.isBlank c then skipSpaceIn .between rest else c :: rest
  | .lineComment, c :: rest => skipSpaceIn (if c = '\n' then .between else .lineComment) rest
  | .blockComment, '*' :: '/' :: rest => skipSpaceIn .between rest
  | .blockComment, _ :: rest => skipSpaceIn .blockComment rest
  | _, [] => []

def skipSpace : List Char → List Char := skipSpaceIn .between

/-- The digits of a literal. A real one keeps what stands before its exponent apart. -/
inductive NumberBody where
  | whole (radix : Nat) (digits : List Char)
  | real (base exponent : List Char)

def isHexDigit (c : Char) : Bool := (Numeral.digit? 16 c).isSome

/-- The digits after a point, with the point; a point without a digit is not part of the number. -/
def fraction : List Char → List Char
  | '.' :: c :: rest => if c.isDigit then '.' :: (c :: rest).takeWhile Char.isDigit else []
  | _ => []

/-- The sign of an exponent. -/
def exponentSign : List Char → List Char
  | c :: _ => if c = '+' ∨ c = '-' then [c] else []
  | [] => []

/-- The exponent with its letter and sign, or nothing; `none` if it has no digits. -/
def exponent? : List Char → Option (List Char)
  | c :: rest =>
    if c = 'e' ∨ c = 'E' then
      let sign := exponentSign rest
      let digits := (rest.drop sign.length).takeWhile Char.isDigit
      if digits.isEmpty then none else some (c :: sign ++ digits)
    else some []
  | [] => some []

/-- The body of a number without a sign, and what follows it; `none` if none starts here. -/
def numberBody (cs : List Char) : Except SyntaxFault (Option (NumberBody × List Char)) :=
  match cs with
  | '0' :: 'x' :: rest | '0' :: 'X' :: rest =>
    let digits := rest.takeWhile isHexDigit
    if digits.isEmpty then .error .hexWithoutDigits
    else .ok (some (.whole 16 digits, rest.drop digits.length))
  | cs =>
    let digits := cs.takeWhile Char.isDigit
    let rest := cs.drop digits.length
    let fraction := fraction rest
    let rest := rest.drop fraction.length
    if digits.isEmpty ∧ fraction.isEmpty then .ok none
    else match exponent? rest with
      | none => .error .exponentWithoutDigits
      | some exponent =>
        let rest := rest.drop exponent.length
        if fraction.isEmpty ∧ exponent.isEmpty then .ok (some (.whole 10 digits, rest))
        else .ok (some (.real (digits ++ fraction) exponent, rest))

/-- The types that an integer literal may have, by its suffix in small letters. -/
def integerTypes? (suffix : String) : Option (List IntKind) :=
  match suffix with
  | "" => some [.int, .long, .ulong]
  | "l" => some [.long, .ulong]
  | "u" => some [.uint, .ulong]
  | "ul" | "lu" => some [.ulong]
  | _ => none

/-- The value of an integer literal. -/
def integerValue (n : Int) (suffix : String) : Except NumeralFault Value :=
  if twoTo 127 ≤ n.natAbs then .error .tooLarge
  else match integerTypes? suffix with
    | some types => match Integer.firstOf? types n with
      | some i => .ok (.int i)
      | none => .error .tooLarge
    | none => match suffix with
      | "f" => .ok (.float (Real32.ofBits (BinaryFormat.single.ofScaled (n < 0) n.natAbs 0)))
      | "d" => .ok (.double (Real64.ofBits (BinaryFormat.double.ofScaled (n < 0) n.natAbs 0)))
      | "m" => match Decimal.ofInt? n with
        | some d => .ok (.decimal d)
        | none => .error .tooLarge
      | _ => .error .badSuffix

/-- The value of a literal with a point or an exponent. -/
def realValue (negative : Bool) (base exponent : List Char) (suffix : String) :
    Except NumeralFault Value :=
  let base := if negative then '-' :: base else base
  match suffix with
  | "" | "d" => match Numeral.float? (base ++ exponent) with
    | some x => .ok (.double x)
    | none => .error .badReal
  | "f" => match Numeral.float32? (base ++ exponent) with
    | some x => .ok (.float x)
    | none => .error .badReal
  | "m" => match Decimal.ofNumeral? (base ++ exponent) with
    | some d => .ok (.decimal d)
    | none => .error .badDecimal
  | "l" | "u" | "ul" | "lu" => .error .integerSuffix
  | _ => .error .badSuffix

def NumberBody.value (negative : Bool) (suffix : String) : NumberBody → Except NumeralFault Value
  | whole radix digits =>
    let n := (Numeral.nat? radix digits).getD 0
    integerValue (if negative then -(n : Int) else n) suffix
  | real base exponent => realValue negative base exponent suffix

/-- A numeric literal with an optional sign, and what follows it; `none` if none starts here. -/
def number (cs : List Char) : Read (Option (Value × List Char)) :=
  let (negative, body) := match cs with
    | '-' :: rest => (true, rest)
    | '+' :: rest => (false, rest)
    | cs => (false, cs)
  match numberBody body with
  | .error fault => faultAt cs fault
  | .ok none => .ok none
  | .ok (some (body, rest)) =>
    let suffix := rest.takeWhile Char.isAlpha
    let rest := rest.drop suffix.length
    if rest.head?.any fun c => c.isAlphanum || c == '_' then faultAt cs .malformedNumber
    else match body.value negative (String.ofList (suffix.map Char.toLower)) with
      | .ok v => .ok (some (v, rest))
      | .error cause =>
        faultAt cs (.numeral cause (String.ofList (cs.take (cs.length - rest.length))))

end ActionTree.Notation
