/-!
Everything that can go wrong, by cause, and the wording of each cause. Faults are what a script may
catch; a syntax error, a termination and a broken stack are not.
-/

namespace ActionTree

/-- Why the digits and suffix of a numeric literal denote no value. -/
inductive NumeralFault where
  | tooLarge
  | badSuffix
  | integerSuffix
  | badReal
  | badDecimal
  deriving DecidableEq

def NumeralFault.message : NumeralFault → String
  | tooLarge => "integral constant is too large"
  | badSuffix => "invalid numeric suffix"
  | integerSuffix => "integer suffix on a real literal"
  | badReal => "invalid real literal"
  | badDecimal => "invalid decimal literal"

/-- Why a text or an action tree is malformed. -/
inductive SyntaxFault where
  | hexWithoutDigits
  | exponentWithoutDigits
  | malformedNumber
  | noNumber
  | numeral (cause : NumeralFault) (literal : String)
  | unterminatedString
  | badEscape
  | missingVariableName
  | unexpectedCharacter (c : Char)
  | expected (what found : String)
  | assignmentTarget
  | trailing (c : Char)
  | lostLookahead
  | unexpectedToken
  | unclosedMarker (close : String)
  | orphanHandlers (action : String)
  | duplicateParameter (action parameter : String)
  deriving DecidableEq

def SyntaxFault.message : SyntaxFault → String
  | hexWithoutDigits => "invalid hexadecimal literal"
  | exponentWithoutDigits => "exponent has no digits"
  | malformedNumber => "malformed numeric literal"
  | noNumber => "malformed number"
  | numeral cause literal => cause.message ++ s!": '{literal}'"
  | unterminatedString => "unterminated string literal"
  | badEscape => "invalid \\u escape"
  | missingVariableName => "expected a variable name after '$'"
  | unexpectedCharacter c => s!"unexpected character '{c}'"
  | expected what found => s!"expected {what} but found {found}"
  | assignmentTarget => "assignment target must be a variable"
  | trailing c => s!"unexpected '{c}'"
  | lostLookahead => "lexer lost its lookahead"
  | unexpectedToken => "unexpected token"
  | unclosedMarker close => s!"expected '{close}'"
  | orphanHandlers action => s!"{action} has Catch or Finally without Try"
  | duplicateParameter action parameter => s!"{action} declares parameter '{parameter}' twice"

/-- A fault of syntax, the number of characters before it, and the text it is in. -/
structure SyntaxError where
  fault : SyntaxFault
  offset : Nat
  source : Option String
  deriving DecidableEq

def SyntaxError.message (e : SyntaxError) : String :=
  let cause := e.fault.message
  let offset := toString e.offset
  match e.source with
  | some text => s!"{cause} at offset {offset} in '{text}'"
  | none => s!"{cause} at offset {offset}"

/-- Why a value has no counterpart in a type. -/
inductive ConversionFault where
  | mismatch (source target : String)
  | malformed (text target : String)
  | unknownMember (name enumName : String)
  deriving DecidableEq

def ConversionFault.message : ConversionFault → String
  | mismatch source target => s!"cannot convert {source} to {target}"
  | malformed text target => s!"'{text}' is not a valid {target}"
  | unknownMember name enumName => s!"'{name}' is not a member of enum {enumName}"

/-- Why a search pattern is malformed. -/
inductive PatternFault where
  | regex
  | globTrailingEscape
  | globUnclosedClass (quoted : String)
  deriving DecidableEq

/-- The cause of a malformed glob. -/
def PatternFault.globMessage : PatternFault → String
  | regex => ""
  | globTrailingEscape => "pattern ends with '\\'"
  | globUnclosedClass quoted => s!"unmatched '[' in {quoted}"

def PatternFault.message : PatternFault → String
  | regex => "regex error: "
  | e => "glob error: " ++ e.globMessage

/-- Why an evaluation or an action fails at run time. -/
inductive RuntimeFault where
  | conversion (cause : ConversionFault)
  | divisionByZero
  | decimalOverflow
  | badOperands (operator left right : String)
  | badOperand (type : String)
  | noMember (type name : String)
  | arity (name : String) (least most given : Nat)
  | badIndex (index : Int)
  | indexOutside (index : Int) (length : Nat)
  | substringOutside (start count length : Nat)
  | emptySearch
  | paddingTooWide (width : Nat)
  | notIndexable (type : String)
  | missingArgument (function : String) (position : Nat)
  | incomparable (function left right : String)
  | badPattern (function : String) (cause : PatternFault)
  | unknownType (name : String)
  | undefinedVariable (name : String)
  | unknownName (name : String)
  | badArrayLength (text : String)
  | noAlternative
  | emptyVariableName
  | computedVariable (name : String)
  | oneArgument (function : String)
  | unknownFunction (name : String)
  | noContextMember (member : String)
  | enumHasNoMethods (enumName : String)
  | notEnumMember (member enumName : String)
  | noReceiverMember (receiver member : String)
  | callDepth (limit : Nat)
  | rowSourceNotFound (id : String)
  | notRowSource (kind id : String)
  | rowWidth (id : String) (columns cells : Nat)
  | loopGuard (limit : Nat)
  | unknownParameter (sub name : String)
  | parameterTaken (name sub : String)
  | tooManyArguments (sub : String) (parameters : Nat)
  | missingParameter (name sub : String)
  | subNotFound (id : String)
  | output (cause : String)
  | host (message : String)
  deriving DecidableEq

def RuntimeFault.message : RuntimeFault → String
  | conversion cause => cause.message
  | divisionByZero => "attempted to divide by zero"
  | decimalOverflow => "value was either too large or too small for a decimal"
  | badOperands operator left right =>
    s!"operator '{operator}' cannot be applied to operands of type {left} and {right}"
  | badOperand type => s!"unary operator cannot be applied to operand of type {type}"
  | noMember type name => s!"'{type}' has no member '{name}'"
  | arity name least most given => s!"'{name}' takes {least}..{most} arguments, {given} given"
  | badIndex index => s!"index {index} is out of range"
  | indexOutside index length => s!"index {index} is out of range for length {length}"
  | substringOutside start count length =>
    s!"substring {start}+{count} is out of range for a string of length {length}"
  | emptySearch => "string to replace cannot be empty"
  | paddingTooWide width => s!"padding width {width} is too large"
  | notIndexable type => s!"'{type}' cannot be indexed"
  | missingArgument function position => s!"{function}: missing argument {position}"
  | incomparable function left right => s!"{function}: cannot compare {left} and {right}"
  | badPattern function cause => s!"{function}: " ++ cause.message
  | unknownType name => s!"unknown type '{name}'"
  | undefinedVariable name => s!"variable '{name}' is not defined"
  | unknownName name => s!"'{name}' is not a known type or variable"
  | badArrayLength text => s!"invalid array length {text}"
  | noAlternative => "no alternative of the expression produced a value"
  | emptyVariableName => "variable name cannot be empty"
  | computedVariable name => s!"variable '{name}' is computed and cannot be assigned"
  | oneArgument function => s!"{function} takes one argument"
  | unknownFunction name => s!"unknown function '{name}'"
  | noContextMember member => s!"Context has no member '{member}'"
  | enumHasNoMethods enumName => s!"enum {enumName} has no methods"
  | notEnumMember member enumName => s!"'{member}' is not a member of enum {enumName}"
  | noReceiverMember receiver member => s!"{receiver} has no member '{member}'"
  | callDepth limit => s!"call depth limit of {limit} exceeded"
  | rowSourceNotFound id => s!"row source '{id}' not found"
  | notRowSource kind id => s!"{kind} '{id}' is not a row source"
  | rowWidth id columns cells =>
    s!"row set '{id}' has {columns} columns but a row has {cells} cells"
  | loopGuard limit => s!"While loop exceeded {limit} iterations"
  | unknownParameter sub name => s!"sub '{sub}' has no parameter '{name}'"
  | parameterTaken name sub => s!"parameter '{name}' of sub '{sub}' is already set"
  | tooManyArguments sub parameters =>
    s!"too many arguments for sub '{sub}' ({parameters} parameters)"
  | missingParameter name sub => s!"required parameter '{name}' of sub '{sub}' is missing"
  | subNotFound id => s!"sub '{id}' not found"
  | output cause => s!"cannot write output: {cause}"
  | host message => message

/-- What a script may catch: a failure at run time, or a message that the script itself raised. -/
inductive Fault where
  | runtime (cause : RuntimeFault)
  | user (message : String)
  deriving DecidableEq

def Fault.message : Fault → String
  | runtime cause => cause.message
  | user message => message

/-- The name under which scripts see the kind of a fault. -/
def Fault.kind : Fault → String
  | runtime _ => "ScriptRuntimeException"
  | user _ => "ScriptUserException"

/-- A failure of the stack machine that evaluates expressions. -/
inductive StackFault where
  | underflow
  | unbalanced (depth : Nat)
  deriving DecidableEq

def StackFault.message : StackFault → String
  | underflow => "value stack underflow"
  | unbalanced depth => s!"evaluation ended with stack depth {depth}"

inductive ErrorCause where
  | malformed (e : SyntaxError)
  | fault (f : Fault)
  | terminated
  | stack (f : StackFault)
  deriving DecidableEq

def ErrorCause.message : ErrorCause → String
  | malformed e => e.message
  | fault f => f.message
  | terminated => "script execution was aborted"
  | stack f => "internal evaluator error: " ++ f.message

/-- An error and, once it has left an action, the frames that were open then. -/
structure ScriptError where
  cause : ErrorCause
  trace : Option String := none
  deriving DecidableEq

namespace ScriptError

def malformed (e : SyntaxError) : ScriptError := ⟨.malformed e, none⟩

def runtime (f : RuntimeFault) : ScriptError := ⟨.fault (.runtime f), none⟩

def user (message : String) : ScriptError := ⟨.fault (.user message), none⟩

def terminated : ScriptError := ⟨.terminated, none⟩

def message (e : ScriptError) : String := e.cause.message

def isTerminated (e : ScriptError) : Bool := e.cause == .terminated

/-- The fault, if a script may catch the error. -/
def fault? (e : ScriptError) : Option Fault :=
  match e.cause with
  | .fault f => some f
  | _ => none

/-- The error with a trace; one that has a trace keeps it. -/
def traced (e : ScriptError) (trace : String) : ScriptError :=
  match e.trace with
  | some _ => e
  | none => { e with trace := some trace }

end ScriptError

end ActionTree
