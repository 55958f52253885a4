import ActionTree.Text.Case

/-!
What the name of a variable stands for. A plain name stands for an entry of the store; the others are
computed when they are read.
-/

namespace ActionTree

/-- The part of the environment that a name in percent signs asks for. -/
inductive EnvScope where
  | process | user | machine
  deriving DecidableEq

def EnvScope.name : EnvScope → String
  | process => "Process"
  | user => "User"
  | machine => "Machine"

/-- The scope of that name, case apart. -/
def EnvScope.ofName? (name : String) : Option EnvScope :=
  match Text.lowerAscii name with
  | "process" => some process
  | "user" => some user
  | "machine" => some machine
  | _ => none

/-- The variables of the process, as names and values. -/
abbrev ProcessEnv := List (String × String)

/-- The value that the process holds for a name that is not empty. An entry is known by its text
`name=value`, of which the name looked for is all before one of the equals signs. -/
def ProcessEnv.get? (env : ProcessEnv) (name : String) : Option String :=
  let start := name.toList ++ ['=']
  if name.isEmpty then none
  else env.findSome? fun (key, value) =>
    let entry := key.toList ++ '=' :: value.toList
    if start.isPrefixOf entry then some (String.ofList (entry.drop start.length)) else none

/-- Only the process has variables of its own. -/
def EnvScope.get? (env : ProcessEnv) (name : String) : EnvScope → Option String
  | process => env.get? name
  | user | machine => none

inductive NameKind where
  | plain
  /-- An expression. -/
  | expr (text : String)
  /-- A multi-expression. -/
  | multi (text : String)
  | env (scope : EnvScope) (name : String)
  /-- The action with that id. -/
  | tree (id : String)
  deriving DecidableEq

namespace NameKind

/-- The name between percent signs; the second sign may be missing, and a scope and a colon may stand
in front. -/
def ofEnv (body : List Char) : NameKind :=
  let body := if body.getLast? = some '%' then body.dropLast else body
  let scope := body.takeWhile (· != ':')
  match body.drop scope.length, EnvScope.ofName? (String.ofList scope) with
  | ':' :: name, some scope => env scope (String.ofList name)
  | _, _ => env .process (String.ofList body)

/-- What the name stands for, by its first character. -/
def ofName (name : String) : NameKind :=
  match name.toList with
  | [] => plain
  | '=' :: rest => expr (String.ofList rest)
  | '|' :: rest => multi (String.ofList rest)
  | '~' :: rest => tree (String.ofList rest)
  | '%' :: rest => ofEnv rest
  | c :: _ => if c.isDigit then expr name else plain

end NameKind

end ActionTree
