import ActionTree.Config.Toml

/-!
The settings of an engine and how they are read from a document. A document names each setting at most
once, and nothing else.
-/

namespace ActionTree

/-- How the variables of a called sub relate to those of its caller. -/
inductive CallIsolation where
  /-- The sub works on the caller's variables. -/
  | none
  /-- The sub sees the caller's variables, and its changes are undone. -/
  | default
  /-- The sub sees its parameters only, and its changes are undone. -/
  | high
  deriving DecidableEq

namespace CallIsolation

def name : CallIsolation → String
  | none => "None"
  | default => "Default"
  | high => "High"

/-- The isolation that a document names, in small letters. -/
def ofSetting? : String → Option CallIsolation
  | "none" => some none
  | "default" => some default
  | "high" => some high
  | _ => Option.none

end CallIsolation

structure Config where
  /-- How many expressions a session keeps; 0 for none. -/
  cacheCapacity : Nat := 256
  /-- How many frames may be open. -/
  maxCallDepth : Nat := 256
  /-- Are the open frames part of an error report? -/
  verboseErrors : Bool := false
  /-- The isolation of a call that names none. -/
  defaultIsolation : CallIsolation := .default
  /-- After how many rounds a loop is stopped with a fault; 0 for never. -/
  maxLoopIterations : Nat := 0
  deriving DecidableEq

inductive ConfigFault where
  | unreadable
  | malformed
  deriving DecidableEq

namespace Config

/-- A number that is not negative. -/
def count? : Toml.Scalar → Option Nat
  | .int n => if 0 ≤ n then some n.toNat else none
  | _ => none

/-- The configuration with one setting changed; `none` if there is no such setting or the value does
not suit it. -/
def set? (c : Config) (name : String) (v : Toml.Scalar) : Option Config :=
  match name, v with
  | "cache_capacity", v => (count? v).map fun n => { c with cacheCapacity := n }
  | "max_call_depth", v => (count? v).map fun n => { c with maxCallDepth := n }
  | "max_loop_iterations", v => (count? v).map fun n => { c with maxLoopIterations := n }
  | "verbose_errors", .bool b => some { c with verboseErrors := b }
  | "default_isolation", .str s =>
    (CallIsolation.ofSetting? s).map fun i => { c with defaultIsolation := i }
  | _, _ => none

/-- The configuration that a document denotes; what it does not name keeps its default. -/
def ofToml? (text : String) : Option Config := do
  let settings ← Toml.settings? text
  if (settings.map Prod.fst).eraseDups.length < settings.length then none
  settings.foldlM (fun c s => c.set? s.1 s.2) {}

/-- The configuration in a file; `none` for a file that is not there. -/
def load (file : Option String) : Except ConfigFault Config :=
  match file with
  | none => .error .unreadable
  | some text => match ofToml? text with
    | some c => .ok c
    | none => .error .malformed

/-- The configuration in a file, or the defaults if it is not there. -/
def loadOrDefault (file : Option String) : Except ConfigFault Config :=
  match file with
  | none => .ok {}
  | some _ => load file

end Config

end ActionTree
