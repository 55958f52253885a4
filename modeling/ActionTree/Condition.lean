/-!
Conditions: tests of written texts, in a fixed order. Each test occurs at most once.
-/

namespace ActionTree

/-- What is asked of a text. -/
inductive Probe where
  | isSet | isNotSet
  | isNull | isNotNull
  | isZero | isNotZero
  | isTrue | isFalse
  | isEmpty | isNotEmpty
  | isFile | isNotFile
  | isDirectory | isNotDirectory
  /-- The text is an expression that counts as true. -/
  | holds
  deriving DecidableEq

/-- The place of a test in the order in which tests are made. -/
def Probe.rank : Probe → Nat
  | isSet => 0
  | isNotSet => 1
  | isNull => 2
  | isNotNull => 3
  | isZero => 4
  | isNotZero => 5
  | isTrue => 6
  | isFalse => 7
  | isEmpty => 8
  | isNotEmpty => 9
  | isFile => 10
  | isNotFile => 11
  | isDirectory => 12
  | isNotDirectory => 13
  | holds => 14

/-- All tests in the order in which they are made. -/
def Probe.all : List Probe :=
  [isSet, isNotSet, isNull, isNotNull, isZero, isNotZero, isTrue, isFalse, isEmpty, isNotEmpty,
   isFile, isNotFile, isDirectory, isNotDirectory, holds]

def Probe.name : Probe → String
  | isSet => "IsSet"
  | isNotSet => "IsNotSet"
  | isNull => "IsNull"
  | isNotNull => "IsNotNull"
  | isZero => "IsZero"
  | isNotZero => "IsNotZero"
  | isTrue => "IsTrue"
  | isFalse => "IsFalse"
  | isEmpty => "IsEmpty"
  | isNotEmpty => "IsNotEmpty"
  | isFile => "IsFile"
  | isNotFile => "IsNotFile"
  | isDirectory => "IsDirectory"
  | isNotDirectory => "IsNotDirectory"
  | holds => "Condition"

/-- The test of that name. -/
def Probe.ofName? (name : String) : Option Probe := all.find? fun p => p.name == name

structure Condition where
  /-- The tests and their texts, sorted by the rank of the test. -/
  probes : List (Probe × String) := []
  /-- Must all tests succeed, or is one enough? -/
  all : Bool := true
  deriving DecidableEq

namespace Condition

section Search

variable {α : Type} (key : α → Nat) (wanted : Nat) (entries : List α)

/-- Halves the `size` entries from `base` on until one of them is left. With ascending keys that is the last
one whose key is not beyond the wanted one, or else the first. -/
def halve (base size : Nat) (hsize : 0 < size) (hend : base + size ≤ entries.length) : Fin entries.length :=
  if h : size = 1 then ⟨base, by omega⟩
  else
    have hmid : base + size / 2 < entries.length := by omega
    if wanted < key entries[base + size / 2] then
      halve base (size - size / 2) (by omega) (by omega)
    else
      halve (base + size / 2) (size - size / 2) (by omega) (by omega)
termination_by size

/-- The position of the entry with a key, or, as an error, the position where there is room for one. -/
def search : Except Nat Nat :=
  if h : 0 < entries.length then
    let i := halve key wanted entries 0 entries.length h (by omega)
    if key entries[i] = wanted then .ok i
    else .error (if key entries[i] < wanted then i + 1 else i)
  else .error 0

end Search

/-- Puts a test at its place in a sorted list, or gives the one that is there a new text. -/
def put (probe : Probe) (text : String) (probes : List (Probe × String)) : List (Probe × String) :=
  match search (fun p => p.1.rank) probe.rank probes with
  | .ok i => probes.modify i fun p => (p.1, text)
  | .error i => probes.insertIdx i (probe, text)

/-- The condition with one more test. -/
def withProbe (c : Condition) (probe : Probe) (text : String) : Condition :=
  { c with probes := put probe text c.probes }

/-- The condition for which one test is enough. -/
def any (c : Condition) : Condition := { c with all := false }

end Condition

end ActionTree
