import ActionTree.Number.Power
import ActionTree.Pattern.Regex.Basic

/-!
Regular expressions as programs, and the search for the match that comes first. A search tries the
alternatives in their order and visits no instruction twice at one position, so it ends after as many
steps as there are pairs of both.
-/

namespace ActionTree.Regex

inductive Instruction where
  | accept
  | consume (s : CharSet) (next : Nat)
  | check (a : Assertion) (next : Nat)
  | save (slot : Nat) (next : Nat)
  | split (first second : Nat)

/-- A program under construction, and where the part built last starts. -/
structure Assembly where
  code : Array Instruction
  start : Nat

namespace Assembly

def push (a : Assembly) (i : Instruction) : Assembly := ⟨a.code.push i, a.code.size⟩

/-- A choice between `first` and `second`; a lazy one prefers the second. -/
def choice (greedy : Bool) (first second : Nat) : Instruction :=
  if greedy then .split first second else .split second first

/-- Makes room for an instruction that is known only after what it leads to. -/
def reserve (a : Assembly) : Assembly := a.push .accept

/-- `n` copies of a part in a row. -/
def copies (part : Assembly → Assembly) (n : Nat) (a : Assembly) : Assembly := Nat.repeat part n a

/-- One or more copies of a part. -/
def plus (part : Assembly → Assembly) (greedy : Bool) (a : Assembly) : Assembly :=
  let next := a.start
  let loop := a.reserve
  let body := part loop
  ⟨body.code.setIfInBounds loop.start (choice greedy body.start next), body.start⟩

/-- Up to `n` copies of a part, each one asked for only after the one before. -/
def optional (part : Assembly → Assembly) (greedy : Bool) (finish : Nat) : Nat → Assembly → Assembly
  | 0, a => a
  | n + 1, a =>
    let body := part (optional part greedy finish n a)
    body.push (choice greedy body.start finish)

end Assembly

/-- The program that runs the expression and goes on with what has been assembled. -/
def assemble : Regex → Assembly → Assembly
  | .empty, a => a
  | .oneOf s, a => a.push (.consume s a.start)
  | .assert p, a => a.push (.check p a.start)
  | .group index r, a =>
    let closed := a.push (.save (2 * index + 1) a.start)
    let body := assemble r closed
    body.push (.save (2 * index) body.start)
  | .sequence r s, a => assemble r (assemble s a)
  | .either r s, a =>
    let second := assemble s a
    let first := assemble r { second with start := a.start }
    first.push (.split first.start second.start)
  | .repetition r least most greedy, a =>
    let part := assemble r
    match most with
    | some most =>
      let finish := a.start
      Assembly.copies part least (Assembly.optional part greedy finish (most - least) a)
    | none =>
      let next := a.start
      let loop := Assembly.plus part greedy a
      if least = 0 then loop.push (Assembly.choice greedy loop.start next)
      else Assembly.copies part (least - 1) loop

/-- How many instructions the program of an expression has, about. -/
def size : Regex → Nat
  | .empty => 1
  | .oneOf _ | .assert _ => 1
  | .group _ r => size r + 2
  | .sequence r s | .either r s => size r + size s + 1
  | .repetition r least most _ => (size r + 1) * (max least (most.getD 0) + 1)

/-- Expressions with longer programs are refused. -/
def greatestSize : Nat := twoTo 18

/-- A program that ends in acceptance. -/
def program (r : Regex) : Assembly := assemble r ⟨#[.accept], 0⟩

/-- The bounds of the whole match and of the groups, as positions by slot. -/
abbrev Slots := List (Nat × Nat)

/-- A place in the program and in the text that is still to be tried. -/
structure Task where
  instruction : Nat
  position : Nat
  slots : Slots

/-- Tries the tasks in order. `seen` marks the instructions that were tried at a position. -/
def runTasks (code : Array Instruction) (text : Array Char) :
    Nat → Array Bool → List Task → Option Task × Array Bool
  | 0, seen, _ => (none, seen)
  | _ + 1, seen, [] => (none, seen)
  | steps + 1, seen, task :: rest =>
    let key := task.instruction * (text.size + 1) + task.position
    if seen.getD key true then runTasks code text steps seen rest
    else
      let seen := seen.setIfInBounds key true
      match code[task.instruction]? with
      | none => runTasks code text steps seen rest
      | some .accept => (some task, seen)
      | some (.consume s next) =>
        match text[task.position]? with
        | some c =>
          if s.has c then
            runTasks code text steps seen (⟨next, task.position + 1, task.slots⟩ :: rest)
          else runTasks code text steps seen rest
        | none => runTasks code text steps seen rest
      | some (.check a next) =>
        let before := if task.position = 0 then none else text[task.position - 1]?
        if a.holds before text[task.position]? then
          runTasks code text steps seen (⟨next, task.position, task.slots⟩ :: rest)
        else runTasks code text steps seen rest
      | some (.save slot next) =>
        runTasks code text steps seen
          (⟨next, task.position, (slot, task.position) :: task.slots⟩ :: rest)
      | some (.split first second) =>
        runTasks code text steps seen
          (⟨first, task.position, task.slots⟩ :: ⟨second, task.position, task.slots⟩ :: rest)

/-- The first start from `position` on where the program accepts. -/
def searchFrom (a : Assembly) (text : Array Char) : Nat → Nat → Array Bool → Option Slots
  | 0, _, _ => none
  | starts + 1, position, seen =>
    let steps := 2 * a.code.size * (text.size + 1) + 2
    match runTasks a.code text steps seen [⟨a.start, position, [(0, position)]⟩] with
    | (some task, _) => some ((1, task.position) :: task.slots)
    | (none, seen) => searchFrom a text starts (position + 1) seen

/-- The leftmost match that starts at `position` or later. -/
def search (a : Assembly) (text : Array Char) (position : Nat) : Option Slots :=
  let seen := Array.replicate (a.code.size * (text.size + 1)) false
  searchFrom a text (text.size + 1 - position) position seen

/-- All matches from left to right. An empty match is not taken where the match before it ended. -/
def searchAll (a : Assembly) (text : Array Char) : Nat → Nat → Option Nat → List Slots
  | 0, _, _ => []
  | n + 1, position, last =>
    let found := search a text position
    let isEmpty (m : Slots) : Bool := m.lookup 0 == m.lookup 1
    let found := match found, last with
      | some m, some e =>
        if isEmpty m && m.lookup 1 == some e then search a text (position + 1) else found
      | found, _ => found
    match found with
    | some m =>
      let e := (m.lookup 1).getD text.size
      m :: searchAll a text n e (some e)
    | none => []

end ActionTree.Regex
