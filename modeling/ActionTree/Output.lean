/-!
Where lines are written to.
-/

namespace ActionTree

inductive Output where
  /-- Keeps the lines, the last one first. -/
  | capture (lines : List String)
  /-- Passes the lines on as one text. -/
  | writer (written : String)
  /-- Refuses every line. -/
  | broken (cause : String)
  deriving DecidableEq

namespace Output

/-- The output after a line, or why the line cannot be written. -/
def writeLine (line : String) : Output → Except String Output
  | capture lines => .ok (capture (line :: lines))
  | writer written => .ok (writer (written ++ line ++ "\n"))
  | broken cause => .error cause

/-- The lines that were kept, the first one first. -/
def lines : Output → List String
  | capture lines => lines.reverse
  | _ => []

end Output

end ActionTree
