import ActionTree.Text.Blank

/-!
A text in double quotes, with the characters that do not show written as escapes.
-/

namespace ActionTree.Text

/-- Characters that have no picture of their own: control and format characters, separators other
than the blank, private use and noncharacters, and the commonest combining marks. -/
def hiddenRanges : List (Nat × Nat) :=
  [(0, 31), (127, 160), (173, 173), (768, 879), (1155, 1161), (1425, 1469), (1536, 1541),
   (1611, 1631), (1648, 1648), (1750, 1757), (5760, 5760), (6068, 6069), (6155, 6158),
   (7616, 7679), (8192, 8207), (8232, 8239), (8287, 8303), (8400, 8432), (12288, 12288),
   (12330, 12335), (12441, 12442), (57344, 63743), (65024, 65039), (65056, 65071), (65279, 65279),
   (65520, 65531), (65534, 65535), (113824, 113827), (917504, 1114111)]

/-- One character between the quotes. -/
def quotedChar (c : Char) : List Char :=
  match c with
  | '"' => ['\\', '"']
  | '\\' => ['\\', '\\']
  | '\n' => ['\\', 'n']
  | '\r' => ['\\', 'r']
  | '\t' => ['\\', 't']
  | c =>
    if c.toNat = 0 then ['\\', '0']
    else if inRanges hiddenRanges c then
      "\\u\x7b".toList ++ Nat.toDigits 16 c.toNat ++ "\x7d".toList
    else [c]

def quoted (s : String) : String :=
  String.ofList ('"' :: s.toList.flatMap quotedChar ++ ['"'])

end ActionTree.Text
