import TsBuild.Text.Basic

/-!
# Texts in elements

What a text between tags, or in the quotes of an attribute, is when the script runs. A text
between tags is cut into lines; blanks around the line ends go, and with them the lines of
blanks alone, and what stays is put together with single spaces.
-/

namespace TsBuild.Script.Jsx

def lineText (isFirst isLast : Bool) (line : List Char) : List Char :=
  let line := if isFirst then line else line.dropWhile (· = ' ')
  if isLast then line else Text.trimEnd (· = ' ') line

def childText (value : String) : String :=
  let lines := Text.lines (value.toList.map fun c => if c = '\t' then ' ' else c)
  let pieces := lines.mapIdx fun i line => lineText (i = 0) (i + 1 = lines.length) line
  String.ofList (Text.joinWith [' '] (pieces.filter fun piece => !piece.isEmpty))

def spelled : Char → List Char
  | '\x08' => ['\\', 'b']
  | '\x0b' => ['\\', 'v']
  | '\x0c' => ['\\', 'f']
  | '\x00' => ['\\', 'x', '0', '0']
  | c => [c]

/-- The characters in the quotes of an attribute. A line end or a tab is one space, together with the
spaces behind it. -/
def attributeChars (afterEnd : Bool) : List Char → List Char
  | [] => []
  | c :: rest =>
    if c = '\n' || c = '\r' || c = '\t' then ' ' :: attributeChars true rest
    else if afterEnd && c = ' ' then attributeChars true rest
    else spelled c ++ attributeChars false rest

def attributeText (value : String) : String := String.ofList (attributeChars false value.toList)

end TsBuild.Script.Jsx
