import TsBuild.Text.Basic

/-!
# Code frames

A frame shows a line of a text between its neighbours, with line numbers and a
mark under one column.
-/

namespace TsBuild.Diagnostic

def expandTabs (line : List Char) : List Char :=
  line.flatMap fun c => if c = '\t' then [' ', ' '] else [c]

/-- Drops the blank lines at the end, but keeps at least `least` lines. -/
def dropBlankEnd (least : Nat) (lines : List (List Char)) : List (List Char) :=
  lines.take least ++
    ((lines.drop least).reverse.dropWhile fun line => (Text.trim line).isEmpty).reverse

/-- The frame around `line` (from one) and `column` (from zero): up to two lines on either
side, none of the blank ones at the end, and a caret below the error line. -/
def codeFrame (source : String) (line column : Nat) : String :=
  let lines := (Text.splitOn '\n' source.toList).map (Text.trimEnd (· = '\r'))
  let first := line - 3
  let window := dropBlankEnd (line - first) ((lines.take (line + 2)).drop first)
  let width := (toString (first + window.length)).length
  let rendered := window.zipIdx.flatMap fun (text, i) =>
    let number := first + i + 1
    let shown := Text.padLeft width (toString number).toList ++ [':', ' '] ++ expandTabs text
    if number = line then
      [shown, List.replicate (width + 2 + (expandTabs (text.take column)).length) ' ' ++ ['^']]
    else [shown]
  String.ofList (Text.joinWith ['\n'] rendered)

end TsBuild.Diagnostic
