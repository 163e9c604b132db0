import TsBuild.Script.Place
import TsBuild.Script.Print.Doc

/-!
# Writing documents

A document is written into lines with four spaces for each level of indentation, put in
front of the first text of a line. Beside the text goes a list of marks: which source
position stands at which generated line and column, columns counted in UTF-16 units.
Comments are written where the document asks for them first, and once.
-/

namespace TsBuild.Script.Print

structure Mark where
  pos : Pos
  line : Nat
  column : Nat
  deriving DecidableEq, Repr

structure Writer where
  texts : List String := []
  line : Nat := 0
  column : Nat := 0
  depth : Nat := 0
  atStart : Bool := true
  /-- The position the next text on this line comes from. -/
  pending : Option Pos := none
  /-- Last first. -/
  marks : List Mark := []
  leading : List (Pos × Comment) := []
  trailing : List (Pos × Comment) := []

namespace Writer

def advance (line column : Nat) : List Char → Nat × Nat
  | [] => (line, column)
  | c :: rest => if c = '\n' then advance (line + 1) 0 rest else advance line (column + Place.units c) rest

def put (writer : Writer) (s : String) : Writer :=
  let (line, column) := advance writer.line writer.column s.toList
  { writer with texts := s :: writer.texts, line, column }

def note (writer : Writer) (pos : Pos) : Writer :=
  let mark : Mark := ⟨pos, writer.line, writer.column⟩
  let here := writer.marks.takeWhile fun m => m.line = mark.line && m.column = mark.column
  if pos = 0 || here.contains mark then writer else { writer with marks := mark :: writer.marks }

def notePending (writer : Writer) : Writer :=
  match writer.pending with
  | none => writer
  | some pos => { writer with pending := none }.note pos

def text (writer : Writer) (s : String) : Writer :=
  if s.isEmpty then writer
  else if writer.atStart then
    let indented := writer.put (String.ofList (List.replicate (4 * writer.depth) ' '))
    ({ indented with atStart := false }.notePending).put s
  else writer.put s

/-- The position of what follows. At the start of a line the last one given counts. -/
def mark (writer : Writer) (pos : Pos) : Writer :=
  if pos = 0 then writer
  else if writer.atStart then { writer with pending := some pos }
  else writer.note pos

/-- Ends the line. A position still pending is dropped at the start of a line. -/
def endLine (writer : Writer) : Writer :=
  if writer.atStart then { writer with pending := none }
  else { (writer.put "\n") with atStart := true }.notePending

def comment (spaced : Bool) (writer : Writer) (c : Comment) : Writer :=
  let writer := if spaced then writer.text " " else writer
  let writer := writer.mark c.start
  let endPos := if c.start = 0 then 0 else c.start + 2 + c.text.utf8ByteSize
  if c.isBlock then
    ((((writer.text "/*").text c.text).mark endPos).text "*/").text " "
  else
    (((writer.text "//").text c.text).mark endPos).endLine

def comments (spaced : Bool) (writer : Writer) : List Comment → Writer
  | [] => writer
  | c :: rest => comments false (writer.comment spaced c) rest

def before (writer : Writer) (pos : Pos) : Writer :=
  let (here, rest) := writer.leading.partition fun (p, _) => p = pos
  { writer with leading := rest }.comments false (here.map Prod.snd)

def behind (writer : Writer) (pos : Pos) (spaced : Bool) : Writer :=
  let (here, rest) := writer.trailing.partition fun (p, _) => p = pos
  { writer with trailing := rest }.comments spaced (here.map Prod.snd)

def write (writer : Writer) : Doc → Writer
  | .empty => writer
  | .text s => writer.text s
  | .mark pos => writer.mark pos
  | .line => writer.endLine
  | .nest inner =>
    let inner := { writer with depth := writer.depth + 1 }.write inner
    { inner with depth := writer.depth }
  | .before pos => if pos = 0 then writer else writer.before pos
  | .behind pos spaced => if pos = 0 then writer else writer.behind pos spaced
  | .append first second => (writer.write first).write second

def result (writer : Writer) : String := String.join writer.texts.reverse

end Writer

def written (leading trailing : List (Pos × Comment)) (doc : Doc) : String × List Mark :=
  let writer := ({ leading, trailing } : Writer).write doc
  (writer.result, writer.marks.reverse)

end TsBuild.Script.Print
