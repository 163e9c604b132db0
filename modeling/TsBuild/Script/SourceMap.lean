import TsBuild.Json.Writer
import TsBuild.Script.Place
import TsBuild.Script.Print.Writer

/-!
# Source maps

A source map gives for places in a generated text the places in its source they come
from. Each segment holds the differences to the one before it, a number in groups of five
bits with the sign lowest; segments of a line are separated by commas and lines end with a
semicolon.
-/

namespace TsBuild.Script.SourceMap

def alphabet : List Char :=
  "ABCDEFGHIJKLMNOPQRSTUVWXYZabcdefghijklmnopqrstuvwxyz0123456789+/".toList

/-- Groups of five bits, lowest first, all but the last with the sixth bit set. -/
def groups (n : Nat) : List Nat :=
  if n < 32 then [n] else (n % 32 + 32) :: groups (n / 32)

def encode (n : Int) : List Char :=
  let unsigned := if n < 0 then 2 * n.natAbs + 1 else 2 * n.natAbs
  (groups unsigned).map fun d => alphabet.getD d 'A'

structure Segment where
  line : Nat
  column : Nat
  sourceLine : Nat
  sourceColumn : Nat
  deriving DecidableEq, Repr

def Segment.start : Segment := ⟨0, 0, 0, 0⟩

def encodeFrom (last : Segment) (isFirst : Bool) : List Segment → List Char
  | [] => []
  | segment :: rest =>
    if !isFirst && segment = last then encodeFrom last isFirst rest
    else
      let separator :=
        if segment.line = last.line then (if isFirst then [] else [','])
        else List.replicate (segment.line - last.line) ';'
      let column := if segment.line = last.line then last.column else 0
      separator ++ encode ((segment.column : Int) - column) ++ encode 0 ++
        encode ((segment.sourceLine : Int) - last.sourceLine) ++
        encode ((segment.sourceColumn : Int) - last.sourceColumn) ++ encodeFrom segment false rest

def mappings (segments : List Segment) : String :=
  String.ofList (encodeFrom .start true segments)

def segments (source : String) (marks : List Print.Mark) : List Segment :=
  let table := Place.table source
  marks.map fun mark =>
    let place := Place.lookup table mark.pos
    ⟨mark.line, mark.column, place.line, place.column⟩

/-- The map of a text with these marks, as JSON. A map without segments names no source. -/
def json (fileName source : String) (marks : List Print.Mark) : Json :=
  .object [("version", .number (.int 3)),
    ("sources", .array (if marks.isEmpty then [] else [.string fileName])),
    ("names", .array []),
    ("mappings", .string (mappings (segments source marks)))]

end TsBuild.Script.SourceMap
