import TsBuild.Text.Basic

/-!
# Places in scripts

The line and column of a character, both from zero, as tools that read scripts count them: a
column is a number of UTF-16 units, and a line ends with a line feed, a carriage return, or the
two in this order.
-/

namespace TsBuild.Script

structure Place where
  line : Nat
  column : Nat
  deriving DecidableEq, Repr

namespace Place

def units (c : Char) : Nat := if c.toNat < 0x10000 then 1 else 2

def step (place : Place) (c : Char) (next? : Option Char) : Place :=
  if c = '\n' || (c = '\r' && next? ≠ some '\n') then ⟨place.line + 1, 0⟩
  else ⟨place.line, place.column + units c⟩

def ofBytes (place : Place) : List Char → List Place
  | [] => [place]
  | c :: rest => List.replicate c.utf8Size place ++ ofBytes (place.step c rest.head?) rest

def table (text : String) : Array Place := (ofBytes ⟨0, 0⟩ text.toList).toArray

/-- The place of a position in a text with this table; one past the end counts as the end. -/
def lookup (table : Array Place) (pos : Nat) : Place :=
  table.getD (pos - 1) (table.back?.getD ⟨0, 0⟩)

end Place

end TsBuild.Script
