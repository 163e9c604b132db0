import TsBuild.Text.Basic

/-!
# Byte offsets and line positions

A position is a line and a character in it, both from zero; a character is one
Unicode scalar value and a line ends with its line feed. `position` and `offset`
turn one into the other by walking the text.
-/

namespace TsBuild.Text

structure Position where
  line : Nat
  character : Nat
  deriving DecidableEq, Repr

def Position.step (at' : Position) (c : Char) : Position :=
  if c = '\n' then ⟨at'.line + 1, 0⟩ else ⟨at'.line, at'.character + 1⟩

def positionFrom (start : Position) : List Char → (n : Nat) → Position
  | [], _ => start
  | c :: cs, n => if n = 0 then start else positionFrom (start.step c) cs (n - c.utf8Size)

/-- The position of a byte offset; an offset past the end counts as the end. -/
def position (text : List Char) (offset : Nat) : Position :=
  positionFrom ⟨0, 0⟩ text offset

def lineStart? : (line : Nat) → List Char → (offset : Nat) → Option (List Char × Nat)
  | 0, cs, offset => some (cs, offset)
  | _ + 1, [], _ => none
  | line + 1, c :: cs, offset =>
    lineStart? (if c = '\n' then line else line + 1) cs (offset + c.utf8Size)

/-- The offset of a position. A line or character past the end gives the end of the text;
a character past the end of its line is counted on into the lines below. -/
def offset (text : List Char) (at' : Position) : Nat :=
  match lineStart? at'.line text 0 with
  | none => byteLength text
  | some (cs, start) => start + byteLength (cs.take at'.character)

end TsBuild.Text
