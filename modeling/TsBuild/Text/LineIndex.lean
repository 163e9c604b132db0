import TsBuild.Text.Position

/-!
# Line indexes

Where the lines of a text begin is noted once, byte by byte. The line of an offset is then searched among
these offsets by halving, and only the characters of that line are counted. What could fail here is a step below
the first line, a line without a beginning and a cut through a character.
-/

namespace TsBuild.Text

def charOffsets : List Char → (offset : Nat) → List Nat
  | [], _ => []
  | c :: cs, offset => offset :: charOffsets cs (offset + c.utf8Size)

def cutAtByte? : (offset : Nat) → List Char → Option (List Char)
  | 0, cs => some cs
  | _ + 1, [] => none
  | offset + 1, c :: cs => if c.utf8Size ≤ offset + 1 then cutAtByte? (offset + 1 - c.utf8Size) cs else none

/-- Halves the `size` keys from `base` on until one is left: the last that is no greater than `key`, if they
are in order and the first is no greater. -/
def halve (keys : Array Nat) (key base size : Nat) (h : base + size ≤ keys.size) : Nat :=
  if hsize : 1 < size then
    if keys[base + size / 2] > key then halve keys key base (size - size / 2) (by omega)
    else halve keys key (base + size / 2) (size - size / 2) (by omega)
  else base
termination_by size

def search (keys : Array Nat) (key : Nat) : Except Nat Nat :=
  let base := halve keys key 0 keys.size (Nat.le_of_eq (Nat.zero_add _))
  match keys[base]? with
  | none => .error 0
  | some found => if found = key then .ok base else .error (if found < key then base + 1 else base)

structure LineIndex where
  text : List Char
  starts : Array Nat
  deriving Repr

namespace LineIndex

/-- A line begins at the beginning, and behind each byte that is a line feed. -/
def of (text : String) : LineIndex where
  text := text.toList
  starts := (0 :: (text.toUTF8.data.toList.zipIdx.filter (·.1 = '\n'.toUInt8)).map (·.2 + 1)).toArray

def line? (index : LineIndex) (offset : Nat) : Option Nat :=
  match search index.starts offset with
  | .ok line => some line
  | .error 0 => none
  | .error (line + 1) => some line

def position? (index : LineIndex) (offset : Nat) : Option Position := do
  let offset := min offset (byteLength index.text)
  let line ← index.line? offset
  let start ← index.starts[line]?
  let rest ← cutAtByte? start index.text
  pure ⟨line, ((charOffsets rest start).takeWhile (· < offset)).length⟩

def offset? (index : LineIndex) (at' : Position) : Option Nat :=
  match index.starts[at'.line]? with
  | none => some (byteLength index.text)
  | some start => do
    let rest ← cutAtByte? start index.text
    pure (((charOffsets rest start)[at'.character]?).getD (byteLength index.text))

end LineIndex

end TsBuild.Text
