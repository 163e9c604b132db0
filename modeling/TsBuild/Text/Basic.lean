/-!
# Characters, pieces and widths

Texts are cut and measured as lists of characters. Offsets elsewhere in the
library are byte offsets in UTF-8, so `byteLength` is the bridge between the two.
-/

namespace TsBuild.Text

def byteLength : List Char → Nat
  | [] => 0
  | c :: cs => c.utf8Size + byteLength cs

@[simp] theorem byteLength_append (a b : List Char) :
    byteLength (a ++ b) = byteLength a + byteLength b := by
  induction a with
  | nil => simp [byteLength]
  | cons c cs ih => simp [byteLength, ih, Nat.add_assoc]

/-- The characters that begin within the first `n` bytes. -/
def takeBytes : (n : Nat) → List Char → List Char
  | _, [] => []
  | n, c :: cs => if n = 0 then [] else c :: takeBytes (n - c.utf8Size) cs

def dropBytes : (n : Nat) → List Char → List Char
  | _, [] => []
  | n, c :: cs => if n = 0 then c :: cs else dropBytes (n - c.utf8Size) cs

theorem takeBytes_append_dropBytes (n : Nat) (cs : List Char) :
    takeBytes n cs ++ dropBytes n cs = cs := by
  induction cs generalizing n with
  | nil => simp [takeBytes, dropBytes]
  | cons c cs ih =>
    by_cases h : n = 0 <;> simp [takeBytes, dropBytes, h, ih]

/-- The pieces between the occurrences of `sep`; there is always at least one. -/
def splitOn (sep : Char) : List Char → List (List Char)
  | [] => [[]]
  | c :: cs =>
    if c = sep then [] :: splitOn sep cs
    else match splitOn sep cs with
      | [] => [[c]]
      | piece :: rest => (c :: piece) :: rest

theorem splitOn_ne_nil (sep : Char) (cs : List Char) : splitOn sep cs ≠ [] := by
  cases cs with
  | nil => simp [splitOn]
  | cons c cs =>
    simp only [splitOn]
    split
    · simp
    · split <;> simp

def joinWith (sep : List Char) : List (List Char) → List Char
  | [] => []
  | [piece] => piece
  | piece :: rest => piece ++ sep ++ joinWith sep rest

/-- The lines of a text; a line ends with a line feed, which a carriage return may precede. -/
def lines (cs : List Char) : List (List Char) :=
  let pieces := splitOn '\n' cs
  let ended := pieces.dropLast.map fun piece =>
    if piece.getLast? = some '\r' then piece.dropLast else piece
  ended ++ (pieces.getLast?.toList.filter fun piece => !piece.isEmpty)

def withoutByteOrderMark (text : String) : String :=
  match text.toList with
  | '\ufeff' :: rest => String.ofList rest
  | _ => text

def isAsciiBlank (c : Char) : Bool :=
  c = ' ' || c = '\t' || c = '\n' || c = '\x0c' || c = '\r'

def isBlank (c : Char) : Bool :=
  let n := c.toNat
  (9 ≤ n && n ≤ 13) || n = 0x20 || n = 0x85 || n = 0xA0 || n = 0x1680 ||
    (0x2000 ≤ n && n ≤ 0x200A) || n = 0x2028 || n = 0x2029 || n = 0x202F || n = 0x205F || n = 0x3000

def trimEnd (p : Char → Bool) (cs : List Char) : List Char :=
  (cs.reverse.dropWhile p).reverse

def trim (cs : List Char) : List Char :=
  trimEnd isBlank (cs.dropWhile isBlank)

def padLeft (width : Nat) (cs : List Char) : List Char :=
  List.replicate (width - cs.length) ' ' ++ cs

def dropPrefix? : (start : List Char) → List Char → Option (List Char)
  | [], cs => some cs
  | _ :: _, [] => none
  | s :: start, c :: cs => if s = c then dropPrefix? start cs else none

def startsWith (start cs : List Char) : Bool :=
  (dropPrefix? start cs).isSome

def endsWith (ending cs : List Char) : Bool :=
  startsWith ending.reverse cs.reverse

def dropSuffix? (ending cs : List Char) : Option (List Char) :=
  (dropPrefix? ending.reverse cs.reverse).map List.reverse

def cutAt? (needle : List Char) : List Char → Option (List Char × List Char)
  | [] => if needle.isEmpty then some ([], []) else none
  | c :: cs =>
    match dropPrefix? needle (c :: cs) with
    | some rest => some ([], rest)
    | none => (cutAt? needle cs).map fun (before, after) => (c :: before, after)

/-- Every occurrence of `needle`, left to right, replaced; an empty needle replaces nothing. -/
def replaceAll (needle replacement cs : List Char) : List Char :=
  if needle.isEmpty then cs
  else
    match cutAt? needle cs with
    | none => cs
    | some (before, after) =>
      if after.length < cs.length then before ++ replacement ++ replaceAll needle replacement after
      else cs
termination_by cs.length

end TsBuild.Text
