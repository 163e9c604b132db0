import TsBuild.Script.Cause

/-!
# Escapes

What an escape stands for, read behind its backslash. Strings, templates and words share the
escapes of code points; a half of a surrogate pair is no character and stays as it is written.
-/

namespace TsBuild.Script

def isLineEnd (c : Char) : Bool := c = '\n' || c = '\r' || c = '\u2028' || c = '\u2029'

def hexValue? (c : Char) : Option Nat :=
  if c.isDigit then some (c.toNat - '0'.toNat)
  else if 'a' ≤ c && c ≤ 'f' then some (c.toNat - 'a'.toNat + 10)
  else if 'A' ≤ c && c ≤ 'F' then some (c.toNat - 'A'.toNat + 10)
  else none

def hexNumber (digits : List Char) : Nat :=
  digits.foldl (fun n c => 16 * n + (hexValue? c).getD 0) 0

def hexDigitsOf (cs : List Char) : List Char := cs.takeWhile fun c => (hexValue? c).isSome

structure Escape where
  /-- The characters it stands for; none if it continues a line. -/
  chars : List Char := []
  /-- How many characters it takes, or how many were read when it turned out to be wrong. -/
  taken : Nat
  fault? : Option Cause := none
  deriving Repr

namespace Escape

def isSurrogate (n : Nat) : Bool := 0xd800 ≤ n && n ≤ 0xdfff

/-- The character of a code point. What is written stands for a half of a surrogate pair. -/
def codePoint (n : Nat) (written : List Char) : List Char :=
  if isSurrogate n then '\\' :: 'u' :: written else [Char.ofNat n]

/-- How many digits make a number that a word of 32 bits cannot hold; none if all of them do not. -/
def overflow? (digits : List Char) : Option Nat :=
  (List.range (digits.length + 1)).find? fun n => 0x100000000 ≤ hexNumber (digits.take n)

def unicode (cs : List Char) : Escape :=
  match cs with
  | '\x7b' :: rest =>
    let digits := hexDigitsOf rest
    let length := digits.length
    let wrong (n : Nat) (cause : Cause) : Escape := { taken := n + 1, fault? := some cause }
    if digits.isEmpty then wrong 0 (.badEscape "1-6 hex characters")
    else if let some n := overflow? digits then wrong n (.badEscape "1-6 hex characters")
    else if 0x10ffff < hexNumber digits then
      wrong length (.badEscape "1-6 hex characters in the range 0 to 10FFFF.")
    else if 6 < length && isSurrogate (hexNumber digits) then
      wrong 6 .invalidUnicodeEscape
    else if rest[length]? ≠ some '\x7d' then wrong length .invalidUnicodeEscape
    else { chars := codePoint (hexNumber digits) (cs.take (length + 2)), taken := length + 2 }
  | cs =>
    let digits := hexDigitsOf (cs.take 4)
    if digits.length = 4 then { chars := codePoint (hexNumber digits) digits, taken := 4 }
    else { taken := digits.length, fault? := some (.badEscape "4 hex characters") }

/-- An octal number of up to three digits, which strict code does not have. -/
def octal (first : Char) (rest : List Char) : Escape :=
  let more := rest.takeWhile fun d => '0' ≤ d && d ≤ '7'
  if first = '0' && more.isEmpty then { chars := ['\x00'], taken := 1 }
  else
    let digits := first :: more.take (if first ≤ '3' then 2 else 1)
    let n := digits.foldl (fun n d => 8 * n + (d.toNat - '0'.toNat)) 0
    { chars := [Char.ofNat n], taken := digits.length, fault? := some .legacyOctal }

def ofText (cs : List Char) : Escape :=
  match cs with
  | [] => { taken := 0, fault? := some .invalidEscape }
  | 'n' :: _ => { chars := ['\n'], taken := 1 }
  | 'r' :: _ => { chars := ['\r'], taken := 1 }
  | 't' :: _ => { chars := ['\t'], taken := 1 }
  | 'b' :: _ => { chars := ['\x08'], taken := 1 }
  | 'v' :: _ => { chars := ['\x0b'], taken := 1 }
  | 'f' :: _ => { chars := ['\x0c'], taken := 1 }
  | '\r' :: '\n' :: _ => { taken := 2 }
  | 'x' :: rest =>
    let digits := hexDigitsOf (rest.take 2)
    if digits.length = 2 then { chars := [Char.ofNat (hexNumber digits)], taken := 3 }
    else { taken := digits.length + 1, fault? := some (.badEscape "2 hex characters") }
  | 'u' :: rest =>
    let escape := unicode rest
    { escape with taken := escape.taken + 1 }
  | c :: rest =>
    if isLineEnd c then { taken := 1 }
    else if '0' ≤ c && c ≤ '7' then octal c rest
    else { chars := [c], taken := 1 }

end Escape

end TsBuild.Script
