import TsBuild.Json.Basic
import TsBuild.Text.Basic

/-!
# Reading JSON

One value with blanks around it, or the first fault and the byte offset where it
was noticed. Nesting is bounded, so the depth left is what the reader recurs on;
repetition within one value stops when a step consumes nothing.
-/

namespace TsBuild.Json

inductive Cause
  | eofInList
  | eofInObject
  | eofInString
  | eofInValue
  | expectedColon
  | expectedListCommaOrEnd
  | expectedObjectCommaOrEnd
  | expectedIdent
  | expectedValue
  | invalidEscape
  | invalidNumber
  | numberOutOfRange
  | controlCharacter
  | keyMustBeString
  | loneSurrogate
  | trailingComma
  | trailingCharacters
  | unexpectedEndOfHexEscape
  | recursionLimit
  | other (message : String)
  deriving DecidableEq, Repr

def Cause.message : Cause → String
  | eofInList => "EOF while parsing a list"
  | eofInObject => "EOF while parsing an object"
  | eofInString => "EOF while parsing a string"
  | eofInValue => "EOF while parsing a value"
  | expectedColon => "expected `:`"
  | expectedListCommaOrEnd => "expected `,` or `]`"
  | expectedObjectCommaOrEnd => "expected `,` or `\x7d`"
  | expectedIdent => "expected ident"
  | expectedValue => "expected value"
  | invalidEscape => "invalid escape"
  | invalidNumber => "invalid number"
  | numberOutOfRange => "number out of range"
  | controlCharacter => "control character (\\u0000-\\u001F) found while parsing a string"
  | keyMustBeString => "key must be a string"
  | loneSurrogate => "lone leading surrogate in hex escape"
  | trailingComma => "trailing comma"
  | trailingCharacters => "trailing characters"
  | unexpectedEndOfHexEscape => "unexpected end of hex escape"
  | recursionLimit => "recursion limit exceeded"
  | other message => message

/-- A fault and the number of bytes read when it was noticed. -/
structure Fault where
  cause : Cause
  offset : Nat
  deriving DecidableEq, Repr

structure Cursor where
  rest : List Char
  offset : Nat
  deriving DecidableEq, Repr

abbrev Reader (α : Type) := StateT Cursor (Except Fault) α

namespace Reader

def fail (cause : Cause) : Reader α := fun cur => throw ⟨cause, cur.offset⟩

def failNext (cause : Cause) : Reader α := fun cur =>
  throw ⟨cause, if cur.rest.isEmpty then cur.offset else cur.offset + 1⟩

def peek : Reader (Option Char) := fun cur => pure (cur.rest.head?, cur)

def skip (n : Nat) : Reader Unit := fun cur =>
  pure ((), ⟨cur.rest.drop n, cur.offset + Text.byteLength (cur.rest.take n)⟩)

def next : Reader (Option Char) := fun cur =>
  match cur.rest with
  | [] => pure (none, cur)
  | c :: rest => pure (some c, ⟨rest, cur.offset + c.utf8Size⟩)

def takeWhile (p : Char → Bool) : Reader (List Char) := fun cur =>
  let run := cur.rest.takeWhile p
  pure (run, ⟨cur.rest.drop run.length, cur.offset + Text.byteLength run⟩)

def isBlank (c : Char) : Bool := c = ' ' || c = '\n' || c = '\t' || c = '\r'

def peekToken : Reader (Option Char) := do
  let _ ← takeWhile isBlank
  peek

/-- Runs `step` from one state to the next until it gives a result. A step that says to go on
without having read anything ends the loop with `stuck`. -/
def loop (step : σ → Reader (σ ⊕ α)) (stuck : Reader α) (s : σ) : Reader α := fun cur =>
  match step s cur with
  | .error fault => .error fault
  | .ok (.inr a, cur') => .ok (a, cur')
  | .ok (.inl s', cur') =>
    if cur'.rest.length < cur.rest.length then loop step stuck s' cur' else stuck cur'
termination_by cur => cur.rest.length

end Reader

open Reader
open Binary64 (power)

def ident : List Char → Reader Unit
  | [] => pure ()
  | e :: es => do
    let cur ← get
    match ← next with
    | none => fail .eofInValue
    | some c => if c = e then ident es else fun _ => throw ⟨.expectedIdent, cur.offset + 1⟩

def hexValue? (c : Char) : Option Nat :=
  if c.isDigit then some (c.toNat - '0'.toNat)
  else if 'a' ≤ c && c ≤ 'f' then some (c.toNat - 'a'.toNat + 10)
  else if 'A' ≤ c && c ≤ 'F' then some (c.toNat - 'A'.toNat + 10)
  else none

/-- Four hexadecimal digits; the next four bytes are taken whatever they are. -/
def hexEscape : Reader Nat := fun cur =>
  let four := cur.rest.take 4
  if Text.byteLength cur.rest < 4 then
    throw ⟨.eofInString, cur.offset + Text.byteLength cur.rest⟩
  else match four.mapM hexValue? with
    | some digits =>
      pure (digits.foldl (fun n d => 16 * n + d) 0, ⟨cur.rest.drop 4, cur.offset + 4⟩)
    | none => throw ⟨.invalidEscape, cur.offset + 4⟩

def surrogateMark (mark : Char) : Reader Unit := do
  match ← peek with
  | none => fail .eofInString
  | some c => if c = mark then skip 1 else failNext .unexpectedEndOfHexEscape

def unicodeEscape : Reader Char := do
  let n ← hexEscape
  if 0xDC00 ≤ n && n ≤ 0xDFFF then fail .loneSurrogate
  else if n < 0xD800 || n > 0xDBFF then pure (Char.ofNat n)
  else
    surrogateMark '\\'
    surrogateMark 'u'
    let low ← hexEscape
    if low < 0xDC00 || low > 0xDFFF then fail .loneSurrogate
    else pure (Char.ofNat ((n - 0xD800) * 0x400 + (low - 0xDC00) + 0x10000))

def escape : Reader Char := do
  let cur ← get
  match ← next with
  | none => fail .eofInString
  | some 'b' => pure '\x08'
  | some 'f' => pure '\x0c'
  | some 'n' => pure '\n'
  | some 'r' => pure '\r'
  | some 't' => pure '\t'
  | some 'u' => unicodeEscape
  | some c =>
    if c = '"' || c = '\\' || c = '/' then pure c
    else fun _ => throw ⟨.invalidEscape, cur.offset + 1⟩

/-- A step through a string behind its opening quote: a character, or the closing quote. The state holds the
characters so far, the last one first. -/
def stringStep (done : List Char) : Reader (List Char ⊕ String) := do
  match ← next with
  | none => fail .eofInString
  | some '"' => pure (.inr (String.ofList done.reverse))
  | some '\\' => pure (.inl ((← escape) :: done))
  | some c => if c.toNat < 0x20 then fail .controlCharacter else pure (.inl (c :: done))

def stringRest : Reader String := loop stringStep (fail .eofInString) []

def digitsOf (cs : List Char) : List Nat := cs.map fun c => c.toNat - '0'.toNat

/-- Takes digits into a significand as long as it stays below `2 ^ 64`;
also how many digits were taken. -/
def accumulate (significand taken : Nat) : List Nat → Nat × Nat
  | [] => (significand, taken)
  | d :: ds =>
    if significand * 10 + d < power 2 64 then accumulate (significand * 10 + d) (taken + 1) ds
    else (significand, taken)

def powerOfTen (n : Nat) : Binary64 := (Binary64.ofNat? (power 10 n)).getD .zero

def divideAgain : (times : Nat) → Binary64 → Option Binary64
  | 0, x => some x
  | times + 1, x => if x.isZero then some x else do divideAgain times (← x.div? (powerOfTen 308))

/-- `significand * 10 ^ exponent`, computed in doubles: the significand is rounded first, and then
multiplied or divided by a rounded power of ten, `10 ^ 308` at a time. -/
def scale? (x : Binary64) (exponent : Int) : Option Binary64 :=
  if x.isZero then some x
  else if exponent > 308 then none
  else if 0 ≤ exponent then x.mul? (powerOfTen exponent.toNat)
  else do
    let places := (-exponent).toNat
    let times := (places - 1) / 308
    (← divideAgain times x).div? (powerOfTen (places - 308 * times))

def readFloat (negative : Bool) (significand : Nat) (exponent : Int) : Reader Number := do
  match (Binary64.ofNat? significand).bind (scale? · exponent) with
  | some x => pure (.float (if negative then x.neg else x))
  | none => fail .numberOutOfRange

/-- Reads exponent digits up to the first that takes the value past 31 bits. -/
def exponentDigits (value : Nat) : List Nat → Nat × List Nat
  | [] => (value, [])
  | d :: ds => if value * 10 + d < power 2 31 then exponentDigits (value * 10 + d) ds else (value, d :: ds)

def exponentSign : Reader Bool := do
  match ← peek with
  | some '+' => skip 1; pure false
  | some '-' => skip 1; pure true
  | _ => pure false

def exponentPart (negative : Bool) (significand : Nat) (before : Int) : Reader Number := do
  skip 1
  let down ← exponentSign
  match ← peek with
  | none => fail .eofInValue
  | some c =>
    if !c.isDigit then failNext .invalidNumber
    else
      let start ← get
      let run ← takeWhile Char.isDigit
      match exponentDigits 0 (digitsOf run) with
      | (value, []) => readFloat negative significand (if down then before - value else before + value)
      | (_, excess) =>
        if significand ≠ 0 && !down then
          fun _ => throw ⟨.numberOutOfRange, start.offset + (run.length - excess.length) + 1⟩
        else pure (.float (if negative then Binary64.zero.neg else Binary64.zero))

def fraction (negative : Bool) (significand : Nat) (before : Int) : Reader Number := do
  skip 1
  let run ← takeWhile Char.isDigit
  if run.isEmpty then
    match ← peek with
    | some _ => failNext .invalidNumber
    | none => fail .eofInValue
  else
    let (significand, taken) := accumulate significand 0 (digitsOf run)
    let exponent := before - taken
    match ← peek with
    | some 'e' | some 'E' => exponentPart negative significand exponent
    | _ => readFloat negative significand exponent

/-- What stands behind the digits before the point, of which `first` is the first. An integer that fits
stays one; anything else is a double. -/
def behindDigits (negative : Bool) (first : Char) (run : List Char) : Reader Number := do
  let (significand, taken) := accumulate 0 0 (digitsOf run)
  let dropped := run.length - taken
  match ← peek with
  | some '.' => fraction negative significand dropped
  | some 'e' | some 'E' => exponentPart negative significand dropped
  | after =>
    if first = '0' && after.any Char.isDigit then failNext .invalidNumber
    else if dropped > 0 then readFloat negative significand dropped
    else if !negative then pure (.int significand)
    else if significand = 0 || significand > power 2 63 then readFloat true significand 0
    else pure (.int (-significand))

/-- A number behind its sign. A zero at its front is not followed by more digits. -/
def readNumber (negative : Bool) : Reader Number := do
  match ← peek with
  | none => fail .eofInValue
  | some c =>
    if !c.isDigit then failNext .invalidNumber
    else if c = '0' then do
      skip 1
      behindDigits negative c ['0']
    else do
      let run ← takeWhile Char.isDigit
      behindDigits negative c run

def arrayStep (item : Reader Json) (done : List Json) : Reader (List Json ⊕ Json) := do
  match ← peekToken with
  | none => fail .eofInList
  | some ']' => do skip 1; pure (.inr (.array done.reverse))
  | some c =>
    if done.isEmpty then pure (.inl [← item])
    else if c = ',' then do
      skip 1
      match ← peekToken with
      | some ']' => failNext .trailingComma
      | some _ => pure (.inl ((← item) :: done))
      | none => fail .eofInValue
    else failNext .expectedListCommaOrEnd

def arrayRest (item : Reader Json) : Reader Json := loop (arrayStep item) (fail .eofInList) []

def memberRest (item : Reader Json) : Reader (String × Json) := do
  skip 1
  let key ← stringRest
  match ← peekToken with
  | some ':' => do
    skip 1
    pure (key, ← item)
  | some _ => failNext .expectedColon
  | none => fail .eofInObject

def objectStep (item : Reader Json) (done : Bool × List (String × Json)) :
    Reader ((Bool × List (String × Json)) ⊕ Json) := do
  match ← peekToken with
  | none => fail .eofInObject
  | some '\x7d' => do skip 1; pure (.inr (.object done.2))
  | some c =>
    if !done.1 then
      if c = '"' then do
        let (key, value) ← memberRest item
        pure (.inl (true, insert key value done.2))
      else failNext .keyMustBeString
    else if c = ',' then do
      skip 1
      match ← peekToken with
      | some '"' => do
        let (key, value) ← memberRest item
        pure (.inl (true, insert key value done.2))
      | some '\x7d' => failNext .trailingComma
      | some _ => failNext .keyMustBeString
      | none => fail .eofInValue
    else failNext .expectedObjectCommaOrEnd

def objectRest (item : Reader Json) : Reader Json :=
  loop (objectStep item) (fail .eofInObject) (false, [])

/-- A value behind blanks, its items and members read by `nested`; there is no such reader when
no more brackets may open. -/
def valueWith (nested : Option (Reader Json)) : Reader Json := do
  match ← peekToken with
  | none => fail .eofInValue
  | some 'n' => do skip 1; ident ['u', 'l', 'l']; pure .null
  | some 't' => do skip 1; ident ['r', 'u', 'e']; pure (.bool true)
  | some 'f' => do skip 1; ident ['a', 'l', 's', 'e']; pure (.bool false)
  | some '-' => do skip 1; .number <$> readNumber true
  | some '"' => do skip 1; .string <$> stringRest
  | some '[' =>
    match nested with
    | none => failNext .recursionLimit
    | some item => do skip 1; arrayRest item
  | some '\x7b' =>
    match nested with
    | none => failNext .recursionLimit
    | some item => do skip 1; objectRest item
  | some c => if c.isDigit then .number <$> readNumber false else failNext .expectedValue

def value : (depth : Nat) → Reader Json
  | 0 => valueWith none
  | depth + 1 => valueWith (some (value depth))

def depthLimit : Nat := 127

def document : Reader Json := do
  let result ← value depthLimit
  match ← peekToken with
  | none => pure result
  | some _ => failNext .trailingCharacters

structure ReadError where
  cause : Cause
  line : Nat
  column : Nat
  deriving DecidableEq, Repr

def ReadError.message (error : ReadError) : String :=
  error.cause.message ++ " at line " ++ toString error.line ++ " column " ++ toString error.column

def lineColumn (line column : Nat) : List Char → (offset : Nat) → Nat × Nat
  | [], offset => (line, column + offset)
  | c :: cs, offset =>
    if offset = 0 then (line, column)
    else if c = '\n' then lineColumn (line + 1) 0 cs (offset - 1)
    else lineColumn line (column + min offset c.utf8Size) cs (offset - c.utf8Size)

def Fault.locate (text : List Char) (fault : Fault) : ReadError :=
  let (line, column) := lineColumn 1 0 text fault.offset
  ⟨fault.cause, line, column⟩

def read (text : String) : Except ReadError Json :=
  match document ⟨text.toList, 0⟩ with
  | .ok (value, _) => .ok value
  | .error fault => .error (fault.locate text.toList)

end TsBuild.Json
