import TsBuild.Json.Reader

/-!
# Skipping a value

A value that nobody asks for is read over without being kept. Its brackets, keys, commas and
colons must be right, but its numbers need no range, its escapes no sense and its nesting no
bound: the open brackets are a list, not a depth.
-/

namespace TsBuild.Json

open Reader

inductive Bracket
  | square
  | curly
  deriving DecidableEq, Repr

namespace Bracket

def closing : Bracket → Char
  | square => ']'
  | curly => '\x7d'

def unclosed : Bracket → Cause
  | square => .eofInList
  | curly => .eofInObject

def unseparated : Bracket → Cause
  | square => .expectedListCommaOrEnd
  | curly => .expectedObjectCommaOrEnd

end Bracket

/-- Skips an escape behind its backslash. The four digits of a code unit may name any. -/
def skipEscape : Reader Unit := do
  let cur ← get
  match ← next with
  | none => fail .eofInString
  | some 'u' => discard hexEscape
  | some c =>
    if ['"', '\\', '/', 'b', 'f', 'n', 'r', 't'].contains c then pure ()
    else fun _ => throw ⟨.invalidEscape, cur.offset + 1⟩

/-- Skips the rest of a string behind its opening quote. A control character is a fault in front
of it. -/
def skipString : Reader Unit :=
  loop (fun _ => do
    match ← peek with
    | none => fail .eofInString
    | some '"' => do skip 1; pure (.inr ())
    | some '\\' => do skip 1; .inl <$> skipEscape
    | some c => if c.toNat < 0x20 then fail .controlCharacter else .inl <$> skip 1)
    (fail .eofInString) ()

def skipExponent : Reader Unit := do
  skip 1
  match ← peek with
  | some '+' | some '-' => skip 1
  | _ => pure ()
  if (← takeWhile Char.isDigit).isEmpty then failNext .invalidNumber

def skipFraction : Reader Unit := do
  skip 1
  if (← takeWhile Char.isDigit).isEmpty then failNext .invalidNumber
  match ← peek with
  | some 'e' | some 'E' => skipExponent
  | _ => pure ()

def skipNumber : Reader Unit := do
  match ← peek with
  | some '0' => do
    skip 1
    if (← peek).any Char.isDigit then failNext .invalidNumber
  | _ => if (← takeWhile Char.isDigit).isEmpty then failNext .invalidNumber
  match ← peek with
  | some '.' => skipFraction
  | some 'e' | some 'E' => skipExponent
  | _ => pure ()

def skipStart : Reader (Option Bracket) := do
  match ← peekToken with
  | none => fail .eofInValue
  | some 'n' => do skip 1; ident ['u', 'l', 'l']; pure none
  | some 't' => do skip 1; ident ['r', 'u', 'e']; pure none
  | some 'f' => do skip 1; ident ['a', 'l', 's', 'e']; pure none
  | some '-' => do skip 1; skipNumber; pure none
  | some '"' => do skip 1; skipString; pure none
  | some '[' => do skip 1; pure (some .square)
  | some '\x7b' => do skip 1; pure (some .curly)
  | some c => if c.isDigit then do skipNumber; pure none else failNext .expectedValue

/-- Skips the brackets that close here, and a comma behind an item. What remains are the brackets
still open, the innermost first. -/
def skipEnds (isBehindItem : Bool) (enclosing : List Bracket) : Reader (List Bracket) :=
  loop (fun ((isBehindItem, enclosing) : Bool × List Bracket) => do
    match enclosing with
    | [] => pure (.inr [])
    | bracket :: outer =>
      match ← peekToken with
      | none => fail bracket.unclosed
      | some c =>
        if c = bracket.closing then do skip 1; pure (.inl (true, outer))
        else if !isBehindItem then pure (.inr enclosing)
        else if c = ',' then do skip 1; pure (.inr enclosing)
        else failNext bracket.unseparated)
    (pure []) (isBehindItem, enclosing)

def skipKey : Reader Unit := do
  match ← peekToken with
  | none => fail .eofInObject
  | some '"' => do skip 1; skipString
  | some _ => failNext .keyMustBeString
  match ← peekToken with
  | none => fail .eofInObject
  | some ':' => skip 1
  | some _ => failNext .expectedColon

def skipValue : Reader Unit :=
  loop (fun (enclosing : List Bracket) => do
    let enclosing ← match ← skipStart with
      | some bracket => skipEnds false (bracket :: enclosing)
      | none => skipEnds true enclosing
    match enclosing with
    | [] => pure (.inr ())
    | .square :: _ => pure (.inl enclosing)
    | .curly :: _ => do skipKey; pure (.inl enclosing))
    (pure ()) []

end TsBuild.Json
