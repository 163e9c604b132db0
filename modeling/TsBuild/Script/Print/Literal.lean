import TsBuild.Script.Escape
import TsBuild.Script.Print.Part

/-!
# Literals

A literal read from a text is written as it was read; one that was made is spelled anew.
-/

namespace TsBuild.Script.Print

open Doc

def hexDigits (n : Nat) : List Char := Nat.toDigits 16 n

def quotedChar (quote c : Char) (next : Option Char) : List Char :=
  if c = quote then ['\\', quote]
  else match c with
    | '\\' => ['\\', '\\']
    | '\n' => ['\\', 'n']
    | '\r' => ['\\', 'r']
    | '\x08' => ['\\', 'b']
    | '\x0b' => ['\\', 'v']
    | '\x0c' => ['\\', 'f']
    | '\x00' => if next.elim false Char.isDigit then ['\\', 'x', '0', '0'] else ['\\', '0']
    | '\t' => ['\t']
    | c =>
      if c.toNat < 0x10 then ['\\', 'x', '0'] ++ hexDigits c.toNat
      else if c.toNat < 0x20 then ['\\', 'x'] ++ hexDigits c.toNat
      else if c = '\u2028' || c = '\u2029' then ['\\', 'u'] ++ hexDigits c.toNat
      else if c = '\ufeff' then ['\\', 'u', 'F', 'E', 'F', 'F']
      else [c]

/-- Whether what stands behind a backslash is the escape of a half of a surrogate pair, which a
string keeps as it was written. -/
def isSurrogateEscape : List Char → Bool
  | 'u' :: rest =>
    let rest := if rest.head? = some '\x7b' then rest.drop 1 else rest
    let digits := hexDigitsOf (rest.take 4)
    digits.length = 4 && Escape.isSurrogate (hexNumber digits)
  | _ => false

def quotedChars (quote : Char) : List Char → List Char
  | [] => []
  | c :: rest =>
    (if c = '\\' && isSurrogateEscape rest then [c] else quotedChar quote c rest.head?) ++
      quotedChars quote rest

/-- A string between double quotes, or between single ones if it has more double quotes in it. -/
def quoted (value : String) : String :=
  let cs := value.toList
  let quote := if cs.count '"' > cs.count '\'' then '\'' else '"'
  String.ofList (quote :: quotedChars quote cs ++ [quote])

def numberText (value : Number) (raw : Option String) : String := raw.getD value.positional

def takesPoint (value : Number) (raw : Option String) : Bool :=
  match raw with
  | some raw =>
    let cs := raw.toList.filter (· ≠ '_')
    cs.all Char.isDigit && !(cs.length ≥ 2 && cs.head? = some '0')
  | none => value.positional.toList.all fun c => c ≠ '.' && c ≠ 'e'

def literalText? : Kind → Option String
  | .str value raw => some (raw.getD (quoted value))
  | .num value raw => some (numberText value raw)
  | .bool value => some (if value then "true" else "false")
  | .null => some "null"
  | .regex pattern flags => some ("/" ++ pattern ++ "/" ++ flags)
  | _ => none

end TsBuild.Script.Print
