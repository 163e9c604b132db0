import TsBuild.Json.Basic

/-!
# Writing JSON

Compact text has no spaces; pretty text has a member or item on each line,
indented by two. Strings escape the quote, the backslash and control characters.
-/

namespace TsBuild.Json

def hex4 (n : Nat) : List Char :=
  let digits := Nat.toDigits 16 n
  List.replicate (4 - digits.length) '0' ++ digits

def escapeChar (c : Char) : List Char :=
  match c with
  | '"' => ['\\', '"']
  | '\\' => ['\\', '\\']
  | '\n' => ['\\', 'n']
  | '\r' => ['\\', 'r']
  | '\t' => ['\\', 't']
  | '\x08' => ['\\', 'b']
  | '\x0c' => ['\\', 'f']
  | c => if c.toNat < 0x20 then '\\' :: 'u' :: hex4 c.toNat else [c]

def quote (s : String) : String :=
  String.ofList ('"' :: s.toList.flatMap escapeChar ++ ['"'])

/-- Positional from `1e-5` to below `1e16`, with `.0` on whole numbers; otherwise
one digit before the point and the exponent after an `e`. -/
def floatText (x : Binary64) : String :=
  let sign := if x.negative then "-" else ""
  let zeros (n : Int) := List.replicate n.toNat '0'
  if x.isZero then sign ++ "0.0"
  else
    let d := x.shortest.trim
    let digits := Nat.toDigits 10 d.digits
    let point := (digits.length : Int) + d.exponent
    let text :=
      if 0 ≤ d.exponent && point ≤ 16 then digits ++ zeros d.exponent ++ ['.', '0']
      else if 0 < point && point ≤ 16 then digits.take point.toNat ++ '.' :: digits.drop point.toNat
      else if -5 < point && point ≤ 0 then '0' :: '.' :: zeros (-point) ++ digits
      else
        digits.take 1 ++ (if digits.length = 1 then [] else '.' :: digits.drop 1) ++
          'e' :: (toString (point - 1)).toList
    sign ++ String.ofList text

def Number.text : Number → String
  | int value => toString value
  | float value => floatText value

mutual
def compact : Json → String
  | null => "null"
  | bool value => if value then "true" else "false"
  | number value => value.text
  | string value => quote value
  | array items => "[" ++ compactItems items ++ "]"
  | object members => "\x7b" ++ compactMembers members ++ "\x7d"
def compactItems : List Json → String
  | [] => ""
  | [item] => item.compact
  | item :: rest => item.compact ++ "," ++ compactItems rest
def compactMembers : List (String × Json) → String
  | [] => ""
  | [(key, value)] => quote key ++ ":" ++ value.compact
  | (key, value) :: rest => quote key ++ ":" ++ value.compact ++ "," ++ compactMembers rest
end

def newLine (depth : Nat) : String :=
  String.ofList ('\n' :: List.replicate (2 * depth) ' ')

mutual
def prettyAt (depth : Nat) : Json → String
  | array [] => "[]"
  | array (item :: rest) =>
    "[" ++ newLine (depth + 1) ++ prettyItems (depth + 1) (item :: rest) ++ newLine depth ++ "]"
  | object [] => "\x7b\x7d"
  | object (first :: rest) =>
    "\x7b" ++ newLine (depth + 1) ++ prettyMembers (depth + 1) (first :: rest) ++ newLine depth ++ "\x7d"
  | null => "null"
  | bool value => if value then "true" else "false"
  | number value => value.text
  | string value => quote value
def prettyItems (depth : Nat) : List Json → String
  | [] => ""
  | [item] => item.prettyAt depth
  | item :: rest => item.prettyAt depth ++ "," ++ newLine depth ++ prettyItems depth rest
def prettyMembers (depth : Nat) : List (String × Json) → String
  | [] => ""
  | [(key, value)] => quote key ++ ": " ++ value.prettyAt depth
  | (key, value) :: rest =>
    quote key ++ ": " ++ value.prettyAt depth ++ "," ++ newLine depth ++ prettyMembers depth rest
end

def pretty (value : Json) : String := value.prettyAt 0

end TsBuild.Json
