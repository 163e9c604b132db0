import TsBuild.Text.Basic

/-!
# Reference directives

A line `/// <reference path="…" />` names a file and `/// <reference types="…" />` a
type package. Blanks may stand before the slashes and behind them.
-/

namespace TsBuild.Program

inductive Reference
  | path (path : String)
  | types (package : String)
  deriving DecidableEq, Repr

namespace Reference

def quotedAttribute? (directive name : List Char) (quote : Char) : Option (List Char) :=
  (Text.cutAt? (' ' :: name ++ ['=', quote]) directive).map fun (_, rest) =>
    rest.takeWhile (· ≠ quote)

/-- The value of an attribute; double quotes are looked for first. -/
def attribute? (directive name : List Char) : Option (List Char) :=
  quotedAttribute? directive name '"' <|> quotedAttribute? directive name '\''

/-- The reference on a line. One with a path is no reference to types. -/
def ofLine? (line : List Char) : Option Reference := do
  let directive ← Text.dropPrefix? ['/', '/', '/'] (line.dropWhile Text.isBlank)
  let directive := directive.dropWhile Text.isBlank
  guard (Text.startsWith ['<', 'r', 'e', 'f', 'e', 'r', 'e', 'n', 'c', 'e'] directive)
  ((attribute? directive ['p', 'a', 't', 'h']).map fun value => path (String.ofList value)) <|>
    ((attribute? directive ['t', 'y', 'p', 'e', 's']).map fun value => types (String.ofList value))

def ofText (text : String) : List Reference :=
  (Text.lines text.toList).filterMap ofLine?

end Reference

end TsBuild.Program
