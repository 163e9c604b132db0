import TsBuild.Text.Basic

/-!
# Finding a key in configuration text

Errors about an option point at its key. The text is scanned without being
parsed: all that is kept is how deep the brackets are nested and how many keys
of the wanted path have been met.
-/

namespace TsBuild.Config.Key

structure Span where
  start : Nat
  length : Nat
  deriving DecidableEq, Repr

/-- A string being read: where its quote stands, its characters so far, last first, and whether
the next one is escaped. -/
structure Quoted where
  start : Nat
  done : List Char
  escaped : Bool

def isKey (after : List Char) : Bool :=
  (after.dropWhile Text.isAsciiBlank).head? = some ':'

/-- Scans from byte `offset` on, `depth` brackets being open and `matched` keys of `path` met. -/
def scan (path : List (List Char)) (offset depth matched : Nat) (inside : Option Quoted) :
    List Char → Option Span
  | [] => none
  | c :: cs =>
    let next := offset + c.utf8Size
    match inside with
    | some string =>
      if string.escaped then
        scan path next depth matched (some { string with done := c :: string.done, escaped := false }) cs
      else if c = '\\' then
        scan path next depth matched (some { string with done := c :: string.done, escaped := true }) cs
      else if c = '"' then
        if isKey cs && depth = matched + 1 && path[matched]? = some string.done.reverse then
          if matched + 1 = path.length then some ⟨string.start, next - string.start⟩
          else scan path next depth (matched + 1) none cs
        else scan path next depth matched none cs
      else scan path next depth matched (some { string with done := c :: string.done }) cs
    | none =>
      if c = '\x7b' || c = '[' then scan path next (depth + 1) matched none cs
      else if c = '\x7d' || c = ']' then
        if matched > 0 && depth - 1 ≤ matched then none
        else scan path next (depth - 1) matched none cs
      else if c = '"' then scan path next depth matched (some ⟨offset, [], false⟩) cs
      else scan path next depth matched none cs

/-- The span of the quoted key reached by `path` from the root. The text has no comments. -/
def find? (text : String) (path : List String) : Option Span :=
  scan (path.map String.toList) 0 0 0 none text.toList

end TsBuild.Config.Key
