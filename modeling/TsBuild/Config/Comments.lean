import TsBuild.Text.Basic

/-!
# Comments and trailing commas in configuration text

A configuration is JSON that may hold comments and a comma before a closing
bracket. Both are blanked where they stand, byte for byte, so that every offset
and line of the blanked text is one of the text as written.
-/

namespace TsBuild.Config.Comments

/-- What one character of a comment becomes: line feeds stay, anything else
turns into as many spaces as it has bytes. -/
def blank (c : Char) : List Char :=
  if c = '\n' then ['\n'] else List.replicate c.utf8Size ' '

inductive Region
  | plain
  | quoted
  | escaped
  | line
  | block
  deriving DecidableEq, Repr

def blankComments : Region → List Char → List Char
  | _, [] => []
  | .quoted, c :: cs =>
    c :: blankComments (if c = '\\' then .escaped else if c = '"' then .plain else .quoted) cs
  | .escaped, c :: cs => c :: blankComments .quoted cs
  | .line, c :: cs =>
    if c = '\n' then '\n' :: blankComments .plain cs else blank c ++ blankComments .line cs
  | .block, '*' :: '/' :: cs => ' ' :: ' ' :: blankComments .plain cs
  | .block, c :: cs => blank c ++ blankComments .block cs
  | .plain, '/' :: '/' :: cs => ' ' :: ' ' :: blankComments .line cs
  | .plain, '/' :: '*' :: cs => ' ' :: ' ' :: blankComments .block cs
  | .plain, c :: cs => c :: blankComments (if c = '"' then .quoted else .plain) cs

def closesNext (cs : List Char) : Bool :=
  match cs.dropWhile Text.isAsciiBlank with
  | c :: _ => c = '}' || c = ']'
  | [] => false

/-- Blanks the commas that stand before a closing bracket. The text has no comments. -/
def blankCommas : Region → List Char → List Char
  | _, [] => []
  | .quoted, c :: cs =>
    c :: blankCommas (if c = '\\' then .escaped else if c = '"' then .plain else .quoted) cs
  | .escaped, c :: cs => c :: blankCommas .quoted cs
  | region, c :: cs =>
    if c = ',' && closesNext cs then ' ' :: blankCommas region cs
    else c :: blankCommas (if c = '"' then .quoted else region) cs

def strip (text : String) : String :=
  String.ofList (blankCommas .plain (blankComments .plain text.toList))

end TsBuild.Config.Comments
