import TsBuild.Script.Print.Element
import TsBuild.Script.Print.Module
import TsBuild.Script.Print.Writer

/-!
# Scripts

The text of a whole script with its comments.
-/

namespace TsBuild.Script.Print

open Doc

def render (setting : Setting) (node : Node) (parts : List Part) (role : Role) : Doc :=
  match node.kind with
  | .module shebang => module node shebang parts
  | .classLike .. => classLike setting node role parts ++ after node
  | kind =>
    let tag? : Option Doc := if role matches .tag then tagName? parts kind else none
    (tag? <|> (expression? setting node parts).map (· ++ after node) <|>
      statement? setting node role parts <|>
      (moduleDeclaration? setting node parts).map (start node ++ · ++ after node ++ line) <|>
      name? node <|> pattern? setting node role parts <|> property? setting node role parts <|>
      classMember? setting node parts <|> statementPart? setting node parts <|>
      specifier? node parts <|> element? node parts).getD empty

structure Comments where
  leading : List (Pos × Comment)
  trailing : List (Pos × Comment)

def Comments.none : Comments := ⟨[], []⟩

def endsLine (c : Comment) : Bool :=
  !c.isBlock || c.text.toList.any fun c => c = '\n' || c = '\r' || c = '\u2028' || c = '\u2029'

def hasTrailingComma (text : String) (span : Span) : Bool :=
  let inner := Text.takeBytes (span.hi - 1 - span.lo) (Text.dropBytes (span.lo - 1) text.toList)
  (inner.reverse.dropWhile Char.isWhitespace).head? = some ','

def settingOf (text : String) (comments : Comments) : Setting :=
  { commentBefore := fun pos => comments.leading.any fun (p, _) => p = pos
    lineEndBefore := fun pos => comments.leading.any fun (p, c) => p = pos && endsLine c
    trailingComma := fun span => span.lo ≠ 0 && hasTrailingComma text span }

def script (text : String) (comments : Comments) (module : Node) : String × List Mark :=
  let part := Part.ofNode (render (settingOf text comments)) module
  written comments.leading comments.trailing part.doc

end TsBuild.Script.Print
