import TsBuild.Script.Print.Expression

/-!
# Elements

Elements keep their shape: tags and texts stand where they stood, and nothing is broken into
lines that was not.
-/

namespace TsBuild.Script.Print

open Doc

def tagAttribute (part : Part) : Doc :=
  match part.kind with
  | .spread => " \x7b" ++ part.docAs .property ++ "\x7d"
  | _ => " " ++ part.doc

def element (node : Node) (name attributes children closing : Part) : Doc :=
  before node.lo ++ "<" ++ name.docAs .tag ++ concat (attributes.parts.map tagAttribute) ++
    if closing.isAbsent then text "/>"
    else
      ">" ++ concat (children.parts.map Part.doc) ++ "</" ++ (closing.part 0).docAs .tag ++ ">"

def fragment (node : Node) (children : Part) : Doc :=
  before node.lo ++ "<>" ++ concat (children.parts.map Part.doc) ++ "</>"

def elementAttribute (name value : Part) : Doc :=
  name.doc ++ if value.isAbsent then empty else "=" ++ value.doc

def tagName? (parts : List Part) : Kind → Option Doc
  | .member => some ((parts.getD 0 .absent).docAs .tag ++ "." ++ (parts.getD 1 .absent).doc)
  | _ => none

def element? (node : Node) (parts : List Part) : Option Doc :=
  let part (i : Nat) : Part := parts.getD i .absent
  match node.kind with
  | .jsxElement => some (element node (part 0) (part 1) (part 2) (part 3) ++ after node)
  | .jsxFragment => some (fragment node (part 1) ++ after node)
  | .jsxAttribute => some (elementAttribute (part 0) (part 1))
  | .jsxNamespaced => some ((part 0).doc ++ ":" ++ (part 1).doc)
  | .jsxContainer => some ("\x7b" ++ (part 0).doc ++ "\x7d")
  | .jsxSpreadChild => some ("\x7b..." ++ (part 0).doc ++ "\x7d")
  | .jsxText value _ => some (startMark node ++ value ++ endMark node)
  | _ => none

end TsBuild.Script.Print
