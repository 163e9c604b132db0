import TsBuild.Script.Print.Expression

/-!
# Patterns

Patterns and parameters stay on one line, except for decorators of parameters, which stand
on lines of their own.
-/

namespace TsBuild.Script.Print

open Doc

/-- Decorators on lines of their own, away from what stands before them. -/
def decoratorLines (decorators : List Part) : Doc :=
  if decorators.isEmpty then empty else line ++ concat (decorators.map Part.doc) ++ line

def decorator (node : Node) (expression : Part) : Doc :=
  start node ++ "@" ++ expression.doc ++ line ++ endMark node

def parameter (node : Node) (decorators pattern : Part) : Doc :=
  start node ++ decoratorLines decorators.parts ++ pattern.doc ++ endMark node

def objectPattern (setting : Setting) (node : Node) (properties : List Part) : Doc :=
  start node ++ "\x7b" ++ itemsAs .pattern setting .braced node.span properties ++ "\x7d" ++
    endMark node

def arrayPattern (setting : Setting) (node : Node) (elements : List Part) : Doc :=
  start node ++ "[" ++ items setting .arguments node.span elements ++ "]" ++ endMark node

def defaulted (node : Node) (pattern value : Part) : Doc :=
  start node ++ pattern.doc ++ (if value.isAbsent then empty else " = " ++ value.doc) ++ endMark node

def patternProperty (node : Node) (key value : Part) : Doc :=
  start node ++ key.doc ++ ": " ++ value.doc ++ endMark node

def pattern? (setting : Setting) (node : Node) (role : Role) (parts : List Part) : Option Doc :=
  let part (i : Nat) : Part := parts.getD i .absent
  match node.kind, role with
  | .binding _, _ => some (part 0).doc
  | .arrayPattern _, _ => some (arrayPattern setting node (parts.drop 1) ++ after node)
  | .objectPattern _, _ => some (objectPattern setting node (parts.drop 1) ++ after node)
  | .defaulted, _ => some (defaulted node (part 0) (part 1) ++ after node)
  | .rest, _ => some (start node ++ "..." ++ (part 0).doc ++ after node)
  | .shorthand, _ => some (defaulted node (part 0) (part 1))
  | .keyValue, .pattern => some (patternProperty node (part 0) (part 1))
  | .param, _ => some (parameter node (part 0) (part 1))
  | .decorator, _ => some (decorator node (part 0))
  | _, _ => none

end TsBuild.Script.Print
