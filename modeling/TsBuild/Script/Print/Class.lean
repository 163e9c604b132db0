import TsBuild.Script.Print.Pattern

/-!
# Classes

Members stand on lines of their own, with their decorators on lines before them.
-/

namespace TsBuild.Script.Print

open Doc

def classBody (setting : Setting) (node : Node) (members : Part) : Doc :=
  "\x7b" ++ items setting .lines node.span members.parts ++ closeMark node ++ "\x7d"

def classTail (setting : Setting) (node : Node) (parts : List Part) : Doc :=
  let part (i : Nat) : Part := parts.getD i .absent
  let name : Doc := if (part 0).isAbsent then empty else " " ++ (part 0).doc
  let superclass : Doc := if (part 2).isAbsent then empty else " extends " ++ (part 2).doc
  "class" ++ name ++ superclass ++ " " ++ classBody setting node (part 3)

/-- A class. Behind `export` the decorators have been written already. -/
def classLike (setting : Setting) (node : Node) (role : Role) (parts : List Part) : Doc :=
  let decorators := (parts.getD 1 .absent).parts
  start node ++ guarded (role ≠ .exported) (concat (decorators.map Part.doc)) ++
    classTail setting node parts

def memberHead (node : Node) (decorators : Part) (isStatic : Bool) : Doc :=
  start node ++ concat (decorators.parts.map Part.doc) ++ guarded isStatic "static "

def classMethod (setting : Setting) (node : Node) (kind : MethodKind) (modifiers : Modifiers)
    (key function decorators : Part) : Doc :=
  let form : Doc := match kind, function.kind with
    | .getter, _ => "get "
    | .setter, _ => "set "
    | .method, .function isAsync isGenerator => guarded isAsync "async " ++ guarded isGenerator "*"
    | .method, _ => empty
  memberHead node decorators modifiers.isStatic ++ form ++ key.doc ++
    parameters setting function.span (function.part 1) ++ " " ++ (function.part 2).doc

def initialValue (value : Part) : Doc :=
  match value.kind with
  | .absent => empty
  | .seq => " = (" ++ value.doc ++ ")"
  | _ => " = " ++ value.doc

def classMember? (setting : Setting) (node : Node) (parts : List Part) : Option Doc :=
  let part (i : Nat) : Part := parts.getD i .absent
  match node.kind with
  | .classMethod kind modifiers =>
    some (classMethod setting node kind modifiers (part 0) (part 1) (part 2))
  | .constructor _ =>
    some (start node ++ "constructor" ++ parameters setting node.span (part 0) ++ (part 1).doc)
  | .property modifiers =>
    some (memberHead node (part 0) modifiers.isStatic ++ (part 1).doc ++ initialValue (part 2) ++
      ";" ++ endMark node)
  | .accessor modifiers =>
    some (decoratorLines (part 0).parts ++ guarded modifiers.isStatic "static " ++ "accessor " ++
      (part 1).doc ++ (if (part 2).isAbsent then empty else " = " ++ (part 2).doc) ++ ";")
  | .staticBlock => some (start node ++ "static" ++ (part 0).doc ++ endMark node)
  | .emptyMember => some (start node ++ ";")
  | _ => none

end TsBuild.Script.Print
