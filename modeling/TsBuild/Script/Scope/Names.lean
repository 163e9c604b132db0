import TsBuild.Script.Node

/-!
# Declared names

The names a pattern binds, the names a list of statements declares in its own scope, and
the names that rise from within them to the function around.
-/

namespace TsBuild.Script.Scope

def boundIdents (pattern : Node) : List Node :=
  pattern.fold fun node parts =>
    let part (i : Nat) : List Node := parts.getD i []
    match node.kind with
    | .binding _ => [node.child 0]
    | .arrayPattern _ | .objectPattern _ => (parts.drop 1).flatten
    | .keyValue | .param | .paramProperty _ => part 1
    | .shorthand => [node.child 0]
    | .defaulted | .rest => part 0
    | .list => parts.flatten
    | _ => []

def boundNames (pattern : Node) : List String := (boundIdents pattern).map Node.nameText

def declaredIdents (declarators : List Node) : List Node :=
  declarators.flatMap fun declarator => boundIdents (declarator.child 0)

def statementIdents (statement : Node) : List Node :=
  match statement with
  | .mk .exportDecl _ (inner :: _) => ofDeclaration inner
  | .mk .exportDefaultDecl _ (inner :: _) => (inner.child 0).toOption.toList
  | .mk (.importDecl ..) _ (_ :: _ :: specifiers) => specifiers.map (·.child 0)
  | other => ofDeclaration other
where
  ofDeclaration (node : Node) : List Node :=
    match node with
    | .mk (.varDecl kind _) _ declarators => if kind = .hoisted then [] else declaredIdents declarators
    | .mk (.usingDecl _) _ declarators => declaredIdents declarators
    | .mk (.functionDecl _) _ (inner :: _) => [inner.child 0]
    | .mk .classDecl _ (inner :: _) => [inner.child 0]
    | .mk (.enum ..) _ (name :: _) => [name]
    | .mk (.namespaceDecl _ false) _ (name :: _) => if name.kind matches .ident .. then [name] else []
    | .mk (.importEquals ..) _ (name :: _) => [name]
    | _ => []

def statementNames (statements : List Node) : List String :=
  (statements.flatMap statementIdents).map Node.nameText

/-- The names that rise out of a statement to the function around it: those of variables that belong
to the function. They do not rise through a `catch` that binds the same name. -/
def risen (statement : Node) : List String :=
  statement.fold fun node parts =>
    match node.kind with
    | .function .. | .arrow _ | .classLike .. | .namespaceDecl .. | .method _ => []
    | .varDecl .hoisted _ => (declaredIdents node.children).map Node.nameText ++ parts.flatten
    | .catch =>
      let bound := boundNames (node.child 0)
      parts.flatten.filter fun name => !bound.contains name
    | _ => parts.flatten

end TsBuild.Script.Scope
