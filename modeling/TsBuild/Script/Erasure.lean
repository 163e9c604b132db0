import TsBuild.Script.Node

/-!
# Erasing types

What is said about types only is taken out of a tree: annotations, assertions, modifiers of
members, declarations of types, and declarations without a value. A node of which nothing
stays becomes `absent`, and lists lose their `absent` items; an empty statement goes too
where statements are listed.
-/

namespace TsBuild.Script.Erasure

def kept (nodes : List Node) : List Node := nodes.filter fun node => !node.isAbsent

def keptStatements (nodes : List Node) : List Node :=
  (kept nodes).filter fun node => !(node.kind matches .empty)

def settled (before after : Node) : Node :=
  if after.isAbsent && !before.isAbsent then .mk .empty before.span [] else after

def isThisParameter (parameter : Node) : Bool :=
  match parameter with
  | .mk .param _ [_, .mk (.binding _) _ (ident :: _)] => ident.nameText = "this"
  | _ => false

def parameters (list : Node) : Node :=
  list.withChildren (list.children.filter fun parameter => !isThisParameter parameter)

def Modifiers.bare (modifiers : Modifiers) : Modifiers := { isStatic := modifiers.isStatic }

/-- An import or export; it goes with the last of its specifiers. -/
def specified (node : Node) (parts : List Node) : Node :=
  let left := kept (parts.drop 2)
  if left.isEmpty && node.children.length > 2 then .absent
  else node.withChildren (parts.take 2 ++ left)

def eraseMember (node : Node) (parts : List Node) : Node :=
  let part (i : Nat) : Node := parts.getD i .absent
  let stays (stays : Bool) (kind : Kind) (children : List Node) : Node :=
    if stays then .mk kind node.span children else .absent
  match node.kind with
  | .classMethod kind modifiers =>
    let hasBody := !((part 1).child 2).isAbsent
    stays (hasBody && !modifiers.isAbstract) (.classMethod kind (Modifiers.bare modifiers)) parts
  | .constructor _ => stays (!(part 1).isAbsent) (.constructor none) parts
  | .property modifiers =>
    stays (!modifiers.isAbstract && !modifiers.isDeclared) (.property (Modifiers.bare modifiers))
      (parts.take 3)
  | .accessor modifiers =>
    stays (!modifiers.isAbstract) (.accessor (Modifiers.bare modifiers)) (parts.take 3)
  | _ => .absent

/-- Whether an item of a namespace needs the namespace to be an object, and whether the items of a body
do. A declaration counts even if it only says what is declared elsewhere. -/
def concreteStep (node : Node) (parts : List (Bool × Bool)) : Bool × Bool :=
  let part (i : Nat) : Bool × Bool := parts.getD i (false, false)
  match node.kind with
  | .absent | .empty | .interface | .typeAlias | .namespaceExport => (false, false)
  | .importDecl typeOnly _ | .exportNamed typeOnly | .exportAll typeOnly | .importEquals _ typeOnly =>
    (!typeOnly, false)
  | .exportDecl => part 0
  | .functionDecl _ => (!((node.child 0).child 2).isAbsent, false)
  | .namespaceDecl .. => ((part 1).2, (part 1).2)
  | .block => (true, parts.any Prod.fst)
  | _ => (true, false)

def isConcrete (namespaceDecl : Node) : Bool := (namespaceDecl.fold concreteStep).1

/-- What is left of a node, given what is left of its children. -/
def eraseStep (node : Node) (parts : List Node) : Node :=
  let part (i : Nat) : Node := parts.getD i .absent
  let dropIf (erased : Bool) (kind : Kind) : Node := if erased then .absent else .mk kind node.span parts
  match node.kind with
  | .ascribed _ => part 0
  | .call | .new | .tagged => node.withChildren (parts.take 2)
  | .jsxElement => node.withChildren (parts.take 4)
  | .binding _ => .mk (.binding false) (part 0).span [part 0, .absent]
  | .arrayPattern _ => .mk (.arrayPattern false) node.span (.absent :: parts.drop 1)
  | .objectPattern _ => .mk (.objectPattern false) node.span (.absent :: parts.drop 1)
  | .rest => node.withChildren [part 0, .absent]
  | .function .. => node.withChildren [part 0, parameters (part 1), part 2, .absent]
  | .arrow _ => node.withChildren [part 0, part 1, .absent]
  | .classLike .. => .mk (.classLike false false) node.span (parts.take 4)
  | .list => node.withChildren (kept parts)
  | .classMethod .. | .constructor _ | .property _ | .accessor _ => eraseMember node parts
  | .declarator _ => .mk (.declarator false) node.span parts
  | .module _ | .block => node.withChildren (keptStatements parts)
  | .switchCase => node.withChildren (parts.take 1 ++ keptStatements (parts.drop 1))
  | .ifStmt | .whileStmt | .doWhile | .forStmt | .forIn | .forOf _ | .labeled =>
    node.withChildren (List.zipWith settled node.children parts)
  | .varDecl kind declared => dropIf declared (.varDecl kind false)
  | .functionDecl declared => dropIf (declared || ((part 0).child 2).isAbsent) (.functionDecl false)
  | .classDecl => dropIf ((node.child 0).kind matches .classLike _ true) .classDecl
  | .enum isConst declared => dropIf declared (.enum isConst false)
  | .namespaceDecl declared isGlobal =>
    let isNamed : Bool := (part 0).kind matches .ident ..
    dropIf (declared || isGlobal || !isNamed || !isConcrete node) node.kind
  | .exportDecl => dropIf (part 0).isAbsent .exportDecl
  | .exportDefaultDecl =>
    let lacksBody := ((part 0).kind matches .function ..) && ((part 0).child 2).isAbsent
    dropIf ((part 0).isAbsent || lacksBody) .exportDefaultDecl
  | .importDecl typeOnly _ => if typeOnly then .absent else specified node parts
  | .exportNamed typeOnly =>
    if typeOnly || node.children.length ≤ 2 then .absent else specified node parts
  | .importNamed typeOnly => dropIf typeOnly node.kind
  | .exportSpecifier typeOnly => dropIf typeOnly node.kind
  | .exportAll typeOnly => dropIf typeOnly node.kind
  | .importEquals _ typeOnly => dropIf typeOnly node.kind
  | .interface | .typeAlias | .indexSignature | .namespaceExport | .emptyMember => .absent
  | .keyword _ | .union | .typeParen | .typeOther => .absent
  | _ => node.withChildren parts

def erase (node : Node) : Node := node.fold eraseStep

end TsBuild.Script.Erasure
