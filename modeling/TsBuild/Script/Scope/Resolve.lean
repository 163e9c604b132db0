import TsBuild.Script.Scope.Names

/-!
# Scopes

Every variable of a module is resolved to the scope that declares it. Scopes are numbered in
the order in which they open, the module being the first; a variable that nothing declares
belongs to scope zero. Functions, blocks, loops, `catch` clauses, `switch` statements, classes
with a name, enums and namespaces open scopes.
-/

namespace TsBuild.Script.Scope

structure Level where
  scope : Nat
  names : List String
  deriving Repr

structure Context where
  /-- Innermost first. -/
  levels : List Level
  /-- Whether the name of the next function or class is declared outside of it. -/
  declares : Bool := false
  /-- Whether the next block belongs to the scope around it. -/
  joins : Bool := false

def Context.scopeOf (context : Context) (name : String) : Nat :=
  ((context.levels.find? (·.names.contains name)).map Level.scope).getD 0

/-- A node still to be resolved; the state is the number of scopes opened. -/
abbrev Resolution := Context → StateM Nat Node

def opened (context : Context) (names : List String) : StateM Nat Context := do
  modify (· + 1)
  return { context with levels := ⟨← get, names⟩ :: context.levels, declares := false, joins := false }

def openedFunction (context : Context) (own : List String) (statements : List Node) :
    StateM Nat Context := do
  opened context (own ++ statementNames statements ++ statements.flatMap Scope.risen)

def statementsOf (body : Node) : List Node :=
  match body.kind with
  | .block => body.children
  | _ => []

def headNames (head : Node) : List String :=
  match head.kind with
  | .varDecl kind _ => if kind = .hoisted then [] else (declaredIdents head.children).map Node.nameText
  | .usingDecl _ => (declaredIdents head.children).map Node.nameText
  | _ => []

/-- Resolves the cases of a `switch` one by one: a case sees the names of those before it. -/
def resolveCases (context : Context) : List (Node × Resolution) → StateM Nat (List Node)
  | [] => return []
  | (node, resolution) :: rest => do
    let names := statementNames (node.children.drop 1)
    let levels := match context.levels with
      | level :: outer => { level with names := level.names ++ names } :: outer
      | [] => []
    let context := { context with levels }
    let resolved ← resolution context
    return resolved :: (← resolveCases context rest)

def namespaceNames (body : Node) : List String :=
  match body.kind with
  | .namespaceDecl .. => [(body.child 0).nameText]
  | _ =>
    let statements := statementsOf body
    statementNames statements ++ statements.flatMap Scope.risen

/-- A name that is no variable, though it was read as an identifier. -/
def asName (node : Node) : Node :=
  match node.kind with
  | .ident name _ => node.withKind (.name name)
  | _ => node

def asForeign (specifier : Node) : Node := specifier.withChildren (specifier.children.map asName)

def resolveStep (node : Node) (parts : List Resolution) : Resolution := fun context => do
  let inner := { context with declares := false, joins := false }
  let within (context : Context) (parts : List Resolution) : StateM Nat (List Node) :=
    parts.mapM fun part => part context
  let body := node.child
  match node.kind with
  | .ident name _ => return node.withKind (.ident name (context.scopeOf name))
  | .function .. =>
    let name := (node.child 0).nameText
    let names := boundNames (node.child 1)
    let named ← if context.declares || name.isEmpty then pure inner else opened inner [name]
    let function ← openedFunction named names (statementsOf (node.child 2))
    let head ← within (if context.declares then inner else named) (parts.take 1)
    let params ← within function ((parts.drop 1).take 1)
    let rest ← within { function with joins := true } (parts.drop 2)
    return node.withChildren (head ++ params ++ rest)
  | .arrow _ =>
    let function ← openedFunction inner (boundNames (node.child 0)) (statementsOf (node.child 1))
    let params ← within function (parts.take 1)
    let rest ← within { function with joins := true } (parts.drop 1)
    return node.withChildren (params ++ rest)
  | .constructor _ =>
    let function ← openedFunction inner (boundNames (node.child 0)) (statementsOf (node.child 1))
    let params ← within function (parts.take 1)
    let rest ← within { function with joins := true } (parts.drop 1)
    return node.withChildren (params ++ rest)
  | .staticBlock =>
    let function ← openedFunction inner [] (statementsOf (body 0))
    return node.withChildren (← within { function with joins := true } parts)
  | .classLike .. =>
    let name := (node.child 0).nameText
    let outside ← within inner ((parts.drop 1).take 2)
    let named ← if context.declares || name.isEmpty then pure inner else opened inner [name]
    let head ← within named (parts.take 1)
    let rest ← within named (parts.drop 3)
    return node.withChildren (head ++ outside ++ rest)
  | .functionDecl _ | .classDecl | .exportDefaultDecl =>
    return node.withChildren (← within { inner with declares := true } parts)
  | .block =>
    let block ← if context.joins then pure inner else opened inner (statementNames node.children)
    return node.withChildren (← within block parts)
  | .forStmt =>
    let loop ← opened inner (headNames (node.child 0) ++ statementNames (statementsOf (node.child 3)))
    let head ← within loop (parts.take 3)
    return node.withChildren (head ++ (← within { loop with joins := true } (parts.drop 3)))
  | .forIn | .forOf _ =>
    let loop ← opened inner (headNames (node.child 0) ++ statementNames (statementsOf (node.child 2)))
    let head ← within loop (parts.take 2)
    return node.withChildren (head ++ (← within { loop with joins := true } (parts.drop 2)))
  | .catch =>
    let names := boundNames (node.child 0) ++ statementNames (statementsOf (node.child 1))
    let clause ← opened inner names
    return node.withChildren (← within { clause with joins := true } parts)
  | .switch =>
    let head ← within inner (parts.take 1)
    let cases ← opened inner []
    let rest ← resolveCases cases (node.children.zip parts |>.drop 1)
    return node.withChildren (head ++ rest)
  | .enum .. =>
    let head ← within inner (parts.take 1)
    let names := (node.children.drop 1).filterMap fun member =>
      match (member.child 0).kind with
      | .name text => some text
      | _ => none
    let members ← opened inner names
    return node.withChildren (head ++ (← within members (parts.drop 1)))
  | .namespaceDecl .. =>
    let head ← within inner (parts.take 1)
    let level ← opened inner (namespaceNames (node.child 1))
    return node.withChildren (head ++ (← within { level with joins := true } (parts.drop 1)))
  | .importNamed _ | .exportSpecifier _ =>
    let first ← within inner (parts.take 1)
    return node.withChildren (first ++ (node.children.drop 1).map asName)
  | .exportDefaultFrom | .exportNamespace => return asForeign node
  | .exportNamed _ =>
    let children ← within inner parts
    let specifiers := children.drop 2
    return node.withChildren (children.take 2 ++
      if (node.child 0).isAbsent then specifiers else specifiers.map asForeign)
  | .module _ =>
    let module ← openedFunction inner [] node.children
    return node.withChildren (← within module parts)
  | _ => return node.withChildren (← within inner parts)

def resolve (module : Node) : Node × Nat :=
  let context : Context := { levels := [] }
  (module.fold resolveStep context).run 0

end TsBuild.Script.Scope
