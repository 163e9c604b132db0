import TsBuild.Script.Enumeration
import TsBuild.Script.ParameterProperty
import TsBuild.Script.Scope.Names

/-!
# Lowering declarations

Enumerations and namespaces become functions that are called at once with the object they
fill; what a namespace exports becomes a property of that object, and is read as one. Imports
that name an entity or require a module become constants, and an assignment to the exports of
a module becomes an assignment.
-/

namespace TsBuild.Script.Lowering

-- ---------------------------------------------------------------------------
-- Objects filled by functions
-- ---------------------------------------------------------------------------

def orEmpty (target read : Node) : Node := Made.either read (Made.assign target (Made.object []))

/-- The object that a function fills: the variable, or the property of a namespace that has exported
it. -/
def filled (isVariable : Bool) (parent? : Option Variable) (name : Node) : Node :=
  match parent? with
  | none => orEmpty (Made.binding name) name
  | some parent =>
    let property := Made.memberOf (Made.ident parent.name parent.scope) name
    let object := orEmpty property property
    if isVariable then Made.assign (Made.binding name) object else object

def filling (span : Span) (name body object : Node) : Node :=
  .mk .exprStmt span [Made.call (Made.function name body) [object]]

def objectVariable (isExported : Bool) (v : Variable) : Node :=
  let kind : VarKind := if isExported || v.scope = 1 then .hoisted else .lexical
  let declaration := Made.declaration kind (Made.binding (Made.ident v.name v.scope)) .absent
  if isExported then Made.node .exportDecl [declaration] else declaration

-- ---------------------------------------------------------------------------
-- Declarations
-- ---------------------------------------------------------------------------

/-- What lowering remembers from one statement to the next. -/
structure Progress where
  /-- The variables that have been declared. -/
  declared : List Variable := []
  keys : ParameterProperty.Keys

abbrev Lower := StateM Progress

def declare (v : Variable) : Lower Unit :=
  modify fun progress => { progress with declared := v :: progress.declared }

/-- The declaration of the variable of an enumeration or namespace, the first time; a later one goes
on with the object. -/
def declared (isExported : Bool) (parent? : Option Variable) (name : Node) : Lower (List Node) := do
  match name.toVariable? with
  | none => return []
  | some v =>
    let isFirst := !(← get).declared.contains v
    declare v
    return if isFirst then [objectVariable (isExported && parent?.isNone) v] else []

/-- Lowers an enumeration. The constants of one that `isWhole` are kept though it is constant. -/
def lowerEnum (table : EnumTable) (isConst isWhole isExported : Bool) (parent? : Option Variable)
    (node : Node) : Lower (List Node) := do
  let name := node.child 0
  let declaration ← declared isExported parent? name
  let dropsConstants := isConst && !isWhole && !isExported
  let statements := match name.toVariable? with
    | some enum => Enumeration.memberStatements table enum dropsConstants (node.children.drop 1)
    | none => []
  if dropsConstants && statements.isEmpty then return declaration
  let parent? := if isExported then parent? else none
  return declaration ++ [filling node.span name (Made.node .block statements) (filled true parent? name)]

def lowerNamespace (isExported : Bool) (parent? : Option Variable) (node : Node) : Lower (List Node) := do
  let name := node.child 0
  let declaration ← declared isExported parent? name
  let parent? := if isExported then parent? else none
  return declaration ++ [filling node.span name (node.child 1) (filled true parent? name)]

def entity (name : Node) : Node :=
  name.fold fun node parts =>
    match node.kind with
    | .qualified => .mk .member node.span parts
    | _ => node

def imported (target : Node) : Node :=
  match target.kind with
  | .externalModule => Made.call (Made.ident "require" 0) [target.child 0]
  | _ => entity target

def lowerImport (isExported : Bool) (parent? : Option Variable) (node : Node) : List Node :=
  let name := node.child 0
  let value := imported (node.child 1)
  let isModule : Bool := (node.child 1).kind matches .externalModule
  let constant (value : Node) : Node := Made.declaration .constant (Made.binding name) value
  match isExported, parent? with
  | true, some parent =>
    [.mk .exprStmt node.span [Made.assign (Made.memberOf (Made.ident parent.name parent.scope) name) value]]
  | true, none =>
    if isModule then
      let exports := Made.memberOf (Made.ident "exports" 0) name
      [(constant (Made.assign exports value)).withSpan node.span]
    else [.mk .exportDecl node.span [constant value]]
  | false, _ => [(constant value).withSpan node.span]

def spelledOut (pattern : Node) : Node :=
  Made.mapPattern (fun node =>
    match node.kind with
    | .shorthand => Made.spelledOut (node.child 0) node
    | _ => node) pattern

def lowerExport (parent : Variable) (span : Span) (declaration : Node) : List Node :=
  match declaration.kind with
  | .functionDecl _ | .classDecl =>
    let name := (declaration.child 0).child 0
    let property := Made.memberOf (Made.ident parent.name parent.scope) name
    [declaration, .mk .exprStmt span [Made.assign property name]]
  | .varDecl .. =>
    let assigned := declaration.children.filterMap fun declarator =>
      if (declarator.child 1).isAbsent then none
      else some (Node.mk (.assign "=") declarator.span [spelledOut (declarator.child 0), declarator.child 1])
    if assigned.isEmpty then [] else [.mk .exprStmt span [Made.sequence assigned]]
  | _ => [declaration]

structure Surroundings where
  table : EnumTable
  /-- The variables that the module exports by name. -/
  exported : List Variable

def lowerStatement (around : Surroundings) (parent? : Option Variable) (statement : Node) :
    Lower (List Node) := do
  let isExported : Bool := statement.kind matches .exportDecl
  let declaration := if isExported then statement.child 0 else statement
  match declaration.kind with
  | .enum isConst _ =>
    let isWhole := (declaration.child 0).toVariable?.any around.exported.contains
    lowerEnum around.table isConst isWhole isExported parent? declaration
  | .namespaceDecl .. => lowerNamespace isExported parent? declaration
  | .importEquals isExport _ => return lowerImport isExport parent? declaration
  | .exportAssign => return []
  | kind =>
    if kind matches .functionDecl _ | .classDecl | .exportDefaultDecl then
      if let some v := ((declaration.child 0).child 0).toVariable? then
        declare v
    match isExported, parent? with
    | true, some parent => return lowerExport parent statement.span declaration
    | _, _ => return [statement]

def exportAssignments (items : List Node) : List Node :=
  let assignments := items.filterMap fun item =>
    match item.kind with
    | .exportAssign =>
      let target := Made.memberNamed (Made.ident "module" 0) "exports"
      some (Node.mk .exprStmt item.span [Made.assign target (item.child 0)])
    | _ => none
  assignments.take 1

-- ---------------------------------------------------------------------------
-- Trees
-- ---------------------------------------------------------------------------

/-- The argument is the namespace whose statements are next. -/
abbrev Lowered := Option Variable → Lower Node

def takeKeys : Lower (List Node) :=
  modifyGet fun progress =>
    (progress.keys.declarators, { progress with keys := { progress.keys with declarators := [] } })

/-- Lowers statements. The keys that a statement needs are computed in front of it. -/
def lowerStatements (around : Surroundings) (parent? : Option Variable) (parts : List Lowered) :
    Lower (List Node) := do
  let pending ← takeKeys
  let lowered ← parts.mapM fun part => do
    let statement ← part none
    let keys ← takeKeys
    let declarations := if keys.isEmpty then [] else [Made.node (.varDecl .lexical false) keys]
    return declarations ++ (← lowerStatement around parent? statement)
  modify fun progress => { progress with keys := { progress.keys with declarators := pending } }
  return lowered.flatten

def lowerStep (around : Surroundings) (node : Node) (parts : List Lowered) (parent? : Option Variable) :
    Lower Node := do
  match node.kind with
  | .module _ =>
    return node.withChildren ((← lowerStatements around parent? parts) ++ exportAssignments node.children)
  | .block => return node.withChildren (← lowerStatements around parent? parts)
  | .switchCase =>
    let test ← (parts.take 1).mapM fun part => part none
    return node.withChildren (test ++ (← lowerStatements around parent? (parts.drop 1)))
  | .namespaceDecl .. =>
    let self? := (node.child 0).toVariable?
    let name ← (parts.take 1).mapM fun part => part none
    let body ← (parts.drop 1).mapM fun part => part self?
    let body := body.map fun inner =>
      match inner.kind with
      | .namespaceDecl .. =>
        let name := inner.child 0
        .mk .block inner.span [filling inner.span name (inner.child 1) (filled false self? name)]
      | _ => inner
    return node.withChildren (name ++ body)
  | .classLike .. =>
    let children ← parts.mapM fun part => part none
    let members := children.getD 3 .absent
    let progress ← get
    let (lowered, keys) := (ParameterProperty.members members.children).run progress.keys
    set { progress with keys }
    return node.withChildren (children.take 3 ++ [members.withChildren lowered])
  | _ => return node.withChildren (← parts.mapM fun part => part none)

def exportedVariables (tree : Node) : List (Variable × Variable) :=
  tree.subnodes.flatMap fun node =>
    match node, (node.child 0).toVariable? with
    | .mk (.namespaceDecl ..) _ (_ :: .mk .block _ statements :: _), some parent =>
      let idents := statements.flatMap fun statement =>
        match statement with
        | .mk .exportDecl _ [.mk (.varDecl ..) _ declarators] => Scope.declaredIdents declarators
        | .mk (.importEquals true _) _ (name :: _) => [name]
        | _ => []
      idents.filterMap fun ident => ident.toVariable?.map fun v => (v, parent)
    | _, _ => []

def qualified (exported : List (Variable × Variable)) (tree : Node) : Node :=
  if exported.isEmpty then tree
  else
    Made.substitute (fun ident => do
      let parent ← exported.lookup (← ident.toVariable?)
      return Made.memberOf (Made.ident parent.name parent.scope) ident) tree

def exportedBindings (module : Node) : List Variable :=
  module.children.flatMap fun item =>
    match item.kind with
    | .exportNamed _ =>
      if (item.child 0).isAbsent then
        (item.children.drop 2).filterMap fun specifier => (specifier.child 0).toVariable?
      else []
    | .exportDefaultExpr => (item.child 0).toVariable?.toList
    | _ => []

def lower (scopes : Nat) (module : Node) : Node × Nat :=
  let table := Enumeration.table module
  let around : Surroundings := { table, exported := exportedBindings module }
  let inlined := Enumeration.inlined table module
  let (lowered, progress) := (inlined.fold (lowerStep around) none).run { keys := { scopes } }
  (qualified (exportedVariables module) lowered, progress.keys.scopes)

end TsBuild.Script.Lowering
