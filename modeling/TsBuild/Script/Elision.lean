import TsBuild.Script.Erasure
import TsBuild.Script.Scope.Names

/-!
# Eliding imports

An import stays if its variable is used as a value, or if it binds none; an export by name
goes if only a type has the name. Uses and names are those of the module before its types
are erased, types themselves apart.
-/

namespace TsBuild.Script.Elision

-- ---------------------------------------------------------------------------
-- Uses
-- ---------------------------------------------------------------------------

/-- The variables used as values, apart from targets of assignments and from what imports are set
to. Enumerations and namespaces use their own names. -/
def uses (node : Node) : List Variable :=
  node.fold fun node parts =>
    let part (i : Nat) : List Variable := parts.getD i []
    match node.kind with
    | .ident name scope => [⟨name, scope⟩]
    | .binding _ | .importDecl .. | .importEquals .. | .interface | .typeAlias | .indexSignature => []
    | .keyword _ | .union | .typeParen | .typeOther => []
    | .shorthand | .function .. | .classLike .. => (parts.drop 1).flatten
    | .ascribed _ => part 0
    | .exportNamed typeOnly =>
      if typeOnly || !(node.child 0).isAbsent then [] else (parts.drop 2).flatten
    | .exportSpecifier typeOnly => if typeOnly then [] else part 0
    | .jsxElement =>
      if (node.child 0).isPlainTag then (parts.drop 1 |>.take 2).flatten else parts.flatten
    | _ => parts.flatten

structure Alias where
  name? : Option Variable
  isExported : Bool
  targets : List Variable

def aliases (module : Node) : List Alias :=
  module.subnodes.filterMap fun node =>
    match node with
    | .mk (.importEquals isExported false) _ [name, target] =>
      some { name? := name.toVariable?, isExported, targets := uses target }
    | _ => none

/-- Adds what the aliases of used variables are set to, `n` times over. -/
def closed (aliases : List Alias) : (n : Nat) → List Variable → List Variable
  | 0, used => used
  | n + 1, used =>
    let live := aliases.filter fun a => a.isExported || a.name?.any used.contains
    closed aliases n (used ++ live.flatMap Alias.targets)

def usedVariables (module : Node) : List Variable :=
  let aliases := aliases module
  let exported := (aliases.filter Alias.isExported).filterMap Alias.name?
  closed aliases aliases.length (uses module ++ exported)

-- ---------------------------------------------------------------------------
-- Names of types and values
-- ---------------------------------------------------------------------------

def typeNames (item : Node) : List String :=
  match item.kind with
  | .exportDecl | .exportDefaultDecl => ofDeclaration (item.child 0)
  | _ => ofDeclaration item
where
  ofDeclaration (node : Node) : List String :=
    let name := (node.child 0).nameText
    match node.kind with
    | .interface | .typeAlias => [name]
    | .namespaceDecl .. => if Erasure.isConcrete node then [] else [name]
    | .importDecl typeOnly _ =>
      let ofTypes := (node.children.drop 2).filter fun specifier =>
        typeOnly || (specifier.kind matches .importNamed true)
      ofTypes.map fun specifier => (specifier.child 0).nameText
    | .importEquals _ typeOnly => if typeOnly then [name] else []
    | _ => []

/-- The variables with values that a module's item declares, without those of blocks in it. -/
def valueVariables (item : Node) : List Variable :=
  item.fold fun node parts =>
    let named (node : Node) : List Variable := (node.child 0).toVariable?.toList
    match node.kind with
    | .varDecl .. | .usingDecl _ => (Scope.declaredIdents node.children).filterMap Node.toVariable?
    | .functionDecl _ | .classDecl | .exportDefaultDecl => named (node.child 0)
    | .enum .. => named node
    | .namespaceDecl .. => if Erasure.isConcrete node then named node else []
    | .exportDecl | .labeled | .withStmt => parts.flatten
    | .ifStmt | .whileStmt | .doWhile | .forStmt | .forIn | .forOf _ => parts.flatten
    | _ => []

structure Names where
  /-- Names that stand for types only. -/
  types : List String
  values : List String
  used : List Variable

def Names.ofModule (module : Node) : Names :=
  let values := (module.children.flatMap valueVariables).filter fun v => v.scope = 1
  let values := values.map Variable.name
  { values
    types := (module.children.flatMap typeNames).filter fun name => !values.contains name
    used := usedVariables module }

-- ---------------------------------------------------------------------------
-- What stays
-- ---------------------------------------------------------------------------

def staysSpecifier (names : Names) (isForeign : Bool) (specifier : Node) : Bool :=
  let ident := specifier.child 0
  match specifier.kind with
  | .importDefault | .importAll | .importNamed _ =>
    !names.values.contains ident.nameText && ident.toVariable?.any names.used.contains
  | .exportSpecifier _ =>
    isForeign || !(ident.kind matches .ident ..) || !names.types.contains ident.nameText
  | _ => true

def elideItem (names : Names) (item : Node) : Node :=
  let specified (isForeign : Bool) : Node :=
    let specifiers := (item.children.drop 2).filter (staysSpecifier names isForeign)
    if specifiers.isEmpty && item.children.length > 2 then .absent
    else item.withChildren (item.children.take 2 ++ specifiers)
  match item.kind with
  | .importDecl .. => specified true
  | .exportNamed _ => specified !(item.child 0).isAbsent
  | .exportDefaultExpr =>
    let isName : Bool := (item.child 0).kind matches .ident ..
    if isName && names.types.contains (item.child 0).nameText then .absent else item
  | _ => item

def isIdleAlias (used : List Variable) (item : Node) : Bool :=
  match item.kind with
  | .importEquals false _ => !(item.child 0).toVariable?.any used.contains
  | _ => false

/-- Leaves idle aliases out of a list of items and of the namespaces among them, but not of the
namespaces that are exported. -/
def elideAliasesStep (used : List Variable) (node : Node) (parts : List (Bool → Node))
    (isReached : Bool) : Node :=
  let items (isNamespace : Node → Bool) : List Node :=
    List.zipWith (fun item part => part (isNamespace item)) node.children parts
  match node.kind, isReached with
  | .module _, true | .block, true =>
    let items := items fun item => item.kind matches .namespaceDecl ..
    node.withChildren (items.filter fun item => !isIdleAlias used item)
  | .namespaceDecl .., true => node.withChildren (items fun _ => true)
  | _, _ => node

def elideAliases (used : List Variable) (module : Node) : Node :=
  module.fold (elideAliasesStep used) true

/-- The module without types and without imports and exports that stand for types only. -/
def erase (module : Node) : Node :=
  let names := Names.ofModule module
  let elided := module.withChildren (Erasure.kept (module.children.map (elideItem names)))
  Erasure.erase (elideAliases names.used elided)

end TsBuild.Script.Elision
