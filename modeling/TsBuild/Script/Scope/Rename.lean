import TsBuild.Script.Made
import TsBuild.Script.Scope.Names

/-!
# Renaming variables

Variables of different scopes may come to have one name where both are seen. Then the inner
one takes the first name `x`, `x1`, `x2`, … that is free: no variable without a declaration
has it, and no other variable used in the scope.
-/

namespace TsBuild.Script.Scope

-- ---------------------------------------------------------------------------
-- The scopes of a tree
-- ---------------------------------------------------------------------------

inductive Tree
  | mk (declared used : List Variable) (children : List Tree)
  deriving Inhabited

structure Census where
  declared : List Variable := []
  /-- Declared in a block for the function around. -/
  hoisted : List Variable := []
  used : List Variable := []
  children : List Tree := []

namespace Census

def append (a b : Census) : Census :=
  { declared := a.declared ++ b.declared, hoisted := a.hoisted ++ b.hoisted, used := a.used ++ b.used,
    children := a.children ++ b.children }

instance : Append Census := ⟨append⟩

def join (parts : List Census) : Census := parts.foldr append {}

def declaring (new : List Variable) (forFunction inFunction : Bool) (census : Census) : Census :=
  if forFunction && !inFunction then { hoisted := new } ++ census
  else { declared := new } ++ census

def block (inFunction : Bool) (census : Census) : Census :=
  { declared := if inFunction then census.hoisted else []
    hoisted := if inFunction then [] else census.hoisted
    used := census.used
    children := [.mk census.declared census.used census.children] }

def function (census : Census) : Census :=
  { used := census.used, children := [.mk census.declared census.used census.children] }

end Census

def variablesOf (idents : List Node) : List Variable := idents.filterMap Node.toVariable?

/-- How a part is counted: whether its scope is that of a function, and whether it is the body of the
scope around it. -/
structure Standing where
  inFunction : Bool
  joins : Bool := false
  /-- Whether a function or class is a declaration. -/
  declares : Bool := false
  /-- Whether a function reads or writes a property of an object. -/
  isAccessor : Bool := false

/-- The census of a node. What reads or writes a property of an object is no scope of its own: its
parameters are used but not declared, and its body is a block of the function around. -/
def censusStep (node : Node) (parts : List (Standing → Census)) (standing : Standing) : Census :=
  let inner : Standing := { inFunction := standing.inFunction }
  let within (standing : Standing) (parts : List (Standing → Census)) : Census :=
    Census.join (parts.map fun part => part standing)
  let inFunction : Standing := { inFunction := true, joins := true }
  let inBlock : Standing := { inFunction := false, joins := false }
  let name := variablesOf [node.child 0]
  /- A function with parameters `own` and these parts. -/
  let function (own : List Variable) (parts : List (Standing → Census)) : Census :=
    ((within inFunction parts).declaring own false true).function
  match node.kind with
  | .ident .. => { used := (node.toVariable?).toList }
  | .varDecl kind _ =>
    (within inner parts).declaring (variablesOf (declaredIdents node.children)) (kind = .hoisted)
      standing.inFunction
  | .usingDecl _ =>
    (within inner parts).declaring (variablesOf (declaredIdents node.children)) false standing.inFunction
  | .function .. =>
    let function := function (variablesOf (boundIdents (node.child 1))) (parts.drop 1)
    if standing.isAccessor then within inner parts
    else if standing.declares then
      (within inner (parts.take 1) ++ function).declaring name true standing.inFunction
    else if name.isEmpty then function
    else ((within inner (parts.take 1) ++ function).declaring name false true).function
  | .arrow _ => function (variablesOf (boundIdents (node.child 0))) parts
  | .constructor _ => function (variablesOf (boundIdents (node.child 0))) parts
  | .staticBlock => function [] parts
  | .functionDecl _ | .classDecl | .exportDefaultDecl => within { inner with declares := true } parts
  | .method kind => within { inner with isAccessor := kind ≠ .method } parts
  | .classLike .. =>
    let all := within inner parts
    if standing.declares then all.declaring name false standing.inFunction
    else if name.isEmpty then all
    else (all.declaring name false standing.inFunction).block standing.inFunction
  | .block =>
    if standing.joins then within inner parts else (within inBlock parts).block standing.inFunction
  | .catch =>
    let bound := variablesOf (boundIdents (node.child 0))
    ((within inBlock parts).declaring bound false false).block standing.inFunction
  | .forStmt | .forIn | .forOf _ | .switch => (within inBlock parts).block standing.inFunction
  | .importDefault | .importAll | .importNamed _ =>
    (within inner parts).declaring name false standing.inFunction
  | .module _ => (within { inFunction := true } parts).function
  | _ => within inner parts

def Tree.ofModule (module : Node) : Tree :=
  ((module.fold censusStep { inFunction := true }).children.head?).getD default

-- ---------------------------------------------------------------------------
-- New names
-- ---------------------------------------------------------------------------

mutual
def Tree.allDeclared : Tree → List Variable
  | mk declared _ children => declared ++ allDeclaredIn children
def Tree.allDeclaredIn : List Tree → List Variable
  | [] => []
  | tree :: rest => tree.allDeclared ++ allDeclaredIn rest
end

abbrev Naming := List (Variable × String)

def candidate (name : String) (n : Nat) : String := if n = 0 then name else name ++ toString n

/-- Whether a variable of a scope may take a name. `taken` are the variables named in the scope and
those around it. -/
def isFree (undeclared : List String) (used : List Variable) (taken : Naming) (v : Variable)
    (name : String) : Bool :=
  !undeclared.contains name && taken.all fun (other, n) => n ≠ name || other = v || !used.contains other

/-- One of the names tried is free: each taken or undeclared name rules out one at most. -/
def freeName (undeclared : List String) (used : List Variable) (taken : Naming) (v : Variable) : String :=
  let tries := (List.range (undeclared.length + taken.length + 1)).map (candidate v.name)
  (tries.find? (isFree undeclared used taken v)).getD v.name

def nameDeclared (undeclared : List String) (used : List Variable) (named taken : Naming) :
    List Variable → Naming × Naming
  | [] => (named, taken)
  | v :: rest =>
    if (named.lookup v).isSome || v.name = "arguments" || v.name = "eval" then
      nameDeclared undeclared used named taken rest
    else
      let entry := (v, freeName undeclared used taken v)
      nameDeclared undeclared used (entry :: named) (entry :: taken) rest

mutual
def Tree.name (undeclared : List String) (named taken : Naming) : Tree → Naming
  | mk declared used children =>
    let (named, taken) := nameDeclared undeclared used named taken declared
    nameAll undeclared named taken children
def Tree.nameAll (undeclared : List String) (named taken : Naming) : List Tree → Naming
  | [] => named
  | tree :: rest => nameAll undeclared (tree.name undeclared named taken) taken rest
end

def usedIdents (module : Node) : List Variable :=
  module.fold fun node parts =>
    match node.kind with
    | .ident name scope => [⟨name, scope⟩]
    | .exportSpecifier _ => []
    | _ => parts.flatten

def undeclaredNames (module : Node) (declared : List Variable) : List String :=
  ((usedIdents module).filter fun v => !declared.contains v).map Variable.name

def naming (module : Node) : Naming :=
  let tree := Tree.ofModule module
  (tree.name (undeclaredNames module tree.allDeclared) [] []).filter fun (v, name) => name ≠ v.name

-- ---------------------------------------------------------------------------
-- Renaming
-- ---------------------------------------------------------------------------

def oldName (ident : Node) : Node := .mk (.name ident.nameText) ident.span []

def renamedIdent (naming : Naming) (ident : Node) : Node :=
  match ident.kind, ident.toVariable?.bind (List.lookup · naming) with
  | .ident _ scope, some name => ident.withKind (.ident name scope)
  | _, _ => ident

def renamedPattern (naming : Naming) (pattern : Node) : Node :=
  Made.mapPattern (fun node =>
    node.withChildren ((node.children.take 1).map (renamedIdent naming) ++ node.children.drop 1)) pattern

/-- An exported declaration whose variables are renamed: they are exported behind it, by the names
they had. -/
def exportedApart (naming : Naming) (before after : Node) : List Node :=
  let export? (ident : Node) : Option Node := do
    let _ ← naming.lookup (← ident.toVariable?)
    return Made.node (.exportSpecifier false) [renamedIdent naming ident, oldName ident]
  let apart (idents : List Node) (declaration : Node) : List Node :=
    match idents.filterMap export? with
    | [] => [after]
    | specifiers => [declaration, Made.node (.exportNamed false) (.absent :: .absent :: specifiers)]
  let declaration := before.child 0
  match before.kind, declaration.kind with
  | .exportDecl, .varDecl .. =>
    let declarator (before after : Node) : Node :=
      after.withChildren (renamedPattern naming (before.child 0) :: after.children.drop 1)
    let declarators := List.zipWith declarator declaration.children (after.child 0).children
    apart (declaredIdents declaration.children) ((after.child 0).withChildren declarators)
  | .exportDecl, .functionDecl _ | .exportDecl, .classDecl =>
    apart [(declaration.child 0).child 0] (after.child 0)
  | _, _ => [after]

/-- Renames the variables of a node. Where one name stood for a variable and for a property or an
export, both are written. -/
def renameStep (naming : Naming) (node : Node) (parts : List Node) : Node :=
  let renamed := node.withChildren parts
  let changed (i : Nat) : Bool :=
    ((node.child i).kind matches .ident ..) && (node.child i).nameText ≠ (renamed.child i).nameText
  match node.kind with
  | .ident .. => renamedIdent naming node
  | .object =>
    node.withChildren (List.zipWith (fun before after =>
      if (before.kind matches .ident ..) && before.nameText ≠ after.nameText then
        .mk .keyValue before.span [oldName before, after]
      else after) node.children parts)
  | .shorthand => if changed 0 then Made.spelledOut (node.child 0) renamed else renamed
  | .exportSpecifier _ | .importNamed _ =>
    if changed 0 && (node.child 1).isAbsent then
      node.withChildren [renamed.child 0, oldName (node.child 0)]
    else renamed
  | .module _ =>
    node.withChildren (List.zipWith (exportedApart naming) node.children parts).flatten
  | _ => renamed

def rename (module : Node) : Node :=
  let naming := naming module
  if naming.isEmpty then module else module.fold (renameStep naming)

end TsBuild.Script.Scope
