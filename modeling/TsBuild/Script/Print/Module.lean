import TsBuild.Script.Print.Statement

/-!
# Modules

Imports and exports stay on one line each; the attributes of an import are an object and
broken like one.
-/

namespace TsBuild.Script.Print

open Doc

def braceNames (setting : Setting) (node : Node) (names : List Part) : Doc :=
  "\x7b" ++ items setting .names node.span names ++ "\x7d"

def fromSource (source attributes : Part) : Doc :=
  source.doc ++ (if attributes.isAbsent then empty else " with " ++ attributes.doc) ++ ";"

def importClause (setting : Setting) (node : Node) (specifiers : List Part) : Doc :=
  let named := specifiers.filter fun part => part.kind matches .importNamed _
  let whole := specifiers.filter fun part => !(part.kind matches .importNamed _)
  if specifiers.isEmpty then empty
  else
    let clauses := whole.map Part.doc ++ if named.isEmpty then [] else [braceNames setting node named]
    joined ", " clauses ++ " from "

def importDeclaration (setting : Setting) (node : Node) (phase : ImportPhase)
    (source attributes : Part) (specifiers : List Part) : Doc :=
  "import " ++ (phase.word?.elim empty fun name => text name ++ " ") ++ importClause setting node specifiers ++ fromSource source attributes ++ endMark node

def exportNames (setting : Setting) (node : Node) (source attributes : Part)
    (specifiers : List Part) : Doc :=
  let named := specifiers.filter fun part => part.kind matches .exportSpecifier _
  let whole := specifiers.filter fun part => !(part.kind matches .exportSpecifier _)
  let names : List Doc :=
    if named.isEmpty && !whole.isEmpty then [] else [braceNames setting node named]
  "export " ++ joined ", " (whole.map Part.doc ++ names) ++
    (if source.isAbsent then text ";" else " from " ++ fromSource source attributes) ++ endMark node

def renamed (node : Node) (first second : Part) : Doc :=
  start node ++
    (if first.isAbsent then second.doc
     else if second.isAbsent then first.doc
     else first.doc ++ " as " ++ second.doc) ++ endMark node

/-- The decorators of an exported class, which stand before `export`. -/
def exportedDecorators (declaration : Part) : Doc :=
  match declaration.kind with
  | .classDecl => concat (((declaration.part 0).part 1).parts.map Part.doc)
  | _ => empty

def moduleDeclaration? (setting : Setting) (node : Node) (parts : List Part) : Option Doc :=
  let part (i : Nat) : Part := parts.getD i .absent
  match node.kind with
  | .importDecl _ phase => some (importDeclaration setting node phase (part 0) (part 1) (parts.drop 2))
  | .exportNamed _ => some (exportNames setting node (part 0) (part 1) (parts.drop 2))
  | .exportAll _ => some ("export * from " ++ fromSource (part 0) (part 1) ++ endMark node)
  | .exportDecl =>
    some (exportedDecorators (part 0) ++ "export " ++ (part 0).docAs .exported)
  | .exportDefaultDecl => some ("export default " ++ (part 0).doc)
  | .exportDefaultExpr => some ("export default " ++ (part 0).doc ++ ";" ++ endMark node)
  | _ => none

def specifier? (node : Node) (parts : List Part) : Option Doc :=
  let part (i : Nat) : Part := parts.getD i .absent
  match node.kind with
  | .importDefault => some (part 0).doc
  | .importAll => some ("* as " ++ (part 0).doc)
  | .importNamed _ => some (renamed node (part 1) (part 0))
  | .exportSpecifier _ => some (renamed node (part 0) (part 1))
  | .exportDefaultFrom => some (start node ++ (part 0).doc ++ endMark node)
  | .exportNamespace => some (start node ++ "* as " ++ (part 0).doc ++ endMark node)
  | _ => none

def module (node : Node) (shebang : Option String) (parts : List Part) : Doc :=
  let firstLine : Doc := match shebang with
    | none => empty
    | some words => "#!" ++ words ++ line
  before node.lo ++ firstLine ++ concat (parts.map Part.doc) ++ behind node.hi true

end TsBuild.Script.Print
