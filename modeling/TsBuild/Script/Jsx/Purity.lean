import TsBuild.Script.Node

/-!
# Calls without effects

A tool that drops unused code may drop elements, and calls of functions that only make things out
of elements. The positions of such calls are found here, for a comment that says so.
-/

namespace TsBuild.Script.Jsx.Purity

def functions : (package : String) → List String
  | "react" =>
    ["cloneElement", "createContext", "createElement", "createFactory", "createRef", "forwardRef",
      "isValidElement", "memo", "lazy"]
  | "react-dom" => ["createPortal"]
  | _ => []

inductive Imported
  | function (package name : String)
  | package (name : String)

def importedBy (item : Node) : List (Variable × Imported) :=
  match item with
  | .mk (.importDecl ..) _ (source :: _ :: specifiers) =>
    let package := source.nameText
    specifiers.filterMap fun specifier => do
      let v ← (specifier.child 0).toVariable?
      match specifier.kind with
      | .importNamed _ =>
        let name := match (specifier.child 1).kind with
          | .name text => text
          | _ => v.name
        return (v, if name = "default" then .package package else .function package name)
      | _ => return (v, .package package)
  | _ => []

def isPureCallee (imports : List (Variable × Imported)) (callee : Node) : Bool :=
  let imported? (node : Node) : Option Imported := node.toVariable?.bind fun v => imports.lookup v
  match callee with
  | .mk .member _ [object, .mk (.name name) _ _] =>
    match imported? object with
    | some (.package package) => (functions package).contains name
    | _ => false
  | callee =>
    match imported? callee with
    | some (.function package name) => (functions package).contains name
    | _ => false

/-- The positions of calls of functions without effects. A call in a chain that may stop before it
is not counted. -/
def calls (imports : List (Variable × Imported)) (module : Node) : List Pos :=
  let step (node : Node) (parts : List (Bool → List Pos)) (isLink : Bool) : List Pos :=
    let isLinkBelow : Bool := node.kind matches .optional _
    let below := parts.flatMap fun part => part isLinkBelow
    let isPure : Bool := (node.kind matches .call) && !isLink && isPureCallee imports (node.child 0)
    if isPure then node.lo :: below else below
  module.fold step false

def elements (module : Node) : List Pos :=
  module.subnodes.filterMap fun node =>
    match node.kind with
    | .jsxElement | .jsxFragment => some node.lo
    | _ => none

def positions (module : Node) : List Pos :=
  elements module ++ calls (module.children.flatMap importedBy) module

end TsBuild.Script.Jsx.Purity
