import TsBuild.Script.Made

/-!
# Names of components

A component made by `createReactClass` or `React.createClass` is given the name of the variable
or property that it is set to.
-/

namespace TsBuild.Script.Jsx.DisplayName

def key : String := "displayName"

def isMaker (callee : Node) : Bool :=
  match callee with
  | .mk .member _ [.mk (.ident "React" _) _ _, .mk (.name "createClass") _ _] => true
  | .mk (.ident "createReactClass" _) _ _ => true
  | _ => false

def isName (property : Node) : Bool :=
  match property.kind with
  | .ident name _ => name = key
  | .keyValue | .method _ =>
    match (property.child 0).kind with
    | .name text | .str text _ => text = key
    | _ => false
  | _ => false

def objectWithName (name object : Node) : Node :=
  match object with
  | .mk .object span properties =>
    if properties.any isName then object
    else .mk .object span (properties ++ [Made.keyValue (Made.node (.name key) []) name])
  | _ => object

def withName (name call : Node) : Node :=
  match call with
  | .mk .call span [callee, .mk .list listSpan (.mk .spread spreadSpan [object] :: rest)] =>
    .mk .call span
      [callee, .mk .list listSpan (.mk .spread spreadSpan [objectWithName name object] :: rest)]
  | .mk .call span [callee, .mk .list listSpan (object :: rest)] =>
    .mk .call span [callee, .mk .list listSpan (objectWithName name object :: rest)]
  | _ => call

/-- Names the first component made by an expression, but none in an array or object, and none made
by a call in a chain that may stop before it. -/
def named (name expression : Node) : Node :=
  let step (node : Node) (parts : List (Bool → StateM (Option Node) Node)) (isLink : Bool) :
      StateM (Option Node) Node := do
    match node.kind with
    | .array => return node
    | .object => return node
    | kind =>
      let isLinkBelow : Bool := kind matches .optional _
      let node := node.withChildren (← parts.mapM fun part => part isLinkBelow)
      let isComponent : Bool := (kind matches .call) && !isLink && isMaker (node.child 0)
      match ← get with
      | some name =>
        if isComponent then
          set (none : Option Node)
          return withName name node
        else return node
      | none => return node
  ((expression.fold step false).run (some name)).1

def text (name : Node) : Node := .mk (.str name.nameText none) name.span []

def ofKey (key : Node) : Node :=
  match key.kind with
  | .name _ => text key
  | .computed => key.child 0
  | _ => key

def ofTarget? (target : Node) : Option Node :=
  match target with
  | .mk .member _ [_, .mk (.name word) span _] => some (text (.mk (.name word) span []))
  | .mk (.binding _) _ (ident :: _) => some (text ident)
  | .mk (.ident ..) _ _ => some (text target)
  | _ => none

def assigned (module : Node) : Node :=
  module.fold fun node parts =>
    let part (i : Nat) : Node := parts.getD i .absent
    match node.kind with
    | .assign "=" =>
      match ofTarget? (node.child 0) with
      | some name => node.withChildren [part 0, named name (part 1)]
      | none => node.withChildren parts
    | .declarator _ =>
      match node.child 0 with
      | .mk (.binding _) _ (ident :: _) =>
        node.withChildren ([node.child 0, named (text ident) (node.child 1)] ++ node.children.drop 2)
      | _ => node
    | .keyValue => node.withChildren [part 0, named (ofKey (part 0)) (part 1)]
    | .exportDefaultExpr => node.withChildren (parts.map (named (Made.str "input")))
    | _ => node.withChildren parts

end TsBuild.Script.Jsx.DisplayName
