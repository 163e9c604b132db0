import TsBuild.Script.Node

/-!
# Making nodes

Nodes that come from no text, and the replacing of variables by other expressions.
-/

namespace TsBuild.Script.Made

def node (kind : Kind) (children : List Node) : Node := .mk kind .none children

def str (value : String) : Node := node (.str value none) []
def number (n : Nat) : Node := node (.num (.ofNat n) none) []
def ident (name : String) (scope : Nat) : Node := node (.ident name scope) []
def bool (value : Bool) : Node := node (.bool value) []
def null : Node := node .null []
def this : Node := node .this []

def void : Node := node (.unary .void) [number 0]

def object (properties : List Node) : Node := node .object properties
def array (elements : List Node) : Node := node .array elements
def keyValue (key value : Node) : Node := node .keyValue [key, value]

def memberOf (object name : Node) : Node :=
  node .member [object, .mk (.name name.nameText) name.span []]

def memberNamed (object : Node) (name : String) : Node :=
  node .member [object, node (.name name) []]

def element (object index : Node) : Node := node .member [object, node .computed [index]]

def assign (target value : Node) : Node := node (.assign "=") [target, value]
def call (callee : Node) (arguments : List Node) : Node := node .call [callee, .list arguments]
def either (left right : Node) : Node := node (.binary .or) [left, right]
def statement (expression : Node) : Node := node .exprStmt [expression]

def binding (ident : Node) : Node := .mk (.binding false) ident.span [ident, .absent]

def declaration (kind : VarKind) (pattern value : Node) : Node :=
  node (.varDecl kind false) [node (.declarator false) [pattern, value]]

def function (parameter body : Node) : Node :=
  let param := node .param [.list [], binding parameter]
  node (.function false false) [.absent, .list [param], body, .absent]

def sequence : List Node → Node
  | [expression] => expression
  | expressions => node .seq expressions

-- ---------------------------------------------------------------------------
-- Patterns
-- ---------------------------------------------------------------------------

/-- Changes the places of a pattern that name variables; keys and defaults stay. -/
def mapPattern (change : Node → Node) (pattern : Node) : Node :=
  pattern.fold fun node parts =>
    match node.kind with
    | .binding _ | .shorthand => change node
    | .arrayPattern _ | .objectPattern _ | .rest => node.withChildren parts
    | .defaulted => node.withChildren (parts.take 1 ++ node.children.drop 1)
    | .keyValue => node.withChildren (node.children.take 1 ++ parts.drop 1)
    | _ => node

def spelledOut (name shorthand : Node) : Node :=
  let target := binding (shorthand.child 0)
  let value := if (shorthand.child 1).isAbsent then target
    else .mk .defaulted shorthand.span [target, shorthand.child 1]
  .mk .keyValue shorthand.span [.mk (.name name.nameText) name.span [], value]

-- ---------------------------------------------------------------------------
-- Replacing variables
-- ---------------------------------------------------------------------------

/-- Replaces variables by expressions wherever they are read or assigned to. A property that stood
for a variable of its own name gets a value; in a pattern it stays. -/
def substitute (replacement : Node → Option Node) (tree : Node) : Node :=
  tree.fold fun node parts =>
    let part (i : Nat) : Node := parts.getD i .absent
    let keepsName : Node := node.withChildren (node.children.take 1 ++ parts.drop 1)
    let property (before after : Node) : Node :=
      if (before.kind matches .ident ..) && !(after.kind matches .ident ..) then
        .mk .keyValue before.span [.mk (.name before.nameText) before.span [], after]
      else after
    match node.kind with
    | .ident .. => (replacement node).getD node
    | .binding _ => if (part 0).kind matches .ident .. then node.withChildren parts else part 0
    | .object => node.withChildren (List.zipWith property node.children parts)
    | .shorthand | .function .. | .classLike .. | .enum .. | .namespaceDecl .. => keepsName
    | .importEquals .. => keepsName
    | .importDefault | .importAll | .importNamed _ | .exportSpecifier _ => node
    | _ => node.withChildren parts

end TsBuild.Script.Made
