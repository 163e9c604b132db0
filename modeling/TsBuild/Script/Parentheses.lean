import TsBuild.Script.Made

/-!
# Parentheses

All parentheses are taken out of a tree and put back where the text would be read otherwise.
An expression is written with the parentheses it came in if it has to have some. What an
expression needs depends on where it stands: a statement may not begin with an object, a
function or a class, a comma separates operands, and a callee ends before the first argument.
-/

namespace TsBuild.Script.Parentheses

inductive Place
  /-- At the start of a statement, or of the body of an arrow function. -/
  | start
  | callee (isNew : Bool)
  /-- Where a comma would end the expression. -/
  | operand
  /-- Between brackets or keywords of its own. -/
  | free
  deriving DecidableEq, Repr

structure Context where
  place : Place
  /-- Whether the expression came in parentheses. -/
  cameInParens : Bool := false
  /-- Whether a class is a declaration and no expression. -/
  isDeclaration : Bool := false
  /-- Whether `in` would be read as part of a loop. -/
  inLoopHead : Bool := false
  /-- Whether the node is a link of a chain. -/
  isLink : Bool := false
  /-- Whether a chain goes on behind the expression, or behind one that it is a part of. -/
  inChain : Bool := false

abbrev Removed := List (Span × Span)

abbrev Placed := Context → StateM Removed Node

-- ---------------------------------------------------------------------------
-- Adding parentheses
-- ---------------------------------------------------------------------------

def parenthesized (span : Span) (node : Node) : Node := .mk .paren span [node]

/-- Puts parentheses around an expression: those it came in, if it came in any. -/
def wrap (node : Node) : StateM Removed Node := do
  let removed ← get
  match removed.lookup node.span with
  | some span =>
    set (removed.filter fun (inner, _) => inner ≠ node.span)
    return parenthesized span node
  | none => return parenthesized node.span node

def wrapIf (condition : Bool) (node : Node) : StateM Removed Node :=
  if condition then wrap node else pure node

def wrapChild (i : Nat) (condition : Node → Bool) (node : Node) : StateM Removed Node := do
  let child := node.child i
  if condition child then return node.withChildren (node.children.set i (← wrap child)) else return node

-- ---------------------------------------------------------------------------
-- What needs parentheses
-- ---------------------------------------------------------------------------

def isLiteral : Kind → Bool
  | .str .. | .num .. | .bigint _ | .bool _ | .null | .regex .. => true
  | _ => false

def opensStatement : Kind → Bool
  | .object | .function .. | .classLike .. => true
  | _ => false

def isWeak : Kind → Bool
  | .seq | .assign _ | .cond | .arrow _ | .yield _ => true
  | _ => false

def isBareNew (node : Node) : Bool := (node.kind matches .new) && (node.child 1).isAbsent

def wrapsObject (context : Context) (object : Node) : Bool :=
  match object.kind with
  | .object => context.place ≠ .operand
  | .function .. | .classLike .. | .unary _ | .update .. | .binary _ | .await => true
  | .new => isBareNew object
  | .call => context.place = .callee true
  | .optional _ => !(context.inChain || context.isLink)
  | kind => isWeak kind

def wrapsCallee (context : Context) (callee : Node) : Bool :=
  match callee.kind with
  | .num .. | .str .. => false
  | .object | .classLike .. | .unary _ | .binary _ | .await => true
  | .optional _ => !(context.inChain || context.isLink)
  | kind => isLiteral kind || isWeak kind

def wrapsNewCallee (callee : Node) : Bool :=
  match callee.kind with
  | .call | .await | .yield _ | .binary _ | .assign _ | .seq | .unary _ => true
  | kind => isLiteral kind

def isMixed (a b : BinaryOp) : Bool :=
  let isLogical (op : BinaryOp) : Bool := op = .and || op = .or
  (a = .coalesce && isLogical b) || (isLogical a && b = .coalesce)

def isEquality : BinaryOp → Bool
  | .equal | .notEqual | .same | .notSame => true
  | _ => false

def wrapsLeft (context : Context) (op : BinaryOp) (left : Node) : Bool :=
  match left.kind with
  | .binary inner =>
    (op = .coalesce && inner ≠ .coalesce) || isMixed op inner || inner.precedence < op.precedence ||
      (op = .power && inner = .power)
  | .unary .void => !isEquality op
  | .unary .delete => true
  | .unary _ | .await => op = .power
  | .object =>
    context.place = .start || isEquality op || op = .instanceOf
  | .function .. | .classLike .. => context.place = .start
  | kind => isWeak kind

def wrapsRight (op : BinaryOp) (right : Node) : Bool :=
  match right.kind with
  | .binary inner =>
    if inner = op then !(op = .and || op = .or)
    else isMixed op inner || inner.precedence ≤ op.precedence
  | kind => isWeak kind

def wrapsTest (context : Context) (test : Node) : Bool :=
  isWeak test.kind || (context.place = .start && opensStatement test.kind)

def isSequence (node : Node) : Bool := node.kind matches .seq

def isNumber (node : Node) : Bool := node.kind matches .num ..

/-- Whether the operand of a sign needs parentheses. The sign of a product or quotient of two numbers
may as well be that of the first. -/
def wrapsSigned (op : UnaryOp) (operand : Node) : Bool :=
  match operand with
  | .mk (.binary inner) _ [left, right] =>
    !(op = .minus && (inner = .mul || inner = .div) && isNumber left && isNumber right)
  | operand => isWeak operand.kind

def wrapsAwaited (operand : Node) : Bool :=
  (operand.kind matches .binary _) || isWeak operand.kind

def wrapsSuperclass (superclass : Node) : Bool :=
  match superclass.kind with
  | .unary _ | .update .. | .binary _ | .await => true
  | kind => isWeak kind

def wrapsTag (tag : Node) : Bool :=
  match tag.kind with
  | .function .. | .unary _ | .update .. | .binary _ | .await | .optional _ => true
  | .new => isBareNew tag
  | .seq | .assign _ | .cond | .arrow _ => true
  | _ => false

-- ---------------------------------------------------------------------------
-- Sequences
-- ---------------------------------------------------------------------------

def isPadding : Kind → Bool
  | .function .. | .arrow _ => true
  | kind => isLiteral kind

/-- Leaves out expressions whose results are ignored and that do nothing, but for the first. -/
def ignored (hasPadding : Bool) (node : Node) : Option Node × Bool :=
  match node with
  | .mk (.unary .void) _ [inner] => ignored hasPadding inner
  | node =>
    if isPadding node.kind then (if hasPadding then none else some node, true)
    else (some node, hasPadding)

def ignoredAll (hasPadding : Bool) : List Node → List Node
  | [] => []
  | [last] => [last]
  | node :: rest =>
    let (node?, hasPadding) := ignored hasPadding node
    node?.toList ++ ignoredAll hasPadding rest

def withoutPadding (nodes : List Node) : List Node :=
  match nodes.findIdx? fun node => isPadding node.kind with
  | some i => if nodes.length > 2 && i + 1 < nodes.length then nodes.eraseIdx i else nodes
  | none => nodes

def flattened (nodes : List Node) : List Node :=
  nodes.flatMap fun node =>
    match node with
    | .mk .seq _ inner => inner
    | node => [node]

def sequence (context : Context) (span : Span) (nodes : List Node) : Node :=
  match ignoredAll false (flattened nodes) with
  | [node] => node
  | nodes =>
    let node := Node.mk .seq span (withoutPadding nodes)
    if context.place = .operand then parenthesized span node else node

-- ---------------------------------------------------------------------------
-- Statements
-- ---------------------------------------------------------------------------

/-- Puts parentheses around the first expression of a statement, if it may not begin one. Of the
expressions of a sequence the last is left alone. -/
def beginStatement (node : Node) : StateM Removed Node := do
  match node with
  | .mk .seq span children => return .mk .seq span (← beginAll children)
  | .mk .cond span (first :: rest) => return .mk .cond span ((← beginStatement first) :: rest)
  | .mk (.binary op) span (first :: rest) =>
    return .mk (.binary op) span ((← beginStatement first) :: rest)
  | .mk (.assign op) span (target :: rest) =>
    wrapIf (target.kind matches .objectPattern _) (.mk (.assign op) span (target :: rest))
  | node => wrapIf (opensStatement node.kind) node
where
  beginAll : List Node → StateM Removed (List Node)
    | [] => return []
    | [last] => return [last]
    | node :: rest => return (← beginStatement node) :: (← beginAll rest)

def takesElse : Node → Bool
  | .mk .ifStmt _ [_, _, .mk .absent _ _] => true
  | .mk .ifStmt _ [_, _, alternate] => takesElse alternate
  | .mk .labeled _ [_, body] => takesElse body
  | .mk .whileStmt _ [_, body] => takesElse body
  | .mk .forStmt _ [_, _, _, body] => takesElse body
  | .mk .forIn _ [_, _, body] => takesElse body
  | .mk (.forOf _) _ [_, _, body] => takesElse body
  | _ => false

/-- Puts the body of an `if` into a block, if an `else` behind it would be read as its own. -/
def separateElse (node : Node) : Node :=
  let body := node.child 1
  if takesElse body then node.withChildren (node.children.set 1 (.mk .block body.span [body])) else node

-- ---------------------------------------------------------------------------
-- Nodes
-- ---------------------------------------------------------------------------

def passesStart : Kind → Bool
  | .optional _ | .member | .binary _ | .assign _ | .seq | .cond | .update _ false => true
  | _ => false

def isFrame : Kind → Bool
  | .list | .param | .binding _ | .arrayPattern _ | .objectPattern _ | .keyValue | .shorthand | .rest
  | .defaulted | .property _ | .accessor _ | .classMethod .. | .constructor _ | .staticBlock | .decorator
  | .functionDecl _ | .classDecl | .varDecl .. | .declarator _ | .usingDecl _ | .block => true
  | _ => false

def Context.inner (context : Context) (kind : Kind) : Place :=
  if context.place = .start && !context.isDeclaration && !isFrame kind &&
      (context.cameInParens || !passesStart kind) then .free
  else context.place

def isPattern : Kind → Bool
  | .binding _ | .arrayPattern _ | .objectPattern _ | .defaulted => true
  | _ => false

def childPlace (inner : Place) (node : Node) (i : Nat) : Place :=
  match node.kind with
  | .exprStmt | .exportDefaultExpr | .exportDefaultDecl | .exportDecl | .arrow _ => .start
  | .array | .spread | .param | .shorthand | .yield _ | .await => .operand
  | .keyValue => if i = 1 && isPattern (node.child 1).kind then inner else .operand
  | .declarator _ => if i = 0 then inner else .operand
  | .computed | .unary _ => .free
  | .call => if i = 0 then .callee false else .operand
  | .new => if i = 0 then .callee true else .operand
  | .classLike .. => if i = 2 then .start else inner
  | .binary _ | .assign _ | .cond | .seq => if i = 0 then inner else .free
  | .module _ | .block | .ifStmt | .switch | .switchCase | .whileStmt | .doWhile | .forStmt | .forIn
  | .forOf _ | .returnStmt | .throwStmt | .labeled | .withStmt | .tryStmt | .catch => .free
  | _ => inner

/-- Elements of arrays and arguments; a `yield` stands in parentheses there. -/
def placeItems (items : List Node) : StateM Removed (List Node) :=
  items.mapM fun item => wrapIf (item.kind matches .yield _) item

def placeArguments (node : Node) : StateM Removed Node := do
  match node.child 1 with
  | .mk .list span arguments =>
    return node.withChildren (node.children.set 1 (.mk .list span (← placeItems arguments)))
  | _ => return node

def placeKey (i : Nat) (node : Node) : StateM Removed Node := do
  match node.child i with
  | .mk .computed span [key] =>
    return node.withChildren (node.children.set i (.mk .computed span [← wrapIf (isSequence key) key]))
  | _ => return node

def placeCall (context inner : Context) (node : Node) : StateM Removed Node := do
  let node ← wrapChild 0 (wrapsCallee inner) node
  let node ← placeArguments node
  if (node.child 0).kind matches .function .. then
    match context.place with
    | .operand | .free => return node
    | .callee true => wrap node
    | _ => wrapChild 0 (fun _ => true) node
  else return node

def isDestructuring (expression : Node) : Bool :=
  (expression.kind matches .assign _) &&
    ((expression.child 0).kind matches .objectPattern _ | .arrayPattern _)

def wrapsArrowBody (body : Node) : Bool :=
  (body.kind matches .seq | .object) || isDestructuring body

def isAsyncWord (head : Node) : Bool := head.kind matches .ident "async" _

/-- The parts of an expression that need parentheses, and the expression itself if it does. The
place of the expression is that of `context`, the place of its parts that of `inner`. -/
def place (context inner : Context) (node : Node) : StateM Removed Node := do
  match node.kind with
  | .exprStmt => return node.withChildren [← beginStatement (node.child 0)]
  | .exportDefaultExpr =>
    wrapChild 0 (fun child => child.kind matches .arrow _ | .seq) node
  | .arrow _ => wrapChild 1 wrapsArrowBody node
  | .assign _ | .defaulted => wrapChild 1 isSequence node
  | .binary op => do
    let node ← wrapChild 1 (wrapsRight op) node
    let node ← wrapChild 0 (wrapsLeft inner op) node
    wrapIf (op = .membership && context.inLoopHead) node
  | .cond => do
    let node ← wrapChild 0 (wrapsTest context) node
    let node ← wrapChild 1 isSequence node
    let node ← wrapChild 2 isSequence node
    wrapIf (context.place = .callee true) node
  | .unary op => wrapChild 0 (wrapsSigned op) node
  | .await => wrapChild 0 wrapsAwaited node
  | .member => wrapChild 0 (wrapsObject inner) node
  | .call => placeCall context inner node
  | .new => do placeArguments (← wrapChild 0 wrapsNewCallee node)
  | .tagged => wrapChild 0 wrapsTag node
  | .array => return node.withChildren (← placeItems node.children)
  | .seq => return sequence context node.span node.children
  | .classLike .. => wrapChild 2 wrapsSuperclass node
  | .keyValue | .method _ | .classMethod .. => placeKey 0 node
  | .property _ | .accessor _ => placeKey 1 node
  | .forOf isAwait => do
    let node ← wrapChild 1 (fun right => right.kind matches .seq | .await) node
    wrapChild 0 (fun head => !isAwait && isAsyncWord head) node
  | .ifStmt => return separateElse node
  | _ => return node

def childContext (context inner : Context) (node : Node) (i : Nat) : Context :=
  let child := { inner with
    place := childPlace inner.place node i, cameInParens := false, isDeclaration := false, isLink := false }
  match node.kind with
  | .forStmt => { child with inLoopHead := context.inLoopHead || i = 0 }
  | .block => { child with inLoopHead := false }
  | .arrow _ => { child with inLoopHead := context.inLoopHead && i ≠ 0 }
  | .classDecl | .exportDefaultDecl => { child with isDeclaration := true }
  | .optional _ => { child with isLink := true }
  | .member => { child with inChain := context.inChain || context.isLink }
  | .call => { child with inChain := context.inChain || (context.isLink && i = 0) }
  | _ => child

def isClassDecorators (kind : Kind) (i : Nat) : Bool := (kind matches .classLike ..) && i = 1

def placeStep (node : Node) (parts : List Placed) (context : Context) : StateM Removed Node := do
  match node.kind, parts with
  | .paren, [part] =>
    modify fun removed => (removed.filter fun (inner, _) => inner ≠ (node.child 0).span) ++
      [((node.child 0).span, node.span)]
    part { context with cameInParens := true }
  | kind, _ =>
    let inner := { context with place := context.inner kind }
    let child (i : Nat) (part : Placed) : StateM Removed Node :=
      if isClassDecorators kind i then return node.child i else part (childContext context inner node i)
    place context inner (node.withChildren (← (parts.mapIdx child).mapM id))

/-- The tree with parentheses only where they are needed, and the parentheses that are gone, the first
removed last. -/
def placed (tree : Node) : Node × Removed :=
  let (node, removed) := (tree.fold placeStep { place := .start }).run []
  (node, removed.reverse)

end TsBuild.Script.Parentheses
