import TsBuild.Script.Print.Literal

/-!
# Expressions

Properties of object literals and elements of array literals stand on lines of their own;
all else stays on one line. The body of an arrow function is indented.
-/

namespace TsBuild.Script.Print

open Doc

def word (node : Node) (text : String) : Doc := start node ++ text ++ endMark node

def callArguments (setting : Setting) (parent : Span) (arguments : Part) : Doc :=
  "(" ++ items setting .arguments parent arguments.parts ++ ")"

def parameters (setting : Setting) (parent : Span) (parameters : Part) : Doc :=
  "(" ++ items setting .arguments parent parameters.parts ++ ")"

def functionTail (setting : Setting) (function : Part) : Doc :=
  let body := function.part 2
  parameters setting function.span (function.part 1) ++
    if body.isAbsent then text ";" else " " ++ body.docAs .body

def memberName (point : Doc) (property : Part) : Doc :=
  match property.kind with
  | .computed => property.doc
  | _ => point ++ property.doc

def member (node : Node) (object property : Part) : Doc :=
  let point : Doc := match object.kind with
    | .num value raw => if takesPoint value raw then ".." else "."
    | _ => "."
  start node ++ object.doc ++ memberName point property ++ endMark node

def call (setting : Setting) (node : Node) (callee arguments : Part) : Doc :=
  start node ++ callee.doc ++ callArguments setting node.span arguments

def optionalLink (setting : Setting) (node : Node) (stopsHere : Bool) (link : Part) : Doc :=
  let question : Doc := guarded stopsHere "?."
  match link.kind with
  | .member =>
    before node.lo ++ (link.part 0).doc ++
      match (link.part 1).kind with
      | .computed => question ++ (link.part 1).doc
      | _ => (if stopsHere then question else ".") ++ (link.part 1).doc
  | _ =>
    before node.lo ++ (link.part 0).doc ++ question ++ callArguments setting node.span (link.part 1)

def newExpression (setting : Setting) (node : Node) (callee arguments : Part) : Doc :=
  start node ++ "new " ++ callee.doc ++
    if arguments.isAbsent then empty else callArguments setting node.span arguments

def isWordOp : UnaryOp → Bool
  | .typeof | .void | .delete => true
  | _ => false

/-- Whether an operand would run together with the operator before it. -/
def clings (op : UnaryOp) (operand : Kind) : Bool :=
  match op, operand with
  | .plus, .update true true | .plus, .unary .plus => true
  | .minus, .update false true | .minus, .unary .minus => true
  | _, _ => false

def unary (node : Node) (op : UnaryOp) (operand : Part) : Doc :=
  start node ++ op.text ++ guarded (isWordOp op || clings op operand.kind) " " ++ operand.doc

def update (node : Node) (isIncrement isPrefix : Bool) (operand : Part) : Doc :=
  let op : Doc := if isIncrement then "++" else "--"
  start node ++ if isPrefix then op ++ operand.doc else operand.doc ++ op

def arrow (setting : Setting) (node : Node) (isAsync : Bool) (params body : Part) : Doc :=
  start node ++ guarded isAsync "async " ++ parameters setting node.span params ++ "=>" ++
    match body.kind with
    | .block => body.docAs .body
    | _ => nest body.doc

def functionExpression (setting : Setting) (node : Node) (isAsync isGenerator : Bool)
    (function : Part) : Doc :=
  let name := function.part 0
  start node ++ guarded isAsync "async " ++ "function" ++ guarded isGenerator "*" ++
    (if name.isAbsent then empty else " " ++ name.doc) ++ functionTail setting function

/-- What stands between the braces of a literal or a block; the comments before the closing brace
come last. -/
def braced (role : Role) (setting : Setting) (node : Node) (style : ListStyle) (parts : List Part) :
    Doc :=
  let inner :=
    if parts.isEmpty && !setting.commentBefore (node.hi - 1) then empty
    else itemsAs role setting style node.span parts
  "\x7b" ++ inner ++ before (node.hi - 1) ++ closeMark node ++ "\x7d"

def array (setting : Setting) (node : Node) (elements : List Part) : Doc :=
  let inner : Doc := if elements.isEmpty then empty else items setting .literal node.span elements
  let comma : Doc := guarded (elements.getLast?.elim false Part.isAbsent) ", "
  start node ++ "[" ++ inner ++ comma ++ "]" ++ endMark node

/-- A property with its value. A key or value that was made takes the place of the other. -/
def keyValue (node : Node) (key value : Part) : Doc :=
  let isMade (part : Part) : Bool := part.node.lo = 0
  before node.lo ++ startMark key.node ++ key.doc ++
    guarded (isMade value) (endMark key.node) ++ ": " ++
    guarded (isMade key) (startMark value.node) ++ value.doc

def method (setting : Setting) (node : Node) (kind : MethodKind) (key function : Part) : Doc :=
  let params := parameters setting function.span (function.part 1)
  match kind, function.kind with
  | .getter, _ => start node ++ "get " ++ key.doc ++ " () " ++ (function.part 2).doc
  | .setter, _ => start node ++ "set " ++ key.doc ++ " " ++ params ++ (function.part 2).doc
  | .method, .function isAsync isGenerator =>
    start node ++ guarded isAsync "async " ++ guarded isGenerator "*" ++ key.doc ++ " " ++
      functionTail setting function
  | .method, _ => start node ++ key.doc ++ " " ++ functionTail setting function

def templateParts : List Part → Doc
  | [] => empty
  | part :: rest =>
    (match part.kind with
     | .quasi .. => part.doc
     | _ => "$\x7b" ++ part.doc ++ "\x7d") ++ templateParts rest

def quasiText (raw : String) : String :=
  let cs := Text.replaceAll ['\r', '\n'] ['\n'] raw.toList
  String.ofList (Text.replaceAll ['\r'] ['\n'] cs)

def expression? (setting : Setting) (node : Node) : List Part → Option Doc
  | parts =>
    let part (i : Nat) : Part := parts.getD i .absent
    match node.kind with
    | .ident name _ => some (start node ++ name)
    | .this => some (word node "this")
    | .super => some (word node "super")
    | .importCallee phase =>
      some (word node "import" ++ (phase.word?.elim empty fun name => "." ++ text name))
    | .newTarget => some (start node ++ "new.target")
    | .importMeta => some (start node ++ "import.meta")
    | .template => some (start node ++ "`" ++ templateParts parts ++ "`" ++ endMark node)
    | .array => some (array setting node parts)
    | .object => some (start node ++ braced .property setting node .literal parts)
    | .function isAsync isGenerator =>
      some (functionExpression setting node isAsync isGenerator (.mk node (fun _ => empty) parts))
    | .arrow isAsync => some (arrow setting node isAsync (part 0) (part 1))
    | .unary op => some (unary node op (part 0))
    | .update isIncrement isPrefix => some (update node isIncrement isPrefix (part 0))
    | .binary op => some (start node ++ (part 0).doc ++ " " ++ op.text ++ " " ++ (part 1).doc)
    | .assign op => some (before node.lo ++ (part 0).doc ++ " " ++ op ++ " " ++ (part 1).doc)
    | .cond =>
      some (start node ++ (part 0).doc ++ " ? " ++ (part 1).doc ++ " : " ++ (part 2).doc)
    | .member => some (member node (part 0) (part 1))
    | .call => some (call setting node (part 0) (part 1))
    | .new => some (newExpression setting node (part 0) (part 1))
    | .optional stopsHere => some (optionalLink setting node stopsHere (part 0))
    | .seq => some (start node ++ joined ", " (parts.map Part.doc))
    | .yield isDelegate =>
      some (start node ++ "yield" ++ guarded isDelegate "*" ++
        if (part 0).isAbsent then empty else " " ++ (part 0).doc)
    | .await => some (start node ++ "await " ++ (part 0).doc)
    | .paren => some (start node ++ "(" ++ (part 0).doc ++ closeMark node ++ ")")
    | .tagged => some (start node ++ (part 0).doc ++ (part 1).doc ++ endMark node)
    | .bigint raw => some (start node ++ raw ++ endMark node)
    | kind => (literalText? kind).map fun text => start node ++ text

def name? (node : Node) : Option Doc :=
  match node.kind with
  | .name word => some (start node ++ word ++ after node)
  | .privateName word => some (start node ++ "#" ++ startMark node ++ word ++ endMark node)
  | .quasi raw _ => some (startMark node ++ quasiText raw ++ endMark node)
  | _ => none

def property? (setting : Setting) (node : Node) (role : Role) (parts : List Part) : Option Doc :=
  let part (i : Nat) : Part := parts.getD i .absent
  match node.kind with
  | .keyValue => some (keyValue node (part 0) (part 1))
  | .assignProp => some (start node ++ (part 0).doc ++ " = " ++ (part 1).doc)
  | .method kind => some (method setting node kind (part 0) (part 1))
  | .computed => some (start node ++ "[" ++ (part 0).doc ++ "]" ++ endMark node)
  | .spread =>
    some (if role = .property then start node ++ "..." ++ (part 0).doc ++ endMark node
      else before node.lo ++ "..." ++ (part 0).doc)
  | _ => none

end TsBuild.Script.Print
