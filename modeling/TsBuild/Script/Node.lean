import TsBuild.Script.Number

/-!
# The tree of a script

A node has a kind, the span of text it was read from, and children. Each kind says what its
children are, in order; a part that is left out is an `absent` child, and parts that repeat
are gathered under a `list` child or stand at the end. Positions count bytes from one; zero
marks a node that comes from no text.
-/

namespace TsBuild.Script

/-- A byte position. The text begins at one. -/
abbrev Pos := Nat

structure Span where
  lo : Pos
  hi : Pos
  deriving DecidableEq, Repr, Inhabited

def Span.none : Span := ⟨0, 0⟩

inductive VarKind
  | hoisted
  | lexical
  | constant
  deriving DecidableEq, Repr, Inhabited

def VarKind.text : VarKind → String
  | hoisted => "var"
  | lexical => "let"
  | constant => "const"

inductive UnaryOp
  | minus | plus | not | tilde | typeof | void | delete
  deriving DecidableEq, Repr, Inhabited

def UnaryOp.text : UnaryOp → String
  | minus => "-"
  | plus => "+"
  | not => "!"
  | tilde => "~"
  | typeof => "typeof"
  | void => "void"
  | delete => "delete"

inductive BinaryOp
  | equal | notEqual | same | notSame | less | lessEqual | greater | greaterEqual
  | shiftLeft | shiftRight | shiftRightZero | add | sub | mul | div | rem
  | bitOr | bitXor | bitAnd | or | and | membership | instanceOf | power | coalesce
  deriving DecidableEq, Repr, Inhabited

namespace BinaryOp

def text : BinaryOp → String
  | equal => "=="
  | notEqual => "!="
  | same => "==="
  | notSame => "!=="
  | less => "<"
  | lessEqual => "<="
  | greater => ">"
  | greaterEqual => ">="
  | shiftLeft => "<<"
  | shiftRight => ">>"
  | shiftRightZero => ">>>"
  | add => "+"
  | sub => "-"
  | mul => "*"
  | div => "/"
  | rem => "%"
  | bitOr => "|"
  | bitXor => "^"
  | bitAnd => "&"
  | or => "||"
  | and => "&&"
  | membership => "in"
  | instanceOf => "instanceof"
  | power => "**"
  | coalesce => "??"

def precedence : BinaryOp → Nat
  | coalesce => 1
  | or => 1
  | and => 2
  | bitOr => 3
  | bitXor => 4
  | bitAnd => 5
  | equal | notEqual | same | notSame => 6
  | less | lessEqual | greater | greaterEqual | membership | instanceOf => 7
  | shiftLeft | shiftRight | shiftRightZero => 8
  | add | sub => 9
  | mul | div | rem => 10
  | power => 11

def all : List BinaryOp :=
  [equal, notEqual, same, notSame, less, lessEqual, greater, greaterEqual, shiftLeft, shiftRight,
    shiftRightZero, add, sub, mul, div, rem, bitOr, bitXor, bitAnd, or, and, membership, instanceOf,
    power, coalesce]

end BinaryOp

inductive MethodKind
  | method
  | getter
  | setter
  deriving DecidableEq, Repr, Inhabited

inductive Accessibility
  | isPublic
  | isProtected
  | isPrivate
  deriving DecidableEq, Repr, Inhabited

inductive Keyword
  | any | unknown | number | object | boolean | bigint | string | symbol | void | undefined | null
  | never | intrinsic
  deriving DecidableEq, Repr, Inhabited

inductive Ascription
  | as
  | asConst
  | satisfies
  | nonNull
  | angle
  | instantiation
  deriving DecidableEq, Repr, Inhabited

/-- What an import asks for: the module run, its source, or the module run when it is first used. -/
inductive ImportPhase
  | evaluation
  | source
  | deferred
  deriving DecidableEq, Repr, Inhabited

def ImportPhase.word? : ImportPhase → Option String
  | evaluation => none
  | source => some "source"
  | deferred => some "defer"

def ImportPhase.ofWord? : String → Option ImportPhase
  | "source" => some .source
  | "defer" => some .deferred
  | _ => none

structure Modifiers where
  isStatic : Bool := false
  isAbstract : Bool := false
  isDeclared : Bool := false
  isReadonly : Bool := false
  isOverride : Bool := false
  isOptional : Bool := false
  isDefinite : Bool := false
  access : Option Accessibility := Option.none
  deriving DecidableEq, Repr, Inhabited

inductive Kind
  | absent
  /-- Items, some of which may be `absent`. -/
  | list
  -- names and literals
  /-- A variable. The scope is zero until the variable is resolved. -/
  | ident (name : String) (scope : Nat)
  /-- A property name or a label. -/
  | name (text : String)
  | privateName (text : String)
  /-- A string: its value, and its text if it was read from one. -/
  | str (value : String) (raw : Option String)
  | num (value : Number) (raw : Option String)
  | bigint (raw : String)
  | bool (value : Bool)
  | null
  | regex (pattern flags : String)
  /-- Quasis and expressions in turn, a quasi first and last. -/
  | template
  | quasi (raw : String) (cooked : Option String)
  -- expressions
  | this
  | super
  /-- The callee of a dynamic import. -/
  | importCallee (phase : ImportPhase)
  /-- Elements; `absent` is a hole. -/
  | array
  /-- Properties: `ident`, `keyValue`, `assignProp`, `method` or `spread`. -/
  | object
  /-- argument -/
  | spread
  /-- key, value -/
  | keyValue
  /-- `ident`, default. Stands only where a pattern is still read as an object. -/
  | assignProp
  /-- key, function -/
  | method (kind : MethodKind)
  /-- expression -/
  | computed
  /-- name, parameters (`list` of `param`), body, type parameters, type of the result -/
  | function (isAsync isGenerator : Bool)
  /-- decorators (`list`), pattern -/
  | param
  /-- parameters (`list` of patterns), body, type parameters, type of the result -/
  | arrow (isAsync : Bool)
  /-- name, decorators (`list`), superclass, members (`list`), type parameters, types that the class extends
  and implements -/
  | classLike (isAbstract isDeclared : Bool)
  /-- argument -/
  | unary (op : UnaryOp)
  /-- argument -/
  | update (isIncrement isPrefix : Bool)
  /-- left, right -/
  | binary (op : BinaryOp)
  /-- target, value -/
  | assign (op : String)
  /-- test, consequent, alternate -/
  | cond
  /-- object, `name`, `privateName` or `computed` -/
  | member
  /-- callee, arguments (`list`), type arguments if there are any -/
  | call
  /-- callee, arguments (`list` or `absent`), type arguments if there are any -/
  | new
  /-- A `member` or `call` in a chain, which may stop here. -/
  | optional (stopsHere : Bool)
  /-- expressions -/
  | seq
  /-- argument or `absent` -/
  | yield (isDelegate : Bool)
  /-- argument -/
  | await
  | newTarget
  | importMeta
  /-- expression -/
  | paren
  /-- tag, template, type arguments if there are any -/
  | tagged
  /-- expression, type -/
  | ascribed (form : Ascription)
  -- JSX
  /-- name, attributes (`list`), children (`list`), closing tag (`list` of a name) or `absent`, type arguments
  if there are any; the attributes have the span of the opening tag. -/
  | jsxElement
  /-- opening tag (`list`), children (`list`), closing tag (`list`) -/
  | jsxFragment
  /-- name, value or `absent` -/
  | jsxAttribute
  /-- namespace, name -/
  | jsxNamespaced
  /-- expression or `absent` -/
  | jsxContainer
  /-- expression -/
  | jsxSpreadChild
  | jsxText (value raw : String)
  -- patterns
  /-- `ident`, type -/
  | binding (isOptional : Bool)
  /-- type, elements -/
  | arrayPattern (isOptional : Bool)
  /-- type, properties: `keyValue`, `shorthand` or `rest` -/
  | objectPattern (isOptional : Bool)
  /-- `ident`, default -/
  | shorthand
  /-- pattern, type -/
  | rest
  /-- pattern, default -/
  | defaulted
  -- classes
  /-- decorators (`list`), key, value, type -/
  | property (modifiers : Modifiers)
  /-- decorators (`list`), key, value, type -/
  | accessor (modifiers : Modifiers)
  /-- key, function, decorators (`list`); a function without body declares an overload -/
  | classMethod (kind : MethodKind) (modifiers : Modifiers)
  /-- parameters (`list` of `param` or `paramProperty`), body -/
  | constructor (access : Option Accessibility)
  /-- decorators (`list`), pattern -/
  | paramProperty (modifiers : Modifiers)
  /-- block -/
  | staticBlock
  /-- type of the key, type -/
  | indexSignature
  /-- A lone semicolon among the members. -/
  | emptyMember
  /-- expression -/
  | decorator
  -- statements
  /-- statements -/
  | block
  | empty
  | debugger
  /-- expression -/
  | exprStmt
  /-- declarators -/
  | varDecl (kind : VarKind) (isDeclared : Bool)
  /-- pattern, initial value, definite -/
  | declarator (isDefinite : Bool)
  /-- declarators -/
  | usingDecl (isAwait : Bool)
  /-- A `function` with a name as a statement. -/
  | functionDecl (isDeclared : Bool)
  /-- A `classLike` with a name as a statement. -/
  | classDecl
  /-- argument or `absent` -/
  | returnStmt
  /-- argument -/
  | throwStmt
  /-- test, consequent, alternate or `absent` -/
  | ifStmt
  /-- discriminant, cases -/
  | switch
  /-- test or `absent` for the default, statements -/
  | switchCase
  /-- block, `catch` or `absent`, block or `absent` -/
  | tryStmt
  /-- pattern or `absent`, block -/
  | catch
  /-- test, body -/
  | whileStmt
  /-- body, test -/
  | doWhile
  /-- initialiser, test, update, body; the first three may be `absent` -/
  | forStmt
  /-- head, object, body -/
  | forIn
  /-- head, iterated, body -/
  | forOf (isAwait : Bool)
  /-- `name` or `absent` -/
  | breakStmt
  /-- `name` or `absent` -/
  | continueStmt
  /-- `name`, body -/
  | labeled
  /-- object, body -/
  | withStmt
  -- modules
  /-- Items. -/
  | module (shebang : Option String)
  /-- source, attributes or `absent`, specifiers -/
  | importDecl (typeOnly : Bool) (phase : ImportPhase)
  /-- local `ident` -/
  | importDefault
  /-- local `ident` -/
  | importAll
  /-- local `ident`, imported name (`ident` or `str`) or `absent` -/
  | importNamed (typeOnly : Bool)
  /-- declaration -/
  | exportDecl
  /-- source or `absent`, attributes or `absent`, specifiers -/
  | exportNamed (typeOnly : Bool)
  /-- name -/
  | exportDefaultFrom
  /-- name -/
  | exportNamespace
  /-- local name (`ident` or `str`), exported name or `absent` -/
  | exportSpecifier (typeOnly : Bool)
  /-- `function`, `classLike` or interface -/
  | exportDefaultDecl
  /-- expression -/
  | exportDefaultExpr
  /-- source, attributes or `absent` -/
  | exportAll (typeOnly : Bool)
  /-- `ident`, `externalModule` or entity name -/
  | importEquals (isExport typeOnly : Bool)
  /-- source -/
  | externalModule
  /-- left, `name` -/
  | qualified
  /-- expression -/
  | exportAssign
  | namespaceExport
  -- declarations of types
  /-- `ident`, type parameters, types it extends, members -/
  | interface
  /-- `ident`, type parameters, type -/
  | typeAlias
  /-- `ident`, members -/
  | enum (isConst isDeclared : Bool)
  /-- `name` or `str`, initial value or `absent` -/
  | enumMember
  /-- `ident` or `str`, body (`block`, `namespaceDecl` or `absent`) -/
  | namespaceDecl (isDeclared isGlobal : Bool)
  -- types
  | keyword (keyword : Keyword)
  /-- members -/
  | union
  /-- type -/
  | typeParen
  /-- A type, or a part of one, of a form that nothing depends on; its children are the types and values in it. -/
  | typeOther
  deriving Repr, Inhabited

inductive Node
  | mk (kind : Kind) (span : Span) (children : List Node)
  deriving Repr, Inhabited

namespace Node

def kind : Node → Kind
  | mk kind _ _ => kind

def span : Node → Span
  | mk _ span _ => span

def children : Node → List Node
  | mk _ _ children => children

def lo (node : Node) : Pos := node.span.lo
def hi (node : Node) : Pos := node.span.hi

def absent : Node := mk .absent .none []

def isAbsent (node : Node) : Bool :=
  node.kind matches .absent

/-- A child by its place; `absent` past the end. -/
def child (node : Node) (i : Nat) : Node :=
  node.children.getD i absent

def toOption (node : Node) : Option Node :=
  if node.isAbsent then none else some node

def list (items : List Node) : Node := mk .list .none items

def withSpan (node : Node) (span : Span) : Node :=
  mk node.kind span node.children

def withChildren (node : Node) (children : List Node) : Node :=
  mk node.kind node.span children

def withKind (node : Node) (kind : Kind) : Node :=
  mk kind node.span node.children

mutual
def height : Node → Nat
  | mk _ _ children => heightAll children + 1
def heightAll : List Node → Nat
  | [] => 0
  | node :: rest => max node.height (heightAll rest)
end

mutual
def subnodes : Node → List Node
  | mk kind span children => mk kind span children :: subnodesAll children
def subnodesAll : List Node → List Node
  | [] => []
  | node :: rest => node.subnodes ++ subnodesAll rest
end

mutual
def fold {α : Type} (step : Node → List α → α) : Node → α
  | mk kind span children => step (mk kind span children) (foldAll step children)
def foldAll {α : Type} (step : Node → List α → α) : List Node → List α
  | [] => []
  | node :: rest => fold step node :: foldAll step rest
end

def nameText (node : Node) : String :=
  match node.kind with
  | .ident name _ => name
  | .name text => text
  | .privateName text => text
  | .str value _ => value
  | _ => ""

def isPlainTag (tag : Node) : Bool :=
  match tag.kind with
  | .ident text _ => text.toList.head?.elim false Char.isLower
  | _ => false

end Node

/-- A variable: its name and the scope that declares it, zero if none does. -/
structure Variable where
  name : String
  scope : Nat
  deriving DecidableEq, Repr, Inhabited

def Node.toVariable? (node : Node) : Option Variable :=
  match node.kind with
  | .ident name scope => some ⟨name, scope⟩
  | _ => none

def Variable.node (v : Variable) (span : Span) : Node := .mk (.ident v.name v.scope) span []

end TsBuild.Script
